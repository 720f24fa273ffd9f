import Mathlib.Data.Nat.Find
import Mathlib.Order.Bounds.Basic
import Mathlib.Order.Monotone.Basic
import Mathlib.Data.Set.Image
import Mathlib.Algebra.Order.Ring.Int
import Mathlib.Data.Int.ConditionallyCompleteOrder
import Mathlib.Order.ConditionallyCompleteLattice.Basic

/-!
# Delayed recurrences

A set of points that recurs, each point served after a delay.  The server looks
for the next point only from the time of its last service on, so it can pass over
points that lie within the delay.
-/

namespace Etlantic.Base

variable {points : Set ℤ} {delay : ℤ} {served : ℕ → ℤ}

/-- Each service is that of the first point past the service before it. -/
def ServesInTurn (points : Set ℤ) (delay : ℤ) (served : ℕ → ℤ) : Prop :=
  ∀ n, ∃ point, IsLeast {m | m ∈ points ∧ served n < m} point ∧ served (n + 1) = point + delay

/-- The services that are due past a start. -/
def dueServices (points : Set ℤ) (delay start : ℤ) : Set ℤ :=
  {t | ∃ m ∈ points, t = m + delay ∧ start < t}

theorem ServesInTurn.strictMono (h : ServesInTurn points delay served) (hdelay : 0 ≤ delay) :
    StrictMono served := by
  apply strictMono_nat_of_lt_succ
  intro n
  obtain ⟨point, hleast, hserved⟩ := h n
  have hlater := hleast.1.2
  lia

/-- Services come arbitrarily late. -/
theorem exists_le_of_strictMono {f : ℕ → ℤ} (h : StrictMono f) (bound : ℤ) : ∃ n, bound ≤ f n := by
  have hgrows : ∀ n : ℕ, f 0 + n ≤ f n := by
    intro n
    induction n with
    | zero => simp
    | succ n ih =>
        have hstep := h (Nat.lt_succ_self n)
        push_cast
        lia
  refine ⟨(bound - f 0).toNat, le_trans ?_ (hgrows _)⟩
  lia

/-- The last service in front of a point that lies past the start. -/
theorem ServesInTurn.exists_last_before (h : ServesInTurn points delay served)
    (hdelay : 0 ≤ delay) {m : ℤ} (hstart : served 0 < m) :
    ∃ n, served n < m ∧ m ≤ served (n + 1) := by
  have hreached := exists_le_of_strictMono (h.strictMono hdelay) m
  obtain ⟨n, hn⟩ : ∃ n, Nat.find hreached = n + 1 := by
    apply Nat.exists_eq_succ_of_ne_zero
    intro hzero
    have hle := Nat.find_spec hreached
    rw [hzero] at hle
    exact absurd hstart (not_lt.mpr hle)
  refine ⟨n, ?_, ?_⟩
  · exact not_le.mp (Nat.find_min hreached (by lia))
  · have hle := Nat.find_spec hreached
    rwa [hn] at hle

/-- Every due service takes place exactly when no point is passed over: none within the
delay in front of the start, and none within the delay of another. -/
theorem ServesInTurn.range_eq_iff (h : ServesInTurn points delay served) (hdelay : 0 ≤ delay) :
    Set.range (fun n => served (n + 1)) = dueServices points delay (served 0) ↔
      ∀ m ∈ points, served 0 < m + delay →
        served 0 < m ∧ ∀ m' ∈ points, m < m' → m + delay < m' := by
  have hmono := h.strictMono hdelay
  constructor
  · intro hrange m hm hdue
    -- The point `m` is what some search has found.
    have hfound : ∀ m ∈ points, served 0 < m + delay →
        ∃ n, served (n + 1) = m + delay ∧ served n < m := by
      intro m hm hdue
      have hmem : m + delay ∈ dueServices points delay (served 0) := ⟨m, hm, rfl, hdue⟩
      rw [← hrange] at hmem
      obtain ⟨n, hn⟩ := hmem
      obtain ⟨point, hleast, hserved⟩ := h n
      have hlater := hleast.1.2
      have hsame : served (n + 1) = m + delay := hn
      exact ⟨n, hsame, by lia⟩
    obtain ⟨n, hn, hlt⟩ := hfound m hm hdue
    refine ⟨lt_of_le_of_lt (hmono.monotone (Nat.zero_le n)) hlt, fun m' hm' hmm' => ?_⟩
    obtain ⟨n', hn', hlt'⟩ := hfound m' hm' (by lia)
    have horder : n + 1 < n' + 1 := by
      rw [← hmono.lt_iff_lt, hn, hn']
      lia
    have hle : served (n + 1) ≤ served n' := hmono.monotone (by lia)
    lia
  · intro hspaced
    ext t
    constructor
    · rintro ⟨n, rfl⟩
      obtain ⟨point, hleast, hserved⟩ := h n
      exact ⟨point, hleast.1.1, hserved, hmono (Nat.succ_pos n)⟩
    · rintro ⟨m, hm, rfl, hdue⟩
      obtain ⟨hstart, hlater⟩ := hspaced m hm hdue
      obtain ⟨n, hbefore, hafter⟩ := h.exists_last_before hdelay hstart
      obtain ⟨point, hleast, hserved⟩ := h n
      have hle : point ≤ m := hleast.2 ⟨hm, hbefore⟩
      have hnot : ¬ point < m := by
        intro hlt
        have hpast := hleast.1.2
        have hfirst : served 0 ≤ served n := hmono.monotone (Nat.zero_le n)
        have hgap := (hspaced point hleast.1.1 (by lia)).2 m hm hlt
        lia
      refine ⟨n, ?_⟩
      dsimp only
      lia

end Etlantic.Base
