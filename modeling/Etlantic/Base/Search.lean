import Mathlib.Logic.Function.Iterate
import Mathlib.Order.Bounds.Basic

/-!
# Bounded search

The first point of an orbit that passes a test, among as many points as a bound
allows.
-/

namespace Etlantic.Base

variable {α : Type*} {hit : α → Bool} {next : α → α} {n : Nat} {x t : α}

/-- The first of `x`, `next x`, ... that passes, of the `n` that are looked at. -/
def search (hit : α → Bool) (next : α → α) : Nat → α → Option α
  | 0, _ => none
  | n + 1, x => if hit x = true then some x else search hit next n (next x)

theorem search_eq_some_iff : search hit next n x = some t ↔
    ∃ k < n, next^[k] x = t ∧ hit t = true ∧ ∀ j < k, hit (next^[j] x) = false := by
  induction n generalizing x with
  | zero => simp [search]
  | succ n ih =>
      unfold search
      split
      · rename_i hx
        constructor
        · intro h
          obtain rfl := Option.some.inj h
          exact ⟨0, Nat.succ_pos n, rfl, hx, fun j hj => absurd hj (Nat.not_lt_zero j)⟩
        · rintro ⟨k, -, rfl, -, hbefore⟩
          cases k with
          | zero => rfl
          | succ k =>
              have hmiss : hit x = false := hbefore 0 (Nat.succ_pos k)
              rw [hx] at hmiss
              cases hmiss
      · rename_i hx
        rw [ih]
        constructor
        · rintro ⟨k, hk, rfl, hfound, hbefore⟩
          refine ⟨k + 1, Nat.succ_lt_succ hk, rfl, hfound, fun j hj => ?_⟩
          cases j with
          | zero => exact Bool.eq_false_iff.mpr hx
          | succ j => exact hbefore j (Nat.lt_of_succ_lt_succ hj)
        · rintro ⟨k, hk, rfl, hfound, hbefore⟩
          cases k with
          | zero => exact absurd hfound hx
          | succ k =>
              exact ⟨k, Nat.lt_of_succ_lt_succ hk, rfl, hfound,
                fun j hj => hbefore (j + 1) (Nat.succ_lt_succ hj)⟩

theorem search_eq_none_iff : search hit next n x = none ↔
    ∀ k < n, hit (next^[k] x) = false := by
  induction n generalizing x with
  | zero => simp [search]
  | succ n ih =>
      unfold search
      split
      · rename_i hx
        constructor
        · intro h
          cases h
        · intro h
          have hmiss : hit x = false := h 0 (Nat.succ_pos n)
          rw [hx] at hmiss
          cases hmiss
      · rename_i hx
        rw [ih]
        constructor
        · intro h k hk
          cases k with
          | zero => exact Bool.eq_false_iff.mpr hx
          | succ k => exact h k (Nat.lt_of_succ_lt_succ hk)
        · intro h k hk
          exact h (k + 1) (Nat.succ_lt_succ hk)

end Etlantic.Base
