import Mathlib.Data.ENat.Basic
import Mathlib.Data.Set.Card
import Mathlib.Logic.Function.Basic
import Mathlib.Data.ENat.Lattice

/-!
# Counting paths, at most two

Along a topological order, the paths to a place are counted as the sum over its
predecessors, cut off at two.  The count is the number of paths, cut off at two: zero,
one and several are told apart however the graph branches.
-/

namespace Etlantic.PathCount

universe u

variable {α : Type u} [DecidableEq α]

/-- The counts after the places of the list, each taken as the next one. -/
def tally (preds : α → List α) (start : α) : List α → (α → Nat) → α → Nat
  | [], paths => paths
  | place :: rest, paths =>
      if place = start then tally preds start rest paths
      else tally preds start rest
        (Function.update paths place (min 2 ((preds place).map paths).sum))

/-- The counts at the end of the order. -/
def count (preds : α → List α) (start : α) (order : List α) : α → Nat :=
  tally preds start order fun place => if place = start then 1 else 0

/-- A path from `start` to the place, with both of them. -/
inductive Walk (preds : α → List α) (start : α) : α → List α → Prop
  | start : Walk preds start start [start]
  | step {place before : α} {path : List α} : Walk preds start before path →
      before ∈ preds place → place ≠ start → Walk preds start place (path ++ [place])

/-- The paths from `start` to the place. -/
def paths (preds : α → List α) (start place : α) : Set (List α) :=
  { path | Walk preds start place path }

variable {preds : α → List α} {start place : α} {path order : List α}

omit [DecidableEq α] in
theorem Walk.last (h : Walk preds start place path) : path.getLast? = some place := by
  cases h with
  | start => rfl
  | step _ _ _ => exact List.getLast?_concat

omit [DecidableEq α] in
theorem paths_start : paths preds start start = {[start]} := by
  have hone : ∀ {place : α} {path : List α}, Walk preds start place path → place = start →
      path = [start] := by
    intro place path h hplace
    cases h with
    | start => rfl
    | step _ _ hne => exact absurd hplace hne
  ext path
  constructor
  · intro h
    exact hone h rfl
  · rintro rfl
    exact .start

/-- The paths to one of the places of the list. -/
def pathsToAny (preds : α → List α) (start : α) (places : List α) : Set (List α) :=
  { path | ∃ place ∈ places, Walk preds start place path }

omit [DecidableEq α] in
/-- Paths to different places are different, so their numbers add up. -/
theorem encard_pathsToAny : ∀ {places : List α}, places.Nodup →
    (pathsToAny preds start places).encard =
      (places.map fun place => (paths preds start place).encard).sum
  | [], _ => by
      have hempty : pathsToAny preds start [] = ∅ := by
        ext path
        refine iff_of_false ?_ (Set.notMem_empty path)
        rintro ⟨place, hplace, -⟩
        cases hplace
      rw [hempty, Set.encard_empty]
      rfl
  | place :: rest, hnodup => by
      obtain ⟨hnew, hnodup⟩ := List.nodup_cons.mp hnodup
      have hunion : pathsToAny preds start (place :: rest) =
          paths preds start place ∪ pathsToAny preds start rest := by
        ext path
        constructor
        · rintro ⟨other, hother, hwalk⟩
          rcases List.mem_cons.mp hother with rfl | hother
          · exact .inl hwalk
          · exact .inr ⟨other, hother, hwalk⟩
        · rintro (hwalk | ⟨other, hother, hwalk⟩)
          · exact ⟨place, List.mem_cons_self, hwalk⟩
          · exact ⟨other, List.mem_cons_of_mem _ hother, hwalk⟩
      have hdisjoint : Disjoint (paths preds start place) (pathsToAny preds start rest) := by
        rw [Set.disjoint_left]
        rintro path hwalk ⟨other, hother, hwalk'⟩
        have heq := Option.some.inj (hwalk.last.symm.trans hwalk'.last)
        exact hnew (heq ▸ hother)
      rw [hunion, Set.encard_union_eq hdisjoint, encard_pathsToAny hnodup, List.map_cons,
        List.sum_cons]

omit [DecidableEq α] in
/-- A path to a place goes on from a path to one of its predecessors. -/
theorem encard_paths (hpreds : (preds place).Nodup) (hne : place ≠ start) :
    (paths preds start place).encard =
      ((preds place).map fun before => (paths preds start before).encard).sum := by
  have himage : paths preds start place =
      (fun path => path ++ [place]) '' pathsToAny preds start (preds place) := by
    ext path
    constructor
    · intro hwalk
      have hwalk : Walk preds start place path := hwalk
      cases hwalk with
      | start => exact absurd rfl hne
      | step hfront hbefore _ => exact ⟨_, ⟨_, hbefore, hfront⟩, rfl⟩
    · rintro ⟨front, ⟨before, hbefore, hwalk⟩, rfl⟩
      exact Walk.step hwalk hbefore hne
  have hinj : Function.Injective fun path : List α => path ++ [place] :=
    fun _ _ h => List.append_cancel_right h
  rw [himage, hinj.encard_image, encard_pathsToAny hpreds]

omit [DecidableEq α] in
/-- A path leads from place to place, and does not come back to `start`. -/
theorem walk_iff : Walk preds start place path ↔ ∃ rest, path = start :: rest ∧
    path.getLast? = some place ∧ path.IsChain (fun a b => a ∈ preds b) ∧ start ∉ rest := by
  constructor
  · intro h
    induction h with
    | start => exact ⟨[], rfl, rfl, List.isChain_singleton _, List.not_mem_nil⟩
    | step hwalk hbefore hne ih =>
        obtain ⟨rest, rfl, hlast, hchain, hnew⟩ := ih
        refine ⟨_, rfl, List.getLast?_concat, ?_, ?_⟩
        · rw [List.isChain_append]
          refine ⟨hchain, List.isChain_singleton _, fun a ha b hb => ?_⟩
          rw [hlast] at ha
          obtain rfl := Option.some.inj ha
          obtain rfl := Option.some.inj hb
          exact hbefore
        · intro hin
          rcases List.mem_append.mp hin with hin | hin
          · exact hnew hin
          · exact hne (List.mem_singleton.mp hin).symm
  · rintro ⟨rest, rfl, hlast, hchain, hnew⟩
    induction rest using List.reverseRecOn generalizing place with
    | nil =>
        obtain rfl := Option.some.inj hlast
        exact .start
    | append_singleton front last ih =>
        rw [← List.cons_append] at hlast hchain ⊢
        rw [List.getLast?_concat] at hlast
        obtain rfl := Option.some.inj hlast
        obtain ⟨hfront, -, hbefore⟩ := List.isChain_append.mp hchain
        obtain ⟨before, hend⟩ : ∃ before, (start :: front).getLast? = some before :=
          ⟨_, List.getLast?_eq_some_getLast (List.cons_ne_nil _ _)⟩
        have hwalk := ih hend hfront fun hin => hnew (List.mem_append_left _ hin)
        refine .step hwalk (hbefore before hend last rfl) ?_
        rintro rfl
        exact hnew (List.mem_append_right _ (List.mem_singleton_self _))

/-! ## Cutting off -/

theorem min_two_add (a b : ℕ∞) : min 2 (a + b) = min 2 (min 2 a + min 2 b) := by
  rcases le_total 2 a with ha | ha
  · rw [min_eq_left (ha.trans le_self_add), min_eq_left ha, min_eq_left le_self_add]
  · rcases le_total 2 b with hb | hb
    · rw [min_eq_left (hb.trans le_add_self), min_eq_right ha, min_eq_left hb,
        min_eq_left le_add_self]
    · rw [min_eq_right ha, min_eq_right hb]

omit [DecidableEq α] in
/-- A sum may be cut off before it is taken. -/
theorem min_two_sum {f : α → Nat} {g : α → ℕ∞} : ∀ {l : List α},
    (∀ a ∈ l, (f a : ℕ∞) = min 2 (g a)) →
      ((min 2 (l.map f).sum : Nat) : ℕ∞) = min 2 (l.map g).sum
  | [], _ => by simp
  | a :: rest, h => by
      have hrest := min_two_sum fun b hb => h b (List.mem_cons_of_mem _ hb)
      have hhead := h a List.mem_cons_self
      have hcut : min 2 (f a + (rest.map f).sum) = min 2 (f a + min 2 (rest.map f).sum) := by
        omega
      rw [List.map_cons, List.map_cons, List.sum_cons, List.sum_cons, min_two_add (g a), ← hrest,
        ← hhead, hcut]
      rfl

/-! ## The run -/

/-- What is known of the places that the run is done with. -/
def Counted (preds : α → List α) (start : α) (done : List α) (counts : α → Nat) : Prop :=
  ∀ place, place ∈ done ∨ place = start →
    (counts place : ℕ∞) = min 2 (paths preds start place).encard

/-- Every place is behind its predecessors. -/
def Ordered (preds : α → List α) (order : List α) : Prop :=
  ∀ before place after, order = before ++ place :: after → ∀ p ∈ preds place, p ∈ before

theorem Counted.step {done : List α} {counts : α → Nat} (h : Counted preds start done counts)
    (hpreds : (preds place).Nodup) (hbefore : ∀ p ∈ preds place, p ∈ done) (hnew : place ∉ done)
    (hne : place ≠ start) :
    Counted preds start (done ++ [place])
      (Function.update counts place (min 2 ((preds place).map counts).sum)) := by
  intro other hother
  by_cases hsame : other = place
  · subst hsame
    rw [Function.update_self, encard_paths hpreds hne]
    exact min_two_sum fun p hp => h p (.inl (hbefore p hp))
  · rw [Function.update_of_ne hsame]
    refine h other (hother.imp_left fun hin => ?_)
    exact (List.mem_append.mp hin).resolve_right fun hlast => hsame (List.mem_singleton.mp hlast)

theorem tally_counted (hpreds : ∀ place, (preds place).Nodup) (hordered : Ordered preds order)
    (hnodup : order.Nodup) : ∀ (rest done : List α) (counts : α → Nat), order = done ++ rest →
      Counted preds start done counts →
        Counted preds start order (tally preds start rest counts)
  | [], done, counts, hsplit, h => by
      rw [List.append_nil] at hsplit
      rw [hsplit]
      exact h
  | place :: rest, done, counts, hsplit, h => by
      have hsplit' : order = (done ++ [place]) ++ rest := by
        rw [List.append_assoc, List.singleton_append]
        exact hsplit
      unfold tally
      by_cases hstart : place = start
      · rw [if_pos hstart]
        refine tally_counted hpreds hordered hnodup rest _ counts hsplit' fun other hother => ?_
        rcases hother with hin | hother
        · rcases List.mem_append.mp hin with hin | hlast
          · exact h other (.inl hin)
          · exact h other (.inr ((List.mem_singleton.mp hlast).trans hstart))
        · exact h other (.inr hother)
      · rw [if_neg hstart]
        have hnew : place ∉ done := by
          rw [hsplit, List.nodup_append] at hnodup
          exact fun hin => hnodup.2.2 place hin place List.mem_cons_self rfl
        exact tally_counted hpreds hordered hnodup rest _ _ hsplit'
          (h.step (hpreds place) (hordered done place rest hsplit) hnew hstart)

theorem counted_start : Counted preds start [] fun place => if place = start then 1 else 0 := by
  rintro place (hnone | rfl)
  · cases hnone
  · rw [paths_start, Set.encard_singleton]
    show (((if place = place then 1 else 0 : Nat)) : ℕ∞) = _
    rw [if_pos rfl]
    rfl

/-- The count is the number of paths, cut off at two. -/
theorem count_eq (hpreds : ∀ place, (preds place).Nodup) (hordered : Ordered preds order)
    (hnodup : order.Nodup) (hplace : place ∈ order) :
    (count preds start order place : ℕ∞) = min 2 (paths preds start place).encard :=
  tally_counted hpreds hordered hnodup order [] _ rfl counted_start place (.inl hplace)

/-- It is one just if there is one path. -/
theorem count_eq_one (hpreds : ∀ place, (preds place).Nodup) (hordered : Ordered preds order)
    (hnodup : order.Nodup) (hplace : place ∈ order) :
    count preds start order place = 1 ↔ ∃! path, Walk preds start place path := by
  have hcount : (count preds start order place : ℕ∞) =
      min 2 (paths preds start place).encard := count_eq hpreds hordered hnodup hplace
  have hone : (∃! path, Walk preds start place path) ↔ (paths preds start place).encard = 1 := by
    rw [Set.encard_eq_one]
    constructor
    · rintro ⟨path, hwalk, hunique⟩
      exact ⟨path, Set.eq_singleton_iff_unique_mem.mpr ⟨hwalk, hunique⟩⟩
    · rintro ⟨path, heq⟩
      exact ⟨path, (Set.eq_singleton_iff_unique_mem.mp heq).1,
        (Set.eq_singleton_iff_unique_mem.mp heq).2⟩
  rw [hone]
  constructor
  · intro h
    rw [h] at hcount
    rcases min_choice (2 : ℕ∞) (paths preds start place).encard with hmin | hmin
    · rw [hmin] at hcount
      exact absurd hcount (by decide)
    · rw [hmin] at hcount
      exact hcount.symm
  · intro h
    rw [h] at hcount
    have hmin : min (2 : ℕ∞) 1 = 1 := by decide
    rw [hmin] at hcount
    exact_mod_cast hcount

end Etlantic.PathCount
