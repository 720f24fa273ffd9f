import Mathlib.Data.List.Induction
import Mathlib.Data.List.Sort

/-!
# Stable sorting by insertion

A comparison ranks the elements of a set if it is oriented and transitive there; elements
it does not tell apart are ties.  Insertion behind all ties sorts a list and keeps ties in
the order in which they came.
-/

namespace Etlantic.StableSort

variable {α β : Type*}

/-- The comparison is a total preorder on the elements of `P`. -/
structure Ranks (P : α → Prop) (cmp : α → α → Ordering) : Prop where
  swap : ∀ a b, P a → P b → cmp b a = (cmp a b).swap
  trans : ∀ a b c, P a → P b → P c → cmp a b ≠ .gt → cmp b c ≠ .gt → cmp a c ≠ .gt

section Ranks

variable {P : α → Prop} {cmp cmp' : α → α → Ordering} {a b c : α}

theorem Ranks.flip (h : Ranks P cmp) (ha : P a) (hb : P b) : cmp a b = .gt ↔ cmp b a = .lt := by
  rw [h.swap a b ha hb]
  cases cmp a b <;> simp

theorem Ranks.tie (h : Ranks P cmp) (ha : P a) (hb : P b) : cmp a b = .eq ↔ cmp b a = .eq := by
  rw [h.swap a b ha hb]
  cases cmp a b <;> simp

/-- One strict step makes the whole way strict. -/
theorem Ranks.lt_of_lt (h : Ranks P cmp) (ha : P a) (hb : P b) (hc : P c)
    (hab : cmp a b = .lt) (hbc : cmp b c ≠ .gt) : cmp a c = .lt := by
  by_contra hne
  have hca : cmp c a ≠ .gt := by
    intro hgt
    exact hne ((h.flip hc ha).mp hgt)
  have hba : cmp b a ≠ .gt := h.trans b c a hb hc ha hbc hca
  exact hba ((h.flip hb ha).mpr hab)

theorem Ranks.lt_of_lt' (h : Ranks P cmp) (ha : P a) (hb : P b) (hc : P c)
    (hab : cmp a b ≠ .gt) (hbc : cmp b c = .lt) : cmp a c = .lt := by
  by_contra hne
  have hca : cmp c a ≠ .gt := by
    intro hgt
    exact hne ((h.flip hc ha).mp hgt)
  have hcb : cmp c b ≠ .gt := h.trans c a b hc ha hb hca hab
  exact hcb ((h.flip hc hb).mpr hbc)

theorem Ranks.tie_trans (h : Ranks P cmp) (ha : P a) (hb : P b) (hc : P c)
    (hab : cmp a b = .eq) (hbc : cmp b c = .eq) : cmp a c = .eq := by
  have hba : cmp b a = .eq := (h.tie ha hb).mp hab
  have hcb : cmp c b = .eq := (h.tie hb hc).mp hbc
  have hac : cmp a c ≠ .gt := h.trans a b c ha hb hc (by simp [hab]) (by simp [hbc])
  have hca : cmp c a ≠ .gt := h.trans c b a hc hb ha (by simp [hcb]) (by simp [hba])
  cases heq : cmp a c with
  | gt => exact absurd heq hac
  | eq => rfl
  | lt => exact absurd ((h.flip hc ha).mpr heq) hca

theorem Ranks.congr (h : Ranks P cmp) (heq : ∀ a b, P a → P b → cmp' a b = cmp a b) :
    Ranks P cmp' := by
  constructor
  · intro a b ha hb
    rw [heq b a hb ha, heq a b ha hb]
    exact h.swap a b ha hb
  · intro a b c ha hb hc hab hbc
    rw [heq a b ha hb] at hab
    rw [heq b c hb hc] at hbc
    rw [heq a c ha hc]
    exact h.trans a b c ha hb hc hab hbc

/-- First by one comparison, then by the other. -/
theorem Ranks.andThen (h : Ranks P cmp) (h' : Ranks P cmp') :
    Ranks P fun a b => (cmp a b).then (cmp' a b) := by
  constructor
  · intro a b ha hb
    rw [h.swap a b ha hb, h'.swap a b ha hb]
    cases cmp a b <;> simp
  · intro a b c ha hb hc hab hbc
    cases h₁ : cmp a b with
    | gt => simp [h₁] at hab
    | lt =>
        have hle : cmp b c ≠ .gt := by
          intro hgt
          simp [hgt] at hbc
        simp [h.lt_of_lt ha hb hc h₁ hle]
    | eq =>
        have hab' : cmp' a b ≠ .gt := by simpa [h₁] using hab
        have hle : cmp a b ≠ .gt := by simp [h₁]
        cases h₂ : cmp b c with
        | gt => simp [h₂] at hbc
        | lt => simp [h.lt_of_lt' ha hb hc hle h₂]
        | eq =>
            have hbc' : cmp' b c ≠ .gt := by simpa [h₂] using hbc
            have hle' : cmp b c ≠ .gt := by simp [h₂]
            have hac : cmp a c ≠ .gt := h.trans a b c ha hb hc hle hle'
            have hac' : cmp' a c ≠ .gt := h'.trans a b c ha hb hc hab' hbc'
            cases h₃ : cmp a c with
            | gt => exact absurd h₃ hac
            | lt => simp
            | eq => simpa using hac'

/-- The ranks of what the elements stand for. -/
theorem Ranks.comap (h : Ranks P cmp) {Q : β → Prop} {f : β → α} (hf : ∀ x, Q x → P (f x)) :
    Ranks Q fun x y => cmp (f x) (f y) where
  swap x y hx hy := h.swap _ _ (hf x hx) (hf y hy)
  trans x y z hx hy hz := h.trans _ _ _ (hf x hx) (hf y hy) (hf z hz)

theorem Ranks.reverse (h : Ranks P cmp) : Ranks P fun a b => (cmp a b).swap := by
  constructor
  · intro a b ha hb
    rw [h.swap a b ha hb]
  · intro a b c ha hb hc hab hbc
    rw [← h.swap a b ha hb] at hab
    rw [← h.swap b c hb hc] at hbc
    rw [← h.swap a c ha hc]
    exact h.trans c b a hc hb ha hbc hab

end Ranks

/-- `x` goes in front of the first element that is greater. -/
def insertBehind (cmp : α → α → Ordering) (x : α) (l : List α) : List α :=
  l.orderedInsert (fun x y => cmp y x = .gt) x

/-- The elements are inserted one after the other. -/
def sorted (cmp : α → α → Ordering) (l : List α) : List α :=
  l.foldl (fun out x => insertBehind cmp x out) []

section Sorting

variable {P : α → Prop} {cmp : α → α → Ordering}

@[simp] theorem sorted_nil : sorted cmp [] = [] := rfl

@[simp] theorem sorted_append_singleton (l : List α) (x : α) :
    sorted cmp (l ++ [x]) = insertBehind cmp x (sorted cmp l) := by
  simp [sorted]

theorem perm_insertBehind (x : α) (l : List α) : (insertBehind cmp x l).Perm (x :: l) :=
  List.perm_orderedInsert _ x l

theorem perm_sorted (l : List α) : (sorted cmp l).Perm l := by
  induction l using List.reverseRecOn with
  | nil => exact .refl _
  | append_singleton l x ih =>
      rw [sorted_append_singleton]
      have hnew : (insertBehind cmp x (sorted cmp l)).Perm (x :: sorted cmp l) :=
        perm_insertBehind x _
      exact (hnew.trans (ih.cons x)).trans (List.perm_append_singleton x l).symm

theorem pairwise_insertBehind (h : Ranks P cmp) {x : α} (hx : P x) : ∀ {l : List α},
    (∀ y ∈ l, P y) → l.Pairwise (fun a b => cmp a b ≠ .gt) →
      (insertBehind cmp x l).Pairwise fun a b => cmp a b ≠ .gt
  | [], _, _ => List.pairwise_singleton _ _
  | y :: l, hl, hpair => by
      obtain ⟨hy, hrest⟩ := List.pairwise_cons.mp hpair
      have hPy : P y := hl y List.mem_cons_self
      unfold insertBehind
      rw [List.orderedInsert_cons]
      split
      · rename_i hgt
        have hlt : cmp x y = .lt := (h.flip hPy hx).mp hgt
        refine List.pairwise_cons.mpr ⟨fun z hz => ?_, hpair⟩
        rcases List.mem_cons.mp hz with rfl | hz
        · simp [hlt]
        · have hPz : P z := hl z (List.mem_cons_of_mem _ hz)
          simp [h.lt_of_lt hx hPy hPz hlt (hy z hz)]
      · rename_i hle
        have hl' : ∀ z ∈ l, P z := fun z hz => hl z (List.mem_cons_of_mem _ hz)
        refine List.pairwise_cons.mpr ⟨fun z hz => ?_, pairwise_insertBehind h hx hl' hrest⟩
        rcases List.mem_cons.mp ((perm_insertBehind x l).mem_iff.mp hz) with rfl | hz
        · exact hle
        · exact hy z hz

/-- Of every two elements the first is not the greater one. -/
theorem pairwise_sorted (h : Ranks P cmp) {l : List α} (hl : ∀ y ∈ l, P y) :
    (sorted cmp l).Pairwise fun a b => cmp a b ≠ .gt := by
  induction l using List.reverseRecOn with
  | nil => exact List.Pairwise.nil
  | append_singleton l x ih =>
      have hbefore : ∀ y ∈ l, P y := fun y hy => hl y (List.mem_append_left _ hy)
      rw [sorted_append_singleton]
      refine pairwise_insertBehind h (hl x (by simp)) ?_ (ih hbefore)
      intro y hy
      exact hbefore y ((perm_sorted l).mem_iff.mp hy)

theorem filter_insertBehind (h : Ranks P cmp) {x : α} (hx : P x) {q : α → Bool}
    (hq : ∀ a b, P a → P b → q a = true → q b = true → cmp a b = .eq) : ∀ {l : List α},
    (∀ y ∈ l, P y) → l.Pairwise (fun a b => cmp a b ≠ .gt) →
      (insertBehind cmp x l).filter q = l.filter q ++ [x].filter q
  | [], _, _ => rfl
  | y :: l, hl, hpair => by
      obtain ⟨hy, hrest⟩ := List.pairwise_cons.mp hpair
      have hPy : P y := hl y List.mem_cons_self
      unfold insertBehind
      rw [List.orderedInsert_cons]
      split
      · rename_i hgt
        have hlt : cmp x y = .lt := (h.flip hPy hx).mp hgt
        cases hqx : q x with
        | false => simp [hqx]
        | true =>
            -- Nothing from `y` on is a tie of `x`.
            have hnone : (y :: l).filter q = [] := by
              rw [List.filter_eq_nil_iff]
              intro z hz hqz
              have hPz : P z := hl z hz
              have hle : cmp y z ≠ .gt := by
                rcases List.mem_cons.mp hz with rfl | hz
                · intro hyy
                  have htie := hq z z hPz hPz hqz hqz
                  rw [hyy] at htie
                  cases htie
                · exact hy z hz
              have hxz : cmp x z = .lt := h.lt_of_lt hx hPy hPz hlt hle
              rw [hq x z hx hPz hqx hqz] at hxz
              cases hxz
            rw [List.filter_cons_of_pos hqx, hnone]
            simp [hqx]
      · have hl' : ∀ z ∈ l, P z := fun z hz => hl z (List.mem_cons_of_mem _ hz)
        have ih := filter_insertBehind h hx hq hl' hrest
        unfold insertBehind at ih
        rw [List.filter_cons, List.filter_cons, ih]
        split
        · rfl
        · rfl

/-- Ties stay in the order in which they came. -/
theorem filter_sorted (h : Ranks P cmp) {q : α → Bool}
    (hq : ∀ a b, P a → P b → q a = true → q b = true → cmp a b = .eq) {l : List α}
    (hl : ∀ y ∈ l, P y) : (sorted cmp l).filter q = l.filter q := by
  induction l using List.reverseRecOn with
  | nil => rfl
  | append_singleton l x ih =>
      have hbefore : ∀ y ∈ l, P y := fun y hy => hl y (List.mem_append_left _ hy)
      have hmem : ∀ y ∈ sorted cmp l, P y := fun y hy =>
        hbefore y ((perm_sorted l).mem_iff.mp hy)
      rw [sorted_append_singleton,
        filter_insertBehind h (hl x (by simp)) hq hmem (pairwise_sorted h hbefore), ih hbefore,
        List.filter_append]

end Sorting

end Etlantic.StableSort
