import Mathlib.Data.Fintype.EquivFin
import Mathlib.Data.List.Dedup
import Mathlib.Data.List.Sort

/-!
# Lists of what is allowed

An empty list allows everything, any other list its elements.  Two lists are merged to
what they share.  If they share nothing although both say something, the merged list is
empty, and so it allows everything.
-/

namespace Etlantic.Allowlist

variable {α : Type*}

/-- The element is not excluded by the list. -/
def Permits (l : List α) (x : α) : Prop := l = [] ∨ x ∈ l

/-- One of the lists says nothing, or they share an element. -/
def Compatible (a b : List α) : Prop := a = [] ∨ b = [] ∨ ∃ x, x ∈ a ∧ x ∈ b

instance [DecidableEq α] (l : List α) (x : α) : Decidable (Permits l x) :=
  inferInstanceAs (Decidable (l = [] ∨ x ∈ l))

instance [DecidableEq α] (a b : List α) : Decidable (Compatible a b) :=
  decidable_of_iff (a = [] ∨ b = [] ∨ ∃ x ∈ a, x ∈ b) (by simp only [Compatible])

theorem permits_nil (x : α) : Permits [] x := .inl rfl

theorem permits_iff_mem {l : List α} {x : α} (h : l ≠ []) : Permits l x ↔ x ∈ l := by
  constructor
  · rintro (hnil | hmem)
    · exact absurd hnil h
    · exact hmem
  · exact .inr

theorem Compatible.symm {a b : List α} (h : Compatible a b) : Compatible b a := by
  rcases h with ha | hb | ⟨x, hxa, hxb⟩
  · exact .inr (.inl ha)
  · exact .inl hb
  · exact .inr (.inr ⟨x, hxb, hxa⟩)

theorem permits_congr {l l' : List α} (h : ∀ x, x ∈ l ↔ x ∈ l') (x : α) :
    Permits l x ↔ Permits l' x := by
  have hnil : l = [] ↔ l' = [] := by
    rw [List.eq_nil_iff_forall_not_mem, List.eq_nil_iff_forall_not_mem]
    exact forall_congr' fun y => not_congr (h y)
  exact or_congr hnil (h x)

variable [LinearOrder α]

/-- `sorted(set(a) & set(b))`. -/
def shared (a b : List α) : List α := (a ∩ b).dedup.insertionSort (· ≤ ·)

/-- What two lists allow together: what they share, or the one that says something. -/
def merge (a b : List α) : List α :=
  if a ≠ [] ∧ b ≠ [] then shared a b else if a ≠ [] then a else b

theorem mem_shared {a b : List α} {x : α} : x ∈ shared a b ↔ x ∈ a ∧ x ∈ b := by
  unfold shared
  rw [List.mem_insertionSort, List.mem_dedup, List.mem_inter_iff]

@[simp] theorem merge_nil_left (b : List α) : merge [] b = b := by simp [merge]

@[simp] theorem merge_nil_right (a : List α) : merge a [] = a := by
  by_cases ha : a = [] <;> simp [merge, ha]

theorem merge_of_ne_nil {a b : List α} (ha : a ≠ []) (hb : b ≠ []) : merge a b = shared a b :=
  if_pos ⟨ha, hb⟩

theorem shared_eq_nil {a b : List α} : shared a b = [] ↔ ∀ x, x ∈ a → x ∉ b := by
  rw [List.eq_nil_iff_forall_not_mem]
  constructor
  · intro h x hxa hxb
    exact h x (mem_shared.mpr ⟨hxa, hxb⟩)
  · intro h x hx
    exact h x (mem_shared.mp hx).1 (mem_shared.mp hx).2

/-- Compatible lists are merged to a list that allows what both of them allow. -/
theorem permits_merge {a b : List α} (h : Compatible a b) {x : α} :
    Permits (merge a b) x ↔ Permits a x ∧ Permits b x := by
  by_cases ha : a = []
  · subst ha
    rw [merge_nil_left, and_iff_right (permits_nil x)]
  by_cases hb : b = []
  · subst hb
    rw [merge_nil_right, and_iff_left (permits_nil x)]
  have hne : shared a b ≠ [] := by
    rcases h with hnil | hnil | ⟨y, hya, hyb⟩
    · exact absurd hnil ha
    · exact absurd hnil hb
    · exact List.ne_nil_of_mem (mem_shared.mpr ⟨hya, hyb⟩)
  rw [merge_of_ne_nil ha hb, permits_iff_mem hne, permits_iff_mem ha, permits_iff_mem hb,
    mem_shared]

/-- Lists that are not compatible are merged to a list that allows everything. -/
theorem merge_eq_nil_of_not_compatible {a b : List α} (h : ¬ Compatible a b) :
    merge a b = [] ∧ a ≠ [] ∧ b ≠ [] := by
  have ha : a ≠ [] := fun hnil => h (.inl hnil)
  have hb : b ≠ [] := fun hnil => h (.inr (.inl hnil))
  refine ⟨?_, ha, hb⟩
  rw [merge_of_ne_nil ha hb, shared_eq_nil]
  intro x hxa hxb
  exact h (.inr (.inr ⟨x, hxa, hxb⟩))

/-- A merged list allows nothing that one of the lists excludes just if the lists are
compatible. -/
theorem merge_excludes_iff {a b : List α} :
    (∀ x, Permits (merge a b) x → Permits a x ∧ Permits b x) ↔ Compatible a b := by
  constructor
  · intro h
    by_contra hnot
    obtain ⟨hmerge, ha, hb⟩ := merge_eq_nil_of_not_compatible hnot
    obtain ⟨x, hx⟩ := List.exists_mem_of_ne_nil b hb
    have hxa := (h x (by rw [hmerge]; exact permits_nil x)).1
    exact hnot (.inr (.inr ⟨x, (permits_iff_mem ha).mp hxa, hx⟩))
  · intro h x hx
    exact (permits_merge h).mp hx

theorem permits_merge_comm (a b : List α) (x : α) :
    Permits (merge a b) x ↔ Permits (merge b a) x := by
  by_cases h : Compatible a b
  · rw [permits_merge h, permits_merge h.symm, and_comm]
  · have h' : ¬ Compatible b a := fun hba => h hba.symm
    rw [(merge_eq_nil_of_not_compatible h).1, (merge_eq_nil_of_not_compatible h').1]

theorem merge_ne_nil {a b : List α} (h : Compatible a b) (ha : a ≠ []) : merge a b ≠ [] := by
  intro hnil
  by_cases hb : b = []
  · rw [hb, merge_nil_right] at hnil
    exact ha hnil
  · rw [merge_of_ne_nil ha hb, shared_eq_nil] at hnil
    rcases h with h | h | ⟨x, hxa, hxb⟩
    · exact ha h
    · exact hb h
    · exact hnil x hxa hxb

/-- Three lists of which the first two are compatible are merged alike in both groupings
just if the first says nothing or the others are compatible, too. -/
theorem merge_assoc_iff [Infinite α] {a b c : List α} (hab : Compatible a b) :
    (∀ x, Permits (merge (merge a b) c) x ↔ Permits (merge a (merge b c)) x) ↔
      a = [] ∨ Compatible b c := by
  by_cases ha : a = []
  · subst ha
    simp
  rw [or_iff_right ha]
  by_cases hb : b = []
  · subst hb
    simp [Compatible]
  have habne : merge a b ≠ [] := merge_ne_nil hab ha
  constructor
  · intro h
    by_contra hbc
    obtain ⟨hmerge, -, hc⟩ := merge_eq_nil_of_not_compatible hbc
    have hleft : ¬ Compatible (merge a b) c := by
      rintro (hnil | hnil | ⟨x, hx, hxc⟩)
      · exact habne hnil
      · exact hc hnil
      · rw [merge_of_ne_nil ha hb, mem_shared] at hx
        exact hbc (.inr (.inr ⟨x, hx.2, hxc⟩))
    -- the left grouping allows everything, the right one only the first list
    obtain ⟨x, hx⟩ := Infinite.exists_notMem_finset a.toFinset
    have hright := (h x).mp (.inl (merge_eq_nil_of_not_compatible hleft).1)
    rw [hmerge, merge_nil_right, permits_iff_mem ha] at hright
    exact hx (List.mem_toFinset.mpr hright)
  · intro hbc x
    by_cases hc : c = []
    · subst hc
      rw [merge_nil_right, merge_nil_right]
    · have hbcne : merge b c ≠ [] := merge_ne_nil hbc hb
      rw [merge_of_ne_nil habne hc, merge_of_ne_nil ha hbcne, merge_of_ne_nil ha hb,
        merge_of_ne_nil hb hc]
      apply permits_congr
      intro y
      rw [mem_shared, mem_shared, mem_shared, mem_shared, and_assoc]

end Etlantic.Allowlist
