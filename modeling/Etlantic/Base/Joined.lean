import Mathlib.Data.List.Basic
import Mathlib.Algebra.GroupWithZero.Nat

/-!
# Texts joined by a separator

A text of parts joined by one character says which parts were joined, as long as
no part contains that character.  With the number of parts known it is enough
that the parts of one of two equal texts do not.
-/

namespace Etlantic.Joined

variable {sep : Char}

/-- The separators of a joined text: those between the parts and those inside them. -/
theorem count_intercalate : ∀ {parts : List (List Char)}, parts ≠ [] →
    ([sep].intercalate parts).count sep + 1 =
      parts.length + (parts.map (List.count sep)).sum
  | [part], _ => by simp [Nat.add_comm]
  | part :: next :: rest, _ => by
      have ih := @count_intercalate (next :: rest) (List.cons_ne_nil _ _)
      rw [List.intercalate_cons_cons, List.count_append, List.count_append, List.count_singleton_self,
        List.length_cons, List.map_cons, List.sum_cons]
      omega

theorem sum_count_eq_zero {parts : List (List Char)} :
    (parts.map (List.count sep)).sum = 0 ↔ ∀ part ∈ parts, sep ∉ part := by
  rw [List.sum_eq_zero_iff_forall_eq_nat]
  simp [List.count_eq_zero]

/-- As many parts, joined to the same text, are the same parts when one side is free of the
separator. -/
theorem intercalate_inj {parts others : List (List Char)} (hlength : parts.length = others.length)
    (hfree : ∀ part ∈ parts, sep ∉ part)
    (h : [sep].intercalate parts = [sep].intercalate others) : parts = others := by
  by_cases hnil : parts = []
  · rw [hnil, List.length_nil] at hlength
    rw [hnil, List.length_eq_zero_iff.mp hlength.symm]
  · have hnil' : others ≠ [] := by
      rintro rfl
      exact hnil (List.length_eq_zero_iff.mp hlength)
    have hcount := @count_intercalate sep parts hnil
    have hcount' := @count_intercalate sep others hnil'
    rw [h, sum_count_eq_zero.mpr hfree] at hcount
    have hfree' : ∀ part ∈ others, sep ∉ part := by
      rw [← sum_count_eq_zero]
      omega
    rw [← List.splitOn_intercalate sep hfree hnil, h, List.splitOn_intercalate sep hfree' hnil']

/-- The same text of fewer parts has the separator inside one of them. -/
theorem exists_mem_of_shorter {parts others : List (List Char)} (hnil : others ≠ [])
    (hlength : others.length < parts.length)
    (h : [sep].intercalate parts = [sep].intercalate others) : ∃ part ∈ others, sep ∈ part := by
  have hparts : parts ≠ [] := by
    rintro rfl
    exact absurd hlength (Nat.not_lt_zero _)
  have hcount := @count_intercalate sep parts hparts
  have hcount' := @count_intercalate sep others hnil
  by_contra hnone
  have hzero : (others.map (List.count sep)).sum = 0 := by
    rw [sum_count_eq_zero]
    intro part hpart hmem
    exact hnone ⟨part, hpart, hmem⟩
  rw [h] at hcount
  omega

/-- The strings version of `intercalate_inj`. -/
theorem strings_inj {between : String} (hsep : between.toList = [sep]) {parts others : List String}
    (hlength : parts.length = others.length) (hfree : ∀ part ∈ parts, sep ∉ part.toList)
    (h : between.intercalate parts = between.intercalate others) : parts = others := by
  have hlists : [sep].intercalate (parts.map String.toList) =
      [sep].intercalate (others.map String.toList) := by
    rw [← hsep, ← String.toList_intercalate, ← String.toList_intercalate, h]
  have hfree' : ∀ part ∈ parts.map String.toList, sep ∉ part := by
    intro part hpart
    obtain ⟨text, htext, rfl⟩ := List.mem_map.mp hpart
    exact hfree text htext
  have hsame := intercalate_inj (by simpa using hlength) hfree' hlists
  exact List.map_injective_iff.mpr (fun _ _ => String.ext) hsame

/-- The strings version of `exists_mem_of_shorter`. -/
theorem strings_shorter {between : String} (hsep : between.toList = [sep])
    {parts others : List String} (hnil : others ≠ []) (hlength : others.length < parts.length)
    (h : between.intercalate parts = between.intercalate others) :
    ∃ part ∈ others, sep ∈ part.toList := by
  have hlists : [sep].intercalate (parts.map String.toList) =
      [sep].intercalate (others.map String.toList) := by
    rw [← hsep, ← String.toList_intercalate, ← String.toList_intercalate, h]
  obtain ⟨part, hpart, hmem⟩ := exists_mem_of_shorter (by simpa using hnil)
    (by simpa using hlength) hlists
  obtain ⟨text, htext, rfl⟩ := List.mem_map.mp hpart
  exact ⟨text, htext, hmem⟩

end Etlantic.Joined
