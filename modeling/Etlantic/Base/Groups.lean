import Etlantic.Base.Dict
import Mathlib.Data.List.Perm.Basic

/-!
# Grouping by a key

`groups.setdefault(key(x), []).append(x)`, one element at a time, sorts the
elements of a list into the classes of `key`.
-/

namespace Etlantic

universe u v

namespace Dict

variable {κ : Type u} {α : Type v} [DecidableEq κ]

/-- `d.setdefault(k, []).append(x)`. -/
def append (d : Dict κ (List α)) (k : κ) (x : α) : Dict κ (List α) :=
  d.set k ((d.get? k).getD [] ++ [x])

omit [DecidableEq κ] in
/-- `d.values()`. -/
def values (d : Dict κ (List α)) : List (List α) := d.entries.map Prod.snd

omit [DecidableEq κ] in
theorem mem_values {d : Dict κ (List α)} {members : List α} :
    members ∈ d.values ↔ ∃ k, (k, members) ∈ d.entries := by
  constructor
  · intro h
    obtain ⟨⟨k, _⟩, hmem, rfl⟩ := List.mem_map.mp h
    exact ⟨k, hmem⟩
  · rintro ⟨k, hmem⟩
    exact List.mem_map.mpr ⟨(k, members), hmem, rfl⟩

theorem flatten_put (k : κ) (x : α) : ∀ l : List (κ × List α),
    ((put k ((assoc k l).getD [] ++ [x]) l).map Prod.snd).flatten.Perm
      ((l.map Prod.snd).flatten ++ [x])
  | [] => by simp [put, assoc]
  | e :: rest => by
      have ih := flatten_put k x rest
      by_cases hk : e.1 = k
      · simp only [put, assoc, if_pos hk, List.map_cons, List.flatten_cons, Option.getD_some,
          List.append_assoc]
        exact List.Perm.append_left e.2 List.perm_append_comm
      · simp only [put, assoc, if_neg hk, List.map_cons, List.flatten_cons, List.append_assoc]
        exact List.Perm.append_left e.2 ih

/-- `d` holds the elements of `xs` in the classes of `key`. -/
structure Groups (key : α → κ) (xs : List α) (d : Dict κ (List α)) : Prop where
  perm : d.values.flatten.Perm xs
  inhabited : ∀ k members, d.get? k = some members → members ≠ []
  keyed : ∀ k members, d.get? k = some members → ∀ x ∈ members, key x = k

variable {key : α → κ} {xs : List α} {d : Dict κ (List α)}

theorem groups_empty : Groups key [] (empty : Dict κ (List α)) where
  perm := List.Perm.refl []
  inhabited k members h := by simp at h
  keyed k members h := by simp at h

theorem Groups.append (h : Groups key xs d) (x : α) :
    Groups key (xs ++ [x]) (d.append (key x) x) where
  perm := (flatten_put (key x) x d.entries).trans (h.perm.append_right [x])
  inhabited k members hget := by
    rcases get?_set_eq_some.mp hget with ⟨rfl, rfl⟩ | ⟨-, hold⟩
    · simp
    · exact h.inhabited k members hold
  keyed k members hget y hy := by
    rcases get?_set_eq_some.mp hget with ⟨rfl, rfl⟩ | ⟨-, hold⟩
    · rcases List.mem_append.mp hy with hy | hy
      · cases hfound : d.get? (key x) with
        | none =>
            rw [hfound] at hy
            cases hy
        | some found =>
            rw [hfound] at hy
            exact h.keyed _ found hfound y hy
      · rw [List.mem_singleton.mp hy]
    · exact h.keyed k members hold y hy

/-- A group is the class of each of its elements. -/
theorem Groups.mem_iff (h : Groups key xs d) {members : List α} (hmembers : members ∈ d.values)
    {x y : α} (hx : x ∈ members) (hy : y ∈ xs) : y ∈ members ↔ key y = key x := by
  obtain ⟨k, hentry⟩ := mem_values.mp hmembers
  have hget := mem_entries_iff.mp hentry
  constructor
  · intro hmem
    rw [h.keyed k members hget y hmem, h.keyed k members hget x hx]
  · intro hkey
    obtain ⟨other, hother, hmem⟩ := List.mem_flatten.mp (h.perm.mem_iff.mpr hy)
    obtain ⟨k', hentry'⟩ := mem_values.mp hother
    have hget' := mem_entries_iff.mp hentry'
    -- both groups stand under the same key
    have hk : k' = k := by
      rw [← h.keyed k' other hget' y hmem, hkey, h.keyed k members hget x hx]
    subst hk
    rw [hget] at hget'
    obtain rfl := Option.some.inj hget'
    exact hmem

end Dict

end Etlantic
