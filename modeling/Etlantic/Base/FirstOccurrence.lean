import Mathlib.Data.List.Basic
import Mathlib.Data.List.Dedup
import Mathlib.Data.List.Induction

/-!
# First occurrences

The elements of a list whose key did not occur before, for two notions of key.  Both
leave the same elements just if every element repeats an earlier key of the one kind
exactly if it repeats one of the other, and the numbers of keys differ by the elements
that are new for one kind only.
-/

namespace Etlantic.FirstOccurrence

universe u v w

variable {α : Type u} {κ : Type v} {ι : Type w} [DecidableEq κ] [DecidableEq ι]

/-- The elements whose key is not among those seen before. -/
def firsts (f : α → κ) : List κ → List α → List α
  | _, [] => []
  | seen, x :: rest =>
      if f x ∈ seen then firsts f seen rest else x :: firsts f (f x :: seen) rest

/-- Each element repeats a key of the one kind exactly if it repeats one of the other. -/
def SameRepeats (f : α → κ) (g : α → ι) (xs : List α) : Prop :=
  ∀ before x after, xs = before ++ x :: after →
    ((∃ y ∈ before, f y = f x) ↔ ∃ y ∈ before, g y = g x)

/-- How many elements are new for `f` and a repetition for `g`. -/
def onlyNew (f : α → κ) (g : α → ι) : List α → List α → Nat
  | _, [] => 0
  | earlier, x :: rest =>
      (if f x ∉ earlier.map f ∧ g x ∈ earlier.map g then 1 else 0) +
        onlyNew f g (x :: earlier) rest

variable {f : α → κ} {g : α → ι} {xs : List α} {x : α}

theorem mem_of_mem_firsts : ∀ {seen : List κ} {xs : List α}, x ∈ firsts f seen xs → x ∈ xs
  | seen, y :: rest, h => by
      unfold firsts at h
      split at h
      · exact List.mem_cons_of_mem _ (mem_of_mem_firsts h)
      · rcases List.mem_cons.mp h with rfl | h
        · exact List.mem_cons_self
        · exact List.mem_cons_of_mem _ (mem_of_mem_firsts h)

/-- Where an element is its own key, those are left that were not seen before. -/
theorem mem_firsts_id {x : κ} : ∀ {seen xs : List κ},
    x ∈ firsts id seen xs ↔ x ∈ xs ∧ x ∉ seen
  | seen, [] => by simp [firsts]
  | seen, y :: rest => by
      unfold firsts
      split
      · rename_i hseen
        rw [mem_firsts_id, List.mem_cons, or_and_right, or_iff_right]
        rintro ⟨rfl, hnot⟩
        exact hnot hseen
      · rename_i hseen
        rw [List.mem_cons, mem_firsts_id, List.mem_cons, List.mem_cons]
        by_cases hx : x = y
        · subst hx
          simpa using hseen
        · simp [hx]

theorem firsts_congr : ∀ {xs : List α} {seen seen' : List κ}, (∀ k, k ∈ seen ↔ k ∈ seen') →
    firsts f seen xs = firsts f seen' xs
  | [], _, _, _ => rfl
  | x :: rest, seen, seen', h => by
      have hmore : ∀ k, k ∈ f x :: seen ↔ k ∈ f x :: seen' := by
        intro k
        rw [List.mem_cons, List.mem_cons, h]
      unfold firsts
      simp only [h, firsts_congr h, firsts_congr hmore]

theorem firsts_concat : ∀ {seen : List κ} {xs : List α}, firsts f seen (xs ++ [x]) =
    firsts f seen xs ++ if f x ∈ seen ∨ f x ∈ xs.map f then [] else [x]
  | seen, [] => by
      rw [List.nil_append, List.map_nil]
      unfold firsts
      by_cases hseen : f x ∈ seen
      · rw [if_pos hseen, if_pos (.inl hseen)]
        rfl
      · rw [if_neg hseen, if_neg (not_or.mpr ⟨hseen, List.not_mem_nil⟩)]
        rfl
  | seen, y :: rest => by
      rw [List.cons_append, List.map_cons]
      unfold firsts
      by_cases hseen : f y ∈ seen
      · rw [if_pos hseen, if_pos hseen, firsts_concat]
        have hsame : f x ∈ seen ∨ f x ∈ f y :: rest.map f ↔ f x ∈ seen ∨ f x ∈ rest.map f := by
          rw [List.mem_cons]
          constructor
          · rintro (h | heq | h)
            · exact .inl h
            · exact .inl (heq ▸ hseen)
            · exact .inr h
          · rintro (h | h)
            · exact .inl h
            · exact .inr (.inr h)
        simp only [hsame]
      · rw [if_neg hseen, if_neg hseen, firsts_concat, List.cons_append]
        have hsame : f x ∈ f y :: seen ∨ f x ∈ rest.map f ↔
            f x ∈ seen ∨ f x ∈ f y :: rest.map f := by
          rw [List.mem_cons, List.mem_cons, or_assoc, or_left_comm]
        simp only [hsame]

omit [DecidableEq κ] in
theorem mem_map_iff : f x ∈ xs.map f ↔ ∃ y ∈ xs, f y = f x := List.mem_map

omit [DecidableEq κ] [DecidableEq ι] in
theorem sameRepeats_concat : SameRepeats f g (xs ++ [x]) ↔
    SameRepeats f g xs ∧ (f x ∈ xs.map f ↔ g x ∈ xs.map g) := by
  rw [mem_map_iff, mem_map_iff]
  constructor
  · intro h
    refine ⟨fun before y after hsplit => ?_, h xs x [] rfl⟩
    refine h before y (after ++ [x]) ?_
    rw [hsplit, List.append_assoc, List.cons_append]
  · rintro ⟨hxs, hx⟩ before y after hsplit
    rcases List.eq_nil_or_concat' after with rfl | ⟨front, last, rfl⟩
    · obtain ⟨rfl, hlast⟩ := List.append_inj' hsplit rfl
      obtain rfl := List.singleton_inj.mp hlast
      exact hx
    · rw [← List.cons_append, ← List.append_assoc] at hsplit
      obtain ⟨rfl, -⟩ := List.append_inj' hsplit rfl
      exact hxs before y front rfl

/-- Both notions leave the same elements just if they see the same repetitions. -/
theorem firsts_eq_iff : firsts f [] xs = firsts g [] xs ↔ SameRepeats f g xs := by
  induction xs using List.reverseRecOn with
  | nil =>
      refine iff_of_true rfl fun before x after hsplit => ?_
      cases (List.append_eq_nil_iff.mp hsplit.symm).2
  | append_singleton xs x ih =>
      rw [sameRepeats_concat, ← ih, firsts_concat, firsts_concat]
      simp only [List.not_mem_nil, false_or]
      by_cases hf : f x ∈ xs.map f
      · by_cases hg : g x ∈ xs.map g
        · rw [if_pos hf, if_pos hg, List.append_nil, List.append_nil]
          exact (and_iff_left (iff_of_true hf hg)).symm
        · rw [if_pos hf, if_neg hg, List.append_nil]
          refine iff_of_false (fun heq => ?_) fun h => hg (h.2.mp hf)
          have hin : x ∈ firsts f [] xs := by
            rw [heq]
            exact List.mem_append_right _ (List.mem_singleton_self x)
          exact hg (List.mem_map_of_mem (mem_of_mem_firsts hin))
      · by_cases hg : g x ∈ xs.map g
        · rw [if_neg hf, if_pos hg, List.append_nil]
          refine iff_of_false (fun heq => ?_) fun h => hf (h.2.mpr hg)
          have hin : x ∈ firsts g [] xs := by
            rw [← heq]
            exact List.mem_append_right _ (List.mem_singleton_self x)
          exact hf (List.mem_map_of_mem (mem_of_mem_firsts hin))
        · rw [if_neg hf, if_neg hg, List.append_left_inj]
          exact (and_iff_left (iff_of_false hf hg)).symm

theorem length_firsts_cons (x : α) (rest : List α) (seen : List κ) :
    (firsts f seen (x :: rest)).length =
      (if f x ∈ seen then 0 else 1) + (firsts f (f x :: seen) rest).length := by
  conv_lhs => unfold firsts
  by_cases hseen : f x ∈ seen
  · have hsame : ∀ k, k ∈ seen ↔ k ∈ f x :: seen := by
      intro k
      rw [List.mem_cons, or_iff_right_of_imp (fun h => h ▸ hseen)]
    rw [if_pos hseen, if_pos hseen, Nat.zero_add, firsts_congr hsame]
  · rw [if_neg hseen, if_neg hseen, List.length_cons, Nat.add_comm]

/-- The numbers of new keys differ by what is new for one notion only. -/
theorem length_firsts_add : ∀ (xs earlier : List α),
    (firsts f (earlier.map f) xs).length + onlyNew g f earlier xs =
      (firsts g (earlier.map g) xs).length + onlyNew f g earlier xs
  | [], _ => rfl
  | x :: rest, earlier => by
      have ih := length_firsts_add rest (x :: earlier)
      rw [List.map_cons, List.map_cons] at ih
      have hf := length_firsts_cons (f := f) x rest (earlier.map f)
      have hg := length_firsts_cons (f := g) x rest (earlier.map g)
      unfold onlyNew
      rw [hf, hg]
      by_cases hfx : f x ∈ earlier.map f
      · by_cases hgx : g x ∈ earlier.map g
        · simp only [hfx, hgx, not_true_eq_false, false_and, if_true, if_false]
          omega
        · simp only [hfx, hgx, not_true_eq_false, not_false_eq_true, and_true, if_true,
            if_false, and_false]
          omega
      · by_cases hgx : g x ∈ earlier.map g
        · simp only [hfx, hgx, not_true_eq_false, not_false_eq_true, and_true, if_true,
            if_false, and_false]
          omega
        · simp only [hfx, hgx, not_false_eq_true, and_false, if_false]
          omega

omit [DecidableEq ι] in
/-- The keys of the first occurrences are the keys, each once. -/
theorem keys_firsts (f : α → κ) (xs : List α) :
    ((firsts f [] xs).map f).Nodup ∧ ∀ k, k ∈ (firsts f [] xs).map f ↔ k ∈ xs.map f := by
  induction xs using List.reverseRecOn with
  | nil => exact ⟨List.nodup_nil, fun k => Iff.rfl⟩
  | append_singleton xs x ih =>
      obtain ⟨hnodup, hmem⟩ := ih
      rw [firsts_concat]
      simp only [List.not_mem_nil, false_or]
      by_cases hold : f x ∈ xs.map f
      · rw [if_pos hold, List.append_nil]
        refine ⟨hnodup, fun k => (hmem k).trans ?_⟩
        rw [List.map_append, List.mem_append, List.map_singleton, List.mem_singleton]
        exact (or_iff_left_of_imp fun h => h ▸ hold).symm
      · rw [if_neg hold, List.map_append, List.map_singleton]
        refine ⟨List.nodup_append.mpr ⟨hnodup, List.nodup_singleton _, ?_⟩, fun k => ?_⟩
        · rintro a ha b hb rfl
          rw [List.mem_singleton.mp hb] at ha
          exact hold ((hmem _).mp ha)
        · rw [List.map_append, List.mem_append, List.mem_append, hmem, List.map_singleton]

omit [DecidableEq ι] in
theorem length_firsts (f : α → κ) (xs : List α) :
    (firsts f [] xs).length = (xs.map f).dedup.length := by
  obtain ⟨hnodup, hmem⟩ := keys_firsts f xs
  have hperm : ((firsts f [] xs).map f).Perm (xs.map f).dedup :=
    (List.perm_ext_iff_of_nodup hnodup (List.nodup_dedup _)).mpr fun k =>
      (hmem k).trans List.mem_dedup.symm
  rw [← hperm.length_eq, List.length_map]

end Etlantic.FirstOccurrence
