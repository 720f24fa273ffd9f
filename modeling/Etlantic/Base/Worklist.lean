import Mathlib.Data.List.Basic
import Mathlib.Logic.Relation
import Mathlib.Algebra.GroupWithZero.Nat

/-!
# Reachability by a worklist

A stack of places to visit and a list of those that were seen.  A place that is popped
for the first time is marked as seen and the places next to it are pushed.  When the
stack is empty, seen is what can be reached.
-/

namespace Etlantic.Worklist

universe u

variable {α : Type u} [DecidableEq α]

/-- The loop, with at most `fuel` places popped. -/
def visit (next : α → List α) : Nat → List α → List α → List α
  | 0, _, seen => seen
  | _ + 1, [], seen => seen
  | fuel + 1, place :: stack, seen =>
      if place ∈ seen then visit next fuel stack seen
      else visit next fuel
        (((next place).filter fun other => other ∉ place :: seen) ++ stack) (place :: seen)

/-- The pushes that the places outside `seen` still cause. -/
def pending (next : α → List α) (places seen : List α) : Nat :=
  ((places.filter fun place => place ∉ seen).map fun place => (next place).length).sum

/-- What is reached from the stack, where only `places` lead anywhere. -/
def reached (next : α → List α) (places stack : List α) : List α :=
  visit next (stack.length + pending next places []) stack []

variable {next : α → List α} {places stack seen : List α} {place other : α}

/-- One step leads from the first place to the second. -/
def Leads (next : α → List α) (place other : α) : Prop := other ∈ next place

/-- What is next to a place that was seen was seen or will be. -/
def Closed (next : α → List α) (stack seen : List α) : Prop :=
  ∀ place ∈ seen, ∀ other ∈ next place, other ∈ seen ∨ other ∈ stack

theorem pending_cons_le (place : α) :
    pending next places (place :: seen) ≤ pending next places seen := by
  unfold pending
  induction places with
  | nil => exact Nat.le_refl _
  | cons p places ih =>
      by_cases hseen : p ∈ seen
      · rw [List.filter_cons_of_neg (by simp [hseen]), List.filter_cons_of_neg (by simp [hseen])]
        exact ih
      · rw [List.filter_cons_of_pos (a := p) (l := places) (p := fun q => q ∉ seen)
          (by simpa using hseen), List.map_cons, List.sum_cons]
        by_cases hplace : p = place
        · rw [List.filter_cons_of_neg (by simp [hplace])]
          exact Nat.le_trans ih (Nat.le_add_left _ _)
        · rw [List.filter_cons_of_pos (by simp [hplace, hseen]), List.map_cons, List.sum_cons]
          exact Nat.add_le_add_left ih _

/-- Marking a place as seen pays for the places that it pushes. -/
theorem pending_visit (hplaces : ∀ p, next p ≠ [] → p ∈ places) (hnew : place ∉ seen) :
    (next place).length + pending next places (place :: seen) ≤ pending next places seen := by
  by_cases hempty : next place = []
  · rw [hempty, List.length_nil, Nat.zero_add]
    exact pending_cons_le place
  · have hmem := hplaces place hempty
    clear hplaces
    induction places with
    | nil => cases hmem
    | cons p places ih =>
        by_cases hplace : p = place
        · subst hplace
          have hrest : pending next places (p :: seen) ≤ pending next places seen :=
            pending_cons_le p
          unfold pending at hrest ⊢
          rw [List.filter_cons_of_neg (by simp),
            List.filter_cons_of_pos (by simpa using hnew), List.map_cons, List.sum_cons]
          exact Nat.add_le_add_left hrest _
        · have hrest := ih ((List.mem_cons.mp hmem).resolve_left fun h => hplace h.symm)
          unfold pending at hrest ⊢
          by_cases hseen : p ∈ seen
          · rw [List.filter_cons_of_neg (by simp [hseen]),
              List.filter_cons_of_neg (by simp [hseen])]
            exact hrest
          · rw [List.filter_cons_of_pos (by simp [hplace, hseen]),
              List.filter_cons_of_pos (by simpa using hseen), List.map_cons, List.map_cons,
              List.sum_cons, List.sum_cons]
            omega

omit [DecidableEq α] in
/-- What is reached from a place that was seen was seen or will be reached. -/
theorem reach_of_closed (hclosed : Closed next stack seen) (hplace : place ∈ seen)
    (hreach : Relation.ReflTransGen (Leads next) place other) :
    other ∈ seen ∨ ∃ p ∈ stack, Relation.ReflTransGen (Leads next) p other := by
  induction hreach using Relation.ReflTransGen.head_induction_on with
  | refl => exact .inl hplace
  | head hstep hrest ih =>
      rcases hclosed _ hplace _ hstep with hseen | hstack
      · exact ih hseen
      · exact .inr ⟨_, hstack, hrest⟩

omit [DecidableEq α] in
theorem Closed.pop (hclosed : Closed next (place :: stack) seen) (hplace : place ∈ seen) :
    Closed next stack seen := by
  intro p hp q hq
  rcases hclosed p hp q hq with hseen | hstack
  · exact .inl hseen
  · rcases List.mem_cons.mp hstack with rfl | hstack
    · exact .inl hplace
    · exact .inr hstack

theorem Closed.push (hclosed : Closed next (place :: stack) seen) :
    Closed next (((next place).filter fun other => other ∉ place :: seen) ++ stack)
      (place :: seen) := by
  intro p hp q hq
  by_cases hseen : q ∈ place :: seen
  · exact .inl hseen
  · rcases List.mem_cons.mp hp with rfl | hp
    · exact .inr (List.mem_append_left _ (List.mem_filter.mpr ⟨hq, decide_eq_true hseen⟩))
    · rcases hclosed p hp q hq with hold | hstack
      · exact .inl (List.mem_cons_of_mem _ hold)
      · rcases List.mem_cons.mp hstack with rfl | hstack
        · exact .inl List.mem_cons_self
        · exact .inr (List.mem_append_right _ hstack)

/-- The loop ends with the places seen before and those reached from the stack. -/
theorem mem_visit (hplaces : ∀ p, next p ≠ [] → p ∈ places) :
    ∀ (fuel : Nat) (stack seen : List α), stack.length + pending next places seen ≤ fuel →
      Closed next stack seen →
      (other ∈ visit next fuel stack seen ↔
        other ∈ seen ∨ ∃ place ∈ stack, Relation.ReflTransGen (Leads next) place other)
  | 0, [], seen, _, _ => by simp [visit]
  | 0, place :: stack, seen, hfuel, _ => by simp at hfuel
  | fuel + 1, [], seen, _, _ => by simp [visit]
  | fuel + 1, place :: stack, seen, hfuel, hclosed => by
      rw [List.length_cons] at hfuel
      unfold visit
      by_cases hseen : place ∈ seen
      · have hpop := hclosed.pop hseen
        rw [if_pos hseen, mem_visit hplaces fuel stack seen (by omega) hpop]
        constructor
        · rintro (hold | ⟨p, hp, hreach⟩)
          · exact .inl hold
          · exact .inr ⟨p, List.mem_cons_of_mem _ hp, hreach⟩
        · rintro (hold | ⟨p, hp, hreach⟩)
          · exact .inl hold
          · rcases List.mem_cons.mp hp with rfl | hp
            · exact reach_of_closed hpop hseen hreach
            · exact .inr ⟨p, hp, hreach⟩
      · have hpay := pending_visit hplaces hseen
        have hpushed := List.length_filter_le (fun q => decide (q ∉ place :: seen)) (next place)
        rw [if_neg hseen, mem_visit hplaces fuel _ _ (by
          rw [List.length_append]
          omega) hclosed.push]
        constructor
        · rintro (hold | ⟨p, hp, hreach⟩)
          · rcases List.mem_cons.mp hold with rfl | hold
            · exact .inr ⟨_, List.mem_cons_self, .refl⟩
            · exact .inl hold
          · rcases List.mem_append.mp hp with hp | hp
            · exact .inr ⟨place, List.mem_cons_self,
                .head (List.mem_filter.mp hp).1 hreach⟩
            · exact .inr ⟨p, List.mem_cons_of_mem _ hp, hreach⟩
        · rintro (hold | ⟨p, hp, hreach⟩)
          · exact .inl (List.mem_cons_of_mem _ hold)
          · rcases List.mem_cons.mp hp with rfl | hp
            · exact reach_of_closed hclosed.push List.mem_cons_self hreach
            · exact .inr ⟨p, List.mem_append_right _ hp, hreach⟩

/-- What is reached from a stack, by the steps of `next`. -/
theorem mem_reached (hplaces : ∀ p, next p ≠ [] → p ∈ places) :
    other ∈ reached next places stack ↔
      ∃ place ∈ stack, Relation.ReflTransGen (Leads next) place other := by
  have hclosed : Closed next stack [] := fun _ h => by cases h
  unfold reached
  rw [mem_visit hplaces _ stack [] (Nat.le_refl _) hclosed]
  constructor
  · rintro (hnone | hreach)
    · cases hnone
    · exact hreach
  · exact .inr

end Etlantic.Worklist
