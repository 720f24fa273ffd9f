import Mathlib.Logic.Function.Basic
import Mathlib.Logic.Function.Iterate
import Mathlib.Logic.Relation
import Mathlib.Order.Basic

/-!
# Union-find with path halving

A forest is a map from every element to its parent, where a root is its own
parent.  `find` points the elements on its way at their grandparents, so the
forest changes while it is read.  What never changes is the root of an element
and a bound on its distance: after `n` unions no element is more than `n` steps
below its root, which is why `n` steps of fuel are enough for `find`.

`Represents n r parent` is the invariant: two elements have one root iff the
equivalence closure of `r` relates them.
-/

namespace Etlantic.UnionFind

variable {α : Type} [DecidableEq α]

/-- The root of `x`, with the forest after the halving on the way. -/
def find : Nat → (α → α) → α → (α → α) × α
  | 0, parent, x => (parent, x)
  | fuel + 1, parent, x =>
      if parent x = x then (parent, x)
      else
        let halved := Function.update parent x (parent (parent x))
        find fuel halved (halved x)

/-- Hang the root of `right` under the root of `left`. -/
def union (fuel : Nat) (parent : α → α) (left right : α) : α → α :=
  let l := find fuel parent left
  let r := find fuel l.1 right
  if l.2 = r.2 then r.1 else Function.update r.1 r.2 l.2

/-! ## Climbing to a root -/

omit [DecidableEq α] in
/-- `k` steps lead from `x` to the root `r`. -/
def Climbs (parent : α → α) (k : Nat) (x r : α) : Prop := parent^[k] x = r ∧ parent r = r

section Climbs

variable {parent : α → α} {k n fuel : Nat} {x y r s : α}

omit [DecidableEq α] in
theorem Climbs.refl (hroot : parent x = x) : Climbs parent k x x :=
  ⟨Function.iterate_fixed hroot k, hroot⟩

omit [DecidableEq α] in
theorem Climbs.mono (h : Climbs parent k x r) (hkn : k ≤ n) : Climbs parent n x r := by
  obtain ⟨hclimb, hroot⟩ := h
  refine ⟨?_, hroot⟩
  obtain ⟨j, rfl⟩ := Nat.exists_eq_add_of_le hkn
  rw [Nat.add_comm, Function.iterate_add_apply, hclimb]
  exact Function.iterate_fixed hroot j

omit [DecidableEq α] in
theorem Climbs.succ (h : Climbs parent k (parent x) r) : Climbs parent (k + 1) x r := h

omit [DecidableEq α] in
/-- Below its root an element has a step to take. -/
theorem Climbs.pred (h : Climbs parent k x r) (hne : parent x ≠ x) :
    ∃ j, k = j + 1 ∧ Climbs parent j (parent x) r := by
  cases k with
  | zero =>
      obtain ⟨rfl, hroot⟩ := h
      exact absurd hroot hne
  | succ j => exact ⟨j, rfl, h⟩

omit [DecidableEq α] in
theorem Climbs.eq_of_root (h : Climbs parent k x r) (hroot : parent x = x) : x = r := by
  have hfixed := Function.iterate_fixed hroot k
  exact hfixed.symm.trans h.1

omit [DecidableEq α] in
/-- No element below a root is its own grandparent. -/
theorem Climbs.grandparent_ne (hne : parent x ≠ x) : ∀ {k : Nat}, Climbs parent k x r →
    parent (parent x) ≠ x := by
  intro k
  induction k using Nat.strongRecOn with
  | _ k ih =>
      intro h hcycle
      obtain ⟨j, rfl, hj⟩ := h.pred hne
      obtain ⟨i, rfl, hi⟩ := hj.pred (by rw [hcycle]; exact hne.symm)
      rw [hcycle] at hi
      exact ih i (by omega) hi hcycle

/-- Pointing an element at its grandparent changes no root and lengthens no climb. -/
theorem Climbs.halve (x : α) : ∀ {k : Nat} {y : α}, Climbs parent k y r →
    Climbs (Function.update parent x (parent (parent x))) k y r := by
  intro k
  induction k using Nat.strongRecOn with
  | _ k ih =>
      intro y h
      have hroot : Function.update parent x (parent (parent x)) r = r := by
        by_cases hr : r = x
        · subst hr
          rw [Function.update_self, h.2, h.2]
        · rw [Function.update_of_ne hr, h.2]
      by_cases hy : parent y = y
      · obtain rfl := h.eq_of_root hy
        exact Climbs.refl hroot
      obtain ⟨j, rfl, hj⟩ := h.pred hy
      by_cases hyx : y = x
      · -- the climb from `x` skips its parent, when that is not the root already
        subst hyx
        by_cases hp : parent (parent y) = parent y
        · obtain rfl := hj.eq_of_root hp
          refine Climbs.succ ?_
          rw [Function.update_self, hp]
          rw [hp] at hroot
          exact Climbs.refl hroot
        · obtain ⟨i, rfl, hi⟩ := hj.pred hp
          have hskip := ih i (by omega) hi
          refine Climbs.succ (Climbs.mono ?_ (Nat.le_succ i))
          rw [Function.update_self]
          exact hskip
      · have hstep := ih j (by omega) hj
        refine Climbs.succ ?_
        rw [Function.update_of_ne hyx]
        exact hstep

/-- A new parent for a root moves its elements to the root above, one step further away. -/
theorem Climbs.redirect {a b : α} (ha : parent a = a) (hb : parent b = b) (hab : a ≠ b) :
    ∀ {k : Nat} {y : α}, Climbs parent k y r →
      Climbs (Function.update parent b a) (k + 1) y (if r = b then a else r) := by
  have hroot : Function.update parent b a a = a := by rw [Function.update_of_ne hab, ha]
  have hrooted : ∀ {k : Nat} {y : α}, parent y = y →
      Climbs (Function.update parent b a) (k + 1) y (if y = b then a else y) := by
    intro k y hy
    by_cases hyb : y = b
    · subst hyb
      rw [if_pos rfl]
      refine Climbs.succ ?_
      rw [Function.update_self]
      exact Climbs.refl hroot
    · rw [if_neg hyb]
      refine Climbs.refl ?_
      rw [Function.update_of_ne hyb, hy]
  intro k
  induction k with
  | zero =>
      intro y h
      obtain rfl : y = r := h.1
      exact hrooted h.2
  | succ k ih =>
      intro y h
      by_cases hy : parent y = y
      · obtain rfl := h.eq_of_root hy
        exact hrooted hy
      · have hyb : y ≠ b := by
          rintro rfl
          exact hy hb
        refine Climbs.succ ?_
        rw [Function.update_of_ne hyb]
        exact ih h

/-! ## `find` and `union` -/

/-- No climb gets longer and no root changes while `find` runs. -/
theorem find_climbs : ∀ {fuel : Nat} {parent : α → α} {x : α}, Climbs parent k y s →
    Climbs (find fuel parent x).1 k y s := by
  intro fuel
  induction fuel with
  | zero => exact fun h => h
  | succ fuel ih =>
      intro parent x h
      unfold find
      by_cases hx : parent x = x
      · rw [if_pos hx]
        exact h
      · rw [if_neg hx]
        exact ih (h.halve x)

/-- With the fuel of a climb, `find` arrives at its root. -/
theorem find_root : ∀ {fuel k : Nat} {parent : α → α} {x : α}, Climbs parent k x r → k ≤ fuel →
    (find fuel parent x).2 = r := by
  intro fuel
  induction fuel with
  | zero =>
      intro k parent x h hk
      obtain rfl : k = 0 := Nat.le_zero.mp hk
      exact h.1
  | succ fuel ih =>
      intro k parent x h hk
      unfold find
      by_cases hx : parent x = x
      · rw [if_pos hx]
        exact h.eq_of_root hx
      · rw [if_neg hx]
        have hbelow : Function.update parent x (parent (parent x)) x ≠ x := by
          rw [Function.update_self]
          exact h.grandparent_ne hx
        obtain ⟨j, rfl, hj⟩ := (h.halve x).pred hbelow
        exact ih hj (by omega)

end Climbs

/-! ## The classes of a forest -/

/-- Two elements have one root iff the pairs of `r` connect them, and no root is
more than `n` steps away. -/
def Represents (n : Nat) (r : α → α → Prop) (parent : α → α) : Prop :=
  ∃ root : α → α, (∀ x, Climbs parent n x (root x)) ∧
    ∀ x y, root x = root y ↔ Relation.EqvGen r x y

omit [DecidableEq α] in
theorem represents_id : Represents 0 (fun _ _ : α => False) id := by
  refine ⟨id, fun x => Climbs.refl rfl, fun x y => ?_⟩
  constructor
  · rintro rfl
    exact .refl _
  · intro h
    induction h with
    | rel _ _ hr => exact hr.elim
    | refl _ => rfl
    | symm _ _ _ ih => exact ih.symm
    | trans _ _ _ _ _ ih ih' => exact ih.trans ih'

omit [DecidableEq α] in
/-- What is symmetric, transitive and true of every pair holds along every chain of pairs. -/
theorem eqvGen_imp {r s : α → α → Prop} (hrel : ∀ {x y}, r x y → s x y)
    (hsymm : ∀ {x y}, s x y → s y x) (htrans : ∀ {x y z}, s x y → s y z → s x z) {x y : α}
    (h : Relation.EqvGen r x y) : x = y ∨ s x y := by
  induction h with
  | rel a b hr => exact Or.inr (hrel hr)
  | refl a => exact Or.inl rfl
  | symm a b _ ih =>
      rcases ih with rfl | ih
      · exact Or.inl rfl
      · exact Or.inr (hsymm ih)
  | trans a b d _ _ ih ih' =>
      rcases ih with rfl | ih
      · exact ih'
      · rcases ih' with rfl | ih'
        · exact Or.inr ih
        · exact Or.inr (htrans ih ih')

section Represents

variable {n fuel : Nat} {r : α → α → Prop} {parent : α → α} {left right : α}

omit [DecidableEq α] in
theorem Represents.congr (h : Represents n r parent) {r' : α → α → Prop}
    (hr : ∀ x y, r x y ↔ r' x y) : Represents n r' parent := by
  have heq : r = r' := funext fun x => funext fun y => propext (hr x y)
  exact heq ▸ h

/-- The relation `r` with one more pair. -/
def WithPair (r : α → α → Prop) (left right x y : α) : Prop := r x y ∨ (x = left ∧ y = right)

omit [DecidableEq α] in
theorem eqvGen_withPair {x y : α} (h : Relation.EqvGen r x y) :
    Relation.EqvGen (WithPair r left right) x y :=
  h.mono fun _ _ => Or.inl

omit [DecidableEq α] in
theorem eqvGen_pair : Relation.EqvGen (WithPair r left right) left right :=
  .rel _ _ (Or.inr ⟨rfl, rfl⟩)

/-- Sending the class of `right` to the root of `left` gives the classes of the
relation with the pair added. -/
theorem merged_classes {root : α → α} (hroot : ∀ x y, root x = root y ↔ Relation.EqvGen r x y)
    (x y : α) :
    (if root x = root right then root left else root x) =
        (if root y = root right then root left else root y) ↔
      Relation.EqvGen (WithPair r left right) x y := by
  constructor
  · intro h
    -- the elements of the class of `right` are linked to `left` through the new pair
    have toLeft : ∀ z, root z = root right → Relation.EqvGen (WithPair r left right) left z := by
      intro z hz
      exact .trans _ _ _ eqvGen_pair (.symm _ _ (eqvGen_withPair ((hroot z right).mp hz)))
    by_cases hx : root x = root right
    · rw [if_pos hx] at h
      by_cases hy : root y = root right
      · exact eqvGen_withPair ((hroot x y).mp (hx.trans hy.symm))
      · rw [if_neg hy] at h
        exact .trans _ _ _ (.symm _ _ (toLeft x hx)) (eqvGen_withPair ((hroot left y).mp h))
    · rw [if_neg hx] at h
      by_cases hy : root y = root right
      · rw [if_pos hy] at h
        exact .trans _ _ _ (eqvGen_withPair ((hroot x left).mp h)) (toLeft y hy)
      · rw [if_neg hy] at h
        exact eqvGen_withPair ((hroot x y).mp h)
  · intro h
    induction h with
    | rel a b hr =>
        rcases hr with hr | ⟨rfl, rfl⟩
        · rw [(hroot a b).mpr (.rel _ _ hr)]
        · rw [if_pos rfl]
          by_cases hl : root a = root b
          · rw [if_pos hl]
          · rw [if_neg hl]
    | refl _ => rfl
    | symm _ _ _ ih => exact ih.symm
    | trans _ _ _ _ _ ih ih' => exact ih.trans ih'

theorem Represents.union (h : Represents n r parent) (hn : n ≤ fuel) :
    Represents (n + 1) (WithPair r left right) (union fuel parent left right) := by
  obtain ⟨root, hclimbs, hclasses⟩ := h
  have hl : (UnionFind.find fuel parent left).2 = root left := find_root (hclimbs left) hn
  have hafter : ∀ x, Climbs (UnionFind.find fuel parent left).1 n x (root x) :=
    fun x => find_climbs (hclimbs x)
  have hr : (UnionFind.find fuel (UnionFind.find fuel parent left).1 right).2 = root right :=
    find_root (hafter right) hn
  have hdone : ∀ x, Climbs (UnionFind.find fuel (UnionFind.find fuel parent left).1 right).1 n x
      (root x) := fun x => find_climbs (hafter x)
  refine ⟨fun x => if root x = root right then root left else root x, fun x => ?_,
    merged_classes hclasses⟩
  unfold UnionFind.union
  simp only [hl, hr]
  by_cases hsame : root left = root right
  · rw [if_pos hsame]
    have hx : (if root x = root right then root left else root x) = root x := by
      by_cases h : root x = root right
      · rw [if_pos h, h, hsame]
      · rw [if_neg h]
    rw [hx]
    exact (hdone x).mono (Nat.le_succ n)
  · rw [if_neg hsame]
    exact (hdone x).redirect (hdone left).2 (hdone right).2 hsame

end Represents

end Etlantic.UnionFind
