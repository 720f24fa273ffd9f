import Mathlib.Data.List.Forall2

/-!
# Computations that may raise
-/

namespace Etlantic.Checked

variable {α β ε : Type}

theorem map_eq_ok {f : α → β} {x : Except ε α} {y : β} (h : x.map f = .ok y) :
    ∃ a, x = .ok a ∧ f a = y := by
  cases x with
  | error error => cases h
  | ok a => exact ⟨a, rfl, Except.ok.inj h⟩

@[simp] theorem ok_bind (a : α) (f : α → Except ε β) : ((.ok a : Except ε α) >>= f) = f a := rfl

theorem bind_eq_ok {x : Except ε α} {f : α → Except ε β} {y : β} :
    (x >>= f) = .ok y ↔ ∃ a, x = .ok a ∧ f a = .ok y := by
  cases x with
  | error error => exact ⟨fun h => (nomatch h), fun ⟨_, h, _⟩ => (nomatch h)⟩
  | ok a => exact ⟨fun h => ⟨a, rfl, h⟩, fun ⟨_, ha, h⟩ => Except.ok.inj ha ▸ h⟩

/-- The last step of a loop that raises nowhere. -/
theorem foldlM_concat_ok {f : β → α → Except ε β} {xs : List α} {a : α} {b c : β}
    (h : (xs ++ [a]).foldlM f b = .ok c) :
    ∃ before, xs.foldlM f b = .ok before ∧ f before a = .ok c := by
  rw [List.foldlM_append, bind_eq_ok] at h
  obtain ⟨before, hbefore, h⟩ := h
  rw [List.foldlM_cons, bind_eq_ok] at h
  obtain ⟨last, hlast, h⟩ := h
  obtain rfl := Except.ok.inj h
  exact ⟨before, hbefore, hlast⟩

theorem forall₂_of_mapM {f : α → Except ε β} : ∀ {xs : List α} {ys : List β},
    xs.mapM f = .ok ys → List.Forall₂ (fun x y => f x = .ok y) xs ys
  | [], ys, h => by
      rw [List.mapM_nil] at h
      obtain rfl := Except.ok.inj h
      exact .nil
  | x :: xs, ys, h => by
      rw [List.mapM_cons] at h
      obtain ⟨y, hy, h⟩ := bind_eq_ok.mp h
      obtain ⟨rest, hrest, h⟩ := bind_eq_ok.mp h
      obtain rfl := Except.ok.inj h
      exact .cons hy (forall₂_of_mapM hrest)

theorem exists_of_forall₂ {R : α → β → Prop} {xs : List α} {ys : List β}
    (h : List.Forall₂ R xs ys) {x : α} (hx : x ∈ xs) : ∃ y ∈ ys, R x y := by
  induction h with
  | nil => cases hx
  | cons hxy _ ih =>
      rcases List.mem_cons.mp hx with rfl | hx
      · exact ⟨_, List.mem_cons_self, hxy⟩
      · obtain ⟨y, hy, hR⟩ := ih hx
        exact ⟨y, List.mem_cons_of_mem _ hy, hR⟩

theorem exists_of_forall₂_right {R : α → β → Prop} {xs : List α} {ys : List β}
    (h : List.Forall₂ R xs ys) {y : β} (hy : y ∈ ys) : ∃ x ∈ xs, R x y :=
  exists_of_forall₂ (List.Forall₂.flip (R := flip R) h) hy

/-- A traversal that raises nowhere has a result for every element. -/
theorem ok_of_mapM {f : α → Except ε β} {xs : List α} {ys : List β} (h : xs.mapM f = .ok ys) :
    ∀ x ∈ xs, ∃ y ∈ ys, f x = .ok y :=
  fun _ hmem => exists_of_forall₂ (forall₂_of_mapM h) hmem

/-- The results of a traversal that raises nowhere. -/
theorem mem_of_mapM {f : α → Except ε β} {xs : List α} {ys : List β} (h : xs.mapM f = .ok ys) :
    ∀ y ∈ ys, ∃ x ∈ xs, f x = .ok y :=
  fun _ hmem => exists_of_forall₂_right (forall₂_of_mapM h) hmem

theorem mem_mapM_iff {f : α → Except ε β} {xs : List α} {ys : List β} (h : xs.mapM f = .ok ys)
    {y : β} : y ∈ ys ↔ ∃ x ∈ xs, f x = .ok y := by
  refine ⟨mem_of_mapM h y, ?_⟩
  rintro ⟨x, hx, hy⟩
  obtain ⟨y', hmem, hy'⟩ := ok_of_mapM h x hx
  rwa [Except.ok.inj (hy.symm.trans hy')]

/-- A traversal raises what some element raises. -/
theorem error_of_mapM {f : α → Except ε β} {error : ε} : ∀ {xs : List α},
    xs.mapM f = .error error → ∃ x ∈ xs, f x = .error error
  | [], h => by
      rw [List.mapM_nil] at h
      cases h
  | x :: xs, h => by
      rw [List.mapM_cons] at h
      cases hx : f x with
      | error first =>
          rw [hx] at h
          obtain rfl := Except.error.inj h
          exact ⟨x, List.mem_cons_self, hx⟩
      | ok y =>
          rw [hx, ok_bind] at h
          cases hxs : xs.mapM f with
          | error later =>
              rw [hxs] at h
              obtain rfl := Except.error.inj h
              obtain ⟨z, hz, hfz⟩ := error_of_mapM hxs
              exact ⟨z, List.mem_cons_of_mem _ hz, hfz⟩
          | ok ys =>
              rw [hxs] at h
              cases h

theorem forall₂_and {R : α → β → Prop} {Q : β → Prop} {xs : List α} {ys : List β}
    (h : List.Forall₂ R xs ys) (hall : ∀ y ∈ ys, Q y) :
    List.Forall₂ (fun x y => R x y ∧ Q y) xs ys := by
  induction h with
  | nil => exact .nil
  | cons hxy _ ih =>
      exact .cons ⟨hxy, hall _ List.mem_cons_self⟩ (ih fun y hy => hall y (List.mem_cons_of_mem _ hy))

/-- A traversal raises nowhere if no element makes it raise. -/
theorem exists_mapM {f : α → Except ε β} {R : α → β → Prop} : ∀ {xs : List α},
    (∀ x ∈ xs, ∃ y, f x = .ok y ∧ R x y) → ∃ ys, xs.mapM f = .ok ys ∧ List.Forall₂ R xs ys
  | [], _ => ⟨[], List.mapM_nil, .nil⟩
  | x :: xs, h => by
      obtain ⟨y, hy, hR⟩ := h x List.mem_cons_self
      obtain ⟨ys, hys, hRs⟩ := exists_mapM fun z hmem => h z (List.mem_cons_of_mem _ hmem)
      refine ⟨y :: ys, ?_, .cons hR hRs⟩
      rw [List.mapM_cons, hy, hys]
      rfl

theorem mapM_eq_map {f : α → Except ε β} {g : α → β} {xs : List α}
    (h : ∀ x ∈ xs, f x = .ok (g x)) : xs.mapM f = .ok (xs.map g) := by
  obtain ⟨ys, hys, hrel⟩ := exists_mapM (R := fun x y => g x = y) fun x hmem => ⟨g x, h x hmem, rfl⟩
  have heq : List.Forall₂ (· = ·) (xs.map g) ys := List.forall₂_map_left_iff.mpr hrel
  rw [List.forall₂_eq_eq_eq] at heq
  rw [hys, heq]

/-- A traversal with a result at every element. -/
theorem forall₂_of_mapM_some {f : α → Option β} : ∀ {xs : List α} {ys : List β},
    xs.mapM f = some ys → List.Forall₂ (fun x y => f x = some y) xs ys
  | [], ys, h => by
      rw [List.mapM_nil] at h
      obtain rfl := Option.some.inj h
      exact .nil
  | x :: xs, ys, h => by
      rw [List.mapM_cons] at h
      obtain ⟨y, hy, h⟩ := Option.bind_eq_some_iff.mp h
      obtain ⟨rest, hrest, h⟩ := Option.bind_eq_some_iff.mp h
      obtain rfl := Option.some.inj h
      exact .cons hy (forall₂_of_mapM_some hrest)

/-! ## Checks -/

/-- `if bad: raise error`. -/
def refuse (bad : Prop) [Decidable bad] (error : ε) : Except ε Unit :=
  if bad then .error error else .ok ()

/-- `for x in xs: check(x)`. -/
def each (check : α → Except ε Unit) : List α → Except ε Unit
  | [] => .ok ()
  | x :: xs => do
      check x
      each check xs

theorem refuse_eq_ok {bad : Prop} [Decidable bad] {error : ε} :
    refuse bad error = .ok () ↔ ¬ bad := by
  unfold refuse
  by_cases h : bad
  · rw [if_pos h]
    refine iff_of_false ?_ (not_not_intro h)
    intro hok
    cases hok
  · rw [if_neg h]
    exact iff_of_true rfl h

theorem andThen_eq_ok {x y : Except ε Unit} :
    (x >>= fun _ => y) = .ok () ↔ x = .ok () ∧ y = .ok () := by
  cases x with
  | error error =>
      refine iff_of_false ?_ ?_
      · intro hok
        cases hok
      · rintro ⟨hok, -⟩
        cases hok
  | ok done => exact (and_iff_right rfl).symm

theorem each_eq_ok {check : α → Except ε Unit} : ∀ {xs : List α},
    each check xs = .ok () ↔ ∀ x ∈ xs, check x = .ok ()
  | [] => iff_of_true rfl (by intro x h; cases h)
  | x :: xs => by
      show (check x >>= fun _ => each check xs) = _ ↔ _
      rw [andThen_eq_ok, each_eq_ok, List.forall_mem_cons]

end Etlantic.Checked
