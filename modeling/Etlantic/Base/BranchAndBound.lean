import Mathlib.Data.List.Forall2
import Mathlib.Data.List.Lex
import Mathlib.Order.Lattice

/-!
# Branch and bound

A depth-first search over complete choices, one option for each level, that
keeps the best choice so far and cuts off a prefix whose bound is not below it.
Opening a node, scoring a choice and keeping it are given by the problem: each
may raise, and may use up a resource that the search carries along.

The search finds what trying every choice in the same order finds, as long as
the bound of a prefix is below the scores of all its completions.
-/

namespace Etlantic.BranchAndBound

universe u v w

variable {α : Type u} {κ : Type v} {τ : Type w} {ρ ε : Type}

/-- The complete choices, in the order the search tries them. -/
def completions : List (List α) → List (List α)
  | [] => [[]]
  | options :: rest => options.flatMap fun x => (completions rest).map (x :: ·)

/-- The best choice so far, with its score. -/
abbrev Best (α : Type u) (κ : Type v) := Option (κ × List α)

structure Search (α : Type u) (κ : Type v) (τ : Type w) (ρ ε : Type) where
  /-- Open the node of a prefix: its bound, if there is one, and what `leave` gives back. -/
  enter : List α → τ → Except ε (Option κ × ρ × τ)
  leave : ρ → τ → τ
  /-- The score of a complete choice; none for one that is not allowed. -/
  value : List α → Except ε (Option κ)
  /-- Keep a new best choice. -/
  record : List α → κ → τ → Except ε τ

section Defs

variable [LinearOrder κ]

/-- The score beats the best so far. -/
def improves (best : Best α κ) (score : κ) : Bool := best.all fun b => score < b.1

/-- The bound leaves nothing to find below a prefix. -/
def cutsOff (best : Best α κ) (bound : Option κ) : Bool :=
  best.any fun b => bound.any fun key => b.1 ≤ key

/-- What a search does with a complete choice. -/
def Search.settle (S : Search α κ τ ρ ε) (chosen : List α) (st : τ × Best α κ) :
    Except ε (τ × Best α κ) :=
  match S.value chosen with
  | .error error => .error error
  | .ok none => .ok st
  | .ok (some score) =>
      if improves st.2 score then
        match S.record chosen score st.1 with
        | .error error => .error error
        | .ok resource => .ok (resource, some (score, chosen))
      else .ok st

/-- The node of a prefix: its body runs unless the bound cuts it off. -/
def Search.node (S : Search α κ τ ρ ε) (chosen : List α)
    (body : τ × Best α κ → Except ε (τ × Best α κ)) (st : τ × Best α κ) :
    Except ε (τ × Best α κ) :=
  match S.enter chosen st.1 with
  | .error error => .error error
  | .ok (bound, receipt, resource) =>
      if cutsOff st.2 bound then .ok (S.leave receipt resource, st.2)
      else
        match body (resource, st.2) with
        | .error error => .error error
        | .ok st => .ok (S.leave receipt st.1, st.2)

def Search.visit (S : Search α κ τ ρ ε) :
    List (List α) → List α → τ × Best α κ → Except ε (τ × Best α κ)
  | [], chosen, st => S.node chosen (S.settle chosen) st
  | options :: rest, chosen, st =>
      S.node chosen (options.foldlM fun st x => S.visit rest (chosen ++ [x]) st) st

/-! ## Trying every choice -/

/-- The better of the best choice so far and one more. -/
def better (score : List α → Option κ) (best : Best α κ) (x : List α) : Best α κ :=
  match score x with
  | none => best
  | some key => if improves best key then some (key, x) else best

/-- The best of a list of choices, and the first of several. -/
def select (score : List α → Option κ) (choices : List (List α)) (best : Best α κ) : Best α κ :=
  choices.foldl (better score) best

/-- A fact about every node of a search: about its open levels and its prefix. -/
def Everywhere (node : List (List α) → List α → Prop) : List (List α) → List α → Prop
  | [], chosen => node [] chosen
  | options :: rest, chosen =>
      node (options :: rest) chosen ∧ ∀ x ∈ options, Everywhere node rest (chosen ++ [x])

/-- The bound of a prefix is admissible, and a complete choice has its score. -/
structure Search.Admissible (S : Search α κ τ ρ ε) (score : List α → Option κ)
    (levels : List (List α)) (chosen : List α) : Prop where
  bound : ∀ st bound receipt st', S.enter chosen st = .ok (some bound, receipt, st') →
    ∀ tail ∈ completions levels, ∀ key, score (chosen ++ tail) = some key → bound ≤ key
  value : levels = [] → S.value chosen = .ok (score chosen)

/-- What opening a node and scoring it can raise. -/
structure Search.Raises (S : Search α κ τ ρ ε) (P : ε → Prop) (levels : List (List α))
    (chosen : List α) : Prop where
  enter : ∀ st error, S.enter chosen st = .error error → P error
  value : levels = [] → ∀ error, S.value chosen = .error error → P error

end Defs

section Rules

variable [LinearOrder κ] {score : List α → Option κ} {best : Best α κ}

theorem mem_completions : ∀ {levels : List (List α)} {choice : List α},
    choice ∈ completions levels ↔ List.Forall₂ (fun options x => x ∈ options) levels choice
  | [], choice => by
      rw [completions, List.mem_singleton]
      constructor
      · rintro rfl
        exact .nil
      · rintro ⟨⟩
        rfl
  | options :: rest, choice => by
      simp only [completions, List.mem_flatMap, List.mem_map]
      constructor
      · rintro ⟨x, hx, tail, htail, rfl⟩
        exact .cons hx (mem_completions.mp htail)
      · rintro (_ | ⟨hx, htail⟩)
        exact ⟨_, hx, _, mem_completions.mpr htail, rfl⟩

/-- A choice for nodes with different names is a function of the names. -/
theorem exists_pick {ι : Type w} [DecidableEq ι] [Nonempty α] {R : ι → α → Prop} :
    ∀ {names : List ι} {choice : List α}, names.Nodup → List.Forall₂ R names choice →
      ∃ pick : ι → α, choice = names.map pick ∧ ∀ name ∈ names, R name (pick name)
  | [], _, _, .nil => ⟨fun _ => Classical.arbitrary α, rfl, fun _ hmem => (nomatch hmem)⟩
  | name :: names, x :: _, hnodup, .cons hx hrest => by
      obtain ⟨hname, hnodup⟩ := List.nodup_cons.mp hnodup
      obtain ⟨pick, rfl, hpick⟩ := exists_pick hnodup hrest
      have hother : ∀ other ∈ names, Function.update pick name x other = pick other := by
        intro other hmem
        have hne : other ≠ name := fun h => hname (h ▸ hmem)
        exact Function.update_of_ne hne x pick
      refine ⟨Function.update pick name x, ?_, List.forall_mem_cons.mpr ⟨?_, fun other hmem => ?_⟩⟩
      · rw [List.map_cons, Function.update_self, List.map_congr_left hother]
      · rwa [Function.update_self]
      · rw [hother other hmem]
        exact hpick other hmem

/-- A bound that is below a score in each component is below it in the lexicographic order. -/
theorem le_of_forall₂ : ∀ {xs ys : List κ}, List.Forall₂ (· ≤ ·) xs ys → xs ≤ ys
  | [], _, .nil => le_refl _
  | x :: xs, y :: ys, .cons hxy hrest => by
      rw [← not_lt]
      intro hlt
      rcases List.cons_lt_cons_iff.mp hlt with hhead | ⟨-, htail⟩
      · exact absurd hxy (not_le.mpr hhead)
      · exact absurd (le_of_forall₂ hrest) (not_le.mpr htail)

/-- The nodes of a search have prefixes that are choices from the levels closed so far. -/
theorem everywhere_of {node : List (List α) → List α → Prop} {all : List (List α)}
    (h : ∀ before levels chosen, before ++ levels = all → chosen ∈ completions before →
      node levels chosen) : Everywhere node all [] := by
  suffices hnode : ∀ levels before chosen, before ++ levels = all → chosen ∈ completions before →
      Everywhere node levels chosen from
    hnode all [] [] rfl List.mem_cons_self
  intro levels
  induction levels with
  | nil =>
      intro before chosen hall hchosen
      exact h before [] chosen hall hchosen
  | cons options rest ih =>
      intro before chosen hall hchosen
      refine ⟨h before _ chosen hall hchosen, fun x hx => ih (before ++ [options]) _ ?_ ?_⟩
      · rw [List.append_assoc]
        exact hall
      · exact mem_completions.mpr
          (List.rel_append (mem_completions.mp hchosen) (.cons hx .nil))

theorem select_append (xs ys : List (List α)) (best : Best α κ) :
    select score (xs ++ ys) best = select score ys (select score xs best) :=
  List.foldl_append

/-- Choices whose scores do not beat the best so far change nothing. -/
theorem select_eq_self {choices : List (List α)} {b : κ × List α}
    (h : ∀ x ∈ choices, ∀ key, score x = some key → b.1 ≤ key) :
    select score choices (some b) = some b := by
  induction choices with
  | nil => rfl
  | cons x rest ih =>
      have hkeep : better score (some b) x = some b := by
        unfold better
        cases hkey : score x with
        | none => rfl
        | some key =>
            have := h x List.mem_cons_self key hkey
            simp [improves, not_lt.mpr this]
      show select score rest (better score (some b) x) = some b
      rw [hkeep]
      exact ih fun y hmem => h y (List.mem_cons_of_mem _ hmem)

/-- What a selection finds: nothing among forbidden choices, else a least score. -/
theorem select_spec : ∀ {choices : List (List α)} {best : Best α κ},
    (select score choices best = none → best = none ∧ ∀ x ∈ choices, score x = none) ∧
    ∀ key x, select score choices best = some (key, x) →
      (best = some (key, x) ∨ x ∈ choices ∧ score x = some key) ∧
      (∀ b ∈ best, key ≤ b.1) ∧ ∀ y ∈ choices, ∀ key', score y = some key' → key ≤ key'
  | [], best => by
      refine ⟨fun h => ⟨h, fun _ hmem => nomatch hmem⟩, fun key x h => ⟨.inl h, ?_, fun _ hmem => nomatch hmem⟩⟩
      intro b hb
      obtain rfl : b = (key, x) := Option.some.inj (Option.mem_def.mp hb ▸ h)
      exact le_refl _
  | y :: rest, best => by
      obtain ⟨hnone, hsome⟩ := @select_spec rest (better score best y)
      have hstep : select score (y :: rest) best = select score rest (better score best y) := rfl
      rw [hstep]
      cases hy : score y with
      | none =>
          have hkeep : better score best y = best := by
            unfold better
            rw [hy]
          rw [hkeep] at hnone hsome ⊢
          constructor
          · intro h
            obtain ⟨hbest, hrest⟩ := hnone h
            exact ⟨hbest, List.forall_mem_cons.mpr ⟨hy, hrest⟩⟩
          · intro key x h
            obtain ⟨horigin, hle, hrest⟩ := hsome key x h
            refine ⟨horigin.imp_right fun h => ⟨List.mem_cons_of_mem _ h.1, h.2⟩, hle, ?_⟩
            refine List.forall_mem_cons.mpr ⟨fun key' hkey' => ?_, hrest⟩
            rw [hy] at hkey'
            cases hkey'
      | some keyY =>
          by_cases himproves : improves best keyY = true
          · have hnew : better score best y = some (keyY, y) := by
              unfold better
              rw [hy]
              exact if_pos himproves
            rw [hnew] at hnone hsome ⊢
            constructor
            · intro h
              cases (hnone h).1
            · intro key x h
              obtain ⟨horigin, hle, hrest⟩ := hsome key x h
              have hkeyY : key ≤ keyY := hle _ rfl
              refine ⟨.inr ?_, fun b hb => ?_, List.forall_mem_cons.mpr ⟨fun key' hkey' => ?_, hrest⟩⟩
              · rcases horigin with hsame | ⟨hmem, hscore⟩
                · cases hsame
                  exact ⟨List.mem_cons_self, hy⟩
                · exact ⟨List.mem_cons_of_mem _ hmem, hscore⟩
              · obtain rfl := Option.mem_def.mp hb
                have hlt : keyY < b.1 := by simpa [improves] using himproves
                exact hkeyY.trans hlt.le
              · obtain rfl := Option.some.inj (hy.symm.trans hkey')
                exact hkeyY
          · have hkeep : better score best y = best := by
              unfold better
              rw [hy]
              exact if_neg himproves
            rw [hkeep] at hnone hsome ⊢
            obtain ⟨b, rfl, hb⟩ : ∃ b, best = some b ∧ b.1 ≤ keyY := by
              cases best with
              | none => exact absurd rfl himproves
              | some b => exact ⟨b, rfl, not_lt.mp (by simpa [improves] using himproves)⟩
            constructor
            · intro h
              cases (hnone h).1
            · intro key x h
              obtain ⟨horigin, hle, hrest⟩ := hsome key x h
              refine ⟨horigin.imp_right fun h => ⟨List.mem_cons_of_mem _ h.1, h.2⟩, hle, ?_⟩
              refine List.forall_mem_cons.mpr ⟨fun key' hkey' => ?_, hrest⟩
              obtain rfl := Option.some.inj (hy.symm.trans hkey')
              exact (hle b rfl).trans hb

theorem Search.settle_eq_better {S : Search α κ τ ρ ε} {chosen : List α} {st st' : τ × Best α κ}
    (hvalue : S.value chosen = .ok (score chosen)) (h : S.settle chosen st = .ok st') :
    st'.2 = better score st.2 chosen := by
  unfold Search.settle at h
  rw [hvalue] at h
  unfold better
  cases hscore : score chosen with
  | none =>
      rw [hscore] at h
      obtain rfl := Except.ok.inj h
      rfl
  | some key =>
      rw [hscore] at h
      dsimp only at h ⊢
      split at h
      · rename_i himproves
        rw [if_pos himproves]
        split at h
        · cases h
        · obtain rfl := Except.ok.inj h
          rfl
      · rename_i hkeep
        rw [if_neg hkeep]
        obtain rfl := Except.ok.inj h
        rfl

/-- A node that is cut off has no completion that beats the best so far. -/
theorem select_of_cutsOff {bound : Option κ} {choices : List (List α)}
    (hcut : cutsOff best bound = true)
    (hbound : ∀ key, bound = some key → ∀ x ∈ choices, ∀ key', score x = some key' → key ≤ key') :
    select score choices best = best := by
  unfold cutsOff at hcut
  obtain ⟨b, rfl, hb⟩ : ∃ b, best = some b ∧ bound.any (fun key => b.1 ≤ key) = true := by
    cases best with
    | none => cases hcut
    | some b => exact ⟨b, rfl, hcut⟩
  obtain ⟨key, rfl, hkey⟩ : ∃ key, bound = some key ∧ b.1 ≤ key := by
    cases bound with
    | none => cases hb
    | some key => exact ⟨key, rfl, by simpa using hb⟩
  exact select_eq_self fun x hmem key' hkey' => hkey.trans (hbound key rfl x hmem key' hkey')

/-- A node does what its body does, also when it is cut off. -/
theorem Search.node_eq_select {S : Search α κ τ ρ ε} {chosen : List α} {choices : List (List α)}
    {body : τ × Best α κ → Except ε (τ × Best α κ)} {st st' : τ × Best α κ}
    (hbound : ∀ st bound receipt st', S.enter chosen st = .ok (some bound, receipt, st') →
      ∀ x ∈ choices, ∀ key, score x = some key → bound ≤ key)
    (hbody : ∀ st st', body st = .ok st' → st'.2 = select score choices st.2)
    (h : S.node chosen body st = .ok st') : st'.2 = select score choices st.2 := by
  unfold Search.node at h
  split at h
  · cases h
  · rename_i bound receipt resource henter
    split at h
    · rename_i hcut
      obtain rfl := Except.ok.inj h
      refine (select_of_cutsOff hcut fun key hkey x hmem key' hkey' => ?_).symm
      subst hkey
      exact hbound st.1 key receipt resource henter x hmem key' hkey'
    · split at h
      · cases h
      · rename_i last hlast
        obtain rfl := Except.ok.inj h
        have hkept := hbody (resource, st.2) last hlast
        exact hkept

/-- A search that may raise, over the options of one level. -/
theorem foldlM_eq_select {visit : α → τ × Best α κ → Except ε (τ × Best α κ)}
    {choices : α → List (List α)} : ∀ {options : List α} {st st' : τ × Best α κ},
    (∀ x ∈ options, ∀ st st', visit x st = .ok st' → st'.2 = select score (choices x) st.2) →
    options.foldlM (fun st x => visit x st) st = .ok st' →
    st'.2 = select score (options.flatMap choices) st.2
  | [], st, st', _, h => by
      obtain rfl := Except.ok.inj h
      rfl
  | x :: rest, st, st', hvisit, h => by
      rw [List.foldlM_cons] at h
      cases hx : visit x st with
      | error error =>
          rw [hx] at h
          cases h
      | ok middle =>
          rw [hx] at h
          have hrest := foldlM_eq_select (fun y hmem => hvisit y (List.mem_cons_of_mem _ hmem)) h
          rw [hrest, List.flatMap_cons, select_append,
            hvisit x List.mem_cons_self st middle hx]

/-- An admissible search finds what trying every completion finds. -/
theorem Search.visit_eq_select {S : Search α κ τ ρ ε} {levels : List (List α)}
    {chosen : List α} {st st' : τ × Best α κ}
    (hS : Everywhere (S.Admissible score) levels chosen)
    (h : S.visit levels chosen st = .ok st') :
    st'.2 = select score ((completions levels).map (chosen ++ ·)) st.2 := by
  induction levels generalizing chosen st st' with
  | nil =>
      have hvalue := hS.value rfl
      simp only [completions, List.map_cons, List.map_nil, List.append_nil]
      refine S.node_eq_select (fun st bound receipt st' henter x hmem => ?_) (fun st st' h => ?_) h
      · obtain rfl := List.mem_singleton.mp hmem
        have hbound := hS.bound st bound receipt st' henter [] List.mem_cons_self
        rwa [List.append_nil] at hbound
      · exact S.settle_eq_better hvalue h
  | cons options rest ih =>
      obtain ⟨hbound, hrest⟩ := hS
      refine S.node_eq_select (fun st bound receipt st' henter x hmem => ?_) (fun st st' h => ?_) h
      · obtain ⟨tail, htail, rfl⟩ := List.mem_map.mp hmem
        exact hbound.bound st bound receipt st' henter tail htail
      · have hvisit : ∀ x ∈ options, ∀ st st', S.visit rest (chosen ++ [x]) st = .ok st' →
            st'.2 = select score ((completions rest).map ((chosen ++ [x]) ++ ·)) st.2 :=
          fun x hmem st st' h => ih (hrest x hmem) h
        rw [foldlM_eq_select hvisit h]
        congr 1
        simp [completions, List.map_flatMap, Function.comp_def]

/-- What an admissible search returns: nothing if no completion is allowed, else one
of least score. -/
theorem Search.visit_spec {S : Search α κ τ ρ ε} {levels : List (List α)} {st st' : τ × Best α κ}
    (hS : Everywhere (S.Admissible score) levels []) (hstart : st.2 = none)
    (h : S.visit levels [] st = .ok st') :
    (st'.2 = none → ∀ x ∈ completions levels, score x = none) ∧
      ∀ key x, st'.2 = some (key, x) → x ∈ completions levels ∧ score x = some key ∧
        ∀ y ∈ completions levels, ∀ key', score y = some key' → key ≤ key' := by
  have hselect := S.visit_eq_select hS h
  simp only [List.nil_append, List.map_id'] at hselect
  rw [hstart] at hselect
  obtain ⟨hnone, hsome⟩ := @select_spec _ _ _ score (completions levels) none
  constructor
  · intro hempty
    exact (hnone (hselect.symm.trans hempty)).2
  · intro key x hbest
    obtain ⟨horigin, -, hleast⟩ := hsome key x (hselect.symm.trans hbest)
    rcases horigin with hnever | ⟨hmem, hscore⟩
    · cases hnever
    · exact ⟨hmem, hscore, hleast⟩

/-- What a whole search can raise. -/
theorem Search.visit_error {S : Search α κ τ ρ ε} {P : ε → Prop} {levels : List (List α)}
    {chosen : List α} {st : τ × Best α κ} {error : ε}
    (hrecord : ∀ chosen key st error, S.record chosen key st = .error error → P error)
    (hS : Everywhere (S.Raises P) levels chosen) (h : S.visit levels chosen st = .error error) :
    P error := by
  have hnode : ∀ {chosen : List α} {body : τ × Best α κ → Except ε (τ × Best α κ)}
      {st : τ × Best α κ}, (∀ st error, S.enter chosen st = .error error → P error) →
      (∀ st, body st = .error error → P error) → S.node chosen body st = .error error → P error := by
    intro chosen body st henter hbody h
    unfold Search.node at h
    split at h
    · rename_i hraised
      obtain rfl := Except.error.inj h
      exact henter st.1 _ hraised
    · split at h
      · cases h
      · split at h
        · rename_i hraised
          obtain rfl := Except.error.inj h
          exact hbody _ hraised
        · cases h
  induction levels generalizing chosen st with
  | nil =>
      refine hnode hS.enter (fun st hraised => ?_) h
      unfold Search.settle at hraised
      split at hraised
      · rename_i hvalue
        obtain rfl := Except.error.inj hraised
        exact hS.value rfl _ hvalue
      · cases hraised
      · split at hraised
        · split at hraised
          · rename_i hkeep
            obtain rfl := Except.error.inj hraised
            exact hrecord _ _ _ _ hkeep
          · cases hraised
        · cases hraised
  | cons options rest ih =>
      obtain ⟨hhere, hrest⟩ := hS
      refine hnode hhere.enter (fun st hraised => ?_) h
      clear h
      induction options generalizing st with
      | nil => cases hraised
      | cons x others ihOptions =>
          rw [List.foldlM_cons] at hraised
          cases hx : S.visit rest (chosen ++ [x]) st with
          | error raised =>
              rw [hx] at hraised
              obtain rfl := Except.error.inj hraised
              exact ih (hrest x List.mem_cons_self) hx
          | ok middle =>
              rw [hx] at hraised
              exact ihOptions ⟨hhere.enter, fun h => nomatch h⟩
                (fun y hmem => hrest y (List.mem_cons_of_mem _ hmem)) middle hraised

end Rules

end Etlantic.BranchAndBound
