import Etlantic.Base.Checked
import Etlantic.Plan.Slicing
import Mathlib.Data.List.TakeWhile

/-!
# Run selections

A run request selects steps by kind, and `RunSelection.resolve` lists them in the order
of the declarations.  Most kinds end with the dependency closure and are complete for
every graph.  The others are complete only where the order of the declarations fits the
edges: `until` is a prefix of the declarations, `downstream_of` follows the edges down,
and `between` stops at its end even if its start has not come yet.
-/

namespace Etlantic.Runtime

open Plan (LogicalGraph LogicalNode NodeTags SelectionError IsClosure dependencyClosure
  missingNames runOneSelection runUntilSelection unknownSteps upTo validateSelectionTarget)

inductive SelectionKind where
  | all
  | only
  | until_
  | from_
  | between
  | upstreamOf
  | downstreamOf
  | matching
  /-- Any other text. -/
  | other (text : String)
deriving DecidableEq

structure RunSelection where
  kind : SelectionKind
  nodes : List String
  tags : List String
  start : Option String
  end_ : Option String
deriving DecidableEq

/-- `frozenset(tags)`. -/
def tagSet : NodeTags → Except SelectionError (List String)
  | .items tags => .ok tags
  | .text tags => .ok (tags.toList.map String.singleton)
  | .unusable detail => .error (.typeError detail)

/-- The nodes with one of the tags. -/
def matchedNames (tags : List String) (graph : LogicalGraph) :
    Except SelectionError (List String) := do
  let marks ← graph.nodes.mapM fun node =>
    (tagSet node.tags).map fun found => (node.name, found.any fun tag => tag ∈ tags)
  return (marks.filter Prod.snd).map Prod.fst

/-- The loop of a `between` selection, or none if it does not come to the end step. -/
def scanBetween (start end_ : String) : Bool → List String → Option (List String)
  | _, [] => none
  | started, name :: rest =>
      let started := started || name = start
      let kept := if started then [name] else []
      if name = end_ then some kept else (scanBetween start end_ started rest).map (kept ++ ·)

/-- `assert value is not None`. -/
def required (value : Option String) : Except SelectionError String :=
  match value with
  | none => .error .assertionError
  | some text => .ok text

def RunSelection.resolve (repr : String → String) (s : RunSelection) (graph : LogicalGraph) :
    Except SelectionError (List String) :=
  let names := graph.nodeNames
  match s.kind with
  | .all => .ok names
  | .only =>
      if missingNames graph s.nodes ≠ [] then .error (unknownSteps (missingNames graph s.nodes))
      else dependencyClosure graph s.nodes
  | .until_ => do
      let end_ ← required s.end_
      runUntilSelection repr graph end_
  | .from_ => do
      let start ← required s.start
      validateSelectionTarget repr graph start
      dependencyClosure graph (names.dropWhile fun name => name ≠ start)
  | .between => do
      let start ← required s.start
      let end_ ← required s.end_
      validateSelectionTarget repr graph start
      validateSelectionTarget repr graph end_
      match scanBetween start end_ false names with
      | none => .error (.valueError
          ("End step " ++ repr end_ ++ " does not appear after " ++ repr start))
      | some selected => dependencyClosure graph selected
  | .upstreamOf => do
      let end_ ← required s.end_
      runOneSelection repr graph end_
  | .downstreamOf => do
      let start ← required s.start
      validateSelectionTarget repr graph start
      let seen := Worklist.reached graph.consumers
        (graph.edges.map Plan.LogicalEdge.producerNode) [start]
      return names.filter fun name => name ∈ seen
  | .matching => do
      let matched ← matchedNames s.tags graph
      dependencyClosure graph matched
  | .other text => .error (.valueError ("Unknown selection kind " ++ repr text))

/-! ## Complete selections -/

variable {repr : String → String} {graph : LogicalGraph} {s : RunSelection}
  {names : List String} {name : String}

/-- The selection names the node. -/
def RunSelection.Names (s : RunSelection) (graph : LogicalGraph) (name : String) : Prop :=
  match s.kind with
  | .all => name ∈ graph.nodeNames
  | .only => name ∈ s.nodes
  | .until_ | .upstreamOf => s.end_ = some name
  | .from_ | .downstreamOf => s.start = some name
  | .between => s.start = some name ∨ s.end_ = some name
  | .matching => ∃ node ∈ graph.nodes, node.name = name ∧
      ∃ found, tagSet node.tags = .ok found ∧ ∃ tag ∈ found, tag ∈ s.tags
  | .other _ => False

/-- Declared names in order, each once, with all that are named and all their producers. -/
structure Complete (s : RunSelection) (graph : LogicalGraph) (names : List String) : Prop where
  ordered : names.Sublist graph.nodeNames
  nodup : names.Nodup
  named : ∀ name, s.Names graph name → name ∈ names
  closed : graph.Closed names

def RaisesValueError (result : Except SelectionError (List String)) : Prop :=
  ∃ message, result = .error (.valueError message)

/-- The selection raises a `ValueError` or is complete, and one between two steps raises
just if they are declared the other way round. -/
def RunSelection.Resolves (repr : String → String) (s : RunSelection) (graph : LogicalGraph) :
    Prop :=
  (RaisesValueError (s.resolve repr graph) ∨
    ∃ names, s.resolve repr graph = .ok names ∧ Complete s graph names) ∧
  (s.kind = .between → ∀ start ∈ graph.nodeNames, ∀ end_ ∈ graph.nodeNames,
    s.start = some start → s.end_ = some end_ →
      (RaisesValueError (s.resolve repr graph) ↔
        graph.nodeNames.idxOf end_ < graph.nodeNames.idxOf start))

/-- The order of the declarations and the edges fit the kind of the selection. -/
def RunSelection.Fits (s : RunSelection) (graph : LogicalGraph) : Prop :=
  match s.kind with
  | .until_ => ∃ end_, s.end_ = some end_ ∧
      (end_ ∈ graph.nodeNames → graph.Closed (upTo end_ graph.nodeNames))
  | .from_ => s.start ≠ none
  | .between => ∃ start end_, s.start = some start ∧ s.end_ = some end_ ∧
      (start ∈ graph.nodeNames → end_ ∈ graph.nodeNames →
        graph.nodeNames.idxOf start ≤ graph.nodeNames.idxOf end_)
  | .upstreamOf => s.end_ ≠ none
  | .downstreamOf => ∃ start, s.start = some start ∧ (start ∈ graph.nodeNames →
      ∀ edge ∈ graph.edges, edge.consumerNode ∈ graph.nodeNames →
        edge.producerNode ∈ graph.nodeNames →
        Relation.ReflTransGen graph.Feeds start edge.consumerNode →
        Relation.ReflTransGen graph.Feeds start edge.producerNode)
  | .matching => ∀ node ∈ graph.nodes, ∃ found, tagSet node.tags = .ok found
  | _ => True

/-! ## One kind at a time -/

section Equations

variable (repr graph)

theorem resolve_all (hkind : s.kind = .all) : s.resolve repr graph = .ok graph.nodeNames := by
  unfold RunSelection.resolve
  rw [hkind]

theorem resolve_only (hkind : s.kind = .only) :
    s.resolve repr graph = if missingNames graph s.nodes ≠ [] then
      .error (unknownSteps (missingNames graph s.nodes)) else dependencyClosure graph s.nodes := by
  unfold RunSelection.resolve
  rw [hkind]

theorem resolve_until (hkind : s.kind = .until_) :
    s.resolve repr graph =
      (required s.end_ >>= fun end_ => runUntilSelection repr graph end_) := by
  unfold RunSelection.resolve
  rw [hkind]

theorem resolve_from (hkind : s.kind = .from_) :
    s.resolve repr graph = (required s.start >>= fun start =>
      validateSelectionTarget repr graph start >>= fun _ =>
        dependencyClosure graph (graph.nodeNames.dropWhile fun name => name ≠ start)) := by
  unfold RunSelection.resolve
  rw [hkind]

theorem resolve_between (hkind : s.kind = .between) :
    s.resolve repr graph = (required s.start >>= fun start =>
      required s.end_ >>= fun end_ => validateSelectionTarget repr graph start >>= fun _ =>
        validateSelectionTarget repr graph end_ >>= fun _ =>
          match scanBetween start end_ false graph.nodeNames with
          | none => .error (.valueError
              ("End step " ++ repr end_ ++ " does not appear after " ++ repr start))
          | some selected => dependencyClosure graph selected) := by
  unfold RunSelection.resolve
  rw [hkind]

theorem resolve_upstreamOf (hkind : s.kind = .upstreamOf) :
    s.resolve repr graph =
      (required s.end_ >>= fun end_ => runOneSelection repr graph end_) := by
  unfold RunSelection.resolve
  rw [hkind]

theorem resolve_downstreamOf (hkind : s.kind = .downstreamOf) :
    s.resolve repr graph = (required s.start >>= fun start =>
      validateSelectionTarget repr graph start >>= fun _ =>
        .ok (graph.nodeNames.filter fun name => name ∈ Worklist.reached graph.consumers
          (graph.edges.map Plan.LogicalEdge.producerNode) [start])) := by
  unfold RunSelection.resolve
  rw [hkind]
  rfl

theorem resolve_matching (hkind : s.kind = .matching) :
    s.resolve repr graph =
      (matchedNames s.tags graph >>= fun matched => dependencyClosure graph matched) := by
  unfold RunSelection.resolve
  rw [hkind]

end Equations

theorem scanBetween_started (start : String) {end_ : String} : ∀ {names : List String}, end_ ∈ names →
    ∃ selected, scanBetween start end_ true names = some selected ∧ end_ ∈ selected ∧
      ∀ name ∈ selected, name ∈ names
  | name :: rest, hend => by
      unfold scanBetween
      by_cases hname : name = end_
      · refine ⟨[name], ?_, List.mem_singleton.mpr hname.symm, ?_⟩
        · simp [hname]
        · intro other hother
          rw [List.mem_singleton.mp hother]
          exact List.mem_cons_self
      · have hrest := (List.mem_cons.mp hend).resolve_left fun h => hname h.symm
        obtain ⟨selected, hselected, hin, hsub⟩ := scanBetween_started start hrest
        refine ⟨name :: selected, ?_, List.mem_cons_of_mem _ hin, ?_⟩
        · simp [hname, hselected]
        · intro other hother
          rcases List.mem_cons.mp hother with rfl | hother
          · exact List.mem_cons_self
          · exact List.mem_cons_of_mem _ (hsub other hother)

/-- The scan stops at the end step, with nothing if the start step comes later. -/
theorem scanBetween_spec (start : String) {end_ : String} : ∀ {names : List String}, end_ ∈ names →
    ∃ selected, scanBetween start end_ false names = some selected ∧
      (∀ name ∈ selected, name ∈ names) ∧
      ((names.idxOf end_ < names.idxOf start ∧ selected = []) ∨
        (names.idxOf start ≤ names.idxOf end_ ∧ start ∈ selected ∧ end_ ∈ selected))
  | name :: rest, hend => by
      unfold scanBetween
      by_cases hname : name = end_
      · by_cases hstart : name = start
        · refine ⟨[name], by simp [hname, hname.symm.trans hstart], ?_, .inr ⟨?_, ?_, ?_⟩⟩
          · intro other hother
            rw [List.mem_singleton.mp hother]
            exact List.mem_cons_self
          · rw [← hstart, ← hname]
          · exact List.mem_singleton.mpr hstart.symm
          · exact List.mem_singleton.mpr hname.symm
        · have hne : ¬ end_ = start := fun h => hstart (hname.trans h)
          refine ⟨[], by simp [hname, hne], ?_, .inl ⟨?_, rfl⟩⟩
          · intro other hother
            cases hother
          · rw [← hname, List.idxOf_cons_self, List.idxOf_cons_ne _ hstart]
            exact Nat.succ_pos _
      · have hrest := (List.mem_cons.mp hend).resolve_left fun h => hname h.symm
        by_cases hstart : name = start
        · obtain ⟨selected, hselected, hin, hsub⟩ := scanBetween_started start hrest
          have hne : ¬ start = end_ := fun h => hname (hstart.trans h)
          refine ⟨name :: selected, by simp [hstart, hne, hselected], ?_, .inr ⟨?_, ?_, ?_⟩⟩
          · intro other hother
            rcases List.mem_cons.mp hother with rfl | hother
            · exact List.mem_cons_self
            · exact List.mem_cons_of_mem _ (hsub other hother)
          · rw [← hstart, List.idxOf_cons_self]
            exact Nat.zero_le _
          · exact List.mem_cons.mpr (.inl hstart.symm)
          · exact List.mem_cons_of_mem _ hin
        · obtain ⟨selected, hselected, hsub, hwhere⟩ := scanBetween_spec start hrest
          refine ⟨selected, by simp [hname, hstart, hselected],
            fun other hother => List.mem_cons_of_mem _ (hsub other hother), ?_⟩
          rw [List.idxOf_cons_ne _ hname, List.idxOf_cons_ne _ hstart]
          rcases hwhere with ⟨hlt, hnil⟩ | ⟨hle, hin⟩
          · exact .inl ⟨Nat.succ_lt_succ hlt, hnil⟩
          · exact .inr ⟨Nat.succ_le_succ hle, hin⟩

theorem scanBetween_true (start : String) {end_ : String} : ∀ {names : List String}, end_ ∈ names →
    scanBetween start end_ true names = some (upTo end_ names)
  | name :: rest, hend => by
      unfold scanBetween upTo
      by_cases hname : name = end_
      · rw [if_pos hname, if_pos hname]
        rfl
      · have hrest := (List.mem_cons.mp hend).resolve_left fun h => hname h.symm
        rw [if_neg hname, if_neg hname, Bool.true_or, scanBetween_true start hrest]
        rfl

/-- From the start step on, the scan keeps what comes up to the end step. -/
theorem scanBetween_of_mem {start end_ : String} : ∀ {names : List String}, names.Nodup →
    end_ ∈ names.dropWhile (fun name => name ≠ start) →
      scanBetween start end_ false names =
        some (upTo end_ (names.dropWhile fun name => name ≠ start))
  | name :: rest, hnodup, hend => by
      obtain ⟨hnew, hnodup⟩ := List.nodup_cons.mp hnodup
      by_cases hstart : name = start
      · rw [List.dropWhile_cons_of_neg (by simpa using hstart)] at hend ⊢
        rw [← scanBetween_true start hend]
        unfold scanBetween
        simp only [hstart, decide_true, Bool.or_true]
      · rw [List.dropWhile_cons_of_pos (by simpa using hstart)] at hend ⊢
        have hne : name ≠ end_ := by
          rintro rfl
          exact hnew ((List.dropWhile_sublist _).subset hend)
        unfold scanBetween
        rw [if_neg hne, decide_eq_false hstart, Bool.false_or, scanBetween_of_mem hnodup hend]
        rfl

/-- An end step before the start step leaves nothing. -/
theorem scanBetween_of_not_mem {start end_ : String} : ∀ {names : List String}, end_ ∈ names →
    end_ ∉ names.dropWhile (fun name => name ≠ start) →
      scanBetween start end_ false names = some []
  | name :: rest, hend, hnot => by
      by_cases hstart : name = start
      · rw [List.dropWhile_cons_of_neg (by simpa using hstart)] at hnot
        exact absurd hend hnot
      · rw [List.dropWhile_cons_of_pos (by simpa using hstart)] at hnot
        unfold scanBetween
        rw [decide_eq_false hstart, Bool.false_or]
        by_cases hname : name = end_
        · rw [if_pos hname]
          rfl
        · have hrest := (List.mem_cons.mp hend).resolve_left fun h => hname h.symm
          rw [if_neg hname, scanBetween_of_not_mem hrest hnot]
          rfl

theorem mem_dropWhile_ne (h : name ∈ names) : name ∈ names.dropWhile fun other => other ≠ name := by
  have hsplit : names.takeWhile (fun other => other ≠ name) ++
      names.dropWhile (fun other => other ≠ name) = names := List.takeWhile_append_dropWhile
  rw [← hsplit] at h
  rcases List.mem_append.mp h with hbefore | hbehind
  · have hne := List.mem_takeWhile_imp hbefore
    exact absurd rfl (of_decide_eq_true hne)
  · exact hbehind

/-- Behind a step, the first one is the step itself. -/
theorem start_mem_upTo {start end_ : String} : ∀ {names : List String}, start ∈ names →
    start ∈ upTo end_ (names.dropWhile fun name => name ≠ start)
  | name :: rest, h => by
      by_cases hstart : name = start
      · rw [List.dropWhile_cons_of_neg (by simpa using hstart)]
        unfold upTo
        split
        · exact List.mem_singleton.mpr hstart.symm
        · exact List.mem_cons.mpr (.inl hstart.symm)
      · rw [List.dropWhile_cons_of_pos (by simpa using hstart)]
        exact start_mem_upTo ((List.mem_cons.mp h).resolve_left fun h => hstart h.symm)

/-- The selection raises a `ValueError` or is complete. -/
def RunSelection.Returns (repr : String → String) (s : RunSelection) (graph : LogicalGraph) :
    Prop :=
  RaisesValueError (s.resolve repr graph) ∨
    ∃ names, s.resolve repr graph = .ok names ∧ Complete s graph names

theorem complete_of_closure {targets : List String} (hnodes : graph.nodeNames.Nodup)
    (h : IsClosure graph targets names) (hdeclared : ∀ target ∈ targets, target ∈ graph.nodeNames)
    (hnamed : ∀ name, s.Names graph name → name ∈ targets) : Complete s graph names where
  ordered := h.ordered
  nodup := hnodes.sublist h.ordered
  named name hname := h.of_targets hdeclared name (hnamed name hname)
  closed := h.closed

/-- A selection that ends with the closure of all it names is complete. -/
theorem returns_of_closure {targets : List String} (hnodes : graph.nodeNames.Nodup)
    (hresolve : s.resolve repr graph = dependencyClosure graph targets)
    (hnamed : ∀ name, s.Names graph name → name ∈ targets) : s.Returns repr graph := by
  unfold RunSelection.Returns
  rw [hresolve]
  rcases Plan.dependencyClosure_spec graph targets with
    ⟨hdeclared, names, hok, hclosure⟩ | ⟨-, herror⟩
  · exact .inr ⟨names, hok, complete_of_closure hnodes hclosure hdeclared hnamed⟩
  · exact .inl ⟨_, herror⟩

/-- A missing argument is no `ValueError`. -/
theorem not_returns_of_assertion (h : s.resolve repr graph = .error .assertionError) :
    ¬ s.Returns repr graph := by
  rintro (⟨message, herror⟩ | ⟨names, hok, -⟩)
  · rw [h] at herror
    cases herror
  · rw [h] at hok
    cases hok

theorem returns_of_unknown {stepName : String}
    (h : s.resolve repr graph = .error (Plan.unknownStep repr stepName)) : s.Returns repr graph :=
  .inl ⟨_, h⟩

/-- A step that is not declared is refused before anything else is done. -/
theorem validated {stepName : String} (rest : Except SelectionError (List String)) :
    (validateSelectionTarget repr graph stepName >>= fun _ => rest) =
      if stepName ∈ graph.nodeNames then rest else .error (Plan.unknownStep repr stepName) := by
  unfold validateSelectionTarget
  by_cases hdeclared : stepName ∈ graph.nodeNames
  · rw [if_pos hdeclared, if_pos hdeclared]
    rfl
  · rw [if_neg hdeclared, if_neg hdeclared]
    rfl

theorem returns_all (hnodes : graph.nodeNames.Nodup) (hkind : s.kind = .all) :
    s.Returns repr graph := by
  refine .inr ⟨graph.nodeNames, resolve_all repr graph hkind, List.Sublist.refl _, hnodes,
    fun name hname => ?_, fun _ _ _ h => h⟩
  unfold RunSelection.Names at hname
  rw [hkind] at hname
  exact hname

theorem returns_only (hnodes : graph.nodeNames.Nodup) (hkind : s.kind = .only) :
    s.Returns repr graph := by
  have hresolve := resolve_only repr graph hkind
  by_cases hmissing : missingNames graph s.nodes = []
  · rw [if_neg (not_not_intro hmissing)] at hresolve
    refine returns_of_closure hnodes hresolve fun name hname => ?_
    unfold RunSelection.Names at hname
    rw [hkind] at hname
    exact hname
  · rw [if_pos hmissing] at hresolve
    exact .inl ⟨_, hresolve⟩

/-- A kind that names one step returns only if the step is given, and refuses an unknown one. -/
theorem returns_iff_of_endpoint {endpoint : Option String} {fits : String → Prop}
    {rest : String → Except SelectionError (List String)}
    (hresolve : s.resolve repr graph = (required endpoint >>= fun step =>
      validateSelectionTarget repr graph step >>= fun _ => rest step))
    (hknown : ∀ step, endpoint = some step → step ∈ graph.nodeNames →
      s.resolve repr graph = rest step → (s.Returns repr graph ↔ fits step)) :
    s.Returns repr graph ↔
      ∃ step, endpoint = some step ∧ (step ∈ graph.nodeNames → fits step) := by
  cases hendpoint : endpoint with
  | none =>
      rw [hendpoint] at hresolve
      refine iff_of_false (not_returns_of_assertion hresolve) ?_
      rintro ⟨step, hsome, -⟩
      cases hsome
  | some step =>
      rw [hendpoint] at hresolve
      have hresolve := hresolve.trans (validated _)
      by_cases hdeclared : step ∈ graph.nodeNames
      · rw [if_pos hdeclared] at hresolve
        rw [hknown step hendpoint hdeclared hresolve]
        constructor
        · intro hfits
          exact ⟨step, rfl, fun _ => hfits⟩
        · rintro ⟨other, hsome, hfits⟩
          obtain rfl := Option.some.inj hsome
          exact hfits hdeclared
      · rw [if_neg hdeclared] at hresolve
        exact iff_of_true (returns_of_unknown hresolve) ⟨step, rfl, fun h => absurd h hdeclared⟩

/-- What a kind with a list of its own returns. -/
theorem returns_iff_of_ok (hresolve : s.resolve repr graph = .ok names) :
    s.Returns repr graph ↔ Complete s graph names := by
  constructor
  · rintro (⟨message, herror⟩ | ⟨names', hnames, hcomplete⟩)
    · rw [hresolve] at herror
      cases herror
    · rw [hresolve] at hnames
      obtain rfl := Except.ok.inj hnames
      exact hcomplete
  · intro hcomplete
    exact .inr ⟨names, hresolve, hcomplete⟩

theorem returns_until (hnodes : graph.nodeNames.Nodup) (hkind : s.kind = .until_) :
    s.Returns repr graph ↔ s.Fits graph := by
  have hfits : s.Fits graph ↔ ∃ end_, s.end_ = some end_ ∧
      (end_ ∈ graph.nodeNames → graph.Closed (upTo end_ graph.nodeNames)) := by
    unfold RunSelection.Fits
    rw [hkind]
  have hresolve : s.resolve repr graph = (required s.end_ >>= fun end_ =>
      validateSelectionTarget repr graph end_ >>= fun _ => .ok (upTo end_ graph.nodeNames)) :=
    resolve_until repr graph hkind
  rw [hfits]
  refine returns_iff_of_endpoint hresolve fun end_ hend hdeclared hresolve => ?_
  rw [returns_iff_of_ok hresolve]
  constructor
  · intro hcomplete
    exact hcomplete.closed
  · intro hclosed
    have hfront := (Plan.upTo_isPrefix end_ graph.nodeNames).sublist
    refine ⟨hfront, hnodes.sublist hfront, fun name hname => ?_, hclosed⟩
    unfold RunSelection.Names at hname
    rw [hkind] at hname
    have hname : s.end_ = some name := hname
    rw [hend] at hname
    obtain rfl := Option.some.inj hname
    exact Plan.mem_upTo hdeclared

theorem returns_from (hnodes : graph.nodeNames.Nodup) (hkind : s.kind = .from_) :
    s.Returns repr graph ↔ s.Fits graph := by
  have hfits : s.Fits graph ↔ s.start ≠ none := by
    unfold RunSelection.Fits
    rw [hkind]
  have hreturns := returns_iff_of_endpoint (resolve_from repr graph hkind)
    fun start hstart hdeclared hresolve => by
      refine iff_true_intro (returns_of_closure hnodes hresolve fun name hname => ?_)
      unfold RunSelection.Names at hname
      rw [hkind] at hname
      have hname : s.start = some name := hname
      rw [hstart] at hname
      obtain rfl := Option.some.inj hname
      exact mem_dropWhile_ne hdeclared
  rw [hfits, hreturns]
  simp [Option.ne_none_iff_exists']

theorem returns_upstreamOf (hnodes : graph.nodeNames.Nodup) (hkind : s.kind = .upstreamOf) :
    s.Returns repr graph ↔ s.Fits graph := by
  have hfits : s.Fits graph ↔ s.end_ ≠ none := by
    unfold RunSelection.Fits
    rw [hkind]
  have hresolve : s.resolve repr graph = (required s.end_ >>= fun end_ =>
      validateSelectionTarget repr graph end_ >>= fun _ => dependencyClosure graph [end_]) :=
    resolve_upstreamOf repr graph hkind
  have hreturns := returns_iff_of_endpoint hresolve fun end_ hend hdeclared hresolve => by
    refine iff_true_intro (returns_of_closure hnodes hresolve fun name hname => ?_)
    unfold RunSelection.Names at hname
    rw [hkind] at hname
    have hname : s.end_ = some name := hname
    rw [hend] at hname
    exact List.mem_singleton.mpr (Option.some.inj hname).symm
  rw [hfits, hreturns]
  simp [Option.ne_none_iff_exists']

theorem returns_downstreamOf (hnodes : graph.nodeNames.Nodup) (hkind : s.kind = .downstreamOf) :
    s.Returns repr graph ↔ s.Fits graph := by
  have hfits : s.Fits graph ↔ ∃ start, s.start = some start ∧ (start ∈ graph.nodeNames →
      ∀ edge ∈ graph.edges, edge.consumerNode ∈ graph.nodeNames →
        edge.producerNode ∈ graph.nodeNames →
        Relation.ReflTransGen graph.Feeds start edge.consumerNode →
        Relation.ReflTransGen graph.Feeds start edge.producerNode) := by
    unfold RunSelection.Fits
    rw [hkind]
  rw [hfits]
  refine returns_iff_of_endpoint (resolve_downstreamOf repr graph hkind)
    fun start hstart hdeclared hresolve => ?_
  have hmem : ∀ name, name ∈ (graph.nodeNames.filter fun name => name ∈
      Worklist.reached graph.consumers (graph.edges.map Plan.LogicalEdge.producerNode)
        [start]) ↔
      name ∈ graph.nodeNames ∧ Relation.ReflTransGen graph.Feeds start name := by
    intro name
    rw [List.mem_filter, decide_eq_true_eq, Plan.mem_downstream]
  rw [returns_iff_of_ok hresolve]
  constructor
  · intro hcomplete edge hedge hconsumer hproducer hreach
    have hin := hcomplete.closed edge hedge ((hmem _).mpr ⟨hconsumer, hreach⟩) hproducer
    exact ((hmem _).mp hin).2
  · intro hclosed
    refine ⟨List.filter_sublist, hnodes.filter _, fun name hname => ?_,
      fun edge hedge hconsumer hproducer => ?_⟩
    · unfold RunSelection.Names at hname
      rw [hkind] at hname
      have hname : s.start = some name := hname
      rw [hstart] at hname
      obtain rfl := Option.some.inj hname
      exact (hmem _).mpr ⟨hdeclared, .refl⟩
    · obtain ⟨hin, hreach⟩ := (hmem _).mp hconsumer
      exact (hmem _).mpr ⟨hproducer, hclosed edge hedge hin hproducer hreach⟩

/-- If every node has usable tags, the search returns. -/
theorem matchedNames_returns (tags : List String)
    (h : ∀ node ∈ graph.nodes, ∃ found, tagSet node.tags = .ok found) :
    ∃ matched, matchedNames tags graph = .ok matched := by
  have hmark : ∀ node ∈ graph.nodes, ∃ mark, ((tagSet node.tags).map fun found =>
      (node.name, found.any fun tag => tag ∈ tags)) = .ok mark ∧ True := by
    intro node hnode
    obtain ⟨found, hfound⟩ := h node hnode
    rw [hfound]
    exact ⟨_, rfl, trivial⟩
  obtain ⟨marks, hmarks, -⟩ := Checked.exists_mapM hmark
  refine ⟨(marks.filter Prod.snd).map Prod.fst, ?_⟩
  unfold matchedNames
  rw [hmarks]
  rfl

/-- It finds the names of the nodes with a tag. -/
theorem mem_matchedNames {tags matched : List String}
    (h : matchedNames tags graph = .ok matched) :
    name ∈ matched ↔ ∃ node ∈ graph.nodes, node.name = name ∧
      ∃ found, tagSet node.tags = .ok found ∧ ∃ tag ∈ found, tag ∈ tags := by
  obtain ⟨marks, hmarks, hmatched⟩ := Checked.bind_eq_ok.mp h
  obtain rfl := Except.ok.inj hmatched
  rw [List.mem_map]
  constructor
  · rintro ⟨mark, hmem, rfl⟩
    obtain ⟨hmark, hhit⟩ := List.mem_filter.mp hmem
    obtain ⟨node, hnode, hof⟩ := Checked.mem_of_mapM hmarks mark hmark
    obtain ⟨found, hfound, rfl⟩ := Checked.map_eq_ok hof
    obtain ⟨tag, htag, hwanted⟩ := List.any_eq_true.mp hhit
    exact ⟨node, hnode, rfl, found, hfound, tag, htag, of_decide_eq_true hwanted⟩
  · rintro ⟨node, hnode, rfl, found, hfound, tag, htag, hwanted⟩
    obtain ⟨mark, hmem, hmark⟩ := Checked.ok_of_mapM hmarks node hnode
    rw [hfound] at hmark
    obtain rfl := Except.ok.inj hmark
    refine ⟨_, List.mem_filter.mpr ⟨hmem, ?_⟩, rfl⟩
    exact List.any_eq_true.mpr ⟨tag, htag, decide_eq_true hwanted⟩

/-- Only tags that are unusable make the search raise. -/
theorem matchedNames_error {tags : List String} {error : SelectionError}
    (h : matchedNames tags graph = .error error) : ∃ detail, error = .typeError detail := by
  unfold matchedNames at h
  cases hmarks : graph.nodes.mapM fun node =>
      (tagSet node.tags).map fun found => (node.name, found.any fun tag => tag ∈ tags) with
  | ok marks =>
      rw [hmarks] at h
      cases h
  | error first =>
      rw [hmarks] at h
      obtain rfl := Except.error.inj h
      obtain ⟨node, -, hnode⟩ := Checked.error_of_mapM hmarks
      cases htags : node.tags with
      | items found =>
          rw [htags] at hnode
          cases hnode
      | text found =>
          rw [htags] at hnode
          cases hnode
      | unusable detail =>
          rw [htags] at hnode
          exact ⟨detail, (Except.error.inj hnode).symm⟩

theorem usable_of_matchedNames {tags matched : List String}
    (h : matchedNames tags graph = .ok matched) :
    ∀ node ∈ graph.nodes, ∃ found, tagSet node.tags = .ok found := by
  intro node hnode
  obtain ⟨marks, hmarks, -⟩ := Checked.bind_eq_ok.mp h
  obtain ⟨mark, -, hmark⟩ := Checked.ok_of_mapM hmarks node hnode
  obtain ⟨found, hfound, -⟩ := Checked.map_eq_ok hmark
  exact ⟨found, hfound⟩

theorem returns_matching (hnodes : graph.nodeNames.Nodup) (hkind : s.kind = .matching) :
    s.Returns repr graph ↔ s.Fits graph := by
  have hresolve := resolve_matching repr graph hkind
  have hfits : s.Fits graph ↔ ∀ node ∈ graph.nodes, ∃ found, tagSet node.tags = .ok found := by
    unfold RunSelection.Fits
    rw [hkind]
  rw [hfits]
  constructor
  · intro hreturns node hnode
    cases hmatched : matchedNames s.tags graph with
    | error error =>
        obtain ⟨detail, rfl⟩ := matchedNames_error hmatched
        rw [hmatched] at hresolve
        rcases hreturns with ⟨message, herror⟩ | ⟨names, hok, -⟩
        · rw [hresolve] at herror
          cases herror
        · rw [hresolve] at hok
          cases hok
    | ok matched => exact usable_of_matchedNames hmatched node hnode
  · intro husable
    obtain ⟨matched, hmatched⟩ := matchedNames_returns s.tags husable
    rw [hmatched] at hresolve
    refine returns_of_closure hnodes hresolve fun name hname => ?_
    unfold RunSelection.Names at hname
    rw [hkind] at hname
    exact (mem_matchedNames hmatched).mpr hname

theorem returns_between (hnodes : graph.nodeNames.Nodup) (hkind : s.kind = .between) :
    s.Resolves repr graph ↔ s.Fits graph := by
  have hresolve := resolve_between repr graph hkind
  have hfits : s.Fits graph ↔ ∃ start end_, s.start = some start ∧ s.end_ = some end_ ∧
      (start ∈ graph.nodeNames → end_ ∈ graph.nodeNames →
        graph.nodeNames.idxOf start ≤ graph.nodeNames.idxOf end_) := by
    unfold RunSelection.Fits
    rw [hkind]
  rw [hfits]
  cases hstart : s.start with
  | none =>
      rw [hstart] at hresolve
      refine iff_of_false (fun h => not_returns_of_assertion hresolve h.1) ?_
      rintro ⟨start, end_, hsome, -⟩
      cases hsome
  | some start =>
      cases hend : s.end_ with
      | none =>
          rw [hstart, hend] at hresolve
          refine iff_of_false (fun h => not_returns_of_assertion hresolve h.1) ?_
          rintro ⟨start, end_, -, hsome, -⟩
          cases hsome
      | some end_ =>
          rw [hstart, hend] at hresolve
          have hresolve := hresolve.trans ((validated _).trans (by rw [validated]))
          by_cases hstarts : start ∈ graph.nodeNames
          · by_cases hends : end_ ∈ graph.nodeNames
            · rw [if_pos hstarts, if_pos hends] at hresolve
              obtain ⟨selected, hscan, hsub, hwhere⟩ :=
                scanBetween_spec start hends
              rw [hscan] at hresolve
              have hresolve : s.resolve repr graph = dependencyClosure graph selected := hresolve
              have hquiet : ¬ RaisesValueError (s.resolve repr graph) := by
                rintro ⟨message, herror⟩
                rcases Plan.dependencyClosure_spec graph selected with
                  ⟨-, names, hok, -⟩ | ⟨⟨name, hin, hout⟩, -⟩
                · rw [hresolve, hok] at herror
                  cases herror
                · exact hout (hsub name hin)
              constructor
              · rintro ⟨-, hraises⟩
                refine ⟨start, end_, rfl, rfl, fun _ _ => ?_⟩
                have hiff := hraises hkind start hstarts end_ hends hstart hend
                exact Nat.le_of_not_lt fun hlt => hquiet (hiff.mpr hlt)
              · rintro ⟨start', end', hstart', hend', hle⟩
                obtain rfl := Option.some.inj hstart'
                obtain rfl := Option.some.inj hend'
                have hle := hle hstarts hends
                obtain ⟨-, hin, hin'⟩ := hwhere.resolve_left fun h => Nat.not_lt.mpr hle h.1
                refine ⟨returns_of_closure hnodes hresolve fun name hname => ?_, ?_⟩
                · unfold RunSelection.Names at hname
                  rw [hkind] at hname
                  have hname : s.start = some name ∨ s.end_ = some name := hname
                  rw [hstart, hend] at hname
                  rcases hname with hname | hname
                  · exact Option.some.inj hname ▸ hin
                  · exact Option.some.inj hname ▸ hin'
                · intro _ start' _ end' _ hstart' hend'
                  rw [hstart] at hstart'
                  rw [hend] at hend'
                  obtain rfl := Option.some.inj hstart'
                  obtain rfl := Option.some.inj hend'
                  exact iff_of_false hquiet (Nat.not_lt.mpr hle)
            · rw [if_pos hstarts, if_neg hends] at hresolve
              refine iff_of_true ⟨returns_of_unknown hresolve, ?_⟩
                ⟨start, end_, rfl, rfl, fun _ h => absurd h hends⟩
              intro _ start' _ end' hend' _ hsome
              rw [hend] at hsome
              exact absurd (Option.some.inj hsome ▸ hend') hends
          · rw [if_neg hstarts] at hresolve
            refine iff_of_true ⟨returns_of_unknown hresolve, ?_⟩
              ⟨start, end_, rfl, rfl, fun h => absurd h hstarts⟩
            intro _ start' hstart' end' _ hsome _
            rw [hstart] at hsome
            exact absurd (Option.some.inj hsome ▸ hstart') hstarts

/-! ## Every kind -/

theorem resolves_of_returns (hkind : s.kind ≠ .between) :
    s.Resolves repr graph ↔ s.Returns repr graph :=
  ⟨fun h => h.1, fun h => ⟨h, fun hbetween => absurd hbetween hkind⟩⟩

/-- A selection resolves as it should exactly if its kind fits the graph. -/
theorem resolves_iff (repr : String → String) (s : RunSelection) (graph : LogicalGraph)
    (hnodes : graph.nodeNames.Nodup) : s.Resolves repr graph ↔ s.Fits graph := by
  cases hkind : s.kind with
  | all =>
      rw [resolves_of_returns (by rw [hkind]; decide)]
      refine iff_of_true (returns_all hnodes hkind) ?_
      unfold RunSelection.Fits
      rw [hkind]
      exact trivial
  | only =>
      rw [resolves_of_returns (by rw [hkind]; decide)]
      refine iff_of_true (returns_only hnodes hkind) ?_
      unfold RunSelection.Fits
      rw [hkind]
      exact trivial
  | until_ =>
      rw [resolves_of_returns (by rw [hkind]; decide)]
      exact returns_until hnodes hkind
  | from_ =>
      rw [resolves_of_returns (by rw [hkind]; decide)]
      exact returns_from hnodes hkind
  | between => exact returns_between hnodes hkind
  | upstreamOf =>
      rw [resolves_of_returns (by rw [hkind]; decide)]
      exact returns_upstreamOf hnodes hkind
  | downstreamOf =>
      rw [resolves_of_returns (by rw [hkind]; decide)]
      exact returns_downstreamOf hnodes hkind
  | matching =>
      rw [resolves_of_returns (by rw [hkind]; decide)]
      exact returns_matching hnodes hkind
  | other text =>
      rw [resolves_of_returns (by rw [hkind]; exact SelectionKind.noConfusion)]
      refine iff_of_true (.inl ⟨"Unknown selection kind " ++ repr text, ?_⟩) ?_
      · unfold RunSelection.resolve
        rw [hkind]
      · unfold RunSelection.Fits
        rw [hkind]
        exact trivial

section Sample

/-- `extract` feeds `load`, and `audit` stands apart. -/
def sampleGraph : LogicalGraph where
  nodes := [⟨"extract", .items []⟩, ⟨"audit", .items ["daily"]⟩, ⟨"load", .items []⟩]
  edges := [⟨"extract", "out", "load", "in", none, none⟩]

def selectBetween (start end_ : String) : RunSelection := ⟨.between, [], [], some start, some end_⟩

theorem resolves_forward :
    (selectBetween "extract" "audit").Resolves (fun text => "'" ++ text ++ "'") sampleGraph ↔
      (selectBetween "extract" "audit").Fits sampleGraph :=
  resolves_iff _ _ sampleGraph (by decide)

/-- A selection that ends before it starts selects nothing. -/
theorem between_backwards_selects_nothing : sampleGraph.Acyclic ∧ sampleGraph.nodeNames.Nodup ∧
    ¬ (selectBetween "load" "extract").Resolves (fun text => "'" ++ text ++ "'") sampleGraph := by
  refine ⟨Plan.acyclic_of_rank (sampleGraph.nodeNames.idxOf ·) (by decide), by decide, ?_⟩
  rintro ⟨-, hraises⟩
  have hiff := hraises rfl "load" (by decide) "extract" (by decide) rfl rfl
  obtain ⟨message, herror⟩ := hiff.mpr (by decide)
  have hnothing : (selectBetween "load" "extract").resolve (fun text => "'" ++ text ++ "'")
      sampleGraph = .ok [] := by rfl
  rw [hnothing] at herror
  cases herror

end Sample

end Etlantic.Runtime
