import Etlantic.Planning.SelectGraph
import Etlantic.Runtime.RunSelection

/-!
# Plans and the selections they were made for

A run request is resolved twice: on the declared graph, to tell the planner what to
select, and on the graph of the plan, to check that the plan is the one it asks for.
The plan's graph is in canonical order, so the kinds that look at the order of the
declarations agree with themselves only where the least order of their steps fits.
-/

namespace Etlantic.Runtime

open Plan (LogicalGraph IsClosure dependencyClosure upTo)
open Planning (LeastOrderOf PlanSelection Selects WellFormedGraph canonicalGraph selectGraph
  selectedNames)

/-- `to_plan_selection`. -/
def RunSelection.toPlanSelection (repr : String → String) (s : RunSelection)
    (graph : LogicalGraph) : Except Plan.SelectionError PlanSelection := do
  let selected ← s.resolve repr graph
  match s.kind, s.nodes, s.end_ with
  | .until_, _, some end_ => return .runUntil end_
  | .only, [node], _ => return .runOne node
  | .upstreamOf, [node], _ => return .runOne node
  | .upstreamOf, _, some end_ => return .runOne end_
  | _, _, _ => return .nodes selected

/-- If the selection resolves to some steps, the planner's graph has exactly these, and
there the selection resolves to all of them in their order. -/
def RunSelection.Agrees (repr : String → String) (s : RunSelection) (graph : LogicalGraph) :
    Prop :=
  ∀ names, s.resolve repr graph = .ok names → names ≠ [] →
    ∃ selection c, s.toPlanSelection repr graph = .ok selection ∧
      selectGraph repr graph selection = .ok c ∧
      (∀ name, name ∈ c.nodeNames ↔ name ∈ names) ∧
      s.resolve repr c = .ok c.nodeNames

/-- The steps at or behind `start` and what they read from. -/
def LogicalGraph.FromSet (graph : LogicalGraph) (start name : String) : Prop :=
  name ∈ graph.nodeNames ∧
    graph.Upstream (graph.nodeNames.dropWhile fun other => other ≠ start) name

/-- The steps from `start` to `end_` and what they read from. -/
def LogicalGraph.BetweenSet (graph : LogicalGraph) (start end_ name : String) : Prop :=
  name ∈ graph.nodeNames ∧
    graph.Upstream (upTo end_ (graph.nodeNames.dropWhile fun other => other ≠ start)) name

/-- Every step of the order leads to `start` or to a step behind it. -/
def LeadsBehind (graph : LogicalGraph) (start : String) (l : List String) : Prop :=
  ∀ name ∈ l, graph.Upstream (l.dropWhile fun other => other ≠ start) name

/-- The least order of the selected steps, or the edges into them, fit the selection. -/
def RunSelection.Stable (s : RunSelection) (graph : LogicalGraph) : Prop :=
  match s.kind with
  | .until_ => ∀ end_, s.end_ = some end_ → end_ ∈ graph.nodeNames →
      ∀ l, LeastOrderOf graph (· ∈ upTo end_ graph.nodeNames) l → l.getLast? = some end_
  | .from_ => ∀ start, s.start = some start → start ∈ graph.nodeNames →
      ∀ l, LeastOrderOf graph (LogicalGraph.FromSet graph start) l → LeadsBehind graph start l
  | .between => ∀ start end_, s.start = some start → s.end_ = some end_ →
      start ∈ graph.nodeNames → end_ ∈ graph.nodeNames.dropWhile (fun other => other ≠ start) →
      ∀ l, LeastOrderOf graph (LogicalGraph.BetweenSet graph start end_) l →
        l.getLast? = some end_ ∧ LeadsBehind graph start l
  | .upstreamOf => ∀ end_, s.end_ = some end_ → end_ ∈ graph.nodeNames →
      ∀ node, s.nodes = [node] → node = end_
  | .downstreamOf => ∀ start, s.start = some start → start ∈ graph.nodeNames →
      ∀ edge ∈ graph.edges, Relation.ReflTransGen graph.Feeds start edge.consumerNode →
        Relation.ReflTransGen graph.Feeds start edge.producerNode
  | _ => True

variable {repr : String → String} {s : RunSelection} {graph c : LogicalGraph}
  {names targets : List String} {name : String}

/-! ## The graph of a plan -/

/-- Inside a selection that has all its producers, the paths are those of the graph. -/
theorem reach_inside (hc : Selects graph (· ∈ names) c) (hends : WellFormedGraph graph)
    (hclosed : graph.Closed names) {a b : String} (hb : b ∈ names)
    (hreach : Relation.ReflTransGen graph.Feeds a b) :
    Relation.ReflTransGen c.Feeds a b ∧ a ∈ names := by
  induction hreach using Relation.ReflTransGen.head_induction_on with
  | refl => exact ⟨.refl, hb⟩
  | head hstep _ ih =>
      obtain ⟨hrest, hmid⟩ := ih
      obtain ⟨edge, hedge, rfl, rfl⟩ := hstep
      have ha := hclosed edge hedge hmid (hends.ends edge hedge).1
      exact ⟨.head ((hc.feeds _ _).mpr ⟨⟨edge, hedge, rfl, rfl⟩, ha, hmid⟩) hrest, ha⟩

theorem reach_outside (hc : Selects graph (· ∈ names) c) {a b : String}
    (hreach : Relation.ReflTransGen c.Feeds a b) : Relation.ReflTransGen graph.Feeds a b :=
  hreach.lift id fun _ _ hxy => ((hc.feeds _ _).mp hxy).1

theorem upstream_iff (hc : Selects graph (· ∈ names) c) (hends : WellFormedGraph graph)
    (hclosed : graph.Closed names) (htargets : ∀ target ∈ targets, target ∈ names) :
    c.Upstream targets name ↔ graph.Upstream targets name := by
  constructor
  · rintro ⟨target, htarget, hreach⟩
    exact ⟨target, htarget, reach_outside hc hreach⟩
  · rintro ⟨target, htarget, hreach⟩
    exact ⟨target, htarget, (reach_inside hc hends hclosed (htargets target htarget) hreach).1⟩

/-- A closure has all nodes exactly if every node leads to a target. -/
theorem closure_eq_all (hnodes : graph.nodeNames.Nodup)
    (htargets : ∀ target ∈ targets, target ∈ graph.nodeNames) :
    dependencyClosure graph targets = .ok graph.nodeNames ↔
      ∀ name ∈ graph.nodeNames, graph.Upstream targets name := by
  rcases Plan.dependencyClosure_spec graph targets with
    ⟨-, names, hok, hclosure⟩ | ⟨⟨target, hin, hout⟩, -⟩
  · rw [hok]
    constructor
    · intro h name hname
      rw [← Except.ok.inj h] at hname
      exact ((hclosure.mem_iff name).mp hname).2
    · intro h
      have hall : graph.nodeNames.filter (fun name => name ∈ names) = graph.nodeNames := by
        rw [List.filter_eq_self]
        intro name hname
        exact decide_eq_true ((hclosure.mem_iff name).mpr ⟨hname, h name hname⟩)
      rw [← Plan.filter_mem_of_sublist hclosure.ordered hnodes, hall]
  · exact absurd (htargets target hin) hout

/-- What the two checks come down to, once it is known what the planner selects. -/
theorem agrees_iff (hgraph : WellFormedGraph graph) {selection : PlanSelection}
    {selected : List String} (hresolve : s.resolve repr graph = .ok names) (hnames : names ≠ [])
    (hselection : s.toPlanSelection repr graph = .ok selection) (hentry : selection ≠ .empty)
    (hselected : selectedNames repr graph selection = .ok selected)
    (hsub : ∀ name ∈ selected, name ∈ graph.nodeNames) :
    s.Agrees repr graph ↔ (∀ name, name ∈ selected ↔ name ∈ names) ∧
      s.resolve repr (canonicalGraph (Plan.sliceGraph graph selected)) =
        .ok (canonicalGraph (Plan.sliceGraph graph selected)).nodeNames := by
  have hc := Planning.selectGraph_selects hgraph hsub
  have hgiven := Planning.selectGraph_of_selected hentry hselected
  constructor
  · intro hagrees
    obtain ⟨selection', c, hselection', hc', hsame, hagain⟩ := hagrees names hresolve hnames
    rw [hselection] at hselection'
    obtain rfl := Except.ok.inj hselection'
    rw [hgiven] at hc'
    split at hc'
    · cases hc'
    · obtain rfl := Except.ok.inj hc'
      exact ⟨fun name => (hc.order.mem_iff name).symm.trans (hsame name), hagain⟩
  · rintro ⟨hsame, hagain⟩ names' hnames' -
    rw [hresolve] at hnames'
    obtain rfl := Except.ok.inj hnames'
    have hsome : selected ≠ [] := by
      rintro rfl
      obtain ⟨name, hname⟩ := List.exists_mem_of_ne_nil _ hnames
      cases (hsame name).mpr hname
    rw [if_neg hsome] at hgiven
    exact ⟨selection, _, hselection, hgiven,
      fun name => (hc.order.mem_iff name).trans (hsame name), hagain⟩

/-- A selection whose resolution raises or is empty agrees. -/
theorem agrees_of_nothing (h : ∀ names, s.resolve repr graph = .ok names → names = []) :
    s.Agrees repr graph := by
  intro names hresolve hnames
  exact absurd (h names hresolve) hnames

/-- A kind that names one step agrees where that step is missing or unknown. -/
theorem agrees_iff_of_endpoint {endpoint : Option String} {fits : String → Prop}
    {rest : LogicalGraph → String → Except Plan.SelectionError (List String)}
    (hresolve : ∀ graph, s.resolve repr graph = (required endpoint >>= fun step =>
      Plan.validateSelectionTarget repr graph step >>= fun _ => rest graph step))
    (hknown : ∀ step, endpoint = some step → step ∈ graph.nodeNames →
      (∀ c, s.resolve repr c = if step ∈ c.nodeNames then rest c step
        else .error (Plan.unknownStep repr step)) → (s.Agrees repr graph ↔ fits step)) :
    s.Agrees repr graph ↔ ∀ step, endpoint = some step → step ∈ graph.nodeNames → fits step := by
  cases hendpoint : endpoint with
  | none =>
      refine iff_of_true (agrees_of_nothing fun names hok => ?_) fun step hsome => ?_
      · rw [hresolve, hendpoint] at hok
        cases hok
      · cases hsome
  | some step =>
      have hgiven : ∀ c, s.resolve repr c = if step ∈ c.nodeNames then rest c step
          else .error (Plan.unknownStep repr step) := by
        intro c
        rw [hresolve, hendpoint]
        exact validated _
      by_cases hdeclared : step ∈ graph.nodeNames
      · rw [hknown step hendpoint hdeclared hgiven]
        constructor
        · intro hfits other hother _
          obtain rfl := Option.some.inj hother
          exact hfits
        · intro hall
          exact hall step rfl hdeclared
      · refine iff_of_true (agrees_of_nothing fun names hok => ?_) fun other hother hin => ?_
        · rw [hgiven, if_neg hdeclared] at hok
          cases hok
        · exact absurd (Option.some.inj hother ▸ hin) hdeclared

/-- The planner closes the steps that it is given. -/
theorem selected_of_nodes (repr : String → String)
    (hsub : ∀ name ∈ names, name ∈ graph.nodeNames) :
    ∃ selected, selectedNames repr graph (.nodes names) = .ok selected ∧
      IsClosure graph names selected := by
  rcases Plan.dependencyClosure_spec graph names with ⟨-, selected, hok, hclosure⟩ |
    ⟨⟨name, hin, hout⟩, -⟩
  · exact ⟨selected, hok, hclosure⟩
  · exact absurd (hsub name hin) hout

/-- A closure is its own closure. -/
theorem closure_of_closed {selected : List String} (hgraph : WellFormedGraph graph)
    (hclosed : graph.Closed names) (hclosure : IsClosure graph names selected)
    (hsub : ∀ name ∈ names, name ∈ graph.nodeNames) (name : String) :
    name ∈ selected ↔ name ∈ names := by
  rw [hclosure.mem_iff]
  constructor
  · rintro ⟨-, target, htarget, hreach⟩
    induction hreach using Relation.ReflTransGen.head_induction_on with
    | refl => exact htarget
    | head hstep _ ih =>
        obtain ⟨edge, hedge, rfl, rfl⟩ := hstep
        exact hclosed edge hedge ih (hgraph.ends edge hedge).1
  · intro hname
    exact ⟨hsub name hname, name, hname, .refl⟩

/-! ## The kinds that always agree -/

/-- What remains to be checked if the planner selects the steps that are asked for. -/
theorem agrees_iff_of_same (hgraph : WellFormedGraph graph) {selection : PlanSelection}
    {selected : List String} (hresolve : s.resolve repr graph = .ok names) (hnames : names ≠ [])
    (hsub : ∀ name ∈ names, name ∈ graph.nodeNames)
    (hselection : s.toPlanSelection repr graph = .ok selection) (hentry : selection ≠ .empty)
    (hselected : selectedNames repr graph selection = .ok selected)
    (hsame : ∀ name, name ∈ selected ↔ name ∈ names) :
    ∃ c, Selects graph (· ∈ names) c ∧
      (s.Agrees repr graph ↔ s.resolve repr c = .ok c.nodeNames) := by
  have hsub' : ∀ name ∈ selected, name ∈ graph.nodeNames :=
    fun name hname => hsub name ((hsame name).mp hname)
  have hselects := Planning.selectGraph_selects hgraph hsub'
  simp only [hsame] at hselects
  refine ⟨_, hselects, ?_⟩
  rw [agrees_iff hgraph hresolve hnames hselection hentry hselected hsub']
  exact and_iff_right hsame

/-- A selection that gives the planner its steps, which have all their producers. -/
theorem agrees_iff_of_closed (hgraph : WellFormedGraph graph)
    (hresolve : s.resolve repr graph = .ok names) (hnames : names ≠ [])
    (hordered : names.Sublist graph.nodeNames) (hclosed : graph.Closed names)
    (hselection : s.toPlanSelection repr graph = .ok (.nodes names)) :
    ∃ c, Selects graph (· ∈ names) c ∧
      (s.Agrees repr graph ↔ s.resolve repr c = .ok c.nodeNames) := by
  have hsub : ∀ name ∈ names, name ∈ graph.nodeNames := hordered.subset
  obtain ⟨selected, hselected, hclosure⟩ := selected_of_nodes repr hsub
  exact agrees_iff_of_same hgraph hresolve hnames hsub hselection PlanSelection.noConfusion
    hselected (closure_of_closed hgraph hclosed hclosure hsub)

/-- On the graph of the plan, the targets have the closure that they had before. -/
theorem closure_again (hgraph : WellFormedGraph graph) (hc : Selects graph (· ∈ names) c)
    (hclosure : IsClosure graph targets names)
    (htargets : ∀ target ∈ targets, target ∈ graph.nodeNames) :
    dependencyClosure c targets = .ok c.nodeNames := by
  have hin := hclosure.of_targets htargets
  rw [closure_eq_all hc.order.nodup fun target htarget =>
    (hc.order.mem_iff target).mpr (hin target htarget)]
  intro name hname
  rw [upstream_iff hc hgraph hclosure.closed hin]
  exact ((hclosure.mem_iff name).mp ((hc.order.mem_iff name).mp hname)).2

theorem agrees_all (hgraph : WellFormedGraph graph) (hkind : s.kind = .all) :
    s.Agrees repr graph := by
  by_cases hnames : graph.nodeNames = []
  · apply agrees_of_nothing
    intro names hresolve
    rw [resolve_all repr graph hkind] at hresolve
    rw [← Except.ok.inj hresolve]
    exact hnames
  · have hselection : s.toPlanSelection repr graph = .ok (.nodes graph.nodeNames) := by
      unfold RunSelection.toPlanSelection
      rw [resolve_all repr graph hkind, hkind]
      rfl
    obtain ⟨c, -, hiff⟩ := agrees_iff_of_closed hgraph (resolve_all repr graph hkind) hnames
      (List.Sublist.refl _) (fun _ _ _ h => h) hselection
    exact hiff.mpr (resolve_all repr c hkind)

/-- One step is selected with what it reads from. -/
theorem runOneSelection_spec (repr : String → String) (hdeclared : name ∈ graph.nodeNames) :
    ∃ selected, Plan.runOneSelection repr graph name = .ok selected ∧
      IsClosure graph [name] selected := by
  have hrun : Plan.runOneSelection repr graph name = dependencyClosure graph [name] := by
    show (Plan.validateSelectionTarget repr graph name >>= fun _ => _) = _
    rw [validated, if_pos hdeclared]
  rw [hrun]
  rcases Plan.dependencyClosure_spec graph [name] with ⟨-, selected, hok, hclosure⟩ |
    ⟨⟨other, hin, hout⟩, -⟩
  · exact ⟨selected, hok, hclosure⟩
  · rw [List.mem_singleton.mp hin] at hout
    exact absurd hdeclared hout

theorem agrees_only (hgraph : WellFormedGraph graph) (hkind : s.kind = .only) :
    s.Agrees repr graph := by
  intro names hresolve hnames
  have hgiven := hresolve
  rw [resolve_only repr graph hkind] at hgiven
  split at hgiven
  · cases hgiven
  · rcases Plan.dependencyClosure_spec graph s.nodes with ⟨hdeclared, names', hok, hclosure⟩ |
      ⟨-, herror⟩
    · rw [hok] at hgiven
      obtain rfl := Except.ok.inj hgiven
      have hsub : ∀ name ∈ names', name ∈ graph.nodeNames :=
        fun name hname => ((hclosure.mem_iff name).mp hname).1
      have hagain : ∀ c, Selects graph (· ∈ names') c → s.resolve repr c = .ok c.nodeNames := by
        intro c hc
        have hin := hclosure.of_targets hdeclared
        rw [resolve_only repr c hkind, if_neg (not_not_intro (Plan.missingNames_eq_nil.mpr
          fun target htarget => (hc.order.mem_iff target).mpr (hin target htarget)))]
        exact closure_again hgraph hc hclosure hdeclared
      have hselection : ∃ selection selected, s.toPlanSelection repr graph = .ok selection ∧
          selection ≠ .empty ∧ selectedNames repr graph selection = .ok selected ∧
          ∀ name, name ∈ selected ↔ name ∈ names' := by
        by_cases hone : ∃ node, s.nodes = [node]
        · obtain ⟨node, hnode⟩ := hone
          obtain ⟨selected, hselected, hone⟩ := runOneSelection_spec repr
            (hdeclared node (by rw [hnode]; exact List.mem_singleton_self _))
          refine ⟨.runOne node, selected, ?_, PlanSelection.noConfusion, hselected, ?_⟩
          · unfold RunSelection.toPlanSelection
            rw [hresolve, hkind, hnode]
            rfl
          · intro name
            rw [hone.mem_iff, hclosure.mem_iff, hnode]
        · obtain ⟨selected, hselected, hmany⟩ := selected_of_nodes repr hsub
          refine ⟨.nodes names', selected, ?_, PlanSelection.noConfusion, hselected,
            closure_of_closed hgraph hclosure.closed hmany hsub⟩
          unfold RunSelection.toPlanSelection
          rw [hresolve, hkind]
          rcases hnodes : s.nodes with - | ⟨node, - | ⟨second, rest⟩⟩
          · rfl
          · exact absurd ⟨node, hnodes⟩ hone
          · rfl
      obtain ⟨selection, selected, hselection, hentry, hselected, hsame⟩ := hselection
      obtain ⟨c, hc, hiff⟩ := agrees_iff_of_same hgraph hresolve hnames hsub hselection hentry
        hselected hsame
      exact hiff.mpr (hagain c hc) names' hresolve hnames
    · rw [herror] at hgiven
      cases hgiven

/-- The nodes of the plan with a tag are those that had it before. -/
theorem agrees_matching (hgraph : WellFormedGraph graph) (hkind : s.kind = .matching) :
    s.Agrees repr graph := by
  intro names hresolve hnames
  have hgiven := hresolve
  rw [resolve_matching repr graph hkind] at hgiven
  obtain ⟨matched, hmatched, hgiven⟩ := Checked.bind_eq_ok.mp hgiven
  rcases Plan.dependencyClosure_spec graph matched with ⟨hdeclared, names', hok, hclosure⟩ |
    ⟨-, herror⟩
  · rw [hok] at hgiven
    obtain rfl := Except.ok.inj hgiven
    have hsub : ∀ name ∈ names', name ∈ graph.nodeNames :=
      fun name hname => ((hclosure.mem_iff name).mp hname).1
    have hordered : names'.Sublist graph.nodeNames := hclosure.ordered
    have hselection : s.toPlanSelection repr graph = .ok (.nodes names') := by
      unfold RunSelection.toPlanSelection
      rw [hresolve, hkind]
      rfl
    obtain ⟨c, hc, hiff⟩ := agrees_iff_of_closed hgraph hresolve hnames hordered
      hclosure.closed hselection
    have hagain : s.resolve repr c = .ok c.nodeNames := by
      have husable : ∀ node ∈ c.nodes, ∃ found, tagSet node.tags = .ok found :=
        fun node hnode => usable_of_matchedNames hmatched node ((hc.mem_nodes node).mp hnode).1
      obtain ⟨matched', hmatched'⟩ := matchedNames_returns s.tags husable
      have hin := hclosure.of_targets hdeclared
      have hsame : ∀ name, name ∈ matched' ↔ name ∈ matched := by
        intro name
        rw [mem_matchedNames hmatched', mem_matchedNames hmatched]
        constructor
        · rintro ⟨node, hnode, hrest⟩
          exact ⟨node, ((hc.mem_nodes node).mp hnode).1, hrest⟩
        · rintro ⟨node, hnode, rfl, hrest⟩
          have hmem := hin node.name ((mem_matchedNames hmatched).mpr ⟨node, hnode, rfl, hrest⟩)
          exact ⟨node, (hc.mem_nodes node).mpr ⟨hnode, hmem⟩, rfl, hrest⟩
      have hclosure' : IsClosure graph matched' names' := by
        refine ⟨hclosure.ordered, fun name => ?_⟩
        rw [hclosure.mem_iff]
        unfold LogicalGraph.Upstream
        simp only [hsame]
      rw [resolve_matching repr c hkind, hmatched']
      exact closure_again hgraph hc hclosure'
        fun target htarget => hdeclared target ((hsame target).mp htarget)
    exact hiff.mpr hagain names' hresolve hnames
  · rw [herror] at hgiven
    cases hgiven

/-! ## The kinds that look at the order -/

/-- Two steps with one closure are the same step. -/
theorem one_of_same_closure (hgraph : WellFormedGraph graph) {a b : String}
    {selected : List String} (ha : IsClosure graph [a] selected) (hb : IsClosure graph [b] names)
    (hdeclared : a ∈ graph.nodeNames) (hdeclared' : b ∈ graph.nodeNames)
    (hsame : ∀ name, name ∈ selected ↔ name ∈ names) : a = b := by
  have hleads : ∀ {x y : String} {closure : List String}, IsClosure graph [y] closure →
      x ∈ closure → Relation.ReflTransGen graph.Feeds x y := by
    intro x y closure hclosure hx
    obtain ⟨-, target, htarget, hreach⟩ := (hclosure.mem_iff x).mp hx
    rw [List.mem_singleton.mp htarget] at hreach
    exact hreach
  have hin : a ∈ names := (hsame a).mp
    ((ha.mem_iff a).mpr ⟨hdeclared, a, List.mem_singleton_self _, .refl⟩)
  have hin' : b ∈ selected := (hsame b).mpr
    ((hb.mem_iff b).mpr ⟨hdeclared', b, List.mem_singleton_self _, .refl⟩)
  by_contra hne
  have hforth := hleads hb hin
  have hback := hleads ha hin'
  rcases Relation.reflTransGen_iff_eq_or_transGen.mp hforth with heq | hforth
  · exact hne heq.symm
  · exact hgraph.acyclic a (hforth.trans_left hback)

theorem agrees_upstreamOf (hgraph : WellFormedGraph graph) (hkind : s.kind = .upstreamOf) :
    s.Agrees repr graph ↔ s.Stable graph := by
  have hstable : s.Stable graph ↔ ∀ end_, s.end_ = some end_ → end_ ∈ graph.nodeNames →
      ∀ node, s.nodes = [node] → node = end_ := by
    unfold RunSelection.Stable
    rw [hkind]
  rw [hstable]
  have hresolve : ∀ graph, s.resolve repr graph = (required s.end_ >>= fun end_ =>
      Plan.validateSelectionTarget repr graph end_ >>= fun _ => dependencyClosure graph [end_]) :=
    fun graph => resolve_upstreamOf repr graph hkind
  refine agrees_iff_of_endpoint hresolve fun end_ hend hdeclared hresolve => ?_
  obtain ⟨names, hnames, hclosure⟩ := runOneSelection_spec repr hdeclared
  have hok : s.resolve repr graph = .ok names :=
    (hresolve graph).trans ((validated _).symm.trans hnames)
  have htargets : ∀ target ∈ [end_], target ∈ graph.nodeNames := by
    intro target htarget
    rw [List.mem_singleton.mp htarget]
    exact hdeclared
  have hin : end_ ∈ names := hclosure.of_targets htargets _ (List.mem_singleton_self _)
  have hsome := List.ne_nil_of_mem hin
  have hsub : ∀ name ∈ names, name ∈ graph.nodeNames :=
    fun name hname => ((hclosure.mem_iff name).mp hname).1
  have hagain : ∀ c, Selects graph (· ∈ names) c → s.resolve repr c = .ok c.nodeNames := by
    intro c hc
    rw [hresolve, if_pos ((hc.order.mem_iff _).mpr hin)]
    exact closure_again hgraph hc hclosure htargets
  by_cases hone : ∃ node, s.nodes = [node]
  · obtain ⟨node, hnode⟩ := hone
    have hselection : s.toPlanSelection repr graph = .ok (.runOne node) := by
      unfold RunSelection.toPlanSelection
      rw [hok, hkind, hnode]
      rfl
    by_cases hsame : node = end_
    · subst hsame
      obtain ⟨c, hc, hiff⟩ := agrees_iff_of_same hgraph hok hsome hsub hselection
        PlanSelection.noConfusion hnames fun _ => Iff.rfl
      refine iff_of_true (hiff.mpr (hagain c hc)) fun node' hnode' => ?_
      rw [hnode] at hnode'
      exact (List.singleton_inj.mp hnode').symm
    · refine iff_of_false (fun hagrees => ?_) fun h => hsame (h node hnode)
      have hnode' : node ∈ graph.nodeNames := by
        by_contra hunknown
        obtain ⟨selection, c, hselection', hc, -, -⟩ := hagrees names hok hsome
        rw [hselection] at hselection'
        obtain rfl := Except.ok.inj hselection'
        have herror : Plan.runOneSelection repr graph node =
            .error (Plan.unknownStep repr node) := (validated _).trans (if_neg hunknown)
        have hgiven := hc.symm.trans
          (Planning.selectGraph_of_error PlanSelection.noConfusion herror)
        cases hgiven
      obtain ⟨selected, hselected, hother⟩ := runOneSelection_spec repr hnode'
      obtain ⟨hmem, -⟩ := (agrees_iff hgraph hok hsome hselection PlanSelection.noConfusion
        hselected fun name hname => ((hother.mem_iff name).mp hname).1).mp hagrees
      exact hsame (one_of_same_closure hgraph hother hclosure hnode' hdeclared hmem)
  · have hselection : s.toPlanSelection repr graph = .ok (.runOne end_) := by
      unfold RunSelection.toPlanSelection
      rw [hok, hkind, hend]
      rcases hnodes : s.nodes with - | ⟨node, - | ⟨second, rest⟩⟩
      · rfl
      · exact absurd ⟨node, hnodes⟩ hone
      · rfl
    obtain ⟨c, hc, hiff⟩ := agrees_iff_of_same hgraph hok hsome hsub hselection
      PlanSelection.noConfusion hnames fun _ => Iff.rfl
    refine iff_of_true (hiff.mpr (hagain c hc)) fun node hnode => ?_
    exact absurd ⟨node, hnode⟩ hone

/-- What holds of the one least order. -/
theorem forall_leastOrder {chosen : String → Prop} {l : List String} {P : List String → Prop}
    (h : LeastOrderOf graph chosen l) : (∀ l', LeastOrderOf graph chosen l' → P l') ↔ P l := by
  constructor
  · intro hall
    exact hall l h
  · intro hl l' h'
    rw [← h.unique h']
    exact hl

theorem agrees_until (hgraph : WellFormedGraph graph) (hkind : s.kind = .until_) :
    s.Agrees repr graph ↔ s.Stable graph := by
  have hstable : s.Stable graph ↔ ∀ end_, s.end_ = some end_ → end_ ∈ graph.nodeNames →
      ∀ l, LeastOrderOf graph (· ∈ upTo end_ graph.nodeNames) l → l.getLast? = some end_ := by
    unfold RunSelection.Stable
    rw [hkind]
  rw [hstable]
  have hresolve : ∀ graph, s.resolve repr graph = (required s.end_ >>= fun end_ =>
      Plan.validateSelectionTarget repr graph end_ >>= fun _ => .ok (upTo end_ graph.nodeNames)) :=
    fun graph => resolve_until repr graph hkind
  refine agrees_iff_of_endpoint hresolve fun end_ hend hdeclared hresolve => ?_
  have hgiven := hresolve graph
  rw [if_pos hdeclared] at hgiven
  have hin := Plan.mem_upTo hdeclared
  have hselection : s.toPlanSelection repr graph = .ok (.runUntil end_) := by
    unfold RunSelection.toPlanSelection
    rw [hgiven, hkind, hend]
    rfl
  have hselected : selectedNames repr graph (.runUntil end_) = .ok (upTo end_ graph.nodeNames) :=
    (validated _).trans (if_pos hdeclared)
  obtain ⟨c, hc, hiff⟩ := agrees_iff_of_same hgraph hgiven (List.ne_nil_of_mem hin)
    (Plan.upTo_isPrefix end_ graph.nodeNames).subset hselection PlanSelection.noConfusion
    hselected fun _ => Iff.rfl
  have hin' : end_ ∈ c.nodeNames := (hc.order.mem_iff end_).mpr hin
  have hagain : s.resolve repr c = .ok c.nodeNames ↔ c.nodeNames.getLast? = some end_ := by
    rw [hresolve c, if_pos hin', Except.ok.injEq]
    exact Plan.upTo_eq_self hc.order.nodup hin'
  have hleast := forall_leastOrder (P := fun l => l.getLast? = some end_) hc.order
  rw [hiff, hagain, ← hleast]

/-- The steps of the plan that are targets, and what they lead to. -/
theorem closure_in_plan (hgraph : WellFormedGraph graph) (hc : Selects graph (· ∈ names) c)
    (hclosed : graph.Closed names) (htargets : ∀ target ∈ targets, target ∈ c.nodeNames) :
    dependencyClosure c targets = .ok c.nodeNames ↔
      ∀ name ∈ c.nodeNames, graph.Upstream targets name := by
  rw [closure_eq_all hc.order.nodup htargets]
  refine forall₂_congr fun name hname => upstream_iff hc hgraph hclosed ?_
  exact fun target htarget => (hc.order.mem_iff target).mp (htargets target htarget)

theorem agrees_from (hgraph : WellFormedGraph graph) (hkind : s.kind = .from_) :
    s.Agrees repr graph ↔ s.Stable graph := by
  have hstable : s.Stable graph ↔ ∀ start, s.start = some start → start ∈ graph.nodeNames →
      ∀ l, LeastOrderOf graph (LogicalGraph.FromSet graph start) l →
        LeadsBehind graph start l := by
    unfold RunSelection.Stable
    rw [hkind]
  rw [hstable]
  refine agrees_iff_of_endpoint (fun graph => resolve_from repr graph hkind)
    fun start hstart hdeclared hresolve => ?_
  have hgiven := hresolve graph
  rw [if_pos hdeclared] at hgiven
  have hbehind : ∀ name ∈ graph.nodeNames.dropWhile (fun name => name ≠ start),
      name ∈ graph.nodeNames := (List.dropWhile_sublist _).subset
  obtain ⟨-, names, hok, hclosure⟩ | ⟨⟨name, hin, hout⟩, -⟩ :=
    Plan.dependencyClosure_spec graph (graph.nodeNames.dropWhile fun name => name ≠ start)
  · rw [hok] at hgiven
    have hin : start ∈ names := hclosure.of_targets hbehind start (mem_dropWhile_ne hdeclared)
    have hselection : s.toPlanSelection repr graph = .ok (.nodes names) := by
      unfold RunSelection.toPlanSelection
      rw [hgiven, hkind]
      rfl
    obtain ⟨c, hc, hiff⟩ := agrees_iff_of_closed hgraph hgiven (List.ne_nil_of_mem hin)
      hclosure.ordered hclosure.closed hselection
    have hagain : s.resolve repr c = .ok c.nodeNames ↔ LeadsBehind graph start c.nodeNames := by
      rw [hresolve c, if_pos ((hc.order.mem_iff start).mpr hin)]
      exact closure_in_plan hgraph hc hclosure.closed (List.dropWhile_sublist _).subset
    have hchosen : LogicalGraph.FromSet graph start = (· ∈ names) := by
      funext name
      exact propext (hclosure.mem_iff name).symm
    have hleast := forall_leastOrder (P := LeadsBehind graph start) hc.order
    rw [hiff, hagain, ← hleast, ← hchosen]
  · exact absurd (hbehind name hin) hout

/-- The last step of the plan leads to no step before it. -/
theorem last_in_targets (hc : Selects graph (· ∈ names) c) {last : String}
    (hlast : c.nodeNames.getLast? = some last)
    (htargets : ∀ target ∈ targets, target ∈ c.nodeNames) (hleads : c.Upstream targets last) :
    last ∈ targets := by
  obtain ⟨target, htarget, hreach⟩ := hleads
  have hin := htargets target htarget
  have hinside : Relation.ReflTransGen
      (fun x y => graph.Feeds x y ∧ x ∈ c.nodeNames ∧ y ∈ c.nodeNames) last target := by
    refine hreach.lift id fun x y hxy => ?_
    obtain ⟨hfeeds, hx, hy⟩ := (hc.feeds x y).mp hxy
    exact ⟨hfeeds, (hc.order.mem_iff x).mpr hx, (hc.order.mem_iff y).mpr hy⟩
  have hle := hc.order.idxOf_le hin hinside
  obtain ⟨before, hsplit⟩ := List.getLast?_eq_some_iff.mp hlast
  have hnew : last ∉ before := by
    have hnodup := hc.order.nodup
    rw [hsplit, List.nodup_append] at hnodup
    exact fun h => hnodup.2.2 last h last (List.mem_singleton_self _) rfl
  rw [hsplit] at hin hle
  rcases List.mem_append.mp hin with hbefore | hback
  · rw [List.idxOf_append_of_notMem hnew, List.idxOf_append_of_mem hbefore] at hle
    have hlt := List.idxOf_lt_length_of_mem hbefore
    omega
  · rw [← List.mem_singleton.mp hback]
    exact htarget

/-- Between two steps, the first declared before the second. -/
theorem between_forward (repr : String → String) {start end_ : String} (hkind : s.kind = .between)
    (hstart : s.start = some start) (hend : s.end_ = some end_)
    (hnodes : graph.nodeNames.Nodup) (hdeclared : start ∈ graph.nodeNames)
    (hbehind : end_ ∈ graph.nodeNames.dropWhile fun name => name ≠ start) :
    s.resolve repr graph = dependencyClosure graph
      (upTo end_ (graph.nodeNames.dropWhile fun name => name ≠ start)) := by
  have hdeclared' : end_ ∈ graph.nodeNames := (List.dropWhile_sublist _).subset hbehind
  rw [resolve_between repr graph hkind, hstart, hend]
  refine (validated _).trans ((if_pos hdeclared).trans ((validated _).trans ?_))
  rw [if_pos hdeclared', scanBetween_of_mem hnodes hbehind]

/-- Otherwise nothing is selected. -/
theorem between_nothing {start end_ : String} (hkind : s.kind = .between)
    (hstart : s.start = some start) (hend : s.end_ = some end_)
    (hnot : start ∈ graph.nodeNames →
      end_ ∉ graph.nodeNames.dropWhile fun name => name ≠ start)
    (hresolve : s.resolve repr graph = .ok names) : names = [] := by
  rw [resolve_between repr graph hkind, hstart, hend] at hresolve
  have hresolve := (validated _).symm.trans hresolve
  by_cases hdeclared : start ∈ graph.nodeNames
  · have hresolve := (validated _).symm.trans ((if_pos hdeclared).symm.trans hresolve)
    by_cases hdeclared' : end_ ∈ graph.nodeNames
    · rw [if_pos hdeclared', scanBetween_of_not_mem hdeclared' (hnot hdeclared)] at hresolve
      exact (Except.ok.inj hresolve).symm
    · rw [if_neg hdeclared'] at hresolve
      cases hresolve
  · rw [if_neg hdeclared] at hresolve
    cases hresolve

/-- On the plan, all steps are selected again just if the end step is the last one and
every step leads behind the start step. -/
theorem between_again (repr : String → String) {start end_ : String} (hgraph : WellFormedGraph graph)
    (hkind : s.kind = .between) (hstart : s.start = some start) (hend : s.end_ = some end_)
    (hc : Selects graph (· ∈ names) c) (hclosed : graph.Closed names)
    (hin : start ∈ c.nodeNames) :
    s.resolve repr c = .ok c.nodeNames ↔
      c.nodeNames.getLast? = some end_ ∧ LeadsBehind graph start c.nodeNames := by
  have hsuffix : c.nodeNames.dropWhile (fun name => name ≠ start) <:+ c.nodeNames :=
    List.dropWhile_suffix _
  have hlasts : (c.nodeNames.dropWhile fun name => name ≠ start).getLast? =
      c.nodeNames.getLast? := by
    obtain ⟨before, hsplit⟩ := hsuffix
    have hsome := List.ne_nil_of_mem (mem_dropWhile_ne hin)
    conv_rhs => rw [← hsplit]
    rw [List.getLast?_append_of_ne_nil _ hsome]
  have hnodup := hc.order.nodup.sublist hsuffix.sublist
  by_cases hbehind : end_ ∈ c.nodeNames.dropWhile fun name => name ≠ start
  · have hfront := Plan.upTo_isPrefix end_ (c.nodeNames.dropWhile fun name => name ≠ start)
    have htargets : ∀ target ∈ upTo end_ (c.nodeNames.dropWhile fun name => name ≠ start),
        target ∈ c.nodeNames := fun target htarget => hsuffix.subset (hfront.subset htarget)
    rw [between_forward repr hkind hstart hend hc.order.nodup hin hbehind,
      closure_in_plan hgraph hc hclosed htargets]
    constructor
    · intro hall
      obtain ⟨last, hlast⟩ : ∃ last, c.nodeNames.getLast? = some last :=
        ⟨_, List.getLast?_eq_some_getLast (List.ne_nil_of_mem hin)⟩
      have hleads := hall last (List.mem_of_getLast? hlast)
      rw [← upstream_iff hc hgraph hclosed fun target htarget =>
        (hc.order.mem_iff target).mp (htargets target htarget)] at hleads
      have hmem := last_in_targets hc hlast htargets hleads
      have heq := Plan.eq_of_last_mem_upTo hnodup hbehind (hlasts.trans hlast) hmem
      rw [heq] at hlast
      refine ⟨hlast, fun name hname => ?_⟩
      rw [← (Plan.upTo_eq_self hnodup hbehind).mpr (hlasts.trans hlast)]
      exact hall name hname
    · rintro ⟨hlast, hleads⟩
      rw [(Plan.upTo_eq_self hnodup hbehind).mpr (hlasts.trans hlast)]
      exact hleads
  · refine iff_of_false (fun hok => ?_) fun h => hbehind ?_
    · rw [between_nothing hkind hstart hend (fun _ => hbehind) hok] at hin
      cases hin
    · exact List.mem_of_getLast? (hlasts.trans h.1)

theorem agrees_between (hgraph : WellFormedGraph graph) (hkind : s.kind = .between) :
    s.Agrees repr graph ↔ s.Stable graph := by
  have hstable : s.Stable graph ↔ ∀ start end_, s.start = some start → s.end_ = some end_ →
      start ∈ graph.nodeNames → end_ ∈ graph.nodeNames.dropWhile (fun other => other ≠ start) →
      ∀ l, LeastOrderOf graph (LogicalGraph.BetweenSet graph start end_) l →
        l.getLast? = some end_ ∧ LeadsBehind graph start l := by
    unfold RunSelection.Stable
    rw [hkind]
  rw [hstable]
  have hresolve := fun graph => resolve_between repr graph hkind
  have hnothing : (∀ names, s.resolve repr graph ≠ .ok names) → s.Agrees repr graph :=
    fun h => agrees_of_nothing fun names hok => absurd hok (h names)
  cases hstart : s.start with
  | none =>
      refine iff_of_true (hnothing fun names hok => ?_) ?_
      · rw [hresolve, hstart] at hok
        cases hok
      · intro start end_ hsome
        cases hsome
  | some start =>
      cases hend : s.end_ with
      | none =>
          refine iff_of_true (hnothing fun names hok => ?_) ?_
          · rw [hresolve, hstart, hend] at hok
            cases hok
          · intro start end_ _ hsome
            cases hsome
      | some end_ =>
          by_cases hforward : start ∈ graph.nodeNames ∧
              end_ ∈ graph.nodeNames.dropWhile fun name => name ≠ start
          · obtain ⟨hdeclared, hbehind⟩ := hforward
            have hgiven := between_forward repr hkind hstart hend hgraph.distinct
              hdeclared hbehind
            have hsub : ∀ name ∈ upTo end_ (graph.nodeNames.dropWhile fun name => name ≠ start),
                name ∈ graph.nodeNames := fun name hname =>
              (List.dropWhile_sublist _).subset ((Plan.upTo_isPrefix end_ _).subset hname)
            obtain ⟨-, names, hok, hclosure⟩ | ⟨⟨name, hin, hout⟩, -⟩ :=
              Plan.dependencyClosure_spec graph
                (upTo end_ (graph.nodeNames.dropWhile fun name => name ≠ start))
            · rw [hok] at hgiven
              have hin : start ∈ names := hclosure.of_targets hsub start (start_mem_upTo hdeclared)
              have hselection : s.toPlanSelection repr graph = .ok (.nodes names) := by
                unfold RunSelection.toPlanSelection
                rw [hgiven, hkind]
                rfl
              obtain ⟨c, hc, hiff⟩ := agrees_iff_of_closed hgraph hgiven
                (List.ne_nil_of_mem hin) hclosure.ordered hclosure.closed hselection
              have hagain := between_again repr hgraph hkind hstart hend hc
                hclosure.closed ((hc.order.mem_iff start).mpr hin)
              have hchosen : LogicalGraph.BetweenSet graph start end_ = (· ∈ names) := by
                funext name
                exact propext (hclosure.mem_iff name).symm
              have hleast := forall_leastOrder
                (P := fun l => l.getLast? = some end_ ∧ LeadsBehind graph start l) hc.order
              rw [hiff, hagain, ← hleast, ← hchosen]
              constructor
              · intro hall other other' hother hother' _ _
                obtain rfl := Option.some.inj hother
                obtain rfl := Option.some.inj hother'
                exact hall
              · intro hall
                exact hall start end_ rfl rfl hdeclared hbehind
            · exact absurd (hsub name hin) hout
          · refine iff_of_true (agrees_of_nothing fun names hok => ?_) ?_
            · exact between_nothing hkind hstart hend
                (fun hdeclared hbehind => hforward ⟨hdeclared, hbehind⟩) hok
            · intro other other' hother hother' hdeclared hbehind
              obtain rfl := Option.some.inj hother
              obtain rfl := Option.some.inj hother'
              exact absurd ⟨hdeclared, hbehind⟩ hforward

theorem agrees_downstreamOf (hgraph : WellFormedGraph graph) (hkind : s.kind = .downstreamOf) :
    s.Agrees repr graph ↔ s.Stable graph := by
  have hstable : s.Stable graph ↔ ∀ start, s.start = some start → start ∈ graph.nodeNames →
      ∀ edge ∈ graph.edges, Relation.ReflTransGen graph.Feeds start edge.consumerNode →
        Relation.ReflTransGen graph.Feeds start edge.producerNode := by
    unfold RunSelection.Stable
    rw [hkind]
  rw [hstable]
  refine agrees_iff_of_endpoint (fun graph => resolve_downstreamOf repr graph hkind)
    fun start hstart hdeclared hresolve => ?_
  have hgiven := hresolve graph
  rw [if_pos hdeclared] at hgiven
  obtain ⟨names, hnames⟩ : ∃ names, names = graph.nodeNames.filter fun name =>
      name ∈ Worklist.reached graph.consumers
        (graph.edges.map Plan.LogicalEdge.producerNode) [start] := ⟨_, rfl⟩
  rw [← hnames] at hgiven
  have hmem : ∀ name, name ∈ names ↔
      name ∈ graph.nodeNames ∧ Relation.ReflTransGen graph.Feeds start name := by
    intro name
    rw [hnames, List.mem_filter, decide_eq_true_eq, Plan.mem_downstream]
  have hin : start ∈ names := (hmem start).mpr ⟨hdeclared, .refl⟩
  have hsub : ∀ name ∈ names, name ∈ graph.nodeNames := fun name hname =>
    ((hmem name).mp hname).1
  have hselection : s.toPlanSelection repr graph = .ok (.nodes names) := by
    unfold RunSelection.toPlanSelection
    rw [hgiven, hkind]
    rfl
  constructor
  · intro hagrees edge hedge hreach
    obtain ⟨selected, hselected, hclosure⟩ := selected_of_nodes repr hsub
    obtain ⟨hsame, -⟩ := (agrees_iff hgraph hgiven (List.ne_nil_of_mem hin) hselection
      PlanSelection.noConfusion hselected
      fun name hname => ((hclosure.mem_iff name).mp hname).1).mp hagrees
    obtain ⟨hproducer, hconsumer⟩ := hgraph.ends edge hedge
    have hleads : edge.producerNode ∈ selected := (hclosure.mem_iff _).mpr ⟨hproducer,
      edge.consumerNode, (hmem _).mpr ⟨hconsumer, hreach⟩, .single ⟨edge, hedge, rfl, rfl⟩⟩
    exact ((hmem _).mp ((hsame _).mp hleads)).2
  · intro hclosed
    have hordered : names.Sublist graph.nodeNames := by
      rw [hnames]
      exact List.filter_sublist
    have hclosed' : graph.Closed names := by
      intro edge hedge hconsumer hproducer
      obtain ⟨-, hreach⟩ := (hmem _).mp hconsumer
      exact (hmem _).mpr ⟨hproducer, hclosed edge hedge hreach⟩
    obtain ⟨c, hc, hiff⟩ := agrees_iff_of_closed hgraph hgiven (List.ne_nil_of_mem hin)
      hordered hclosed' hselection
    refine hiff.mpr ?_
    have hin' : start ∈ c.nodeNames := (hc.order.mem_iff start).mpr hin
    rw [hresolve c, if_pos hin', Except.ok.injEq, List.filter_eq_self]
    intro name hname
    rw [decide_eq_true_eq, Plan.mem_downstream]
    have hname := (hc.order.mem_iff name).mp hname
    exact (reach_inside hc hgraph hclosed' hname ((hmem name).mp hname).2).1

/-! ## Every kind -/

/-- The plan of a request is accepted for the request exactly if the order of the plan
fits the selection. -/
theorem agrees_iff_stable (repr : String → String) (s : RunSelection) (graph : LogicalGraph)
    (hgraph : WellFormedGraph graph) : s.Agrees repr graph ↔ s.Stable graph := by
  have hfree : ∀ {p : Prop}, s.Agrees repr graph → (s.Stable graph ↔ p) → p →
      (s.Agrees repr graph ↔ s.Stable graph) :=
    fun hagrees hiff hp => iff_of_true hagrees (hiff.mpr hp)
  cases hkind : s.kind with
  | all =>
      refine hfree (agrees_all hgraph hkind) ?_ trivial
      unfold RunSelection.Stable
      rw [hkind]
  | only =>
      refine hfree (agrees_only hgraph hkind) ?_ trivial
      unfold RunSelection.Stable
      rw [hkind]
  | until_ => exact agrees_until hgraph hkind
  | from_ => exact agrees_from hgraph hkind
  | between => exact agrees_between hgraph hkind
  | upstreamOf => exact agrees_upstreamOf hgraph hkind
  | downstreamOf => exact agrees_downstreamOf hgraph hkind
  | matching =>
      refine hfree (agrees_matching hgraph hkind) ?_ trivial
      unfold RunSelection.Stable
      rw [hkind]
  | other text =>
      refine hfree (agrees_of_nothing fun names hok => ?_) ?_ trivial
      · unfold RunSelection.resolve at hok
        rw [hkind] at hok
        cases hok
      · unfold RunSelection.Stable
        rw [hkind]

section Sample

/-- Two steps, declared against their names. -/
def twoSteps : LogicalGraph where
  nodes := [⟨"b", .items []⟩, ⟨"a", .items []⟩]
  edges := []

def selectUntil (end_ : String) : RunSelection := ⟨.until_, [], [], none, some end_⟩

theorem twoSteps_wellFormed : WellFormedGraph twoSteps where
  distinct := by decide
  ends := by
    intro edge hedge
    cases hedge
  acyclic := Plan.acyclic_of_rank (fun _ => 0) (by
    intro edge hedge
    cases hedge)

theorem agrees_until_first :
    (selectUntil "b").Agrees (fun text => "'" ++ text ++ "'") twoSteps ↔
      (selectUntil "b").Stable twoSteps :=
  agrees_iff_stable _ _ _ twoSteps_wellFormed

/-- Of the plan for both steps, the request selects one. -/
theorem until_rejects_its_plan : WellFormedGraph twoSteps ∧
    ¬ (selectUntil "a").Agrees (fun text => "'" ++ text ++ "'") twoSteps := by
  refine ⟨twoSteps_wellFormed, fun hagrees => ?_⟩
  obtain ⟨selection, c, hselection, hc, -, hagain⟩ := hagrees ["b", "a"] (by rfl) (by decide)
  have hgiven : (selectUntil "a").toPlanSelection (fun text => "'" ++ text ++ "'") twoSteps =
      .ok (.runUntil "a") := by rfl
  rw [hgiven] at hselection
  obtain rfl := Except.ok.inj hselection
  have hplan : selectGraph (fun text => "'" ++ text ++ "'") twoSteps (.runUntil "a") =
      .ok ⟨[⟨"a", .items []⟩, ⟨"b", .items []⟩], []⟩ := by rfl
  rw [hplan] at hc
  obtain rfl := Except.ok.inj hc
  have hfront : (selectUntil "a").resolve (fun text => "'" ++ text ++ "'")
      ⟨[⟨"a", .items []⟩, ⟨"b", .items []⟩], []⟩ = .ok ["a"] := by rfl
  rw [hfront] at hagain
  exact absurd (Except.ok.inj hagain) (by decide)

end Sample

end Etlantic.Runtime
