import Etlantic.Base.Dict
import Etlantic.Base.TopologicalOrder
import Etlantic.Plan.Slicing
import Etlantic.Planning.Solver

/-!
# The graph of a selection

The planner slices the logical graph to the selected steps and brings the slice into a
canonical order: Kahn's, with the least name first.  Of a graph without circles that is
the least topological order, and nothing but the order changes.
-/

namespace Etlantic.Planning

open TopologicalOrder (IsLeastOrder)

/-- The entry of a planner selection that decides, or that there is none. -/
inductive PlanSelection where
  | empty
  | runOne (name : String)
  | runUntil (name : String)
  | nodes (names : List String)
  | whole

/-- `{node.name: node for node in graph.nodes}`. -/
def nodesByName (graph : Plan.LogicalGraph) : Dict String Plan.LogicalNode :=
  Dict.empty.setAll (graph.nodes.map fun node => (node.name, node))

/-- The ends of the edges between two nodes. -/
def innerEdges (graph : Plan.LogicalGraph) (names : List String) : List (String × String) :=
  (graph.edges.filter fun edge => edge.producerNode ∈ names && edge.consumerNode ∈ names).map
    fun edge => (edge.producerNode, edge.consumerNode)

/-- `ordered`. -/
def canonicalOrder (graph : Plan.LogicalGraph) : List String :=
  let names := (nodesByName graph).entries.map Prod.fst
  let ordered := TopologicalOrder.order names (innerEdges graph names)
  if ordered.length ≠ names.length then names.insertionSort (· ≤ ·) else ordered

/-- The sort key of an edge; a node that is not in the order comes last. -/
def edgeKey (ordered : List String) (edge : Plan.LogicalEdge) :
    Nat ×ₗ String ×ₗ String ×ₗ Nat ×ₗ String ×ₗ String ×ₗ String ×ₗ String :=
  toLex (ordered.idxOf edge.producerNode, toLex (edge.producerNode, toLex (edge.producerPort,
    toLex (ordered.idxOf edge.consumerNode, toLex (edge.consumerNode, toLex (edge.consumerPort,
      toLex (edge.producerContractId.getD "", edge.consumerContractId.getD "")))))))

/-- `_canonical_graph`. -/
def canonicalGraph (graph : Plan.LogicalGraph) : Plan.LogicalGraph :=
  let ordered := canonicalOrder graph
  { nodes := ordered.filterMap (nodesByName graph).get?
    edges := graph.edges.insertionSort fun a b => edgeKey ordered a ≤ edgeKey ordered b }

/-- The steps that a planner selection names. -/
def selectedNames (repr : String → String) (graph : Plan.LogicalGraph) :
    PlanSelection → Except Plan.SelectionError (List String)
  | .runOne name => Plan.runOneSelection repr graph name
  | .runUntil name => Plan.runUntilSelection repr graph name
  | .nodes names => Plan.dependencyClosure graph names
  | _ => .ok graph.nodeNames

/-- What `_select_graph` makes of an error: only a `ValueError` becomes a diagnostic. -/
def selectionDiagnostic : Plan.SelectionError → PlanningError ⊕ Plan.SelectionError
  | .valueError message => .inl (.diagnostic "PMPLAN501" message ["selection"])
  | error => .inr error

/-- `_select_graph`. -/
def selectGraph (repr : String → String) (graph : Plan.LogicalGraph) (selection : PlanSelection) :
    Except (PlanningError ⊕ Plan.SelectionError) Plan.LogicalGraph :=
  match selection with
  | .empty => .ok graph
  | selection =>
      match selectedNames repr graph selection with
      | .error error => .error (selectionDiagnostic error)
      | .ok [] => .error (selectionDiagnostic (.valueError "Selection produced an empty graph."))
      | .ok selected => .ok (canonicalGraph (Plan.sliceGraph graph selected))

/-! ## Well-formed graphs -/

/-- Distinct nodes, edges between nodes, and no circles. -/
structure WellFormedGraph (graph : Plan.LogicalGraph) : Prop where
  distinct : graph.nodeNames.Nodup
  ends : ∀ edge ∈ graph.edges,
    edge.producerNode ∈ graph.nodeNames ∧ edge.consumerNode ∈ graph.nodeNames
  acyclic : graph.Acyclic

/-- The order of the chosen nodes that the planner's order is: the least one in which
no edge between them leads back. -/
structure LeastOrderOf (graph : Plan.LogicalGraph) (chosen : String → Prop) (l : List String) :
    Prop where
  nodup : l.Nodup
  mem_iff : ∀ name, name ∈ l ↔ chosen name
  least : IsLeastOrder l (innerEdges graph l) l

variable {graph : Plan.LogicalGraph} {names : List String} {name : String}

theorem mem_innerEdges {a b : String} :
    (a, b) ∈ innerEdges graph names ↔ graph.Feeds a b ∧ a ∈ names ∧ b ∈ names := by
  unfold innerEdges
  rw [List.mem_map]
  constructor
  · rintro ⟨edge, hmem, heq⟩
    obtain ⟨hedge, hends⟩ := List.mem_filter.mp hmem
    rw [Bool.and_eq_true, decide_eq_true_eq, decide_eq_true_eq] at hends
    obtain ⟨rfl, rfl⟩ := Prod.mk.inj heq
    exact ⟨⟨edge, hedge, rfl, rfl⟩, hends⟩
  · rintro ⟨⟨edge, hedge, rfl, rfl⟩, ha, hb⟩
    refine ⟨edge, List.mem_filter.mpr ⟨hedge, ?_⟩, rfl⟩
    rw [Bool.and_eq_true, decide_eq_true_eq, decide_eq_true_eq]
    exact ⟨ha, hb⟩

theorem innerEdges_acyclic (h : graph.Acyclic) (names : List String) :
    TopologicalOrder.Acyclic (innerEdges graph names) := by
  intro a hcircle
  have hfeeds : Relation.TransGen graph.Feeds a a :=
    hcircle.lift id fun x y hxy => (mem_innerEdges.mp hxy).1
  exact h a hfeeds

theorem innerEdges_ends (names : List String) :
    ∀ e ∈ innerEdges graph names, e.1 ∈ names ∧ e.2 ∈ names :=
  fun _ he => (mem_innerEdges.mp he).2

/-! ## The canonical order -/

theorem entries_setAll {ν : Type} : ∀ {l : List (String × ν)} {d : Dict String ν},
    (l.map Prod.fst).Nodup → (∀ e ∈ l, d.get? e.1 = none) →
      (d.setAll l).entries = d.entries ++ l
  | [], d, _, _ => (List.append_nil _).symm
  | e :: l, d, hnodup, hnew => by
      obtain ⟨hfresh, hnodup⟩ := List.nodup_cons.mp hnodup
      have hset : (d.set e.1 e.2).entries = d.entries ++ [e] :=
        Dict.entries_set_of_absent (hnew e List.mem_cons_self)
      show ((d.set e.1 e.2).setAll l).entries = _
      rw [entries_setAll hnodup (by
        intro e' he'
        have hne : e.1 ≠ e'.1 := fun h => hfresh (h ▸ List.mem_map_of_mem he')
        rw [Dict.get?_set_ne _ _ hne]
        exact hnew e' (List.mem_cons_of_mem _ he')), hset, List.append_assoc]
      rfl

theorem nodesByName_keys (h : graph.nodeNames.Nodup) :
    (nodesByName graph).entries.map Prod.fst = graph.nodeNames := by
  unfold nodesByName
  rw [entries_setAll (by
    rw [List.map_map]
    exact h) (fun _ _ => rfl)]
  show (graph.nodes.map fun node => (node.name, node)).map Prod.fst = _
  rw [List.map_map]
  rfl

theorem innerEdges_congr {names' : List String} (h : ∀ name, name ∈ names ↔ name ∈ names') :
    innerEdges graph names = innerEdges graph names' := by
  unfold innerEdges
  simp only [h]

theorem canonicalOrder_least (h : WellFormedGraph graph) :
    LeastOrderOf graph (· ∈ graph.nodeNames) (canonicalOrder graph) := by
  obtain ⟨hperm, hgreedy⟩ := TopologicalOrder.order_spec h.distinct
    (innerEdges_acyclic h.acyclic graph.nodeNames) (innerEdges_ends graph.nodeNames)
  have horder : canonicalOrder graph =
      TopologicalOrder.order graph.nodeNames (innerEdges graph graph.nodeNames) := by
    unfold canonicalOrder
    rw [nodesByName_keys h.distinct]
    exact if_neg (not_not_intro hperm.length_eq)
  rw [horder]
  have hleast := hgreedy.isLeastOrder h.distinct hperm
  refine ⟨hperm.nodup_iff.mpr h.distinct, fun name => hperm.mem_iff, ?_⟩
  rw [innerEdges_congr fun name => hperm.mem_iff]
  exact hleast.of_perm hperm.symm

theorem LeastOrderOf.unique {chosen : String → Prop} {l l' : List String}
    (h : LeastOrderOf graph chosen l) (h' : LeastOrderOf graph chosen l') : l = l' := by
  have hsame : ∀ name, name ∈ l ↔ name ∈ l' :=
    fun name => (h.mem_iff name).trans (h'.mem_iff name).symm
  have hperm : l.Perm l' := (List.perm_ext_iff_of_nodup h.nodup h'.nodup).mpr hsame
  have hleast := h'.least.of_perm hperm.symm
  rw [← innerEdges_congr hsame] at hleast
  exact h.least.unique hleast

/-- In the least order nothing comes before what it reads from. -/
theorem LeastOrderOf.idxOf_le {chosen : String → Prop} {l : List String}
    (h : LeastOrderOf graph chosen l) {a b : String} (hb : b ∈ l)
    (hreach : Relation.ReflTransGen (fun x y => graph.Feeds x y ∧ x ∈ l ∧ y ∈ l) a b) :
    l.idxOf a ≤ l.idxOf b := by
  induction hreach with
  | refl => exact Nat.le_refl _
  | tail _ hstep ih =>
      obtain ⟨hfeeds, hx, hy⟩ := hstep
      refine Nat.le_trans (ih hx) ?_
      rename_i x y _
      obtain ⟨before, after, hsplit⟩ := List.append_of_mem hy
      have hbefore := h.least.isOrder.ready before y after hsplit (x, y)
        (mem_innerEdges.mpr ⟨hfeeds, hx, hy⟩) rfl
      have hx' : l.idxOf x < before.length := by
        rw [hsplit, List.idxOf_append_of_mem hbefore]
        exact List.idxOf_lt_length_of_mem hbefore
      have hnot : y ∉ before := by
        have hnodup := h.nodup
        rw [hsplit, List.nodup_append] at hnodup
        exact fun hin => hnodup.2.2 y hin y List.mem_cons_self rfl
      have hy' : before.length ≤ l.idxOf y := by
        rw [hsplit, List.idxOf_append_of_notMem hnot]
        exact Nat.le_add_right _ _
      omega

/-- The graph `c` is `graph` in its canonical order. -/
structure Canonical (graph c : Plan.LogicalGraph) : Prop where
  order : LeastOrderOf graph (· ∈ graph.nodeNames) c.nodeNames
  mem_nodes : ∀ node, node ∈ c.nodes ↔ node ∈ graph.nodes
  mem_edges : ∀ edge, edge ∈ c.edges ↔ edge ∈ graph.edges

theorem get?_nodesByName (h : graph.nodeNames.Nodup) {node : Plan.LogicalNode} :
    (nodesByName graph).get? name = some node ↔ node ∈ graph.nodes ∧ node.name = name := by
  unfold nodesByName
  rw [Dict.get?_setAll_empty (by
    rw [List.map_map]
    exact h), List.mem_map]
  constructor
  · rintro ⟨other, hother, heq⟩
    obtain ⟨rfl, rfl⟩ := Prod.mk.inj heq
    exact ⟨hother, rfl⟩
  · rintro ⟨hnode, rfl⟩
    exact ⟨node, hnode, rfl⟩

theorem map_name_filterMap {f : String → Option Plan.LogicalNode} : ∀ {l : List String},
    (∀ name ∈ l, ∃ node, f name = some node ∧ node.name = name) →
      (l.filterMap f).map Plan.LogicalNode.name = l
  | [], _ => rfl
  | name :: rest, h => by
      obtain ⟨node, hnode, hname⟩ := h name List.mem_cons_self
      rw [List.filterMap_cons_some hnode, List.map_cons, hname,
        map_name_filterMap fun other hother => h other (List.mem_cons_of_mem _ hother)]

theorem canonicalGraph_canonical (h : WellFormedGraph graph) :
    Canonical graph (canonicalGraph graph) := by
  have horder := canonicalOrder_least h
  have hget : ∀ name ∈ canonicalOrder graph,
      ∃ node, (nodesByName graph).get? name = some node ∧ node.name = name := by
    intro name hname
    obtain ⟨node, hnode, hname⟩ := List.mem_map.mp ((horder.mem_iff name).mp hname)
    exact ⟨node, (get?_nodesByName h.distinct).mpr ⟨hnode, hname⟩, hname⟩
  have hnames : (canonicalGraph graph).nodeNames = canonicalOrder graph := map_name_filterMap hget
  refine ⟨hnames ▸ horder, fun node => ?_, fun edge => List.mem_insertionSort _⟩
  show node ∈ (canonicalOrder graph).filterMap (nodesByName graph).get? ↔ _
  rw [List.mem_filterMap]
  constructor
  · rintro ⟨name, -, hnode⟩
    exact ((get?_nodesByName h.distinct).mp hnode).1
  · intro hnode
    exact ⟨node.name, (horder.mem_iff _).mpr (List.mem_map_of_mem hnode),
      (get?_nodesByName h.distinct).mpr ⟨hnode, rfl⟩⟩

/-! ## The slice -/

theorem mem_sliceGraph_names :
    name ∈ (Plan.sliceGraph graph names).nodeNames ↔ name ∈ graph.nodeNames ∧ name ∈ names := by
  unfold Plan.sliceGraph Plan.LogicalGraph.nodeNames
  rw [List.mem_map, List.mem_map]
  constructor
  · rintro ⟨node, hnode, rfl⟩
    obtain ⟨hmem, hname⟩ := List.mem_filter.mp hnode
    exact ⟨⟨node, hmem, rfl⟩, of_decide_eq_true hname⟩
  · rintro ⟨⟨node, hmem, rfl⟩, hname⟩
    exact ⟨node, List.mem_filter.mpr ⟨hmem, decide_eq_true hname⟩, rfl⟩

theorem sliceGraph_feeds {a b : String} :
    (Plan.sliceGraph graph names).Feeds a b ↔ graph.Feeds a b ∧ a ∈ names ∧ b ∈ names := by
  constructor
  · rintro ⟨edge, hmem, rfl, rfl⟩
    obtain ⟨hedge, hends⟩ := List.mem_filter.mp hmem
    rw [Bool.and_eq_true, decide_eq_true_eq, decide_eq_true_eq] at hends
    exact ⟨⟨edge, hedge, rfl, rfl⟩, hends⟩
  · rintro ⟨⟨edge, hedge, rfl, rfl⟩, ha, hb⟩
    refine ⟨edge, List.mem_filter.mpr ⟨hedge, ?_⟩, rfl, rfl⟩
    rw [Bool.and_eq_true, decide_eq_true_eq, decide_eq_true_eq]
    exact ⟨ha, hb⟩

theorem WellFormedGraph.slice (h : WellFormedGraph graph) (names : List String) :
    WellFormedGraph (Plan.sliceGraph graph names) where
  distinct := h.distinct.sublist (List.filter_sublist.map _)
  ends edge hedge := by
    obtain ⟨hmem, hends⟩ := List.mem_filter.mp hedge
    rw [Bool.and_eq_true, decide_eq_true_eq, decide_eq_true_eq] at hends
    obtain ⟨hp, hc⟩ := h.ends edge hmem
    exact ⟨mem_sliceGraph_names.mpr ⟨hp, hends.1⟩, mem_sliceGraph_names.mpr ⟨hc, hends.2⟩⟩
  acyclic name hcircle := by
    have hfeeds : Relation.TransGen graph.Feeds name name :=
      hcircle.lift id fun _ _ hxy => (sliceGraph_feeds.mp hxy).1
    exact h.acyclic name hfeeds

/-- The graph `c` is the selected part of `graph`, in canonical order. -/
structure Selects (graph : Plan.LogicalGraph) (chosen : String → Prop) (c : Plan.LogicalGraph) :
    Prop where
  order : LeastOrderOf graph chosen c.nodeNames
  mem_nodes : ∀ node, node ∈ c.nodes ↔ node ∈ graph.nodes ∧ chosen node.name
  feeds : ∀ a b, c.Feeds a b ↔ graph.Feeds a b ∧ chosen a ∧ chosen b

/-- The planner's graph of a selection is the selected part. -/
theorem selectGraph_selects (h : WellFormedGraph graph)
    (hsub : ∀ name ∈ names, name ∈ graph.nodeNames) :
    Selects graph (· ∈ names) (canonicalGraph (Plan.sliceGraph graph names)) := by
  have hcanonical := canonicalGraph_canonical (h.slice names)
  have hchosen : ∀ name, name ∈ (Plan.sliceGraph graph names).nodeNames ↔ name ∈ names :=
    fun name => mem_sliceGraph_names.trans (and_iff_right_of_imp (hsub name))
  refine ⟨⟨hcanonical.order.nodup, fun name => ?_, ?_⟩, fun node => ?_, fun a b => ?_⟩
  · exact (hcanonical.order.mem_iff name).trans (hchosen name)
  · have hinner : innerEdges (Plan.sliceGraph graph names)
        (canonicalGraph (Plan.sliceGraph graph names)).nodeNames =
        innerEdges graph (canonicalGraph (Plan.sliceGraph graph names)).nodeNames := by
      have hmem := fun name => (hcanonical.order.mem_iff name).trans (hchosen name)
      unfold innerEdges
      show List.map _ (List.filter _ (List.filter _ graph.edges)) = _
      rw [List.filter_filter]
      simp only [hmem, Bool.and_self]
    rw [← hinner]
    exact hcanonical.order.least
  · rw [hcanonical.mem_nodes]
    show node ∈ graph.nodes.filter _ ↔ _
    rw [List.mem_filter, decide_eq_true_eq]
  · rw [← sliceGraph_feeds]
    unfold Plan.LogicalGraph.Feeds
    simp only [hcanonical.mem_edges]

theorem selectGraph_eq {repr : String → String} {selection : PlanSelection}
    (hentry : selection ≠ .empty) :
    selectGraph repr graph selection =
      match selectedNames repr graph selection with
      | .error error => .error (selectionDiagnostic error)
      | .ok [] => .error (selectionDiagnostic (.valueError "Selection produced an empty graph."))
      | .ok selected => .ok (canonicalGraph (Plan.sliceGraph graph selected)) := by
  cases selection with
  | empty => exact absurd rfl hentry
  | runOne name => rfl
  | runUntil name => rfl
  | nodes names => rfl
  | whole => rfl

theorem selectGraph_of_selected {repr : String → String} {selection : PlanSelection}
    {selected : List String} (hentry : selection ≠ .empty)
    (hselected : selectedNames repr graph selection = .ok selected) :
    selectGraph repr graph selection =
      if selected = [] then
        .error (selectionDiagnostic (.valueError "Selection produced an empty graph."))
      else .ok (canonicalGraph (Plan.sliceGraph graph selected)) := by
  rw [selectGraph_eq hentry, hselected]
  cases selected with
  | nil => rfl
  | cons first rest => rfl

theorem selectGraph_of_error {repr : String → String} {selection : PlanSelection}
    {error : Plan.SelectionError} (hentry : selection ≠ .empty)
    (herror : selectedNames repr graph selection = .error error) :
    selectGraph repr graph selection = .error (selectionDiagnostic error) := by
  rw [selectGraph_eq hentry, herror]

end Etlantic.Planning
