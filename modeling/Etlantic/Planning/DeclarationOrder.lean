import Etlantic.Planning.SelectGraph

/-!
# The order of the declarations

The planner's steps and edges are the same, in one order, for every order in which a
pipeline declares them.  Only a `run_until` selection reads that order, and the list of
selected names that `slice_graph` records, which the planner does not read.
-/

namespace Etlantic.Planning

/-- The same nodes and edges, declared in any order. -/
structure SameDeclarations (graph graph' : Plan.LogicalGraph) : Prop where
  nodes : graph.nodes.Perm graph'.nodes
  edges : graph.edges.Perm graph'.edges

/-- Edges between the same ports are one edge. -/
def DistinctPorts (graph : Plan.LogicalGraph) : Prop :=
  ∀ a ∈ graph.edges, ∀ b ∈ graph.edges, a.producerNode = b.producerNode →
    a.producerPort = b.producerPort → a.consumerNode = b.consumerNode →
      a.consumerPort = b.consumerPort → a = b

variable {graph graph' : Plan.LogicalGraph} {names names' : List String}

namespace SameDeclarations

variable (h : SameDeclarations graph graph')

include h

theorem mem_names (name : String) : name ∈ graph.nodeNames ↔ name ∈ graph'.nodeNames :=
  (h.nodes.map _).mem_iff

theorem feeds : graph.Feeds = graph'.Feeds := by
  funext a b
  unfold Plan.LogicalGraph.Feeds
  simp only [h.edges.mem_iff]

theorem wellFormed (hgraph : WellFormedGraph graph) : WellFormedGraph graph' where
  distinct := (h.nodes.map _).nodup_iff.mp hgraph.distinct
  ends edge hedge := by
    obtain ⟨hp, hc⟩ := hgraph.ends edge (h.edges.mem_iff.mpr hedge)
    exact ⟨(h.mem_names _).mp hp, (h.mem_names _).mp hc⟩
  acyclic name hcircle := hgraph.acyclic name (h.feeds ▸ hcircle)

theorem slice (hnames : ∀ name, name ∈ names ↔ name ∈ names') :
    SameDeclarations (Plan.sliceGraph graph names) (Plan.sliceGraph graph' names') := by
  unfold Plan.sliceGraph
  simp only [← hnames]
  exact ⟨h.nodes.filter _, h.edges.filter _⟩

theorem canonicalOrder_eq (hgraph : WellFormedGraph graph) :
    canonicalOrder graph = canonicalOrder graph' := by
  have hleast := canonicalOrder_least (h.wellFormed hgraph)
  refine (canonicalOrder_least hgraph).unique ⟨hleast.nodup, fun name => ?_, ?_⟩
  · exact (hleast.mem_iff name).trans (h.mem_names name).symm
  · exact hleast.least.of_edges fun e => ((h.edges.filter _).map _).mem_iff.symm

/-- The nodes are placed by name, and the sort key tells edges between other ports apart. -/
theorem canonicalGraph_eq (hgraph : WellFormedGraph graph) (hports : DistinctPorts graph) :
    canonicalGraph graph = canonicalGraph graph' := by
  have horder := h.canonicalOrder_eq hgraph
  have hnode : (nodesByName graph).get? = (nodesByName graph').get? := by
    funext name
    refine Option.ext fun node => ?_
    rw [get?_nodesByName hgraph.distinct, get?_nodesByName (h.wellFormed hgraph).distinct,
      h.nodes.mem_iff]
  unfold canonicalGraph
  dsimp only
  rw [hnode, horder, Plan.LogicalGraph.mk.injEq]
  refine ⟨rfl, List.Perm.eq_of_pairwise ?_ (List.pairwise_insertionSort _ _)
    (List.pairwise_insertionSort _ _) ?_⟩
  · intro a b ha hb hab hba
    have hkey := le_antisymm hab hba
    simp only [edgeKey, toLex_inj, Prod.mk.injEq] at hkey
    obtain ⟨-, hnode, hport, -, hconsumer, hconsumerPort, -⟩ := hkey
    have ha := (List.mem_insertionSort _).mp ha
    have hb := h.edges.mem_iff.mpr ((List.mem_insertionSort _).mp hb)
    exact hports a ha b hb hnode hport hconsumer hconsumerPort
  · exact (List.perm_insertionSort _ _).trans
      (h.edges.trans (List.perm_insertionSort _ _).symm)

theorem missingNames_eq (targets : List String) :
    Plan.missingNames graph targets = Plan.missingNames graph' targets := by
  unfold Plan.missingNames
  simp only [h.mem_names]

end SameDeclarations

/-! ## Selections -/

/-- The same error, or the same names in some order. -/
inductive SameAnswer : Except Plan.SelectionError (List String) →
    Except Plan.SelectionError (List String) → Prop
  | error (error : Plan.SelectionError) : SameAnswer (.error error) (.error error)
  | names {names names' : List String} (h : ∀ name, name ∈ names ↔ name ∈ names') :
      SameAnswer (.ok names) (.ok names')

namespace SameDeclarations

variable (h : SameDeclarations graph graph')

include h

theorem dependencyClosure_same (targets : List String) :
    SameAnswer (Plan.dependencyClosure graph targets) (Plan.dependencyClosure graph' targets) := by
  rcases Plan.dependencyClosure_spec graph targets with
    ⟨hin, names, hok, hclosure⟩ | ⟨⟨target, htarget, hout⟩, herror⟩ <;>
  rcases Plan.dependencyClosure_spec graph' targets with
    ⟨hin', names', hok', hclosure'⟩ | ⟨⟨target', htarget', hout'⟩, herror'⟩
  · rw [hok, hok']
    refine .names fun name => ?_
    rw [hclosure.mem_iff, hclosure'.mem_iff, h.mem_names]
    unfold Plan.LogicalGraph.Upstream
    rw [h.feeds]
  · exact absurd ((h.mem_names target').mp (hin target' htarget')) hout'
  · exact absurd ((h.mem_names target).mpr (hin' target htarget)) hout
  · rw [herror, herror', h.missingNames_eq]
    exact .error _

theorem selectedNames_same (repr : String → String) {selection : PlanSelection}
    (huntil : ∀ name, selection ≠ .runUntil name) :
    SameAnswer (selectedNames repr graph selection) (selectedNames repr graph' selection) := by
  cases selection with
  | empty => exact .names h.mem_names
  | whole => exact .names h.mem_names
  | nodes names => exact h.dependencyClosure_same names
  | runUntil name => exact absurd rfl (huntil name)
  | runOne name =>
      unfold selectedNames Plan.runOneSelection Plan.validateSelectionTarget
      simp only [h.mem_names]
      split
      · exact h.dependencyClosure_same [name]
      · exact .error _

end SameDeclarations

/-- The steps and edges that are planned for a selection, and their order, are the same for
every order of the declarations, unless the selection runs until a step. -/
theorem planned_graph_order_free (repr : String → String) (selection : PlanSelection)
    (h : SameDeclarations graph graph') (hgraph : WellFormedGraph graph)
    (hports : DistinctPorts graph) (huntil : ∀ name, selection ≠ .runUntil name) :
    (selectGraph repr graph selection).map canonicalGraph =
      (selectGraph repr graph' selection).map canonicalGraph := by
  by_cases hentry : selection = .empty
  · subst hentry
    exact congrArg Except.ok (h.canonicalGraph_eq hgraph hports)
  · rw [selectGraph_eq hentry, selectGraph_eq hentry]
    have hsame := h.selectedNames_same repr huntil
    generalize selectedNames repr graph selection = answer at hsame ⊢
    generalize selectedNames repr graph' selection = answer' at hsame ⊢
    cases hsame with
    | error error => rfl
    | @names names names' hnames =>
        have hsliced := (h.slice hnames).canonicalGraph_eq (hgraph.slice names)
          fun a ha b hb => hports a (List.mem_of_mem_filter ha) b (List.mem_of_mem_filter hb)
        cases names with
        | nil =>
            obtain rfl := List.eq_nil_iff_forall_not_mem.mpr fun name hmem =>
              absurd ((hnames name).mpr hmem) List.not_mem_nil
            rfl
        | cons first rest =>
            cases names' with
            | nil => exact absurd ((hnames first).mp List.mem_cons_self) List.not_mem_nil
            | cons first' rest' => exact congrArg (Except.ok ∘ canonicalGraph) hsliced

/-- A step, declared before the one it reads. -/
def readerFirst : Plan.LogicalGraph where
  nodes := [⟨"b", .items []⟩, ⟨"a", .items []⟩]
  edges := [⟨"a", "out", "b", "in", none, none⟩]

theorem planned_graph_of_reversed :
    (selectGraph id readerFirst (.runOne "b")).map canonicalGraph =
      (selectGraph id { readerFirst with nodes := readerFirst.nodes.reverse } (.runOne "b")).map
        canonicalGraph :=
  planned_graph_order_free id (.runOne "b") ⟨(List.reverse_perm _).symm, .refl _⟩
    ⟨by decide, by decide,
      Plan.acyclic_of_rank (fun name => if name = "a" then 0 else 1) (by decide)⟩
    (by unfold DistinctPorts; decide) nofun

end Etlantic.Planning
