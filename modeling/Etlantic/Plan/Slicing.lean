import Etlantic.Base.Worklist
import Mathlib.Data.List.Dedup
import Mathlib.Data.List.Sort

/-!
# Slicing a logical graph

A selection of steps is closed under the steps that they read from.  The closure is
collected by a worklist and listed in the order of the declarations.
-/

namespace Etlantic.Plan

/-! ## Logical graphs -/

/-- `metadata.get("tags", ()) or ()` of a node. -/
inductive NodeTags where
  /-- The texts of a list, a tuple or a set; other items equal no tag. -/
  | items (tags : List String)
  /-- A text is the set of its characters. -/
  | text (tags : String)
  /-- No iterable, or one with an unhashable item: what `frozenset` raises. -/
  | unusable (detail : String)

structure LogicalNode where
  name : String
  tags : NodeTags

structure LogicalEdge where
  producerNode : String
  producerPort : String
  consumerNode : String
  consumerPort : String
  producerContractId : Option String
  consumerContractId : Option String
deriving DecidableEq

structure LogicalGraph where
  nodes : List LogicalNode
  edges : List LogicalEdge

def LogicalGraph.nodeNames (graph : LogicalGraph) : List String :=
  graph.nodes.map LogicalNode.name

inductive SelectionError where
  | valueError (message : String)
  | typeError (detail : String)
  | assertionError

/-! ## Selections -/

/-- `producers.get(node, ())`. -/
def LogicalGraph.producers (graph : LogicalGraph) (node : String) : List String :=
  (graph.edges.filter fun edge => edge.consumerNode = node).map LogicalEdge.producerNode

/-- `consumers.get(node, ())`. -/
def LogicalGraph.consumers (graph : LogicalGraph) (node : String) : List String :=
  (graph.edges.filter fun edge => edge.producerNode = node).map LogicalEdge.consumerNode

/-- `", ".join(sorted(missing))`. -/
def joinedNames (missing : List String) : String :=
  ", ".intercalate (missing.insertionSort (· ≤ ·))

def unknownSteps (missing : List String) : SelectionError :=
  .valueError ("Unknown step(s): " ++ joinedNames missing)

/-- The texts of `targets` that name no node, each once. -/
def missingNames (graph : LogicalGraph) (targets : List String) : List String :=
  targets.dedup.filter fun name => name ∉ graph.nodeNames

def dependencyClosure (graph : LogicalGraph) (targets : List String) :
    Except SelectionError (List String) :=
  if targets = [] then .ok []
  else if missingNames graph targets ≠ [] then .error (unknownSteps (missingNames graph targets))
  else
    let seen := Worklist.reached graph.producers (graph.edges.map LogicalEdge.consumerNode)
      targets.dedup
    .ok (graph.nodeNames.filter fun name => name ∈ seen)

/-- `repr` is `repr` of a text. -/
def unknownStep (repr : String → String) (stepName : String) : SelectionError :=
  .valueError ("Unknown step " ++ repr stepName)

def validateSelectionTarget (repr : String → String) (graph : LogicalGraph) (stepName : String) :
    Except SelectionError Unit :=
  if stepName ∈ graph.nodeNames then .ok () else .error (unknownStep repr stepName)

def runOneSelection (repr : String → String) (graph : LogicalGraph) (stepName : String) :
    Except SelectionError (List String) := do
  validateSelectionTarget repr graph stepName
  dependencyClosure graph [stepName]

/-- The declarations up to the step, which is among them. -/
def upTo (stepName : String) : List String → List String
  | [] => []
  | name :: rest => if name = stepName then [name] else name :: upTo stepName rest

def runUntilSelection (repr : String → String) (graph : LogicalGraph) (stepName : String) :
    Except SelectionError (List String) := do
  validateSelectionTarget repr graph stepName
  return upTo stepName graph.nodeNames

def sliceGraph (graph : LogicalGraph) (selected : List String) : LogicalGraph where
  nodes := graph.nodes.filter fun node => node.name ∈ selected
  edges := graph.edges.filter fun edge =>
    edge.producerNode ∈ selected && edge.consumerNode ∈ selected

/-! ## The closure -/

variable {graph : LogicalGraph} {targets names : List String} {name : String}

/-- `a` feeds `b`. -/
def LogicalGraph.Feeds (graph : LogicalGraph) (a b : String) : Prop :=
  ∃ edge ∈ graph.edges, edge.producerNode = a ∧ edge.consumerNode = b

def LogicalGraph.Acyclic (graph : LogicalGraph) : Prop :=
  ∀ name, ¬ Relation.TransGen graph.Feeds name name

/-- The names have every producer that the graph declares. -/
def LogicalGraph.Closed (graph : LogicalGraph) (names : List String) : Prop :=
  ∀ edge ∈ graph.edges, edge.consumerNode ∈ names → edge.producerNode ∈ graph.nodeNames →
    edge.producerNode ∈ names

theorem mem_producers {node : String} : name ∈ graph.producers node ↔ graph.Feeds name node := by
  unfold LogicalGraph.producers
  rw [List.mem_map]
  constructor
  · rintro ⟨edge, hmem, rfl⟩
    obtain ⟨hedge, hconsumer⟩ := List.mem_filter.mp hmem
    exact ⟨edge, hedge, rfl, of_decide_eq_true hconsumer⟩
  · rintro ⟨edge, hedge, rfl, hconsumer⟩
    exact ⟨edge, List.mem_filter.mpr ⟨hedge, decide_eq_true hconsumer⟩, rfl⟩

theorem mem_consumers {node : String} : name ∈ graph.consumers node ↔ graph.Feeds node name := by
  unfold LogicalGraph.consumers
  rw [List.mem_map]
  constructor
  · rintro ⟨edge, hmem, rfl⟩
    obtain ⟨hedge, hproducer⟩ := List.mem_filter.mp hmem
    exact ⟨edge, hedge, of_decide_eq_true hproducer, rfl⟩
  · rintro ⟨edge, hedge, hproducer, rfl⟩
    exact ⟨edge, List.mem_filter.mpr ⟨hedge, decide_eq_true hproducer⟩, rfl⟩

/-- Edges that lead up in some numbering close no circle. -/
theorem acyclic_of_rank (rank : String → Nat)
    (h : ∀ edge ∈ graph.edges, rank edge.producerNode < rank edge.consumerNode) :
    graph.Acyclic := by
  intro name hcircle
  have hup : Relation.TransGen (· < ·) (rank name) (rank name) := by
    refine hcircle.lift rank ?_
    rintro _ _ ⟨edge, hedge, rfl, rfl⟩
    exact h edge hedge
  rw [Relation.transGen_eq_self] at hup
  exact absurd hup (Nat.lt_irrefl _)

/-- Some of the targets reads from the place, over any number of edges. -/
def LogicalGraph.Upstream (graph : LogicalGraph) (targets : List String) (name : String) : Prop :=
  ∃ target ∈ targets, Relation.ReflTransGen graph.Feeds name target

theorem mem_upstream {stack : List String} :
    name ∈ Worklist.reached graph.producers (graph.edges.map LogicalEdge.consumerNode) stack ↔
      graph.Upstream stack name := by
  rw [Worklist.mem_reached (by
    intro node hnode
    obtain ⟨producer, hproducer⟩ := List.exists_mem_of_ne_nil _ hnode
    obtain ⟨edge, hedge, -, rfl⟩ := mem_producers.mp hproducer
    exact List.mem_map_of_mem hedge)]
  refine exists_congr fun target => and_congr_right fun _ => ?_
  constructor
  · intro hreach
    induction hreach with
    | refl => exact .refl
    | tail _ hstep ih => exact .head (mem_producers.mp hstep) ih
  · intro hreach
    induction hreach using Relation.ReflTransGen.head_induction_on with
    | refl => exact .refl
    | head hstep _ ih => exact ih.tail (mem_producers.mpr hstep)

theorem mem_downstream {start : String} :
    name ∈ Worklist.reached graph.consumers (graph.edges.map LogicalEdge.producerNode) [start] ↔
      Relation.ReflTransGen graph.Feeds start name := by
  rw [Worklist.mem_reached (by
    intro node hnode
    obtain ⟨consumer, hconsumer⟩ := List.exists_mem_of_ne_nil _ hnode
    obtain ⟨edge, hedge, rfl, -⟩ := mem_consumers.mp hconsumer
    exact List.mem_map_of_mem hedge)]
  have hsteps : Worklist.Leads graph.consumers = graph.Feeds := by
    funext a b
    exact propext mem_consumers
  rw [hsteps]
  constructor
  · rintro ⟨place, hplace, hreach⟩
    rw [List.mem_singleton.mp hplace] at hreach
    exact hreach
  · intro hreach
    exact ⟨start, List.mem_singleton_self _, hreach⟩

/-- The declared names that the targets read from, in the order of the declarations. -/
structure IsClosure (graph : LogicalGraph) (targets names : List String) : Prop where
  ordered : names.Sublist graph.nodeNames
  mem_iff : ∀ name, name ∈ names ↔ name ∈ graph.nodeNames ∧ graph.Upstream targets name

/-- A part of a list without duplicates is known by its elements. -/
theorem filter_mem_of_sublist {α : Type} [DecidableEq α] : ∀ {part whole : List α},
    part.Sublist whole → whole.Nodup → whole.filter (fun a => a ∈ part) = part
  | _, _, .slnil, _ => rfl
  | _, _, .cons a hrest, hnodup => by
      obtain ⟨hnew, hnodup⟩ := List.nodup_cons.mp hnodup
      rw [List.filter_cons_of_neg (by simpa using fun h => hnew (hrest.subset h))]
      exact filter_mem_of_sublist hrest hnodup
  | _, _, @List.Sublist.cons_cons _ part whole a hrest, hnodup => by
      obtain ⟨hnew, hnodup⟩ := List.nodup_cons.mp hnodup
      rw [List.filter_cons_of_pos (by simp)]
      have hsame : whole.filter (fun b => b ∈ a :: part) = whole.filter fun b => b ∈ part := by
        apply List.filter_congr
        intro b hb
        have hne : b ≠ a := fun h => hnew (h ▸ hb)
        simp [hne]
      rw [hsame, filter_mem_of_sublist hrest hnodup]

theorem IsClosure.of_targets (h : IsClosure graph targets names)
    (htargets : ∀ target ∈ targets, target ∈ graph.nodeNames) :
    ∀ target ∈ targets, target ∈ names := fun target htarget =>
  (h.mem_iff target).mpr ⟨htargets target htarget, target, htarget, .refl⟩

theorem IsClosure.closed (h : IsClosure graph targets names) : graph.Closed names := by
  intro edge hedge hconsumer hproducer
  obtain ⟨-, target, htarget, hreach⟩ := (h.mem_iff _).mp hconsumer
  exact (h.mem_iff _).mpr ⟨hproducer, target, htarget, .head ⟨edge, hedge, rfl, rfl⟩ hreach⟩

theorem missingNames_eq_nil :
    missingNames graph targets = [] ↔ ∀ target ∈ targets, target ∈ graph.nodeNames := by
  unfold missingNames
  rw [List.filter_eq_nil_iff]
  constructor
  · intro h target htarget
    have hnot := h target (List.mem_dedup.mpr htarget)
    rwa [decide_eq_true_eq, not_not] at hnot
  · intro h target htarget
    rw [decide_eq_true_eq, not_not]
    exact h target (List.mem_dedup.mp htarget)

/-- The closure of names that are all declared, or the error that names the others. -/
theorem dependencyClosure_spec (graph : LogicalGraph) (targets : List String) :
    ((∀ target ∈ targets, target ∈ graph.nodeNames) ∧
      ∃ names, dependencyClosure graph targets = .ok names ∧ IsClosure graph targets names) ∨
    ((∃ target ∈ targets, target ∉ graph.nodeNames) ∧
      dependencyClosure graph targets = .error (unknownSteps (missingNames graph targets))) := by
  unfold dependencyClosure
  by_cases hempty : targets = []
  · subst hempty
    rw [if_pos rfl]
    refine .inl ⟨(by intro _ h; cases h), [], rfl, List.nil_sublist _, fun name => ?_⟩
    constructor
    · intro h
      cases h
    · rintro ⟨-, target, htarget, -⟩
      cases htarget
  · rw [if_neg hempty]
    by_cases hmissing : missingNames graph targets = []
    · rw [if_neg (not_not_intro hmissing)]
      refine .inl ⟨missingNames_eq_nil.mp hmissing, _, rfl, List.filter_sublist, fun name => ?_⟩
      rw [List.mem_filter, decide_eq_true_eq, mem_upstream]
      unfold LogicalGraph.Upstream
      simp only [List.mem_dedup]
    · rw [if_pos hmissing]
      refine .inr ⟨?_, rfl⟩
      by_contra hall
      push Not at hall
      exact hmissing (missingNames_eq_nil.mpr hall)

/-! ## The prefix -/

/-- The prefix of an order that ends with the first occurrence of the step. -/
theorem upTo_isPrefix (name : String) : ∀ names : List String, upTo name names <+: names
  | [] => List.nil_prefix
  | first :: rest => by
      unfold upTo
      split
      · exact ⟨rest, rfl⟩
      · exact (List.prefix_cons_inj first).mpr (upTo_isPrefix name rest)

theorem mem_upTo : ∀ {names : List String}, name ∈ names → name ∈ upTo name names
  | first :: rest, h => by
      unfold upTo
      split
      · rename_i hfirst
        exact List.mem_singleton.mpr hfirst.symm
      · rename_i hfirst
        rcases List.mem_cons.mp h with rfl | h
        · exact absurd rfl hfirst
        · exact List.mem_cons_of_mem _ (mem_upTo h)

/-- The prefix is the whole order only for its last step. -/
theorem upTo_eq_self : ∀ {names : List String}, names.Nodup → name ∈ names →
    (upTo name names = names ↔ names.getLast? = some name)
  | first :: rest, hnodup, hname => by
      obtain ⟨hnew, hnodup⟩ := List.nodup_cons.mp hnodup
      unfold upTo
      by_cases hfirst : first = name
      · rw [if_pos hfirst, List.cons.injEq, and_iff_right rfl]
        constructor
        · rintro rfl
          rw [List.getLast?_singleton, hfirst]
        · intro hlast
          rcases rest with - | ⟨second, rest⟩
          · rfl
          · rw [List.getLast?_cons_cons, ← hfirst] at hlast
            exact absurd (List.mem_of_getLast? hlast) hnew
      · have hrest := (List.mem_cons.mp hname).resolve_left fun h => hfirst h.symm
        rw [if_neg hfirst, List.cons.injEq, and_iff_right rfl, upTo_eq_self hnodup hrest]
        rcases rest with - | ⟨second, rest⟩
        · cases hrest
        · rw [List.getLast?_cons_cons]

/-- Only if the step is the last one, the last one is in the prefix. -/
theorem eq_of_last_mem_upTo {last : String} : ∀ {names : List String}, names.Nodup →
    name ∈ names → names.getLast? = some last → last ∈ upTo name names → last = name
  | first :: rest, hnodup, hname, hlast, hin => by
      obtain ⟨hnew, hnodup⟩ := List.nodup_cons.mp hnodup
      unfold upTo at hin
      by_cases hfirst : first = name
      · rw [if_pos hfirst] at hin
        rw [List.mem_singleton.mp hin, hfirst]
      · have hrest := (List.mem_cons.mp hname).resolve_left fun h => hfirst h.symm
        rw [if_neg hfirst] at hin
        rcases rest with - | ⟨second, rest⟩
        · cases hrest
        · rw [List.getLast?_cons_cons] at hlast
          rcases List.mem_cons.mp hin with rfl | hin
          · exact absurd (List.mem_of_getLast? hlast) hnew
          · exact eq_of_last_mem_upTo hnodup hrest hlast hin

end Etlantic.Plan
