import Etlantic.Base.BranchAndBound
import Etlantic.Base.Dict
import Etlantic.Base.Json
import Mathlib.Data.List.Sort
import Mathlib.Data.Prod.Lex
import Mathlib.Data.String.Basic

/-!
# The adaptive solver

`_solve` assigns a target to every node of a logical graph by branch and bound,
and `_check_oracle` repeats small plans by trying every assignment.  Both keep
to a byte budget; sizes are those of the canonical JSON texts of their records.

The targets come with the identity that `_target_identity` gives them, and the
directional handoff evidence of two targets is any relation.
-/

namespace Etlantic.Planning

open BranchAndBound (Search)

/-! ## Records -/

structure Node where
  name : String
deriving DecidableEq

structure Edge where
  producerNode : String
  producerPort : String
  consumerNode : String
  consumerPort : String
deriving DecidableEq

structure LogicalGraph where
  nodes : List Node
  edges : List Edge

def LogicalGraph.nodeNames (graph : LogicalGraph) : List String := graph.nodes.map (·.name)

inductive CandidateStatus where
  | eligible
  | rejected
deriving DecidableEq

structure CandidateRecord where
  candidateId : String
  nodeName : String
  targetId : String
  status : CandidateStatus
  objectiveFacts : Dict String Int

structure AdaptiveDecision where
  nodeName : String
  candidateId : String
  targetId : String
deriving DecidableEq

structure Target where
  targetId : String
  identity : String
deriving DecidableEq

structure AdaptiveInventory where
  targets : List Target
  eligibleTargetOrder : List String

/-- `_handoff_evidence` of a planning context. -/
abbrev HandoffEvidence := Target → Target → Edge → List String

/-! ## Errors -/

inductive PlanningError where
  | diagnostic (code message : String) (path : List String)
  | keyError
  | valueError (message : String)
deriving DecidableEq

def expansionLimitError : PlanningError :=
  .diagnostic "PMADP304" "Adaptive solver expansion limit exceeded." ["adaptive", "solver"]

def budgetError (category : String) : PlanningError :=
  .diagnostic "PMADP303" ("Adaptive transient budget exceeded in " ++ category ++ ".")
    ["adaptive", "budget", category]

def noAssignmentError : PlanningError :=
  .diagnostic "PMADP320"
    "No viable adaptive assignment satisfies directional handoff and security policy."
    ["adaptive", "solver"]

def oracleError : PlanningError :=
  .diagnostic "PMADP306" "Adaptive solver disagrees with exhaustive oracle." ["adaptive", "solver"]

/-! ## Lookups -/

/-- `d[key]` of a dictionary that was built from pairs: the last one counts. -/
def lookup {β : Type} (pairs : List (String × β)) (key : String) : Except PlanningError β :=
  match pairs.reverse.find? (fun pair => pair.1 = key) with
  | none => .error .keyError
  | some pair => .ok pair.2

/-- `max(..)` and `min(..)`. -/
def extremum {β : Type} (pick : β → β → β) : List β → Except PlanningError β
  | [] => .error (.valueError "iterable argument is empty")
  | x :: rest => .ok (rest.foldl pick x)

/-- `c.objective_facts.get(key, 0)`. -/
def fact (key : String) (c : CandidateRecord) : Int := (c.objectiveFacts.get? key).getD 0

/-- `_inventory_model`, whose record refuses a repeated target. -/
def inventoryModel (targets : List Target) : Except PlanningError AdaptiveInventory :=
  if (targets.map (·.targetId)).Nodup then .ok ⟨targets, targets.map (·.targetId)⟩
  else .error (.valueError "PMADP201: inventory target ids must be unique")

/-- The eligible candidates of a node. -/
def eligibleOf (candidates : List CandidateRecord) (name : String) : List CandidateRecord :=
  candidates.filter fun c => c.nodeName = name ∧ c.status = .eligible

/-- The decisions of a complete choice. -/
def decisionsOf (names : List String) (chosen : List CandidateRecord) : List AdaptiveDecision :=
  (names.zip chosen).map fun pair => ⟨pair.1, pair.2.candidateId, pair.2.targetId⟩

/-! ## Handoffs and the objective -/

/-- `_assignment_handoffs`: the evidence of every edge that crosses targets. -/
def assignmentHandoffs (graph : LogicalGraph) (decisions : List AdaptiveDecision)
    (targets : List Target) (evidence : HandoffEvidence) :
    Except PlanningError (Option (Dict Edge (List String))) :=
  let targetMap := targets.map fun t => (t.targetId, t)
  let decisionMap := decisions.map fun d => (d.nodeName, d)
  let rec scan : List Edge → Dict Edge (List String) →
      Except PlanningError (Option (Dict Edge (List String)))
    | [], found => .ok (some found)
    | edge :: rest, found => do
        let producer ← lookup decisionMap edge.producerNode
        let source ← lookup targetMap producer.targetId
        let consumer ← lookup decisionMap edge.consumerNode
        let destination ← lookup targetMap consumer.targetId
        if producer.targetId = consumer.targetId then scan rest found
        else
          match evidence source destination edge with
          | [] => return none
          | refs => scan rest (found.set edge refs)
  scan graph.edges .empty

/-- A `tuple[int | str, ...]` whose integers come before its texts. -/
abbrev Score := List Int ×ₗ List String

/-- The decisions and candidates at the ends of an edge. -/
structure EdgeEnds where
  producer : AdaptiveDecision
  producerCell : CandidateRecord
  consumer : AdaptiveDecision
  consumerCell : CandidateRecord

def EdgeEnds.crosses (ends : EdgeEnds) : Bool := ends.producer.targetId ≠ ends.consumer.targetId

/-- `min` of the fusion facts at the ends of an edge. -/
def fusionFact (producer consumer : CandidateRecord) : Int :=
  min (fact "safely_fusible_logical_edges" producer) (fact "safely_fusible_logical_edges" consumer)

/-- `eligible_target_order.index(target_id)`. -/
def targetPriority (inventory : AdaptiveInventory) (targetId : String) : Except PlanningError Int :=
  match inventory.eligibleTargetOrder.findIdx? (· = targetId) with
  | none => .error (.valueError "tuple.index(x): x not in tuple")
  | some index => .ok index

/-- `next(t.identity for t in inventory.targets if t.target_id == target_id)`. -/
def targetIdentity (inventory : AdaptiveInventory) (targetId : String) :
    Except PlanningError String :=
  match inventory.targets.find? (fun t => t.targetId = targetId) with
  | none => .error .keyError
  | some target => .ok target.identity

/-- `_objective`. -/
def objective (graph : LogicalGraph) (decisions : List AdaptiveDecision)
    (candidates : List CandidateRecord) (inventory : AdaptiveInventory) :
    Except PlanningError Score := do
  let cmap := candidates.map fun c => (c.candidateId, c)
  let byNode := decisions.map fun d => (d.nodeName, d)
  let cells ← decisions.mapM fun d => lookup cmap d.candidateId
  let ends ← graph.edges.mapM fun e => do
    let producer ← lookup byNode e.producerNode
    let consumer ← lookup byNode e.consumerNode
    return (⟨producer, ← lookup cmap producer.candidateId,
      consumer, ← lookup cmap consumer.candidateId⟩ : EdgeEnds)
  let crossing := ends.filter fun e => e.crosses
  let inside := ends.filter fun e => !e.crosses
  let priorities ← decisions.mapM fun d => targetPriority inventory d.targetId
  let identities ← decisions.mapM fun d => targetIdentity inventory d.targetId
  return toLex (
    [-(cells.map (fact "proven_local_io_nodes")).sum,
      -(cells.map (fact "proven_pushdown_actions")).sum,
      crossing.length,
      (crossing.map fun e => fact "collection_units" e.consumerCell).sum,
      (cells.map (fact "durable_materialization_units")).sum,
      -(inside.map fun e => fusionFact e.producerCell e.consumerCell).sum] ++ priorities,
    identities)

/-! ## The lower bound -/

/-- The eligible candidates of a node in the order of `_solve`. -/
def sortedEligible (priority : List (String × Nat)) (candidates : List CandidateRecord)
    (name : String) : Except PlanningError (List CandidateRecord) := do
  let keyed ← (eligibleOf candidates name).mapM fun c => do
    let index ← lookup priority c.targetId
    return ((toLex (index, toLex (c.targetId, c.candidateId)) : ℕ ×ₗ String ×ₗ String), c)
  return (keyed.insertionSort fun a b => a.1 ≤ b.1).map (·.2)

/-- What `_solve` has at hand. -/
structure SolverContext where
  graph : LogicalGraph
  candidates : List CandidateRecord
  targets : List Target
  evidence : HandoffEvidence
  inventory : AdaptiveInventory
  priority : List (String × Nat)
  byNode : List (String × List CandidateRecord)

/-- `options` of `lower_bound`: the chosen candidate of a node, or all of them. -/
def SolverContext.options (c : SolverContext) (chosen : List CandidateRecord) (name : String) :
    Except PlanningError (List CandidateRecord) :=
  match lookup (c.graph.nodeNames.zip chosen) name with
  | .ok candidate => .ok [candidate]
  | .error _ => lookup c.byNode name

/-- The pairs of options that stay on one target. -/
def sameTargetPairs (producers consumers : List CandidateRecord) :
    List (CandidateRecord × CandidateRecord) :=
  producers.flatMap fun producer =>
    (consumers.filter fun consumer => producer.targetId = consumer.targetId).map (producer, ·)

/-- What an edge adds to `cross` and to `fusible`. -/
def edgeBound (producers consumers : List CandidateRecord) : Except PlanningError (Int × Int) :=
  match sameTargetPairs producers consumers with
  | [] => .ok (1, 0)
  | pairs => do
      let fusible ← extremum max (pairs.map fun pair => fusionFact pair.1 pair.2)
      return (0, fusible)

/-- `lower_bound`. -/
def SolverContext.lowerBound (c : SolverContext) (chosen : List CandidateRecord) :
    Except PlanningError Score := do
  let identityByTarget := c.inventory.targets.map fun t => (t.targetId, t.identity)
  let options ← c.graph.nodeNames.mapM (c.options chosen)
  let localIo ← options.mapM fun cs => extremum max (cs.map (fact "proven_local_io_nodes"))
  let pushdown ← options.mapM fun cs => extremum max (cs.map (fact "proven_pushdown_actions"))
  let durable ← options.mapM fun cs => extremum min (cs.map (fact "durable_materialization_units"))
  let edges ← c.graph.edges.mapM fun e => do
    edgeBound (← c.options chosen e.producerNode) (← c.options chosen e.consumerNode)
  let priorities ← options.mapM fun cs => do
    extremum min ((← cs.mapM fun o => lookup c.priority o.targetId).map fun n : Nat => (n : Int))
  let identities ← options.mapM fun cs => do
    extremum min (← cs.mapM fun o => lookup identityByTarget o.targetId)
  return toLex (
    [-localIo.sum, -pushdown.sum, (edges.map (·.1)).sum, 0, durable.sum, -(edges.map (·.2)).sum] ++
      priorities,
    identities)

/-! ## The solver -/

def maxSolverExpansions : Nat := 1000000

/-- `canonical_size`. -/
def canonicalSize (payload : Json) : Nat := (payload.dumps Json.escapeUnicode).utf8ByteSize

def scoreItems (score : Score) : List Json :=
  (ofLex score).1.map .int ++ (ofLex score).2.map .str

/-- The payload of a frontier or an incumbent. -/
def searchPayload (chosen : List CandidateRecord) (partialObjective lowerBound : List Json) : Json :=
  .obj [("node_index", .int chosen.length),
    ("candidate_identities", .arr (chosen.map fun c => .str c.candidateId)),
    ("partial_objective", .arr partialObjective), ("lower_bound", .arr lowerBound)]

/-- The live bytes of the budget, those of the incumbent, and the nodes opened so far. -/
structure SearchState where
  expansions : Nat
  live : Nat
  incumbent : Nat

/-- `reserve`, with the bytes that are live afterwards. -/
def reserve (limit live size : Nat) (category : String) : Except PlanningError Nat :=
  if limit < live + size then .error (budgetError category) else .ok (live + size)

/-- Replace the incumbent's reservation. -/
def reserveIncumbent (limit : Nat) (category : String) (chosen : List CandidateRecord)
    (score : Score) (st : SearchState) : Except PlanningError SearchState := do
  let size := canonicalSize (searchPayload chosen (scoreItems score) (scoreItems score)) + 128
  let live ← reserve limit st.live size category
  return { st with live := live - st.incumbent, incumbent := size }

/-- The score of a complete choice, or none when a handoff has no evidence. -/
def SolverContext.value (c : SolverContext) (chosen : List CandidateRecord) :
    Except PlanningError (Option Score) := do
  let decisions := decisionsOf c.graph.nodeNames chosen
  match ← assignmentHandoffs c.graph decisions c.targets c.evidence with
  | none => return none
  | some _ => return some (← objective c.graph decisions c.candidates c.inventory)

/-- `visit` and `visit_body`. -/
def SolverContext.search (c : SolverContext) (limit : Nat) :
    Search CandidateRecord Score SearchState Nat PlanningError where
  enter chosen st :=
    if maxSolverExpansions < st.expansions + 1 then .error expansionLimitError
    else do
      let bound ← c.lowerBound chosen
      let size := canonicalSize
        (searchPayload chosen ((scoreItems bound).take 6) (scoreItems bound)) + 128
      let live ← reserve limit st.live size "solver-frontier"
      return (some bound, size, { st with expansions := st.expansions + 1, live := live })
  leave size st := { st with live := st.live - size }
  value := c.value
  record chosen score st := reserveIncumbent limit "solver-incumbent" chosen score st

/-- What `_solve` builds before it searches. -/
def solverContext (graph : LogicalGraph) (candidates : List CandidateRecord)
    (targets : List Target) (evidence : HandoffEvidence) : Except PlanningError SolverContext := do
  let priority := (targets.map (·.targetId)).zipIdx
  let byNode ← graph.nodeNames.mapM fun name => do
    return (name, ← sortedEligible priority candidates name)
  let inventory ← inventoryModel targets
  return ⟨graph, candidates, targets, evidence, inventory, priority, byNode⟩

/-- `_solve`, under a byte limit of which `live` bytes are in use. -/
def solve (graph : LogicalGraph) (candidates : List CandidateRecord) (targets : List Target)
    (evidence : HandoffEvidence) (limit live : Nat) :
    Except PlanningError (List AdaptiveDecision) := do
  let c ← solverContext graph candidates targets evidence
  let levels ← graph.nodeNames.mapM (lookup c.byNode)
  let st ← (c.search limit).visit levels [] (⟨0, live, 0⟩, none)
  match st.2 with
  | none => .error noAssignmentError
  | some (_, chosen) => return decisionsOf graph.nodeNames chosen

/-! ## The oracle -/

def oracleMaxNodes : Nat := 8

def oracleMaxTargets : Nat := 4

def oracleMaxAssignments : Nat := 65536

/-- `enumerate_assignments`: no bounds, and ties broken by the candidates' identifiers. -/
def SolverContext.oracle (c : SolverContext) (limit : Nat) :
    Search CandidateRecord (Score ×ₗ List String) SearchState Nat PlanningError where
  enter chosen st := do
    let size := canonicalSize (searchPayload chosen [] []) + 128
    let live ← reserve limit st.live size "oracle-frontier"
    return (none, size, { st with live := live })
  leave size st := { st with live := st.live - size }
  value chosen := do
    return (← c.value chosen).map fun score => toLex (score, chosen.map (·.candidateId))
  record chosen key st := reserveIncumbent limit "oracle-incumbent" chosen (ofLex key).1 st

/-- `_check_oracle`. Without a planning context there is no evidence to read. -/
def checkOracle (graph : LogicalGraph) (candidates : List CandidateRecord) (targets : List Target)
    (selected : List AdaptiveDecision) (evidence : Option HandoffEvidence) (limit live : Nat) :
    Except PlanningError Unit :=
  let eligible := graph.nodeNames.map (eligibleOf candidates)
  if oracleMaxNodes < graph.nodes.length ∨ oracleMaxTargets < targets.length then .ok ()
  else if oracleMaxAssignments < (eligible.map (·.length)).prod then .ok ()
  else do
    let inventory ← inventoryModel targets
    match evidence with
    | none => return ()
    | some evidence =>
        let c : SolverContext := ⟨graph, candidates, targets, evidence, inventory, [], []⟩
        let levels := eligible.map fun cs =>
          cs.insertionSort fun a b => a.candidateId ≤ b.candidateId
        let st ← (c.oracle limit).visit levels [] (⟨0, live, 0⟩, none)
        match st.2 with
        | none => return ()
        | some (key, chosen) => do
            let selectedScore ← objective graph selected candidates inventory
            if selectedScore ≠ (ofLex key).1 ∨
                selected.map (·.candidateId) ≠ chosen.map (·.candidateId) then
              .error oracleError
            else return ()

end Etlantic.Planning
