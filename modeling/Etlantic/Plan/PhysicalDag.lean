import Etlantic.Base.Checked
import Etlantic.Base.Dict
import Etlantic.Base.Json
import Etlantic.Base.PathCount
import Etlantic.Base.Text
import Etlantic.Base.Worklist

/-!
# Physical units and their paths

A physical plan is a graph of units in a topological order, with the compute unit of
every logical node.  `validate_logical_paths` looks for one route of each logical edge:
it counts, cut off at two, the paths over units that move data and carry no other edge.
-/

namespace Etlantic.Plan

open Checked (each refuse)

/-! ## Units -/

inductive PhysicalUnitKind where
  | compute
  | transfer
  | collection
  | validation
  | materialization
  | reuse
  | publication
deriving DecidableEq

inductive DependencyKind where
  | data
  | control
  | lifecycle
deriving DecidableEq

structure PhysicalDependency where
  unitId : String
  kind : DependencyKind
deriving DecidableEq

structure PhysicalUnit where
  identity : String
  kind : PhysicalUnitKind
  dependencies : List PhysicalDependency
  targetIdentity : String
  logicalNodes : List String
  metadata : List (String × Json)

inductive PhysicalError where
  | valueError (message : String)
  | typeError (detail : String)
deriving DecidableEq

/-- `unit.metadata.get(key)`. -/
def PhysicalUnit.get? (unit : PhysicalUnit) (key : String) : Option Json :=
  (Json.obj unit.metadata).field? key

def PhysicalDependency.postInit (dep : PhysicalDependency) : Except PhysicalError Unit :=
  refuse (isBlank dep.unitId) (.valueError "PMADP402: physical dependency unit_id must be non-blank")

def PhysicalUnit.postInit (unit : PhysicalUnit) : Except PhysicalError Unit := do
  refuse (isBlank unit.identity) (.valueError "PMADP400: physical unit identity must be non-blank")
  refuse (isBlank unit.targetIdentity)
    (.valueError "PMADP201: physical unit target identity is required")
  refuse (unit.logicalNodes.any isBlank)
    (.valueError "PMADP403: physical unit logical_nodes must be non-blank")
  refuse (¬ unit.logicalNodes.Nodup)
    (.valueError "PMADP403: physical unit logical_nodes must be unique")
  each PhysicalDependency.postInit unit.dependencies
  let dependencyIds := unit.dependencies.map PhysicalDependency.unitId
  refuse (unit.identity ∈ dependencyIds)
    (.valueError "PMADP402: physical unit cannot depend on itself")
  refuse (¬ dependencyIds.Nodup)
    (.valueError "PMADP402: physical unit dependencies must be unique")

/-! ## The graph -/

structure DagDocument where
  units : List PhysicalUnit
  logicalToPhysical : Dict String String
  topologicalOrder : List String

namespace DagDocument

variable (repr : String → String) (dag : DagDocument)

def ids : List String := dag.units.map PhysicalUnit.identity

/-- `unit_map.get(unit_id)`. -/
def unit? (unitId : String) : Option PhysicalUnit :=
  dag.units.find? fun unit => unit.identity = unitId

/-- The ids of the units that a unit depends on. -/
def dependencyIds (unitId : String) : List String :=
  ((dag.unit? unitId).map fun unit =>
    unit.dependencies.map PhysicalDependency.unitId).getD []

mutual

/-- A frozen object, or an array with one inside, cannot be looked up. -/
def unhashable : Json → Bool
  | .obj _ => true
  | .arr items => anyUnhashable items
  | _ => false

def anyUnhashable : List Json → Bool
  | [] => false
  | item :: rest => unhashable item || anyUnhashable rest

end

/-- A declared predecessor of the node must be reached from the dependencies of its unit. -/
def checkPredecessor (node : String) (consumer : PhysicalUnit) (predecessor : Json) :
    Except PhysicalError Unit :=
  let unmapped := PhysicalError.valueError
    "PMADP403: logical predecessor is not mapped to a physical unit"
  match predecessor with
  | .str name =>
      match dag.logicalToPhysical.get? name with
      | none => .error unmapped
      | some expected =>
          let seen := Worklist.reached dag.dependencyIds dag.ids
            (consumer.dependencies.map PhysicalDependency.unitId)
          refuse (expected ∉ seen) (.valueError ("PMADP403: logical edge " ++ repr name ++ " -> " ++
            repr node ++ " has no physical dependency path"))
  | other => .error (if unhashable other then .typeError "unhashable type" else unmapped)

def checkPredecessors (node consumerId : String) : Except PhysicalError Unit :=
  match dag.unit? consumerId with
  | none => .ok ()
  | some consumer =>
      match consumer.get? "etlantic.logical_predecessors" with
      | none => .ok ()
      | some (.arr predecessors) => each (dag.checkPredecessor repr node consumer) predecessors
      | some _ => .error
          (.valueError "PMADP403: logical predecessor metadata must be an array")

/-- `PhysicalDAG.__post_init__`. -/
def postInit : Except PhysicalError Unit := do
  each PhysicalUnit.postInit dag.units
  refuse (¬ dag.ids.Nodup) (.valueError "PMADP402: physical unit identities must be unique")
  each (fun unit => each (fun dep => refuse (dep.unitId ∉ dag.ids) (.valueError
    ("PMADP402: physical DAG has dangling dependency " ++ repr dep.unitId)))
    unit.dependencies) dag.units
  let order := dag.topologicalOrder
  refuse (order.any isBlank)
    (.valueError "PMADP402: physical topological order must contain unit ids")
  refuse ((∃ id ∈ order, id ∉ dag.ids) ∨ (∃ id ∈ dag.ids, id ∉ order) ∨
      order.length ≠ dag.ids.length)
    (.valueError "PMADP402: physical topological order must cover every unit")
  each (fun unit => refuse
    (∃ dep ∈ unit.dependencies, order.idxOf unit.identity ≤ order.idxOf dep.unitId)
    (.valueError "PMADP402: physical DAG topological order is invalid")) dag.units
  let mapping := dag.logicalToPhysical.entries
  refuse (mapping.any fun e => isBlank e.1)
    (.valueError "PMADP403: logical_to_physical node names must be non-blank")
  refuse (mapping.any fun e => isBlank e.2)
    (.valueError "PMADP403: logical_to_physical unit ids must be non-blank strings")
  refuse (∃ e ∈ mapping, e.2 ∉ dag.ids)
    (.valueError "PMADP403: logical_to_physical references an unknown unit")
  refuse (∃ unit ∈ dag.units, ∃ node ∈ unit.logicalNodes,
      dag.logicalToPhysical.contains node = false)
    (.valueError "PMADP403: physical attribution is missing a primary mapping")
  refuse (∃ e ∈ mapping, ∃ unit ∈ dag.unit? e.2, e.1 ∉ unit.logicalNodes)
    (.valueError "PMADP403: logical_to_physical must match unit logical attribution")
  refuse (∃ e ∈ mapping, ∃ unit ∈ dag.unit? e.2, unit.kind ≠ .compute)
    (.valueError "PMADP403: logical_to_physical must reference compute units")
  each (fun e => dag.checkPredecessors repr e.1 e.2) mapping

end DagDocument

/-- A graph that the constructor accepts. -/
structure PhysicalDag (repr : String → String) extends DagDocument where
  accepted : toDagDocument.postInit repr = .ok ()

/-! ## What the constructor checks -/

variable {repr : String → String} {dag : DagDocument} {unitId : String}

/-- Distinct units, in an order in which each comes behind what it depends on, and a
compute unit for every node. -/
structure DagDocument.Sound (dag : DagDocument) : Prop where
  ids_nodup : dag.ids.Nodup
  dependencies_nodup : ∀ unit ∈ dag.units,
    (unit.dependencies.map PhysicalDependency.unitId).Nodup
  order_perm : dag.topologicalOrder.Perm dag.ids
  dependencies_mem : ∀ unit ∈ dag.units, ∀ dep ∈ unit.dependencies, dep.unitId ∈ dag.ids
  dependencies_before : ∀ unit ∈ dag.units, ∀ dep ∈ unit.dependencies,
    dag.topologicalOrder.idxOf dep.unitId < dag.topologicalOrder.idxOf unit.identity
  mapped_mem : ∀ node id, dag.logicalToPhysical.get? node = some id → id ∈ dag.ids
  mapped_compute : ∀ node id, dag.logicalToPhysical.get? node = some id →
    ∀ unit ∈ dag.unit? id, unit.kind = .compute

theorem sound_of_postInit (h : dag.postInit repr = .ok ()) : dag.Sound := by
  unfold DagDocument.postInit at h
  simp only [Checked.andThen_eq_ok, Checked.each_eq_ok, Checked.refuse_eq_ok] at h
  obtain ⟨hunits, hids, hdangling, -, hcover, horder, -, -, hknown, -, -, hcompute, -⟩ := h
  push Not at hids hdangling hcover horder hknown hcompute
  obtain ⟨hsub, hsub', hlength⟩ := hcover
  refine ⟨hids, fun unit hunit => ?_, ?_, hdangling, horder, fun node id hget => ?_,
    fun node id hget => ?_⟩
  · have hunit := hunits unit hunit
    unfold PhysicalUnit.postInit at hunit
    simp only [Checked.andThen_eq_ok, Checked.refuse_eq_ok] at hunit
    obtain ⟨-, -, -, -, -, -, hnodup⟩ := hunit
    exact not_not.mp hnodup
  · exact (hids.subperm hsub').perm_of_length_le (Nat.le_of_eq hlength) |>.symm
  · exact hknown (node, id) (Dict.mem_entries_iff.mpr hget)
  · exact hcompute (node, id) (Dict.mem_entries_iff.mpr hget)

theorem PhysicalDag.sound (dag : PhysicalDag repr) : dag.Sound :=
  sound_of_postInit dag.accepted

theorem mem_of_unit? {unit : PhysicalUnit} (h : dag.unit? unitId = some unit) :
    unit ∈ dag.units ∧ unit.identity = unitId := by
  unfold DagDocument.unit? at h
  have hsame := List.find?_some h
  exact ⟨List.mem_of_find?_eq_some h, of_decide_eq_true hsame⟩

theorem exists_unit? (h : unitId ∈ dag.ids) : ∃ unit, dag.unit? unitId = some unit := by
  obtain ⟨unit, hunit, rfl⟩ := List.mem_map.mp h
  have hsome : (dag.unit? unit.identity).isSome :=
    List.find?_isSome.mpr ⟨unit, hunit, decide_eq_true rfl⟩
  exact Option.isSome_iff_exists.mp hsome

/-- Every unit is found by its identity. -/
theorem DagDocument.Sound.unit?_eq (h : dag.Sound) {unit : PhysicalUnit} (hunit : unit ∈ dag.units) :
    dag.unit? unit.identity = some unit := by
  have hid : unit.identity ∈ dag.ids := List.mem_map_of_mem hunit
  obtain ⟨found, hfound⟩ := exists_unit? hid
  obtain ⟨hmem, hsame⟩ := mem_of_unit? hfound
  rw [hfound, List.inj_on_of_nodup_map h.ids_nodup hmem hunit hsame]

end Etlantic.Plan
