import Etlantic.Base.Groups
import Etlantic.Base.Text
import Etlantic.Base.UnionFind
import Etlantic.Planning.Solver

/-!
# Region formation

`_regions` groups the nodes of a logical graph into regions: it removes the
edges that cross targets or that `_is_hard_boundary` declares hard, joins the
ends of the others with union-find, and records for every region the regions
its nodes read from.

The values of a node's metadata are whatever the authors of a pipeline put
there; only their truth and their equality are looked at.
-/

namespace Etlantic.Planning

/-! ## Records -/

/-- What Python makes of a metadata value: `bool(value)` and `==`. -/
class MetadataValue (ν : Type) where
  truthy : ν → Bool
  same : ν → ν → Bool
  ofText : String → ν
  same_symm : ∀ {x y : ν}, same x y = true → same y x = true
  same_trans : ∀ {x y z : ν}, same x y = true → same y z = true → same x z = true

structure DeclaredNode (ν : Type) extends Node where
  metadata : Dict String ν

structure DeclaredGraph (ν : Type) where
  nodes : List (DeclaredNode ν)
  edges : List Edge

def DeclaredGraph.nodeNames {ν : Type} (graph : DeclaredGraph ν) : List String :=
  graph.nodes.map (·.name)

/-- `node_map`. -/
def DeclaredGraph.nodeMap {ν : Type} (graph : DeclaredGraph ν) :
    List (String × DeclaredNode ν) :=
  graph.nodes.map fun node => (node.name, node)

structure DomainTarget extends Target where
  securityDomain : String

/-- What `_regions` reads of a fusion descriptor. -/
structure Fusion where
  logicalNodes : List String
  fingerprint : String

structure AdaptiveRegion where
  identity : String
  targetId : String
  logicalNodes : List String
  dependencies : List String
  fused : Bool
  securityDomain : String
  metadata : List (String × String)
deriving DecidableEq

/-! ## The checks of a region record -/

/-- One of the three required texts of a region. -/
def checkRegionText (field value : String) : Except PlanningError Unit :=
  if isBlank value then
    .error (.valueError ("PMADP403: adaptive region " ++ field ++ " is required"))
  else if 4096 < value.toList.length then
    .error (.valueError
      ("PMADP403: adaptive region " ++ field ++ " exceeds the 4096-character limit"))
  else .ok ()

/-- `AdaptiveRegion.__post_init__`, where `refuses` is what `_validated_metadata`
raises about a mapping. -/
def AdaptiveRegion.postInit (refuses : List (String × String) → Option PlanningError)
    (region : AdaptiveRegion) : Except PlanningError Unit := do
  checkRegionText "identity" region.identity
  checkRegionText "target_id" region.targetId
  checkRegionText "security_domain" region.securityDomain
  if region.logicalNodes = [] ∨ region.logicalNodes.any isBlank ∨ ¬ region.logicalNodes.Nodup then
    throw (.valueError "PMADP403: adaptive regions require unique logical nodes")
  if region.dependencies.any isBlank then
    throw (.valueError "PMADP402: adaptive region dependencies must be non-blank")
  if ¬ region.dependencies.Nodup then
    throw (.valueError "PMADP402: adaptive region dependencies must be unique")
  match refuses region.metadata with
  | some error => throw error
  | none => return ()

def AdaptiveRegion.toJson (region : AdaptiveRegion) : Json :=
  .obj [("identity", .str region.identity), ("target_id", .str region.targetId),
    ("logical_nodes", .arr (region.logicalNodes.map .str)),
    ("dependencies", .arr (region.dependencies.map .str)), ("fused", .bool region.fused),
    ("security_domain", .str region.securityDomain),
    ("metadata", .obj (region.metadata.map fun entry => (entry.1, .str entry.2)))]

/-- `record(AdaptiveRegion, "region", ..)`: the bytes that are live once the
record is admitted and accepted. -/
def ownRegion (refuses : List (String × String) → Option PlanningError) (limit live : Nat)
    (region : AdaptiveRegion) : Except PlanningError Nat := do
  let size := canonicalSize region.toJson
  let live ← reserve limit live (size + 64) "region"
  let _ ← reserve limit live size "validation-buffer"
  region.postInit refuses
  return live

/-! ## Hard boundaries -/

def boundaryKeys : List String :=
  ["etlantic.selection_boundary", "etlantic.security_boundary", "etlantic.effect_boundary",
    "etlantic.retry_boundary", "etlantic.checkpoint_boundary", "etlantic.validation_required",
    "etlantic.materialization_required", "etlantic.publication_required",
    "etlantic.handoff_required"]

/-- What `_regions` works with: the assignment, the inventory and the flags, and
SHA-256 as the lower-case hex digest of a text. -/
structure RegionContext where
  decisions : List AdaptiveDecision
  inventory : List DomainTarget
  profileDomain : String
  executable : Bool
  fusion : Option Fusion
  sha256 : String → String

/-- `by_node`. -/
def RegionContext.byNode (c : RegionContext) : List (String × String) :=
  c.decisions.map fun decision => (decision.nodeName, decision.targetId)

/-- `target_by_id`. -/
def RegionContext.targetById (c : RegionContext) : List (String × DomainTarget) :=
  c.inventory.map fun target => (target.targetId, target)

section Boundaries

variable {ν : Type} [MetadataValue ν]

/-- `metadata.get("etlantic.security_domain", context.profile.security_domain)`. -/
def securityDomain (profileDomain : String) (node : DeclaredNode ν) : ν :=
  (node.metadata.get? "etlantic.security_domain").getD (MetadataValue.ofText profileDomain)

/-- A boundary key of the node is set. -/
def declaresBoundary (node : DeclaredNode ν) : Bool :=
  boundaryKeys.any fun key => (node.metadata.get? key).any MetadataValue.truthy

/-- `_is_hard_boundary`. -/
def isHardBoundary (profileDomain : String) (producer consumer : DeclaredNode ν) : Bool :=
  if !MetadataValue.same (securityDomain profileDomain producer)
      (securityDomain profileDomain consumer) then true
  else [producer, consumer].any declaresBoundary

/-! ## Joining and grouping -/

/-- The loop that joins the ends of the edges that stay inside a region.  A
climb to a root is never longer than the number of edges. -/
def joinEdges (c : RegionContext) (graph : DeclaredGraph ν) :
    List Edge → (String → String) → Except PlanningError (String → String)
  | [], parent => .ok parent
  | edge :: rest, parent => do
      let producer ← lookup graph.nodeMap edge.producerNode
      let consumer ← lookup graph.nodeMap edge.consumerNode
      let producerTarget ← lookup c.byNode edge.producerNode
      let consumerTarget ← lookup c.byNode edge.consumerNode
      if producerTarget ≠ consumerTarget then joinEdges c graph rest parent
      else if isHardBoundary c.profileDomain producer consumer then
        joinEdges c graph rest parent
      else
        joinEdges c graph rest
          (UnionFind.union graph.edges.length parent edge.producerNode edge.consumerNode)

end Boundaries

/-- `groups.setdefault(find(name), []).append(name)` for every name. -/
def groupByRoot (fuel : Nat) :
    List String → (String → String) → Dict String (List String) → Dict String (List String)
  | [], _, groups => groups
  | name :: rest, parent, groups =>
      let found := UnionFind.find fuel parent name
      groupByRoot fuel rest found.1 (groups.append found.2 name)

/-- `min(names.index(n) for n in members)`. -/
def firstIndex (names members : List String) : Nat :=
  ((members.map fun name => names.idxOf name).min?).getD 0

/-- `ordered_groups`, each group in the order of `names`. -/
def orderedGroups (names : List String) (groups : Dict String (List String)) :
    List (List String) :=
  (groups.values.insertionSort fun a b => firstIndex names a ≤ firstIndex names b).map
    fun members => members.insertionSort fun a b => names.idxOf a ≤ names.idxOf b

/-! ## Regions -/

def RegionContext.execution (c : RegionContext) : String :=
  if c.executable then "local-static-batch/1" else "planning-only"

/-- `fusion is not None and tuple(members) == fusion.logical_nodes`. -/
def RegionContext.fused (c : RegionContext) (members : List String) : Bool :=
  c.fusion.any fun fusion => members = fusion.logicalNodes

def RegionContext.fusionEvidence (c : RegionContext) (members : List String) : String :=
  match c.fusion with
  | none => "none"
  | some fusion => if c.fused members then fusion.fingerprint else "none"

/-- `boundary_facts`. -/
def RegionContext.boundaryFacts (c : RegionContext) (target : DomainTarget)
    (members : List String) : Json :=
  .obj [("target", .str target.identity), ("nodes", .arr (members.map .str)),
    ("security", .str target.securityDomain), ("execution", .str c.execution),
    ("policy", .str "conservative"), ("fused", .bool (c.fused members)),
    ("fusion_evidence", .str (c.fusionEvidence members)),
    ("planner", .str (if c.executable then "0.53" else "0.52"))]

/-- `f"region:{_digest(boundary_facts)[:24]}"`. -/
def RegionContext.regionId (c : RegionContext) (target : DomainTarget) (members : List String) :
    String :=
  "region:" ++ String.ofList
    ((c.sha256 ((c.boundaryFacts target members).dumps Json.escapeUnicode)).toList.take 24)

def RegionContext.regionMetadata (c : RegionContext) (target : DomainTarget)
    (members : List String) : List (String × String) :=
  [("etlantic.boundary_policy", "conservative"), ("etlantic.execution", c.execution),
    ("etlantic.fusion_evidence", c.fusionEvidence members),
    ("etlantic.security_domain", target.securityDomain),
    ("etlantic.target_identity", target.identity)]

/-- The region of a group, still without dependencies. -/
def RegionContext.form (c : RegionContext) (members : List String) :
    Except PlanningError AdaptiveRegion := do
  let targetId ← lookup c.byNode (members.headD "")
  let target ← lookup c.targetById targetId
  return {
    identity := c.regionId target members
    targetId := targetId
    logicalNodes := members
    dependencies := []
    fused := c.fused members
    securityDomain := target.securityDomain
    metadata := c.regionMetadata target members }

/-- `region_identity_by_node`. -/
def identityByNode (regions : List AdaptiveRegion) : List (String × String) :=
  regions.flatMap fun region => region.logicalNodes.map fun node => (node, region.identity)

/-- The loop that records what the regions read from. -/
def collectDependencies (identities : List (String × String)) :
    List Edge → Dict String (List String) → Except PlanningError (Dict String (List String))
  | [], deps => .ok deps
  | edge :: rest, deps => do
      let left ← lookup identities edge.producerNode
      let right ← lookup identities edge.consumerNode
      if left = right then collectDependencies identities rest deps
      else
        match deps.get? right with
        | none => throw .keyError
        | some found => collectDependencies identities rest (deps.set right (found.insert left))

/-- A region with its dependencies in order. -/
def AdaptiveRegion.complete (deps : Dict String (List String)) (region : AdaptiveRegion) :
    Except PlanningError AdaptiveRegion :=
  match deps.get? region.identity with
  | none => .error .keyError
  | some found => .ok { region with dependencies := found.insertionSort (· ≤ ·) }

/-- The loop that forms and admits the regions. -/
def admitRegions (c : RegionContext) (refuses : List (String × String) → Option PlanningError)
    (limit : Nat) : List (List String) → Nat → Except PlanningError (List AdaptiveRegion × Nat)
  | [], live => .ok ([], live)
  | members :: rest, live => do
      let region ← c.form members
      let live ← ownRegion refuses limit live region
      let admitted ← admitRegions c refuses limit rest live
      return (region :: admitted.1, admitted.2)

/-- The loop that admits the completed regions and releases the first ones. -/
def completeRegions (deps : Dict String (List String))
    (refuses : List (String × String) → Option PlanningError) (limit : Nat) :
    List AdaptiveRegion → Nat → Except PlanningError (List AdaptiveRegion × Nat)
  | [], live => .ok ([], live)
  | region :: rest, live => do
      let updated ← region.complete deps
      let live ← ownRegion refuses limit live updated
      let completed ← completeRegions deps refuses limit rest
        (live - (canonicalSize region.toJson + 64))
      return (updated :: completed.1, completed.2)

/-- `_regions`, under a byte limit of which `live` bytes are in use. -/
def regions {ν : Type} [MetadataValue ν] (c : RegionContext) (graph : DeclaredGraph ν)
    (refuses : List (String × String) → Option PlanningError) (limit live : Nat) :
    Except PlanningError (List AdaptiveRegion × Nat) := do
  let parent ← joinEdges c graph graph.edges id
  let groups := groupByRoot graph.edges.length graph.nodeNames parent .empty
  let admitted ← admitRegions c refuses limit (orderedGroups graph.nodeNames groups) live
  let deps ← collectDependencies (identityByNode admitted.1) graph.edges
    (admitted.1.foldl (fun deps region => deps.set region.identity []) .empty)
  completeRegions deps refuses limit admitted.1 admitted.2

end Etlantic.Planning
