import Etlantic.Plan.PhysicalDag

/-!
# The routes of the logical edges

`validate_logical_paths` asks of a physical plan that every logical edge between two
units has one route.  The paths are counted with saturation, and the count is exact as
far as it goes.  Besides, ports must name an edge that exists, and an edge inside one
unit is left to the fusion that the unit declares.
-/

namespace Etlantic.Plan

open Checked (each refuse)

/-- A logical edge: two nodes, and two ports or whatever else the tuple has. -/
structure LogicalRoute where
  producer : String
  consumer : String
  ports : List String
deriving DecidableEq

def LogicalRoute.texts (edge : LogicalRoute) : List String :=
  edge.producer :: edge.consumer :: edge.ports

/-- `len(edge) == 4`. -/
def LogicalRoute.hasPorts (edge : LogicalRoute) : Bool := edge.ports.length = 2

/-- What a fused unit declares, as far as its routes are concerned. -/
structure FusionDescriptor where
  logicalNodes : List String
  targetIdentity : String
  internalEdges : List (List String)
  fingerprint : String

/-- The texts of an array that has nothing else. -/
def textsOf : Json → Option (List String)
  | .arr items => items.mapM fun item => match item with
      | .str text => some text
      | _ => none
  | _ => none

def textOf : Json → Option String
  | .str text => some text
  | _ => none

/-- `tuple(value)`. -/
def tupleOf : Json → Except PhysicalError (List Json)
  | .arr items => .ok items
  | .str text => .ok (text.toList.map fun c => .str (String.singleton c))
  | .obj fields => .ok (fields.map fun f => .str f.1)
  | _ => .error (.typeError "object is not iterable")

/-- `metadata.get("etlantic.edge_ports")`, unless it is null. -/
def PhysicalUnit.edgePorts (unit : PhysicalUnit) : Option Json :=
  match unit.get? "etlantic.edge_ports" with
  | some .null => none
  | ports => ports

/-- The unit names the ports of another edge. -/
def LogicalRoute.portsDiffer (edge : LogicalRoute) (unit : PhysicalUnit) : Bool :=
  edge.hasPorts && unit.edgePorts.any fun ports => textsOf ports ≠ some edge.texts

namespace DagDocument

variable (repr : String → String) (fusionFromDict : Json → Except PhysicalError FusionDescriptor)
  (dag : DagDocument)

/-- Every unit that names ports names those of an edge. -/
def checkPorts (edges : List LogicalRoute) : Except PhysicalError Unit :=
  let portEdges := (edges.filter LogicalRoute.hasPorts).map LogicalRoute.texts
  if portEdges = [] then .ok ()
  else each (fun unit => refuse (unit.edgePorts.any fun ports =>
      (textsOf ports).all fun texts => texts ∉ portEdges)
    (.valueError "PMADP403: physical route references an unknown logical port edge")) dag.units

/-- What the internal routes of a fused unit are compared with. -/
def internalRoutes (unit : PhysicalUnit) : Except PhysicalError (List (List Json)) := do
  let routes ← tupleOf ((unit.get? "etlantic.internal_edges").getD (.arr []))
  routes.mapM tupleOf

/-- The fusion is that of the unit, and the edge is one of its routes. -/
def checkDescriptor (unit : PhysicalUnit) (edge : LogicalRoute) (descriptor : FusionDescriptor) :
    Except PhysicalError Unit := do
  let invalid := PhysicalError.valueError "PMADP403: invalid fused internal logical route"
  refuse (descriptor.logicalNodes ≠ unit.logicalNodes ∨
    descriptor.targetIdentity ≠ unit.targetIdentity ∨ edge.texts ∉ descriptor.internalEdges ∨
    (unit.get? "etlantic.fusion_fingerprint").bind textOf ≠ some descriptor.fingerprint) invalid
  let routes ← internalRoutes unit
  refuse (routes.map (fun route => textsOf (.arr route)) ≠ descriptor.internalEdges.map some)
    invalid

/-- An edge inside a unit is left to the fusion of the unit, if there is one. -/
def checkFusion (unit : PhysicalUnit) (edge : LogicalRoute) : Except PhysicalError Unit :=
  match unit.get? "etlantic.fusion" with
  | none | some .null => .ok ()
  | some fusion => do
      let descriptor ← fusionFromDict fusion
      checkDescriptor unit edge descriptor

/-- The loop over the topological order. -/
def pathCounts (edge : LogicalRoute) (producerId consumerId : String) :
    List String → (String → Nat) → String → Nat
  | [], paths => paths
  | unitId :: rest, paths =>
      if unitId = producerId then pathCounts edge producerId consumerId rest paths
      else
        let count := match dag.unit? unitId with
          | none => 0
          | some unit =>
              if edge.portsDiffer unit then 0
              else if unit.kind = .compute ∧ unitId ≠ consumerId then 0
              else min 2 (((unit.dependencies.filter fun dep => dep.kind = .data).map
                fun dep => paths dep.unitId).sum)
        pathCounts edge producerId consumerId rest (Function.update paths unitId count)

/-- The number of routes of an edge from one unit to another, at most two. -/
def routeCount (edge : LogicalRoute) (producerId consumerId : String) : Nat :=
  dag.pathCounts edge producerId consumerId dag.topologicalOrder
    (fun unitId => if unitId = producerId then 1 else 0) consumerId

def checkEdge (edge : LogicalRoute) : Except PhysicalError Unit :=
  match dag.logicalToPhysical.get? edge.producer, dag.logicalToPhysical.get? edge.consumer with
  | some producerId, some consumerId =>
      if producerId = consumerId then
        match dag.unit? producerId with
        | none => .ok ()
        | some unit => checkFusion fusionFromDict unit edge
      else
        let route := "PMADP403: logical edge " ++ repr edge.producer ++ " -> " ++
          repr edge.consumer
        match dag.routeCount edge producerId consumerId with
        | 0 => .error (.valueError (route ++ " has no physical dependency path"))
        | 1 => .ok ()
        | _ => .error (.valueError (route ++ " has multiple physical dependency paths"))
  | _, _ => .error (.valueError "PMADP403: logical edge references an unmapped logical node")

def validateLogicalPaths (edges : List LogicalRoute) : Except PhysicalError Unit := do
  dag.checkPorts edges
  each (dag.checkEdge repr fusionFromDict) edges

/-! ## Routes -/

/-- Unit `b` reads data from unit `a`. -/
def Feeds (a b : String) : Prop :=
  ∃ unit ∈ dag.units, unit.identity = b ∧ ⟨a, .data⟩ ∈ unit.dependencies

end DagDocument

/-- The unit names no ports, or those of the edge, which has some. -/
def LogicalRoute.Compatible (edge : LogicalRoute) (unit : PhysicalUnit) : Prop :=
  edge.hasPorts = true → ∀ ports, unit.edgePorts = some ports → textsOf ports = some edge.texts

/-- Compatible units that compute nothing, from the producer's unit to the consumer's. -/
structure RoutePath (dag : DagDocument) (edge : LogicalRoute) (producerId consumerId : String)
    (inner : List String) : Prop where
  chain : (producerId :: (inner ++ [consumerId])).IsChain dag.Feeds
  compatible : ∀ id ∈ inner ++ [consumerId], ∀ unit ∈ dag.units, unit.identity = id →
    edge.Compatible unit
  moves : ∀ id ∈ inner, ∀ unit ∈ dag.units, unit.identity = id → unit.kind ≠ .compute

/-! ## The count -/

section Count

variable {dag : DagDocument} {edge : LogicalRoute} {producerId consumerId a b : String}

/-- The unit is on no route of the edge. -/
def LogicalRoute.Blocks (edge : LogicalRoute) (consumerId : String) (unit : PhysicalUnit) : Prop :=
  edge.portsDiffer unit = true ∨ (unit.kind = .compute ∧ unit.identity ≠ consumerId)

instance (edge : LogicalRoute) (consumerId : String) (unit : PhysicalUnit) :
    Decidable (edge.Blocks consumerId unit) :=
  inferInstanceAs (Decidable (_ ∨ _))

/-- The units that a route of the edge may come from. -/
def DagDocument.feeders (dag : DagDocument) (edge : LogicalRoute) (consumerId unitId : String) :
    List String :=
  match dag.unit? unitId with
  | none => []
  | some unit => if edge.Blocks consumerId unit then [] else
      (unit.dependencies.filter fun dep => dep.kind = .data).map PhysicalDependency.unitId

/-- The loop counts paths. -/
theorem pathCounts_eq : ∀ (order : List String) (paths : String → Nat),
    dag.pathCounts edge producerId consumerId order paths =
      PathCount.tally (dag.feeders edge consumerId) producerId order paths
  | [], _ => rfl
  | unitId :: rest, paths => by
      unfold DagDocument.pathCounts PathCount.tally
      by_cases hproducer : unitId = producerId
      · rw [if_pos hproducer, if_pos hproducer]
        exact pathCounts_eq rest paths
      · rw [if_neg hproducer, if_neg hproducer]
        have hcount : (match dag.unit? unitId with
            | none => 0
            | some unit =>
                if edge.portsDiffer unit then 0
                else if unit.kind = .compute ∧ unitId ≠ consumerId then 0
                else min 2 (((unit.dependencies.filter fun dep => dep.kind = .data).map
                  fun dep => paths dep.unitId).sum)) =
            min 2 ((dag.feeders edge consumerId unitId).map paths).sum := by
          unfold DagDocument.feeders
          cases hunit : dag.unit? unitId with
          | none => rfl
          | some unit =>
              obtain ⟨-, rfl⟩ := mem_of_unit? hunit
              show (if edge.portsDiffer unit = true then 0 else _) =
                min 2 ((if edge.Blocks consumerId unit then [] else _).map paths).sum
              by_cases hports : edge.portsDiffer unit = true
              · rw [if_pos hports, if_pos (.inl hports)]
                rfl
              · by_cases hkind : unit.kind = .compute ∧ unit.identity ≠ consumerId
                · rw [if_neg hports, if_pos hkind, if_pos (.inr hkind)]
                  rfl
                · rw [if_neg hports, if_neg hkind, if_neg fun h => h.elim hports hkind,
                    List.map_map]
                  rfl
        rw [pathCounts_eq rest, hcount]

theorem mem_feeders (h : dag.Sound) :
    a ∈ dag.feeders edge consumerId b ↔ dag.Feeds a b ∧
      ∀ unit ∈ dag.units, unit.identity = b → ¬ edge.Blocks consumerId unit := by
  unfold DagDocument.feeders DagDocument.Feeds
  constructor
  · intro hmem
    cases hunit : dag.unit? b with
    | none =>
        rw [hunit] at hmem
        cases hmem
    | some unit =>
        rw [hunit] at hmem
        obtain ⟨hin, rfl⟩ := mem_of_unit? hunit
        by_cases hblocks : edge.Blocks consumerId unit
        · simp only [if_pos hblocks] at hmem
          cases hmem
        · simp only [if_neg hblocks] at hmem
          obtain ⟨dep, hdep, rfl⟩ := List.mem_map.mp hmem
          obtain ⟨hdep, hkind⟩ := List.mem_filter.mp hdep
          refine ⟨⟨unit, hin, rfl, ?_⟩, fun other hother hsame => ?_⟩
          · rw [← of_decide_eq_true hkind]
            exact hdep
          · have hfound := h.unit?_eq hother
            rw [hsame, hunit] at hfound
            rw [← Option.some.inj hfound]
            exact hblocks
  · rintro ⟨⟨unit, hin, rfl, hdep⟩, hopen⟩
    rw [h.unit?_eq hin]
    simp only [if_neg (hopen unit hin rfl)]
    exact List.mem_map.mpr ⟨_, List.mem_filter.mpr ⟨hdep, decide_eq_true rfl⟩, rfl⟩

theorem feeders_nodup (h : dag.Sound) : (dag.feeders edge consumerId b).Nodup := by
  unfold DagDocument.feeders
  cases hunit : dag.unit? b with
  | none => exact List.nodup_nil
  | some unit =>
      simp only
      split
      · exact List.nodup_nil
      · exact (h.dependencies_nodup unit (mem_of_unit? hunit).1).sublist
          (List.filter_sublist.map _)

/-- Data flows forward in the order. -/
theorem idxOf_lt_of_feeds (h : dag.Sound) (hfeeds : dag.Feeds a b) :
    dag.topologicalOrder.idxOf a < dag.topologicalOrder.idxOf b := by
  obtain ⟨unit, hunit, rfl, hdep⟩ := hfeeds
  exact h.dependencies_before unit hunit _ hdep

theorem feeders_ordered (h : dag.Sound) :
    PathCount.Ordered (dag.feeders edge consumerId) dag.topologicalOrder := by
  intro before unitId after hsplit feeder hfeeder
  have hfeeds := ((mem_feeders h).mp hfeeder).1
  have hlt := idxOf_lt_of_feeds h hfeeds
  have hnodup : dag.topologicalOrder.Nodup := h.order_perm.nodup_iff.mpr h.ids_nodup
  rw [hsplit] at hlt hnodup
  have hnew : unitId ∉ before := by
    rw [List.nodup_append] at hnodup
    exact fun hin => hnodup.2.2 unitId hin unitId List.mem_cons_self rfl
  by_contra hnot
  rw [List.idxOf_append_of_notMem hnew, List.idxOf_append_of_notMem hnot,
    List.idxOf_cons_self] at hlt
  omega

theorem compatible_iff {unit : PhysicalUnit} :
    edge.Compatible unit ↔ ¬ edge.portsDiffer unit = true := by
  unfold LogicalRoute.Compatible LogicalRoute.portsDiffer
  rw [Bool.and_eq_true, Option.any_eq_true, not_and]
  refine imp_congr_right fun _ => ?_
  constructor
  · rintro h ⟨ports, hports, hdiffer⟩
    exact of_decide_eq_true hdiffer (h ports hports)
  · intro h ports hports
    by_contra hdiffer
    exact h ⟨ports, hports, decide_eq_true hdiffer⟩

/-- Along a chain, every place but the first has one before it. -/
theorem exists_before {R : String → String → Prop} : ∀ {l : List String} {first id : String},
    (first :: l).IsChain R → id ∈ l → ∃ before, R before id
  | second :: rest, first, id, hchain, hid => by
      obtain ⟨hstep, hrest⟩ := List.isChain_cons_cons.mp hchain
      rcases List.mem_cons.mp hid with rfl | hid
      · exact ⟨first, hstep⟩
      · exact exists_before hrest hid

/-- Data does not come back to where it was. -/
theorem chain_nodup (h : dag.Sound) {l : List String} (hchain : l.IsChain dag.Feeds) :
    l.Nodup := by
  have htrans : IsTrans String fun a b =>
      dag.topologicalOrder.idxOf a < dag.topologicalOrder.idxOf b := ⟨fun _ _ _ => Nat.lt_trans⟩
  have hup := hchain.imp fun a b hab => idxOf_lt_of_feeds h hab
  refine hup.pairwise.imp fun hlt => ?_
  rintro rfl
  exact Nat.lt_irrefl _ hlt

/-- The walks to the consumer's unit are the routes. -/
theorem walk_iff_route (h : dag.Sound) (hne : producerId ≠ consumerId) {path : List String} :
    PathCount.Walk (dag.feeders edge consumerId) producerId consumerId path ↔
      ∃ inner, path = producerId :: (inner ++ [consumerId]) ∧
        RoutePath dag edge producerId consumerId inner := by
  rw [PathCount.walk_iff]
  constructor
  · rintro ⟨rest, rfl, hlast, hchain, hnew⟩
    rcases List.eq_nil_or_concat' rest with rfl | ⟨inner, last, rfl⟩
    · exact absurd (Option.some.inj hlast) hne
    · rw [← List.cons_append, List.getLast?_concat] at hlast
      obtain rfl := Option.some.inj hlast
      have hfeeds := hchain.imp fun a b hab => ((mem_feeders h).mp hab).1
      have hopen : ∀ id ∈ inner ++ [last], ∀ unit ∈ dag.units, unit.identity = id →
          ¬ edge.Blocks last unit := by
        intro id hid
        obtain ⟨before, hbefore⟩ := exists_before hchain hid
        exact ((mem_feeders h).mp hbefore).2
      refine ⟨inner, rfl, hfeeds, fun id hid unit hunit hsame => ?_,
        fun id hid unit hunit hsame hkind => ?_⟩
      · rw [compatible_iff]
        exact fun hports => hopen id hid unit hunit hsame (.inl hports)
      · refine hopen id (List.mem_append_left _ hid) unit hunit hsame (.inr ⟨hkind, ?_⟩)
        have hnodup := List.nodup_cons.mp (chain_nodup h hfeeds)
        rintro rfl
        obtain rfl := hsame
        exact (List.nodup_append.mp hnodup.2).2.2 _ hid _ (List.mem_singleton_self _) rfl
  · rintro ⟨inner, rfl, hroute⟩
    refine ⟨_, rfl, ?_, ?_, (List.nodup_cons.mp (chain_nodup h hroute.chain)).1⟩
    · rw [← List.cons_append, List.getLast?_concat]
    · have hopen : ∀ id ∈ inner ++ [consumerId], ∀ unit ∈ dag.units, unit.identity = id →
          ¬ edge.Blocks consumerId unit := by
        rintro id hid unit hunit hsame (hports | ⟨hkind, hother⟩)
        · exact compatible_iff.mp (hroute.compatible id hid unit hunit hsame) hports
        · rcases List.mem_append.mp hid with hid | hid
          · exact hroute.moves id hid unit hunit hsame hkind
          · exact hother (hsame.trans (List.mem_singleton.mp hid))
      exact hroute.chain.imp_of_mem_tail_imp fun a b _ hb hab =>
        (mem_feeders h).mpr ⟨hab, hopen b hb⟩

theorem routeCount_eq : dag.routeCount edge producerId consumerId =
    PathCount.count (dag.feeders edge consumerId) producerId dag.topologicalOrder consumerId :=
  congrFun (pathCounts_eq dag.topologicalOrder _) consumerId

/-- The count is the number of routes, cut off at two. -/
theorem routeCount_exact (h : dag.Sound) (hne : producerId ≠ consumerId)
    (hconsumer : consumerId ∈ dag.ids) :
    (dag.routeCount edge producerId consumerId : ℕ∞) =
      min 2 { inner | RoutePath dag edge producerId consumerId inner }.encard := by
  have himage : PathCount.paths (dag.feeders edge consumerId) producerId consumerId =
      (fun inner => producerId :: (inner ++ [consumerId])) ''
        { inner | RoutePath dag edge producerId consumerId inner } := by
    ext path
    refine (walk_iff_route h hne).trans ?_
    constructor
    · rintro ⟨inner, rfl, hroute⟩
      exact ⟨inner, hroute, rfl⟩
    · rintro ⟨inner, hroute, rfl⟩
      exact ⟨inner, rfl, hroute⟩
  have hinj : Function.Injective fun inner => producerId :: (inner ++ [consumerId]) :=
    fun _ _ heq => List.append_cancel_right (List.cons.inj heq).2
  rw [routeCount_eq, PathCount.count_eq (fun _ => feeders_nodup h) (feeders_ordered h)
    (h.order_perm.nodup_iff.mpr h.ids_nodup) (h.order_perm.mem_iff.mpr hconsumer), himage,
    hinj.encard_image]

theorem routeCount_eq_one (h : dag.Sound) (hne : producerId ≠ consumerId)
    (hconsumer : consumerId ∈ dag.ids) : dag.routeCount edge producerId consumerId = 1 ↔
      ∃! inner, RoutePath dag edge producerId consumerId inner := by
  rw [routeCount_eq, PathCount.count_eq_one (fun _ => feeders_nodup h) (feeders_ordered h)
    (h.order_perm.nodup_iff.mpr h.ids_nodup) (h.order_perm.mem_iff.mpr hconsumer)]
  constructor
  · rintro ⟨path, hwalk, hunique⟩
    obtain ⟨inner, rfl, hroute⟩ := (walk_iff_route h hne).mp hwalk
    refine ⟨inner, hroute, fun other hother => ?_⟩
    have heq := hunique _ ((walk_iff_route h hne).mpr ⟨other, rfl, hother⟩)
    exact List.append_cancel_right (List.cons.inj heq).2
  · rintro ⟨inner, hroute, hunique⟩
    refine ⟨_, (walk_iff_route h hne).mpr ⟨inner, rfl, hroute⟩, fun path hwalk => ?_⟩
    obtain ⟨other, rfl, hother⟩ := (walk_iff_route h hne).mp hwalk
    rw [hunique other hother]

end Count

/-! ## What is accepted -/

/-- If an edge has ports, every unit that names ports names those of an edge. -/
def DagDocument.PortsKnown (dag : DagDocument) (edges : List LogicalRoute) : Prop :=
  (∃ edge ∈ edges, edge.hasPorts = true) → ∀ unit ∈ dag.units, ∀ ports,
    unit.edgePorts = some ports →
      ∃ edge ∈ edges, edge.hasPorts = true ∧ textsOf ports = some edge.texts

/-- The fusion is that of the unit and has the edge. -/
structure Describes (unit : PhysicalUnit) (edge : LogicalRoute) (descriptor : FusionDescriptor) :
    Prop where
  nodes : descriptor.logicalNodes = unit.logicalNodes
  target : descriptor.targetIdentity = unit.targetIdentity
  edge_mem : edge.texts ∈ descriptor.internalEdges
  fingerprint : (unit.get? "etlantic.fusion_fingerprint").bind textOf = some descriptor.fingerprint
  routes : ∃ routes, DagDocument.internalRoutes unit = .ok routes ∧
    routes.map (fun route => textsOf (.arr route)) = descriptor.internalEdges.map some

/-- If the unit declares a fusion, it is that of the unit and has the edge. -/
def FusionFits (fusionFromDict : Json → Except PhysicalError FusionDescriptor)
    (unit : PhysicalUnit) (edge : LogicalRoute) : Prop :=
  ∀ fusion, unit.get? "etlantic.fusion" = some fusion → fusion ≠ .null →
    ∃ descriptor, fusionFromDict fusion = .ok descriptor ∧ Describes unit edge descriptor

/-- One route leads from the producer's unit to the consumer's. -/
def DagDocument.OneRoute (dag : DagDocument) (edge : LogicalRoute) : Prop :=
  ∃ producerId consumerId, dag.logicalToPhysical.get? edge.producer = some producerId ∧
    dag.logicalToPhysical.get? edge.consumer = some consumerId ∧
    ∃! inner, RoutePath dag edge producerId consumerId inner

/-- The edge is inside one unit, whose fusion fits. -/
def DagDocument.Inside (fusionFromDict : Json → Except PhysicalError FusionDescriptor)
    (dag : DagDocument) (edge : LogicalRoute) : Prop :=
  ∃ unit ∈ dag.units, dag.logicalToPhysical.get? edge.producer = some unit.identity ∧
    dag.logicalToPhysical.get? edge.consumer = some unit.identity ∧
    FusionFits fusionFromDict unit edge

section Accepted

variable {repr : String → String} {fusionFromDict : Json → Except PhysicalError FusionDescriptor}
  {dag : DagDocument} {edge : LogicalRoute} {edges : List LogicalRoute}

theorem checkPorts_iff : dag.checkPorts edges = .ok () ↔ dag.PortsKnown edges := by
  have hmem : ∀ texts, texts ∈ (edges.filter LogicalRoute.hasPorts).map LogicalRoute.texts ↔
      ∃ edge ∈ edges, edge.hasPorts = true ∧ some texts = some edge.texts := by
    intro texts
    rw [List.mem_map]
    constructor
    · rintro ⟨edge, hedge, rfl⟩
      exact ⟨edge, (List.mem_filter.mp hedge).1, (List.mem_filter.mp hedge).2, rfl⟩
    · rintro ⟨edge, hedge, hports, heq⟩
      exact ⟨edge, List.mem_filter.mpr ⟨hedge, hports⟩, (Option.some.inj heq).symm⟩
  unfold DagDocument.checkPorts DagDocument.PortsKnown
  by_cases hnone : (edges.filter LogicalRoute.hasPorts).map LogicalRoute.texts = []
  · simp only [hnone, if_true]
    refine iff_of_true trivial ?_
    rintro ⟨edge, hedge, hports⟩
    have hin := (hmem edge.texts).mpr ⟨edge, hedge, hports, rfl⟩
    rw [hnone] at hin
    cases hin
  · have hsome : ∃ edge ∈ edges, edge.hasPorts = true := by
      obtain ⟨texts, hin⟩ := List.exists_mem_of_ne_nil _ hnone
      obtain ⟨edge, hedge, hports, -⟩ := (hmem texts).mp hin
      exact ⟨edge, hedge, hports⟩
    simp only [hnone, if_false]
    rw [Checked.each_eq_ok, forall_prop_of_true hsome]
    refine forall₂_congr fun unit _ => ?_
    rw [Checked.refuse_eq_ok, Option.any_eq_true, not_exists]
    refine forall_congr' fun ports => ?_
    rw [not_and]
    refine imp_congr_right fun _ => ?_
    cases htexts : textsOf ports with
    | none =>
        refine iff_of_false (not_not_intro rfl) ?_
        rintro ⟨edge, -, -, hno⟩
        cases hno
    | some texts =>
        rw [← hmem texts]
        show ¬ decide (texts ∉ _) = true ↔ _
        rw [decide_eq_true_eq, not_not]

theorem checkDescriptor_iff {unit : PhysicalUnit} {descriptor : FusionDescriptor} :
    DagDocument.checkDescriptor unit edge descriptor = .ok () ↔
      Describes unit edge descriptor := by
  unfold DagDocument.checkDescriptor
  rw [Checked.andThen_eq_ok, Checked.refuse_eq_ok, Checked.bind_eq_ok]
  simp only [Checked.refuse_eq_ok, not_or, not_not]
  constructor
  · rintro ⟨⟨hnodes, htarget, hedge, hfingerprint⟩, hroutes⟩
    exact ⟨hnodes, htarget, hedge, hfingerprint, hroutes⟩
  · rintro ⟨hnodes, htarget, hedge, hfingerprint, hroutes⟩
    exact ⟨⟨hnodes, htarget, hedge, hfingerprint⟩, hroutes⟩

theorem checkFusion_iff {unit : PhysicalUnit} :
    DagDocument.checkFusion fusionFromDict unit edge = .ok () ↔
      FusionFits fusionFromDict unit edge := by
  unfold DagDocument.checkFusion FusionFits
  rcases hfusion : unit.get? "etlantic.fusion" with - | fusion
  · refine iff_of_true rfl ?_
    intro fusion hsome
    cases hsome
  · by_cases hnull : fusion = .null
    · subst hnull
      refine iff_of_true rfl ?_
      intro fusion hsome hnot
      exact absurd (Option.some.inj hsome).symm hnot
    · have hcheck : DagDocument.checkFusion fusionFromDict unit edge =
          (fusionFromDict fusion >>= DagDocument.checkDescriptor unit edge) := by
        unfold DagDocument.checkFusion
        rw [hfusion]
        cases fusion with
        | null => exact absurd rfl hnull
        | bool b => rfl
        | int n => rfl
        | float text => rfl
        | str text => rfl
        | arr items => rfl
        | obj fields => rfl
      unfold DagDocument.checkFusion at hcheck
      rw [hfusion] at hcheck
      rw [hcheck, Checked.bind_eq_ok]
      simp only [checkDescriptor_iff]
      constructor
      · intro hfits other hsome _
        rw [← Option.some.inj hsome]
        exact hfits
      · intro hfits
        exact hfits fusion rfl hnull

/-- No route leads from a unit back to it. -/
theorem no_route_back (h : dag.Sound) {unitId : String} {inner : List String} :
    ¬ RoutePath dag edge unitId unitId inner := by
  intro hroute
  have hnodup := List.nodup_cons.mp (chain_nodup h hroute.chain)
  exact hnodup.1 (List.mem_append_right _ (List.mem_singleton_self _))

theorem checkEdge_iff (h : dag.Sound) : dag.checkEdge repr fusionFromDict edge = .ok () ↔
    dag.OneRoute edge ∨ dag.Inside fusionFromDict edge := by
  unfold DagDocument.checkEdge DagDocument.OneRoute DagDocument.Inside
  rcases hproducer : dag.logicalToPhysical.get? edge.producer with - | producerId
  · refine iff_of_false (fun hok => ?_) ?_
    · cases hok
    · rintro (⟨producerId, consumerId, hsome, -⟩ | ⟨unit, -, hsome, -⟩)
      · cases hsome
      · cases hsome
  · rcases hconsumer : dag.logicalToPhysical.get? edge.consumer with - | consumerId
    · refine iff_of_false (fun hok => ?_) ?_
      · cases hok
      · rintro (⟨producerId', consumerId, -, hsome, -⟩ | ⟨unit, -, -, hsome, -⟩)
        · cases hsome
        · cases hsome
    · have hids := h.mapped_mem edge.consumer consumerId hconsumer
      by_cases hsame : producerId = consumerId
      · subst hsame
        obtain ⟨unit, hunit⟩ := exists_unit? hids
        obtain ⟨hin, rfl⟩ := mem_of_unit? hunit
        simp only [if_true, hunit]
        rw [checkFusion_iff]
        constructor
        · intro hfits
          exact .inr ⟨unit, hin, rfl, rfl, hfits⟩
        · rintro (⟨producerId, consumerId, heq, heq', inner, hroute, -⟩ |
            ⟨other, hother, heq, -, hfits⟩)
          · obtain rfl := Option.some.inj heq
            obtain rfl := Option.some.inj heq'
            exact absurd hroute (no_route_back h)
          · have hfound := h.unit?_eq hother
            rw [← Option.some.inj heq, hunit] at hfound
            rw [Option.some.inj hfound]
            exact hfits
      · have hcount : dag.routeCount edge producerId consumerId = 1 ↔
            ∃! inner, RoutePath dag edge producerId consumerId inner :=
          routeCount_eq_one h hsame hids
        have hcases : (match dag.routeCount edge producerId consumerId with
            | 0 => (.error (.valueError ("PMADP403: logical edge " ++ repr edge.producer ++
                " -> " ++ repr edge.consumer ++ " has no physical dependency path")) :
                  Except PhysicalError Unit)
            | 1 => .ok ()
            | _ => .error (.valueError ("PMADP403: logical edge " ++ repr edge.producer ++
                " -> " ++ repr edge.consumer ++ " has multiple physical dependency paths"))) =
              .ok () ↔ dag.routeCount edge producerId consumerId = 1 := by
          rcases dag.routeCount edge producerId consumerId with - | - | count
          · exact iff_of_false (fun hok => by cases hok) (by decide)
          · exact iff_of_true rfl rfl
          · exact iff_of_false (fun hok => by cases hok) (by omega)
        simp only [if_neg hsame]
        refine hcases.trans (hcount.trans ?_)
        constructor
        · intro hroute
          exact .inl ⟨producerId, consumerId, rfl, rfl, hroute⟩
        · rintro (⟨producerId', consumerId', heq, heq', hroute⟩ | ⟨unit, -, heq, heq', -⟩)
          · obtain rfl := Option.some.inj heq
            obtain rfl := Option.some.inj heq'
            exact hroute
          · exact absurd ((Option.some.inj heq).trans (Option.some.inj heq').symm) hsame

/-- A physical plan is accepted just if its ports are known and each edge has one route or
is inside one unit; and the count of the routes is exact up to two. -/
theorem validateLogicalPaths_iff (repr : String → String)
    (fusionFromDict : Json → Except PhysicalError FusionDescriptor) (dag : PhysicalDag repr)
    (edges : List LogicalRoute) :
    (dag.validateLogicalPaths repr fusionFromDict edges = .ok () ↔ dag.PortsKnown edges ∧
      ∀ edge ∈ edges, dag.OneRoute edge ∨ dag.Inside fusionFromDict edge) ∧
    ∀ edge producerId consumerId, producerId ≠ consumerId → consumerId ∈ dag.ids →
      (dag.routeCount edge producerId consumerId : ℕ∞) =
        min 2 { inner | RoutePath dag.toDagDocument edge producerId consumerId inner }.encard := by
  refine ⟨?_, fun edge producerId consumerId => routeCount_exact dag.sound⟩
  unfold DagDocument.validateLogicalPaths
  rw [Checked.andThen_eq_ok, Checked.each_eq_ok, checkPorts_iff]
  exact and_congr_right fun _ => forall₂_congr fun edge _ => checkEdge_iff dag.sound

end Accepted

section Sample

def computeUnit (identity : String) (nodes : List String) (dependencies : List PhysicalDependency) :
    PhysicalUnit := ⟨identity, .compute, dependencies, "local", nodes, []⟩

/-- One unit feeds another, and a transfer that nothing reads names some other ports. -/
def strayTransfer : PhysicalDag id where
  units := [computeUnit "u1" ["a"] [], computeUnit "u2" ["b"] [⟨"u1", .data⟩],
    ⟨"t", .transfer, [⟨"u1", .data⟩], "local", [],
      [("etlantic.edge_ports", .arr [.str "a", .str "b", .str "out", .str "other"])]⟩]
  logicalToPhysical := ⟨[("a", "u1"), ("b", "u2")], by decide⟩
  topologicalOrder := ["u1", "u2", "t"]
  accepted := by rfl

/-- One unit for two nodes. -/
def fusedPair : PhysicalDag id where
  units := [computeUnit "u1" ["a", "b"] []]
  logicalToPhysical := ⟨[("a", "u1"), ("b", "u1")], by decide⟩
  topologicalOrder := ["u1"]
  accepted := by rfl

def edgeOf (producer consumer : String) (ports : List String) : LogicalRoute :=
  ⟨producer, consumer, ports⟩

def noFusion : Json → Except PhysicalError FusionDescriptor :=
  fun _ => .error (.valueError "PMADP403: invalid fusion document")

theorem validateLogicalPaths_stray :
    (strayTransfer.routeCount (edgeOf "a" "b" ["out", "in"]) "u1" "u2" : ℕ∞) =
      min 2 { inner | RoutePath strayTransfer.toDagDocument (edgeOf "a" "b" ["out", "in"])
        "u1" "u2" inner }.encard :=
  (validateLogicalPaths_iff id noFusion strayTransfer []).2 _ "u1" "u2" (by decide) (by decide)

/-- A plan may be refused though each edge has one route, and accepted though one has none. -/
theorem stray_ports_refused_and_fused_edge_accepted :
    ((∀ edge ∈ [edgeOf "a" "b" ["out", "in"]], strayTransfer.OneRoute edge) ∧
      strayTransfer.validateLogicalPaths id noFusion [edgeOf "a" "b" ["out", "in"]] ≠ .ok ()) ∧
    (fusedPair.validateLogicalPaths id noFusion [edgeOf "a" "b" []] = .ok () ∧
      ¬ fusedPair.OneRoute (edgeOf "a" "b" [])) := by
  refine ⟨⟨?_, ?_⟩, by rfl, ?_⟩
  · intro edge hedge
    rw [List.mem_singleton.mp hedge]
    refine ⟨"u1", "u2", by rfl, by rfl, ?_⟩
    exact (routeCount_eq_one strayTransfer.sound (by decide) (by decide)).mp (by decide)
  · have herror : strayTransfer.validateLogicalPaths id noFusion
        [edgeOf "a" "b" ["out", "in"]] = .error (.valueError
          "PMADP403: physical route references an unknown logical port edge") := by rfl
    rw [herror]
    intro hok
    cases hok
  · rintro ⟨producerId, consumerId, hproducer, hconsumer, inner, hroute, -⟩
    have hfirst : fusedPair.logicalToPhysical.get? "a" = some "u1" := by rfl
    have hsecond : fusedPair.logicalToPhysical.get? "b" = some "u1" := by rfl
    obtain rfl := Option.some.inj (hfirst.symm.trans hproducer)
    obtain rfl := Option.some.inj (hsecond.symm.trans hconsumer)
    exact no_route_back fusedPair.sound hroute

end Sample

end Etlantic.Plan
