import Etlantic.Planning.Solver
import Etlantic.Base.Checked
import Mathlib.Algebra.BigOperators.Group.List.Basic

/-!
# Assignments and their objective

An assignment picks one eligible candidate for every node.  Over a well-formed
matrix its handoffs and its objective raise nothing, and two assignments of
the same objective are the same.
-/

namespace Etlantic.Planning

open BranchAndBound (Search completions exists_pick)

variable {graph : LogicalGraph} {candidates : List CandidateRecord} {targets : List Target}
  {evidence : HandoffEvidence}

/-- A candidate matrix for the nodes of a graph: one cell for a node and a target, and an
eligible one for every node.  A plan refuses repeated identifiers of nodes, targets and
candidates; its graph may even have cycles here. -/
structure WellFormed (graph : LogicalGraph) (candidates : List CandidateRecord)
    (targets : List Target) : Prop where
  nodesDistinct : graph.nodeNames.Nodup
  edgeEnds : ∀ e ∈ graph.edges, e.producerNode ∈ graph.nodeNames ∧ e.consumerNode ∈ graph.nodeNames
  targetsDistinct : (targets.map (·.targetId)).Nodup
  candidatesDistinct : (candidates.map (·.candidateId)).Nodup
  cell : ∀ c ∈ candidates, ∀ c' ∈ candidates,
    c.nodeName = c'.nodeName → c.targetId = c'.targetId → c = c'
  known : ∀ c ∈ candidates, c.targetId ∈ targets.map (·.targetId)
  eligible : ∀ name ∈ graph.nodeNames, eligibleOf candidates name ≠ []
  facts : ∀ c ∈ candidates, ∀ key, ∀ value ∈ c.objectiveFacts.get? key, 0 ≤ value

/-- The inventory of distinct targets. -/
def inventoryOf (targets : List Target) : AdaptiveInventory := ⟨targets, targets.map (·.targetId)⟩

/-- Decisions for one eligible candidate of every node. -/
def Assigns (graph : LogicalGraph) (candidates : List CandidateRecord)
    (decisions : List AdaptiveDecision) : Prop :=
  ∃ chosen, List.Forall₂ (fun name c => c ∈ eligibleOf candidates name) graph.nodeNames chosen ∧
    decisions = decisionsOf graph.nodeNames chosen

/-- An assignment whose crossing edges all have evidence. -/
def Feasible (graph : LogicalGraph) (candidates : List CandidateRecord) (targets : List Target)
    (evidence : HandoffEvidence) (decisions : List AdaptiveDecision) : Prop :=
  Assigns graph candidates decisions ∧
    ∃ refs, assignmentHandoffs graph decisions targets evidence = .ok (some refs)

/-- The feasible assignment whose objective is below that of every other one. -/
structure Optimal (graph : LogicalGraph) (candidates : List CandidateRecord)
    (targets : List Target) (evidence : HandoffEvidence) (decisions : List AdaptiveDecision) :
    Prop where
  feasible : Feasible graph candidates targets evidence decisions
  least : ∃ score, objective graph decisions candidates (inventoryOf targets) = .ok score ∧
    ∀ other, Feasible graph candidates targets evidence other → other ≠ decisions →
      ∃ score', objective graph other candidates (inventoryOf targets) = .ok score' ∧ score < score'

/-! ## Lookups -/

theorem lookup_eq_of_mem {β : Type} {pairs : List (String × β)} {key : String} {value : β}
    (hmem : (key, value) ∈ pairs) (hsame : ∀ other, (key, other) ∈ pairs → other = value) :
    lookup pairs key = .ok value := by
  unfold lookup
  cases hfind : pairs.reverse.find? (fun pair => pair.1 = key) with
  | none =>
      have := List.find?_eq_none.mp hfind _ (List.mem_reverse.mpr hmem)
      simp at this
  | some pair =>
      have hkey : pair.1 = key := by simpa using List.find?_some hfind
      have hpair : pair ∈ pairs := List.mem_reverse.mp (List.mem_of_find?_eq_some hfind)
      have hvalue := hsame pair.2 (hkey ▸ hpair)
      exact congrArg Except.ok hvalue

theorem lookup_eq_error {β : Type} {pairs : List (String × β)} {key : String}
    (h : ∀ value, (key, value) ∉ pairs) : lookup pairs key = .error .keyError := by
  unfold lookup
  cases hfind : pairs.reverse.find? (fun pair => pair.1 = key) with
  | none => rfl
  | some pair =>
      have hkey : pair.1 = key := by simpa using List.find?_some hfind
      subst hkey
      exact absurd (List.mem_reverse.mp (List.mem_of_find?_eq_some hfind)) (h pair.2)

theorem mem_of_lookup {β : Type} {pairs : List (String × β)} {key : String} {value : β}
    (h : lookup pairs key = .ok value) : (key, value) ∈ pairs := by
  unfold lookup at h
  cases hfind : pairs.reverse.find? (fun pair => pair.1 = key) with
  | none =>
      rw [hfind] at h
      cases h
  | some pair =>
      rw [hfind] at h
      obtain rfl := Except.ok.inj h
      obtain rfl : pair.1 = key := by simpa using List.find?_some hfind
      exact List.mem_reverse.mp (List.mem_of_find?_eq_some hfind)

theorem exists_lookup {β : Type} {pairs : List (String × β)} {key : String} {value : β}
    (hmem : (key, value) ∈ pairs) : ∃ found, lookup pairs key = .ok found := by
  unfold lookup
  cases hfind : pairs.reverse.find? (fun pair => pair.1 = key) with
  | none =>
      have := List.find?_eq_none.mp hfind _ (List.mem_reverse.mpr hmem)
      simp at this
  | some pair => exact ⟨pair.2, rfl⟩

/-- A dictionary over a list whose keys tell its elements apart. -/
theorem lookup_map {α β : Type} (key : α → String) (value : α → β) {xs : List α} {x : α}
    (hmem : x ∈ xs) (hsame : ∀ y ∈ xs, key y = key x → value y = value x) :
    lookup (xs.map fun y => (key y, value y)) (key x) = .ok (value x) := by
  refine lookup_eq_of_mem (List.mem_map.mpr ⟨x, hmem, rfl⟩) fun other hother => ?_
  obtain ⟨y, hy, hpair⟩ := List.mem_map.mp hother
  obtain ⟨hkey, rfl⟩ := Prod.mk.inj hpair
  exact hsame y hy hkey

theorem lookup_of_nodup {α : Type} {key : α → String} {xs : List α} (hnodup : (xs.map key).Nodup)
    {x : α} (hmem : x ∈ xs) : lookup (xs.map fun y => (key y, y)) (key x) = .ok x :=
  lookup_map key id hmem fun _ hy hkey => List.inj_on_of_nodup_map hnodup hy hmem hkey

theorem mem_eligibleOf {name : String} {c : CandidateRecord} :
    c ∈ eligibleOf candidates name ↔ c ∈ candidates ∧ c.nodeName = name ∧ c.status = .eligible := by
  simp [eligibleOf]

/-! ## Picks -/

instance : Nonempty CandidateRecord := ⟨⟨"", "", "", .rejected, .empty⟩⟩

/-- A candidate for every node. -/
abbrev Pick := String → CandidateRecord

/-- The pick takes an eligible candidate of every node. -/
def Pick.Eligible (graph : LogicalGraph) (candidates : List CandidateRecord) (pick : Pick) : Prop :=
  ∀ name ∈ graph.nodeNames, pick name ∈ eligibleOf candidates name

def Pick.decision (pick : Pick) (name : String) : AdaptiveDecision :=
  ⟨name, (pick name).candidateId, (pick name).targetId⟩

theorem decisionsOf_map (names : List String) (pick : Pick) :
    decisionsOf names (names.map pick) = names.map pick.decision := by
  rw [decisionsOf, ← List.map_prod_left_eq_zip, List.map_map]
  rfl

/-- The assignments are the decisions of picks. -/
theorem assigns_iff (hnodes : graph.nodeNames.Nodup) {decisions : List AdaptiveDecision} :
    Assigns graph candidates decisions ↔ ∃ pick : Pick, pick.Eligible graph candidates ∧
      decisions = graph.nodeNames.map pick.decision := by
  constructor
  · rintro ⟨chosen, hchosen, rfl⟩
    obtain ⟨pick, rfl, hpick⟩ := exists_pick hnodes hchosen
    exact ⟨pick, hpick, decisionsOf_map _ pick⟩
  · rintro ⟨pick, hpick, rfl⟩
    refine ⟨graph.nodeNames.map pick, ?_, (decisionsOf_map _ pick).symm⟩
    rw [List.forall₂_map_right_iff]
    exact List.forall₂_same.mpr hpick

section Pick

variable {pick : Pick}

theorem lookup_decision (pick : Pick) {name : String} (hname : name ∈ graph.nodeNames) :
    lookup ((graph.nodeNames.map pick.decision).map fun d => (d.nodeName, d)) name =
      .ok (pick.decision name) := by
  rw [List.map_map]
  have h := lookup_map (fun n : String => n) pick.decision hname
    fun y _ hy => congrArg pick.decision hy
  exact h

theorem WellFormed.lookup_cell (h : WellFormed graph candidates targets)
    (hpick : pick.Eligible graph candidates) {name : String} (hname : name ∈ graph.nodeNames) :
    lookup (candidates.map fun c => (c.candidateId, c)) (pick name).candidateId =
      .ok (pick name) :=
  lookup_of_nodup h.candidatesDistinct (mem_eligibleOf.mp (hpick name hname)).1

theorem WellFormed.known_pick (h : WellFormed graph candidates targets)
    (hpick : pick.Eligible graph candidates) {name : String} (hname : name ∈ graph.nodeNames) :
    (pick name).targetId ∈ targets.map (·.targetId) :=
  h.known _ (mem_eligibleOf.mp (hpick name hname)).1

/-! ## Handoffs -/

/-- Looking for the evidence of the edges of an assignment raises nothing. -/
theorem WellFormed.assignmentHandoffs_total (h : WellFormed graph candidates targets)
    (hpick : pick.Eligible graph candidates) (evidence : HandoffEvidence) :
    ∃ refs, assignmentHandoffs graph (graph.nodeNames.map pick.decision) targets evidence =
      .ok refs := by
  have htarget : ∀ {name : String}, name ∈ graph.nodeNames →
      ∃ t, lookup (targets.map fun t => (t.targetId, t)) (pick.decision name).targetId = .ok t := by
    intro name hname
    obtain ⟨t, ht, hid⟩ := List.mem_map.mp (h.known_pick hpick hname)
    refine ⟨t, ?_⟩
    show lookup _ (pick name).targetId = _
    rw [← hid]
    exact lookup_of_nodup h.targetsDistinct ht
  unfold assignmentHandoffs
  suffices hscan : ∀ (edges : List Edge), (∀ e ∈ edges, e ∈ graph.edges) →
      ∀ found, ∃ refs, assignmentHandoffs.scan evidence
        (targets.map fun t => (t.targetId, t))
        ((graph.nodeNames.map pick.decision).map fun d => (d.nodeName, d)) edges found =
          .ok refs from hscan graph.edges (fun _ hmem => hmem) .empty
  intro edges
  induction edges with
  | nil => exact fun _ found => ⟨some found, rfl⟩
  | cons e rest ih =>
      intro hedges found
      obtain ⟨hproducer, hconsumer⟩ := h.edgeEnds e (hedges e List.mem_cons_self)
      obtain ⟨source, hsource⟩ := htarget hproducer
      obtain ⟨destination, hdestination⟩ := htarget hconsumer
      have hrest := ih fun e hmem => hedges e (List.mem_cons_of_mem _ hmem)
      rw [assignmentHandoffs.scan]
      simp only [lookup_decision pick hproducer, lookup_decision pick hconsumer, Checked.ok_bind,
        hsource, hdestination]
      by_cases hsame : (pick.decision e.producerNode).targetId =
          (pick.decision e.consumerNode).targetId
      · rw [if_pos hsame]
        exact hrest found
      · rw [if_neg hsame]
        cases evidence source destination e with
        | nil => exact ⟨none, rfl⟩
        | cons ref refs => exact hrest _

/-! ## The objective -/

def priorityOf (targets : List Target) (targetId : String) : Int :=
  (targets.map (·.targetId)).idxOf targetId

def identityOf (targets : List Target) (targetId : String) : String :=
  ((targets.find? fun t => t.targetId = targetId).map (·.identity)).getD ""

theorem targetPriority_eq {targetId : String} (hmem : targetId ∈ targets.map (·.targetId)) :
    targetPriority (inventoryOf targets) targetId = .ok (priorityOf targets targetId) := by
  have hindex : (targets.map (·.targetId)).findIdx? (· = targetId) =
      some ((targets.map (·.targetId)).idxOf targetId) := by
    rw [List.findIdx?_eq_some_iff_findIdx_eq]
    exact ⟨List.idxOf_lt_length_of_mem hmem, rfl⟩
  unfold targetPriority
  simp only [inventoryOf, hindex]
  rfl

theorem targetIdentity_eq {targetId : String} (hmem : targetId ∈ targets.map (·.targetId)) :
    targetIdentity (inventoryOf targets) targetId = .ok (identityOf targets targetId) := by
  unfold targetIdentity identityOf
  simp only [inventoryOf]
  cases hfind : targets.find? (fun t => t.targetId = targetId) with
  | none =>
      obtain ⟨t, ht, hid⟩ := List.mem_map.mp hmem
      have := List.find?_eq_none.mp hfind t ht
      simp [hid] at this
  | some t => rfl

/-- Priorities tell the targets apart. -/
theorem priorityOf_inj {targetId other : String} (hmem : targetId ∈ targets.map (·.targetId))
    (heq : priorityOf targets targetId = priorityOf targets other) : targetId = other :=
  (List.idxOf_inj hmem).mp (Int.ofNat.inj heq)

theorem identityOf_eq (hnodup : (targets.map (·.targetId)).Nodup) {t : Target} (ht : t ∈ targets) :
    identityOf targets t.targetId = t.identity := by
  unfold identityOf
  cases hfind : targets.find? (fun other => other.targetId = t.targetId) with
  | none =>
      have := List.find?_eq_none.mp hfind t ht
      simp at this
  | some other =>
      have hid : other.targetId = t.targetId := by simpa using List.find?_some hfind
      obtain rfl := List.inj_on_of_nodup_map hnodup (List.mem_of_find?_eq_some hfind) ht hid
      rfl

/-- The objective of a pick. -/
def Pick.score (pick : Pick) (graph : LogicalGraph) (targets : List Target) : Score :=
  let total key := (graph.nodeNames.map fun name => fact key (pick name)).sum
  let stays (e : Edge) := (pick e.producerNode).targetId = (pick e.consumerNode).targetId
  toLex (
    [-total "proven_local_io_nodes", -total "proven_pushdown_actions",
      (graph.edges.map fun e => if stays e then 0 else 1).sum,
      (graph.edges.map fun e =>
        if stays e then 0 else fact "collection_units" (pick e.consumerNode)).sum,
      total "durable_materialization_units",
      -(graph.edges.map fun e =>
        if stays e then fusionFact (pick e.producerNode) (pick e.consumerNode) else 0).sum] ++
      graph.nodeNames.map fun name => priorityOf targets (pick name).targetId,
    graph.nodeNames.map fun name => identityOf targets (pick name).targetId)

theorem sum_filter_map {α : Type} (p : α → Bool) (f : α → Int) (xs : List α) :
    ((xs.filter p).map f).sum = (xs.map fun x => if p x then f x else 0).sum := by
  rw [List.sum_map_ite]
  simp

def Pick.ends (pick : Pick) (e : Edge) : EdgeEnds :=
  ⟨pick.decision e.producerNode, pick e.producerNode,
    pick.decision e.consumerNode, pick e.consumerNode⟩

theorem Pick.ends_crosses (pick : Pick) (e : Edge) :
    (pick.ends e).crosses =
      !decide ((pick e.producerNode).targetId = (pick e.consumerNode).targetId) := by
  show decide ((pick e.producerNode).targetId ≠ (pick e.consumerNode).targetId) = _
  exact decide_not

/-- `_objective` raises nothing on an assignment. -/
theorem WellFormed.objective_eq (h : WellFormed graph candidates targets)
    (hpick : pick.Eligible graph candidates) :
    objective graph (graph.nodeNames.map pick.decision) candidates (inventoryOf targets) =
      .ok (pick.score graph targets) := by
  have hcells : (graph.nodeNames.map pick.decision).mapM (fun d =>
      lookup (candidates.map fun c => (c.candidateId, c)) d.candidateId) =
        .ok (graph.nodeNames.map pick) := by
    rw [List.mapM_map]
    exact Checked.mapM_eq_map fun name hname => h.lookup_cell hpick hname
  have hends : graph.edges.mapM (fun e => do
      let producer ← lookup ((graph.nodeNames.map pick.decision).map fun d : AdaptiveDecision =>
        (d.nodeName, d)) e.producerNode
      let consumer ← lookup ((graph.nodeNames.map pick.decision).map fun d : AdaptiveDecision =>
        (d.nodeName, d)) e.consumerNode
      return (⟨producer,
        ← lookup (candidates.map fun c : CandidateRecord => (c.candidateId, c)) producer.candidateId,
        consumer,
        ← lookup (candidates.map fun c : CandidateRecord => (c.candidateId, c))
          consumer.candidateId⟩ : EdgeEnds)) = .ok (graph.edges.map pick.ends) := by
    refine Checked.mapM_eq_map fun e he => ?_
    obtain ⟨hproducer, hconsumer⟩ := h.edgeEnds e he
    simp only [lookup_decision pick hproducer, lookup_decision pick hconsumer, Checked.ok_bind]
    simp only [Pick.decision, h.lookup_cell hpick hproducer, h.lookup_cell hpick hconsumer,
      Checked.ok_bind]
    rfl
  have hpriorities : (graph.nodeNames.map pick.decision).mapM
      (fun d => targetPriority (inventoryOf targets) d.targetId) =
        .ok (graph.nodeNames.map fun name => priorityOf targets (pick name).targetId) := by
    rw [List.mapM_map]
    exact Checked.mapM_eq_map fun name hname => targetPriority_eq (h.known_pick hpick hname)
  have hidentities : (graph.nodeNames.map pick.decision).mapM
      (fun d => targetIdentity (inventoryOf targets) d.targetId) =
        .ok (graph.nodeNames.map fun name => identityOf targets (pick name).targetId) := by
    rw [List.mapM_map]
    exact Checked.mapM_eq_map fun name hname => targetIdentity_eq (h.known_pick hpick hname)
  unfold objective
  simp only [hcells, hends, hpriorities, hidentities, Checked.ok_bind]
  unfold Pick.score
  have hlength : ((((graph.edges.map pick.ends).filter fun e => e.crosses).length : Nat) : Int) =
      (((graph.edges.map pick.ends).filter fun e => e.crosses).map fun _ => 1).sum := by simp
  rw [hlength]
  simp only [sum_filter_map, List.map_map, Function.comp_def, Pick.ends_crosses]
  simp [Pick.ends]
  rfl

/-- Two assignments of one objective take the same candidates. -/
theorem WellFormed.score_inj (h : WellFormed graph candidates targets) {other : Pick}
    (hpick : pick.Eligible graph candidates) (hother : other.Eligible graph candidates)
    (heq : pick.score graph targets = other.score graph targets) :
    graph.nodeNames.map pick.decision = graph.nodeNames.map other.decision := by
  have hints := congrArg (fun score => (ofLex score).1) heq
  have hpriorities := (List.append_inj hints rfl).2
  refine List.map_congr_left fun name hname => ?_
  have htarget : (pick name).targetId = (other name).targetId :=
    priorityOf_inj (h.known_pick hpick hname) (List.map_inj_left.mp hpriorities name hname)
  obtain ⟨hmem, hnode, -⟩ := mem_eligibleOf.mp (hpick name hname)
  obtain ⟨hmem', hnode', -⟩ := mem_eligibleOf.mp (hother name hname)
  have hcell : pick name = other name :=
    h.cell _ hmem _ hmem' (hnode.trans hnode'.symm) htarget
  unfold Pick.decision
  rw [hcell]

/-- An assignment whose objective is least is the only one of that objective. -/
theorem WellFormed.optimal_of_least (h : WellFormed graph candidates targets)
    (hpick : pick.Eligible graph candidates)
    (hfeasible : Feasible graph candidates targets evidence (graph.nodeNames.map pick.decision))
    (hleast : ∀ other : Pick, other.Eligible graph candidates →
      Feasible graph candidates targets evidence (graph.nodeNames.map other.decision) →
        pick.score graph targets ≤ other.score graph targets) :
    Optimal graph candidates targets evidence (graph.nodeNames.map pick.decision) := by
  refine ⟨hfeasible, pick.score graph targets, h.objective_eq hpick, fun decisions hother hne => ?_⟩
  obtain ⟨other, helig, rfl⟩ := (assigns_iff h.nodesDistinct).mp hother.1
  refine ⟨other.score graph targets, h.objective_eq helig, lt_of_le_of_ne (hleast other helig hother) ?_⟩
  intro heq
  exact hne (h.score_inj hpick helig heq).symm

end Pick

/-- At most one assignment is optimal. -/
theorem Optimal.unique {decisions other : List AdaptiveDecision}
    (h : Optimal graph candidates targets evidence decisions)
    (hother : Optimal graph candidates targets evidence other) : decisions = other := by
  by_contra hne
  obtain ⟨score, hscore, hleast⟩ := h.least
  obtain ⟨score', hscore', hleast'⟩ := hother.least
  obtain ⟨_, hsame', hlt⟩ := hleast other hother.feasible (Ne.symm hne)
  obtain ⟨_, hsame, hlt'⟩ := hleast' decisions h.feasible hne
  obtain rfl := Except.ok.inj (hscore'.symm.trans hsame')
  obtain rfl := Except.ok.inj (hscore.symm.trans hsame)
  exact absurd hlt (not_lt.mpr hlt'.le)

end Etlantic.Planning
