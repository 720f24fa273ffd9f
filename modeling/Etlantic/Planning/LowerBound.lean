import Etlantic.Planning.Assignments
import Mathlib.Algebra.Order.BigOperators.Group.List

/-!
# The lower bound is admissible

The bound of a prefix relaxes each component of the objective on its own: the
nodes without a candidate offer all of theirs.  Every completion of the prefix
picks from what is offered, so each component of its objective is at least
that of the bound.
-/

namespace Etlantic.Planning

open BranchAndBound (exists_pick le_of_forall₂)

/-! ## Extrema -/

section Extrema

variable {β : Type}

/-- What `pick` bounds on both sides, a fold of it bounds everywhere. -/
theorem exists_extremum {pick : β → β → β} {R : β → β → Prop} (hrefl : ∀ x, R x x)
    (htrans : ∀ x y z, R x y → R y z → R x z) (hleft : ∀ x y, R x (pick x y))
    (hright : ∀ x y, R y (pick x y)) {xs : List β} (hne : xs ≠ []) :
    ∃ m, extremum pick xs = .ok m ∧ ∀ x ∈ xs, R x m := by
  have hfold : ∀ (rest : List β) (first : β),
      R first (rest.foldl pick first) ∧ ∀ x ∈ rest, R x (rest.foldl pick first) := by
    intro rest
    induction rest with
    | nil => exact fun first => ⟨hrefl first, fun _ hmem => nomatch hmem⟩
    | cons y rest ih =>
        intro first
        obtain ⟨hhead, hrest⟩ := ih (pick first y)
        rw [List.foldl_cons]
        exact ⟨htrans _ _ _ (hleft first y) hhead,
          List.forall_mem_cons.mpr ⟨htrans _ _ _ (hright first y) hhead, hrest⟩⟩
  cases xs with
  | nil => exact absurd rfl hne
  | cons first rest =>
      obtain ⟨hhead, hrest⟩ := hfold rest first
      exact ⟨_, rfl, List.forall_mem_cons.mpr ⟨hhead, hrest⟩⟩

variable [LinearOrder β] {xs : List β}

theorem exists_maximum (hne : xs ≠ []) : ∃ m, extremum max xs = .ok m ∧ ∀ x ∈ xs, x ≤ m :=
  exists_extremum le_refl (fun _ _ _ => le_trans) le_max_left le_max_right hne

theorem exists_minimum (hne : xs ≠ []) : ∃ m, extremum min xs = .ok m ∧ ∀ x ∈ xs, m ≤ x :=
  exists_extremum (R := fun x m => m ≤ x) le_refl (fun _ _ _ hxy hyz => hyz.trans hxy)
    min_le_left min_le_right hne

end Extrema

/-- A bound for an edge holds for every pair of candidates that its ends offer. -/
theorem exists_edgeBound {producers consumers : List CandidateRecord}
    (hfacts : ∀ p ∈ producers, ∀ q ∈ consumers, 0 ≤ fusionFact p q) :
    ∃ bound, edgeBound producers consumers = .ok bound ∧ ∀ p ∈ producers, ∀ q ∈ consumers,
      bound.1 ≤ (if p.targetId = q.targetId then 0 else 1) ∧
        (if p.targetId = q.targetId then fusionFact p q else 0) ≤ bound.2 := by
  have hmem : ∀ p q, (p, q) ∈ sameTargetPairs producers consumers ↔
      p ∈ producers ∧ q ∈ consumers ∧ p.targetId = q.targetId := by
    intro p q
    simp [sameTargetPairs]
  unfold edgeBound
  cases hpairs : sameTargetPairs producers consumers with
  | nil =>
      refine ⟨(1, 0), rfl, fun p hp q hq => ?_⟩
      have hne : p.targetId ≠ q.targetId := by
        intro heq
        have := (hmem p q).mpr ⟨hp, hq, heq⟩
        rw [hpairs] at this
        cases this
      simp [hne]
  | cons pair rest =>
      rw [hpairs] at hmem
      have hne : (pair :: rest).map (fun pair => fusionFact pair.1 pair.2) ≠ [] :=
        List.cons_ne_nil _ _
      obtain ⟨fusible, hfusible, hle⟩ := exists_maximum hne
      have hpair : ∀ p q, (p, q) ∈ pair :: rest → fusionFact p q ≤ fusible :=
        fun p q h => hle _ (List.mem_map.mpr ⟨(p, q), h, rfl⟩)
      -- a pair on one target exists, and its fusion fact is not negative
      have hnonneg : 0 ≤ fusible := by
        obtain ⟨hp, hq, -⟩ := (hmem pair.1 pair.2).mp List.mem_cons_self
        exact (hfacts _ hp _ hq).trans (hpair _ _ List.mem_cons_self)
      refine ⟨(0, fusible), ?_, fun p hp q hq => ?_⟩
      · show (do let f ← extremum max _; return (0, f) : Except PlanningError (Int × Int)) = _
        rw [hfusible]
        rfl
      · by_cases heq : p.targetId = q.targetId
        · simpa [heq] using hpair p q ((hmem p q).mpr ⟨hp, hq, heq⟩)
        · simpa [heq] using hnonneg

/-! ## The context -/

/-- A context over a well-formed matrix. -/
structure SolverContext.Frozen (c : SolverContext) : Prop where
  wellFormed : WellFormed c.graph c.candidates c.targets
  inventory_eq : c.inventory = inventoryOf c.targets

theorem SolverContext.Frozen.fact_nonneg {c : SolverContext} (hc : c.Frozen) {name : String}
    {o : CandidateRecord} (hmem : o ∈ eligibleOf c.candidates name) (key : String) :
    0 ≤ fact key o := by
  unfold fact
  cases hget : o.objectiveFacts.get? key with
  | none => exact le_refl _
  | some value => exact hc.wellFormed.facts o (mem_eligibleOf.mp hmem).1 key value hget

/-- The context of `_solve`, whose levels are the eligible candidates of each node. -/
structure SolverContext.Prepared (c : SolverContext) (level : String → List CandidateRecord) :
    Prop extends c.Frozen where
  priority_eq : c.priority = (c.targets.map (·.targetId)).zipIdx
  lookup_level : ∀ name ∈ c.graph.nodeNames, lookup c.byNode name = .ok (level name)
  mem_level : ∀ name o, o ∈ level name ↔ o ∈ eligibleOf c.candidates name

/-- The candidates that a prefix leaves to choose from, for each node. -/
structure SolverContext.Offers (c : SolverContext) (chosen : List CandidateRecord)
    (offer : String → List CandidateRecord) : Prop where
  options : ∀ name ∈ c.graph.nodeNames, c.options chosen name = .ok (offer name)
  nonempty : ∀ name ∈ c.graph.nodeNames, offer name ≠ []
  eligible : ∀ name ∈ c.graph.nodeNames, ∀ o ∈ offer name, o ∈ eligibleOf c.candidates name
  completion : ∀ (pick : Pick) (tail : List CandidateRecord), pick.Eligible c.graph c.candidates →
    c.graph.nodeNames.map pick = chosen ++ tail → ∀ name ∈ c.graph.nodeNames, pick name ∈ offer name

section Prefix

variable {c : SolverContext} {level offer : String → List CandidateRecord}
  {chosen : List CandidateRecord}

theorem SolverContext.Prepared.exists_offers (hc : c.Prepared level) {closed opened : List String}
    (hnames : c.graph.nodeNames = closed ++ opened)
    (hchosen : List.Forall₂ (fun name x => x ∈ level name) closed chosen) :
    ∃ offer, c.Offers chosen offer := by
  have hnodup : closed.Nodup := by
    have := hc.wellFormed.nodesDistinct
    rw [hnames] at this
    exact this.of_append_left
  obtain ⟨fixed, rfl, hfixed⟩ := exists_pick hnodup hchosen
  have hzip : c.graph.nodeNames.zip (closed.map fixed) = closed.map fun name => (name, fixed name) := by
    rw [hnames, ← List.append_nil (closed.map fixed), List.zip_append (by simp), List.zip_nil_right,
      List.append_nil, List.map_prod_left_eq_zip]
  refine ⟨fun name => if name ∈ closed then [fixed name] else level name,
    fun name hname => ?_, fun name hname => ?_, fun name hname o ho => ?_,
    fun pick tail hpick htail name hname => ?_⟩
  · unfold SolverContext.options
    rw [hzip]
    by_cases hmem : name ∈ closed
    · have hlookup := lookup_map (fun n : String => n) fixed hmem
        fun y _ hy => congrArg fixed hy
      rw [hlookup, if_pos hmem]
    · have hlookup : lookup (closed.map fun name => (name, fixed name)) name = .error .keyError := by
        refine lookup_eq_error fun value hvalue => hmem ?_
        obtain ⟨other, hother, hpair⟩ := List.mem_map.mp hvalue
        obtain ⟨rfl, -⟩ := Prod.mk.inj hpair
        exact hother
      rw [hlookup, if_neg hmem]
      exact hc.lookup_level name hname
  · by_cases hmem : name ∈ closed
    · simp [hmem]
    · rw [if_neg hmem]
      obtain ⟨o, ho⟩ := List.exists_mem_of_ne_nil _ (hc.wellFormed.eligible name hname)
      exact List.ne_nil_of_mem ((hc.mem_level name o).mpr ho)
  · rw [← hc.mem_level]
    by_cases hmem : name ∈ closed
    · rw [if_pos hmem] at ho
      rw [List.mem_singleton.mp ho]
      exact hfixed name hmem
    · rwa [if_neg hmem] at ho
  · by_cases hmem : name ∈ closed
    · rw [hnames, List.map_append] at htail
      have hclosed := (List.append_inj htail (by simp)).1
      rw [if_pos hmem, List.mem_singleton]
      exact List.map_inj_left.mp hclosed name hmem
    · rw [if_neg hmem, hc.mem_level]
      exact hpick name hname

/-! ## Components -/

/-- A component that bounds each node's candidates bounds those of a pick. -/
theorem SolverContext.Offers.exists_bounds {β : Type}
    {f : List CandidateRecord → Except PlanningError β} {g : CandidateRecord → β} {R : β → β → Prop}
    (hf : ∀ name ∈ c.graph.nodeNames, ∃ m, f (offer name) = .ok m ∧ ∀ o ∈ offer name, R m (g o)) :
    ∃ bounds, (c.graph.nodeNames.map offer).mapM f = .ok bounds ∧
      ∀ pick : Pick, (∀ name ∈ c.graph.nodeNames, pick name ∈ offer name) →
        List.Forall₂ R bounds (c.graph.nodeNames.map fun name => g (pick name)) := by
  obtain ⟨bounds, hbounds, hrel⟩ := Checked.exists_mapM
    (f := fun name => f (offer name))
    (R := fun name m => name ∈ c.graph.nodeNames ∧ ∀ o ∈ offer name, R m (g o))
    fun name hname => (hf name hname).imp fun m h => ⟨h.1, hname, h.2⟩
  refine ⟨bounds, by rw [List.mapM_map]; exact hbounds, fun pick hpick => ?_⟩
  rw [List.forall₂_map_right_iff]
  exact hrel.flip.imp fun m name h => h.2 (pick name) (hpick name h.1)

theorem SolverContext.Offers.exists_maxima (ho : c.Offers chosen offer) (key : String) :
    ∃ maxima, (c.graph.nodeNames.map offer).mapM (fun cs => extremum max (cs.map (fact key))) =
      .ok maxima ∧ ∀ pick : Pick, (∀ name ∈ c.graph.nodeNames, pick name ∈ offer name) →
        (c.graph.nodeNames.map fun name => fact key (pick name)).sum ≤ maxima.sum := by
  obtain ⟨maxima, hmaxima, hrel⟩ := Offers.exists_bounds (c := c) (g := fact key)
    (f := fun cs => extremum max (cs.map (fact key))) (R := fun m x => x ≤ m)
    fun name hname => by
      obtain ⟨m, hm, hle⟩ := exists_maximum
        (fun h => ho.nonempty name hname (List.map_eq_nil_iff.mp h) :
          (offer name).map (fact key) ≠ [])
      exact ⟨m, hm, fun o hmem => hle _ (List.mem_map_of_mem hmem)⟩
  exact ⟨maxima, hmaxima, fun pick hpick => (hrel pick hpick).flip.sum_le_sum⟩

theorem SolverContext.Offers.exists_minima (ho : c.Offers chosen offer) (key : String) :
    ∃ minima, (c.graph.nodeNames.map offer).mapM (fun cs => extremum min (cs.map (fact key))) =
      .ok minima ∧ ∀ pick : Pick, (∀ name ∈ c.graph.nodeNames, pick name ∈ offer name) →
        minima.sum ≤ (c.graph.nodeNames.map fun name => fact key (pick name)).sum := by
  obtain ⟨minima, hminima, hrel⟩ := Offers.exists_bounds (c := c) (g := fact key)
    (f := fun cs => extremum min (cs.map (fact key))) (R := fun m x => m ≤ x)
    fun name hname => by
      obtain ⟨m, hm, hle⟩ := exists_minimum
        (fun h => ho.nonempty name hname (List.map_eq_nil_iff.mp h) :
          (offer name).map (fact key) ≠ [])
      exact ⟨m, hm, fun o hmem => hle _ (List.mem_map_of_mem hmem)⟩
  exact ⟨minima, hminima, fun pick hpick => (hrel pick hpick).sum_le_sum⟩

/-- What a target is looked up to, over the candidates that a node offers. -/
theorem SolverContext.Offers.exists_least {α β : Type} [LinearOrder β] (ho : c.Offers chosen offer)
    (read : α → β) {pairs : List (String × α)} {value : String → α} (hc : c.Frozen)
    (hpairs : ∀ id ∈ c.targets.map (·.targetId), lookup pairs id = .ok (value id)) :
    ∃ least, (c.graph.nodeNames.map offer).mapM (fun cs : List CandidateRecord => do
        extremum min
          ((← cs.mapM fun o : CandidateRecord => lookup pairs o.targetId).map read)) = .ok least ∧
      ∀ pick : Pick, (∀ name ∈ c.graph.nodeNames, pick name ∈ offer name) →
        List.Forall₂ (· ≤ ·) least (c.graph.nodeNames.map fun name => read (value (pick name).targetId)) := by
  refine Offers.exists_bounds (g := fun o : CandidateRecord => read (value o.targetId))
    fun name hname => ?_
  have hvalues : (offer name).mapM (fun o => lookup pairs o.targetId) =
      .ok ((offer name).map fun o => value o.targetId) :=
    Checked.mapM_eq_map fun o hmem => hpairs _
      (hc.wellFormed.known o (mem_eligibleOf.mp (ho.eligible name hname o hmem)).1)
  rw [hvalues, Checked.ok_bind, List.map_map]
  obtain ⟨m, hm, hle⟩ := exists_minimum
    (fun h => ho.nonempty name hname (List.map_eq_nil_iff.mp h) :
      (offer name).map (read ∘ fun o => value o.targetId) ≠ [])
  exact ⟨m, hm, fun o hmem => hle _ (List.mem_map.mpr ⟨o, hmem, rfl⟩)⟩

theorem lookup_priority {ids : List String} (hnodup : ids.Nodup) {targetId : String}
    (hmem : targetId ∈ ids) : lookup ids.zipIdx targetId = .ok (ids.idxOf targetId) := by
  have hlt := List.idxOf_lt_length_of_mem hmem
  refine lookup_eq_of_mem ?_ fun other hother => ?_
  · rw [List.mk_mem_zipIdx_iff_getElem?, List.getElem?_eq_getElem hlt, List.getElem_idxOf hlt]
  · obtain ⟨hbound, rfl⟩ := List.getElem?_eq_some_iff.mp (List.mk_mem_zipIdx_iff_getElem?.mp hother)
    exact (hnodup.idxOf_getElem other hbound).symm

theorem lookup_identity (hnodup : (c.targets.map (·.targetId)).Nodup) {targetId : String}
    (hmem : targetId ∈ c.targets.map (·.targetId)) :
    lookup (c.targets.map fun t => (t.targetId, t.identity)) targetId =
      .ok (identityOf c.targets targetId) := by
  obtain ⟨t, ht, rfl⟩ := List.mem_map.mp hmem
  rw [identityOf_eq hnodup ht]
  refine lookup_map (fun t : Target => t.targetId) (fun t => t.identity) ht fun other hother hid => ?_
  rw [List.inj_on_of_nodup_map hnodup hother ht hid]

/-- The bounds of the edges, summed up, bound what the edges of a pick count. -/
theorem SolverContext.Offers.exists_edges (hc : c.Frozen) (ho : c.Offers chosen offer) :
    ∃ edges, c.graph.edges.mapM (fun e => do
        edgeBound (← c.options chosen e.producerNode) (← c.options chosen e.consumerNode)) =
          .ok edges ∧
      ∀ pick : Pick, (∀ name ∈ c.graph.nodeNames, pick name ∈ offer name) →
        (edges.map (·.1)).sum ≤ (c.graph.edges.map fun e =>
          if (pick e.producerNode).targetId = (pick e.consumerNode).targetId then 0 else 1).sum ∧
        (c.graph.edges.map fun e =>
          if (pick e.producerNode).targetId = (pick e.consumerNode).targetId then
            fusionFact (pick e.producerNode) (pick e.consumerNode) else 0).sum ≤
          (edges.map (·.2)).sum := by
  have hfacts : ∀ name ∈ c.graph.nodeNames, ∀ o ∈ offer name,
      0 ≤ fact "safely_fusible_logical_edges" o :=
    fun name hname o hmem => hc.fact_nonneg (ho.eligible name hname o hmem) _
  obtain ⟨edges, hedges, hrel⟩ := Checked.exists_mapM
    (f := fun e : Edge => do
      edgeBound (← c.options chosen e.producerNode) (← c.options chosen e.consumerNode))
    (R := fun e bound => ∀ pick : Pick, (∀ name ∈ c.graph.nodeNames, pick name ∈ offer name) →
      bound.1 ≤ (if (pick e.producerNode).targetId = (pick e.consumerNode).targetId then 0 else 1) ∧
      (if (pick e.producerNode).targetId = (pick e.consumerNode).targetId then
        fusionFact (pick e.producerNode) (pick e.consumerNode) else 0) ≤ bound.2)
    fun e (he : e ∈ c.graph.edges) => by
      obtain ⟨hproducer, hconsumer⟩ := hc.wellFormed.edgeEnds e he
      obtain ⟨bound, hbound, hle⟩ := exists_edgeBound fun p hp q hq =>
        le_min (hfacts _ hproducer p hp) (hfacts _ hconsumer q hq)
      refine ⟨bound, ?_, fun pick hpick => hle _ (hpick _ hproducer) _ (hpick _ hconsumer)⟩
      rw [ho.options _ hproducer, ho.options _ hconsumer]
      exact hbound
  refine ⟨edges, hedges, fun pick hpick => ⟨?_, ?_⟩⟩
  · refine List.Forall₂.sum_le_sum (List.forall₂_map_left_iff.mpr (List.forall₂_map_right_iff.mpr ?_))
    exact hrel.flip.imp fun bound e h => (h pick hpick).1
  · refine List.Forall₂.sum_le_sum (List.forall₂_map_left_iff.mpr (List.forall₂_map_right_iff.mpr ?_))
    exact hrel.imp fun e bound h => (h pick hpick).2

/-! ## The bound -/

/-- `lower_bound` raises nothing, and it is below the objective of every completion. -/
theorem SolverContext.Prepared.exists_lowerBound (hc : c.Prepared level)
    (ho : c.Offers chosen offer) :
    ∃ bound, c.lowerBound chosen = .ok bound ∧ ∀ (pick : Pick) (tail : List CandidateRecord),
      pick.Eligible c.graph c.candidates → c.graph.nodeNames.map pick = chosen ++ tail →
        bound ≤ pick.score c.graph c.targets := by
  have hoptions : c.graph.nodeNames.mapM (c.options chosen) = .ok (c.graph.nodeNames.map offer) :=
    Checked.mapM_eq_map ho.options
  obtain ⟨localIo, hlocalIo, hlocalIoLe⟩ := ho.exists_maxima "proven_local_io_nodes"
  obtain ⟨pushdown, hpushdown, hpushdownLe⟩ := ho.exists_maxima "proven_pushdown_actions"
  obtain ⟨durable, hdurable, hdurableLe⟩ := ho.exists_minima "durable_materialization_units"
  obtain ⟨edges, hedges, hedgesLe⟩ := ho.exists_edges hc.toFrozen
  have hpriority : ∀ id ∈ c.targets.map (·.targetId),
      lookup c.priority id = .ok ((c.targets.map (·.targetId)).idxOf id) := by
    intro id hid
    rw [hc.priority_eq]
    exact lookup_priority hc.wellFormed.targetsDistinct hid
  obtain ⟨priorities, hpriorities, hprioritiesLe⟩ :=
    ho.exists_least (fun n : Nat => (n : Int)) hc.toFrozen hpriority
  obtain ⟨identities, hidentities, hidentitiesLe⟩ :=
    ho.exists_least (fun text : String => text) hc.toFrozen
      fun id hid => lookup_identity hc.wellFormed.targetsDistinct hid
  simp only [List.map_id'] at hidentities
  have htargets : c.inventory.targets = c.targets := by
    rw [hc.inventory_eq]
    rfl
  refine ⟨toLex ([-localIo.sum, -pushdown.sum, (edges.map (·.1)).sum, 0, durable.sum,
    -(edges.map (·.2)).sum] ++ priorities, identities), ?_, fun pick tail hpick htail => ?_⟩
  · unfold SolverContext.lowerBound
    simp only [hoptions, Checked.ok_bind, hlocalIo, hpushdown, hdurable, hedges, hpriorities,
      htargets, hidentities]
    rfl
  · have hoffer := ho.completion pick tail hpick htail
    have hcollection : 0 ≤ (c.graph.edges.map fun e =>
        if (pick e.producerNode).targetId = (pick e.consumerNode).targetId then 0
        else fact "collection_units" (pick e.consumerNode)).sum := by
      refine List.sum_nonneg fun x hx => ?_
      obtain ⟨e, he, rfl⟩ := List.mem_map.mp hx
      split
      · exact le_refl _
      · exact hc.fact_nonneg (hpick _ (hc.wellFormed.edgeEnds e he).2) _
    refine Prod.Lex.toLex_mono (Prod.mk_le_mk.mpr ⟨le_of_forall₂ ?_, le_of_forall₂ ?_⟩)
    · refine List.rel_append ?_ (hprioritiesLe pick hoffer)
      refine .cons (neg_le_neg (hlocalIoLe pick hoffer)) ?_
      refine .cons (neg_le_neg (hpushdownLe pick hoffer)) ?_
      refine .cons (hedgesLe pick hoffer).1 ?_
      refine .cons hcollection ?_
      refine .cons (hdurableLe pick hoffer) ?_
      exact .cons (neg_le_neg (hedgesLe pick hoffer).2) .nil
    · exact hidentitiesLe pick hoffer

end Prefix

end Etlantic.Planning
