import Etlantic.Planning.LowerBound

/-!
# The solver finds the optimal assignment

Within its limits, `_solve` returns the feasible assignment whose objective is
below that of every other one, and it reports that there is none only then.
The oracle, which tries every assignment, finds the same one.
-/

namespace Etlantic.Planning

open BranchAndBound (Search Everywhere completions mem_completions everywhere_of exists_pick)

variable {graph : LogicalGraph} {candidates : List CandidateRecord} {targets : List Target}
  {evidence : HandoffEvidence} {c : SolverContext} {level : String → List CandidateRecord}
  {pick : Pick}

/-- The expansion limit or the byte limit was reached. -/
def PlanningError.IsLimit (error : PlanningError) : Prop :=
  error = expansionLimitError ∨ ∃ category, error = budgetError category

theorem not_isLimit_oracleError : ¬ oracleError.IsLimit := by
  rintro (h | ⟨category, h⟩)
  · simp [oracleError, expansionLimitError] at h
  · simp [oracleError, budgetError] at h

theorem reserve_error {limit live size : Nat} {category : String} {error : PlanningError}
    (h : reserve limit live size category = .error error) : error.IsLimit := by
  unfold reserve at h
  split at h
  · exact .inr ⟨category, (Except.error.inj h).symm⟩
  · cases h

theorem reserveIncumbent_error {limit : Nat} {category : String} {chosen : List CandidateRecord}
    {score : Score} {st : SearchState} {error : PlanningError}
    (h : reserveIncumbent limit category chosen score st = .error error) : error.IsLimit := by
  simp only [reserveIncumbent] at h
  cases hreserve : reserve limit st.live
      (canonicalSize (searchPayload chosen (scoreItems score) (scoreItems score)) + 128) category with
  | error raised =>
      rw [hreserve] at h
      obtain rfl := Except.error.inj h
      exact reserve_error hreserve
  | ok live =>
      rw [hreserve] at h
      cases h

/-! ## The score of a choice -/

/-- The score that a complete choice counts with. -/
def SolverContext.scored (c : SolverContext) (chosen : List CandidateRecord) : Option Score :=
  match c.value chosen with
  | .ok score => score
  | .error _ => none

/-- A choice is a pick: it has a score if it is feasible, and scoring it raises nothing. -/
theorem SolverContext.Frozen.value_spec (hc : c.Frozen) (hpick : pick.Eligible c.graph c.candidates) :
    c.value (c.graph.nodeNames.map pick) = .ok (c.scored (c.graph.nodeNames.map pick)) ∧
      ∀ key, c.scored (c.graph.nodeNames.map pick) = some key ↔
        Feasible c.graph c.candidates c.targets c.evidence (c.graph.nodeNames.map pick.decision) ∧
          key = pick.score c.graph c.targets := by
  have hassigns : Assigns c.graph c.candidates (c.graph.nodeNames.map pick.decision) :=
    (assigns_iff hc.wellFormed.nodesDistinct).mpr ⟨pick, hpick, rfl⟩
  obtain ⟨refs, hrefs⟩ := hc.wellFormed.assignmentHandoffs_total hpick c.evidence
  cases refs with
  | none =>
      have hvalue : c.value (c.graph.nodeNames.map pick) = .ok none := by
        simp only [SolverContext.value]
        rw [decisionsOf_map, hrefs]
        rfl
      have hscored : c.scored (c.graph.nodeNames.map pick) = none := by
        unfold SolverContext.scored
        rw [hvalue]
      refine ⟨hvalue.trans (congrArg Except.ok hscored.symm), fun key => ?_⟩
      rw [hscored]
      constructor
      · exact fun h => nomatch h
      · rintro ⟨⟨-, found, hfound⟩, -⟩
        cases hrefs.symm.trans hfound
  | some refs =>
      have hvalue : c.value (c.graph.nodeNames.map pick) =
          .ok (some (pick.score c.graph c.targets)) := by
        simp only [SolverContext.value]
        rw [decisionsOf_map, hrefs, hc.inventory_eq]
        show (do let score ← objective _ _ _ _; return some score : Except PlanningError _) = _
        rw [hc.wellFormed.objective_eq hpick]
        rfl
      have hscored : c.scored (c.graph.nodeNames.map pick) =
          some (pick.score c.graph c.targets) := by
        unfold SolverContext.scored
        rw [hvalue]
      refine ⟨hvalue.trans (congrArg Except.ok hscored.symm), fun key => ?_⟩
      rw [hscored]
      constructor
      · exact fun h => ⟨⟨hassigns, refs, hrefs⟩, (Option.some.inj h).symm⟩
      · rintro ⟨-, rfl⟩
        rfl

/-- The complete choices are the picks of eligible candidates. -/
theorem mem_choices (hnodes : graph.nodeNames.Nodup)
    (hlevel : ∀ name o, o ∈ level name ↔ o ∈ eligibleOf candidates name)
    {choice : List CandidateRecord} : choice ∈ completions (graph.nodeNames.map level) ↔
      ∃ pick : Pick, pick.Eligible graph candidates ∧ choice = graph.nodeNames.map pick := by
  rw [mem_completions, List.forall₂_map_left_iff]
  constructor
  · intro h
    obtain ⟨pick, rfl, hpick⟩ := exists_pick hnodes h
    exact ⟨pick, fun name hname => (hlevel name _).mp (hpick name hname), rfl⟩
  · rintro ⟨pick, hpick, rfl⟩
    rw [List.forall₂_map_right_iff]
    exact List.forall₂_same.mpr fun name hname => (hlevel name _).mpr (hpick name hname)

/-! ## The search of `_solve` -/

section Search

theorem SolverContext.Prepared.enter_ok (hc : c.Prepared level) {offer : String → List CandidateRecord}
    {chosen : List CandidateRecord} (ho : c.Offers chosen offer) {limit : Nat} {st st' : SearchState}
    {bound : Option Score} {receipt : Nat}
    (h : (c.search limit).enter chosen st = .ok (bound, receipt, st')) :
    ∃ key, bound = some key ∧ c.lowerBound chosen = .ok key := by
  obtain ⟨key, hkey, -⟩ := hc.exists_lowerBound ho
  simp only [SolverContext.search] at h
  split at h
  · cases h
  · rw [hkey, Checked.ok_bind] at h
    obtain ⟨live, -, hresult⟩ := Checked.bind_eq_ok.mp h
    obtain ⟨rfl, -⟩ := Prod.mk.inj (Except.ok.inj hresult)
    exact ⟨key, rfl, hkey⟩

theorem SolverContext.Prepared.enter_error (hc : c.Prepared level)
    {offer : String → List CandidateRecord} {chosen : List CandidateRecord}
    (ho : c.Offers chosen offer) {limit : Nat} {st : SearchState} {error : PlanningError}
    (h : (c.search limit).enter chosen st = .error error) : error.IsLimit := by
  obtain ⟨key, hkey, -⟩ := hc.exists_lowerBound ho
  simp only [SolverContext.search] at h
  split at h
  · exact .inl (Except.error.inj h).symm
  · rw [hkey, Checked.ok_bind] at h
    cases hreserve : reserve limit st.live (canonicalSize (searchPayload chosen
        ((scoreItems key).take 6) (scoreItems key)) + 128) "solver-frontier" with
    | error raised =>
        rw [hreserve] at h
        obtain rfl := Except.error.inj h
        exact reserve_error hreserve
    | ok live =>
        rw [hreserve] at h
        cases h

/-- A node of the search: the names that its prefix closes and those still open. -/
theorem exists_names {before levels : List (List CandidateRecord)}
    (hall : before ++ levels = graph.nodeNames.map level) :
    ∃ closed opened, graph.nodeNames = closed ++ opened ∧ closed.map level = before ∧
      opened.map level = levels :=
  List.map_eq_append_iff.mp hall.symm

theorem SolverContext.Prepared.search_admissible (hc : c.Prepared level) (limit : Nat) :
    Everywhere ((c.search limit).Admissible c.scored) (c.graph.nodeNames.map level) [] := by
  refine everywhere_of fun before levels chosen hall hchosen => ?_
  obtain ⟨closed, opened, hnames, rfl, rfl⟩ := exists_names hall
  have hprefixed : List.Forall₂ (fun name x => x ∈ level name) closed chosen :=
    List.forall₂_map_left_iff.mp (mem_completions.mp hchosen)
  obtain ⟨offer, ho⟩ := hc.exists_offers hnames hprefixed
  constructor
  · intro st bound receipt st' henter tail htail key hkey
    obtain ⟨least, hleast, hbound⟩ := hc.exists_lowerBound ho
    obtain ⟨_, hsame, hlower⟩ := hc.enter_ok ho henter
    obtain rfl := Option.some.inj hsame
    obtain rfl := Except.ok.inj (hlower.symm.trans hleast)
    have hcompletion : chosen ++ tail ∈ completions (c.graph.nodeNames.map level) := by
      rw [mem_completions, hnames, List.map_append]
      exact List.rel_append (mem_completions.mp hchosen) (mem_completions.mp htail)
    obtain ⟨pick, hpick, heq⟩ := (mem_choices hc.wellFormed.nodesDistinct hc.mem_level).mp hcompletion
    rw [heq, (hc.value_spec hpick).2] at hkey
    obtain ⟨-, rfl⟩ := hkey
    exact hbound pick tail hpick heq.symm
  · intro hdone
    have hopened : opened = [] := List.map_eq_nil_iff.mp hdone
    rw [hopened, List.append_nil] at hnames
    rw [← hnames] at hchosen
    obtain ⟨pick, hpick, rfl⟩ := (mem_choices hc.wellFormed.nodesDistinct hc.mem_level).mp hchosen
    exact (hc.value_spec hpick).1

theorem SolverContext.Prepared.search_raises (hc : c.Prepared level) (limit : Nat) :
    Everywhere ((c.search limit).Raises PlanningError.IsLimit) (c.graph.nodeNames.map level) [] := by
  refine everywhere_of fun before levels chosen hall hchosen => ?_
  obtain ⟨closed, opened, hnames, rfl, rfl⟩ := exists_names hall
  have hprefixed : List.Forall₂ (fun name x => x ∈ level name) closed chosen :=
    List.forall₂_map_left_iff.mp (mem_completions.mp hchosen)
  obtain ⟨offer, ho⟩ := hc.exists_offers hnames hprefixed
  constructor
  · exact fun st error henter => hc.enter_error ho henter
  · intro hdone error hvalue
    have hopened : opened = [] := List.map_eq_nil_iff.mp hdone
    rw [hopened, List.append_nil] at hnames
    rw [← hnames] at hchosen
    obtain ⟨pick, hpick, rfl⟩ := (mem_choices hc.wellFormed.nodesDistinct hc.mem_level).mp hchosen
    cases (hc.value_spec hpick).1.symm.trans hvalue

end Search

/-- A best choice of an exhaustive search is the optimal assignment. -/
theorem SolverContext.Frozen.optimal (hc : c.Frozen)
    (hlevel : ∀ name o, o ∈ level name ↔ o ∈ eligibleOf c.candidates name)
    {choice : List CandidateRecord} {key : Score}
    (hmem : choice ∈ completions (c.graph.nodeNames.map level)) (hkey : c.scored choice = some key)
    (hleast : ∀ other ∈ completions (c.graph.nodeNames.map level), ∀ key',
      c.scored other = some key' → key ≤ key') :
    ∃ pick : Pick, pick.Eligible c.graph c.candidates ∧ choice = c.graph.nodeNames.map pick ∧
      key = pick.score c.graph c.targets ∧
      Optimal c.graph c.candidates c.targets c.evidence (c.graph.nodeNames.map pick.decision) := by
  have hchoices : ∀ {choice}, choice ∈ completions (c.graph.nodeNames.map level) ↔
      ∃ pick : Pick, pick.Eligible c.graph c.candidates ∧ choice = c.graph.nodeNames.map pick :=
    mem_choices hc.wellFormed.nodesDistinct hlevel
  obtain ⟨pick, hpick, rfl⟩ := hchoices.mp hmem
  obtain ⟨hfeasible, rfl⟩ := ((hc.value_spec hpick).2 key).mp hkey
  refine ⟨pick, hpick, rfl, rfl, hc.wellFormed.optimal_of_least hpick hfeasible ?_⟩
  intro other hother hotherFeasible
  exact hleast _ (hchoices.mpr ⟨other, hother, rfl⟩) _
    (((hc.value_spec hother).2 _).mpr ⟨hotherFeasible, rfl⟩)

/-- A search that finds nothing has no feasible assignment. -/
theorem SolverContext.Frozen.not_feasible (hc : c.Frozen)
    (hlevel : ∀ name o, o ∈ level name ↔ o ∈ eligibleOf c.candidates name)
    (hnone : ∀ choice ∈ completions (c.graph.nodeNames.map level), c.scored choice = none)
    (decisions : List AdaptiveDecision) :
    ¬ Feasible c.graph c.candidates c.targets c.evidence decisions := by
  intro hfeasible
  obtain ⟨pick, hpick, rfl⟩ := (assigns_iff hc.wellFormed.nodesDistinct).mp hfeasible.1
  have hscored := ((hc.value_spec hpick).2 _).mpr ⟨hfeasible, rfl⟩
  rw [hnone _ ((mem_choices hc.wellFormed.nodesDistinct hlevel).mpr ⟨pick, hpick, rfl⟩)] at hscored
  cases hscored

/-! ## The solver -/

/-- The sorted level of a node has the eligible candidates of the node. -/
theorem WellFormed.exists_sortedEligible (h : WellFormed graph candidates targets) (name : String) :
    ∃ cs, sortedEligible (targets.map (·.targetId)).zipIdx candidates name = .ok cs ∧
      ∀ o, o ∈ cs ↔ o ∈ eligibleOf candidates name := by
  let key (o : CandidateRecord) : ℕ ×ₗ String ×ₗ String :=
    toLex ((targets.map (·.targetId)).idxOf o.targetId, toLex (o.targetId, o.candidateId))
  have hkeyed : (eligibleOf candidates name).mapM (fun o => do
      let index ← lookup (targets.map fun t : Target => t.targetId).zipIdx o.targetId
      return ((toLex (index, toLex (o.targetId, o.candidateId)) : ℕ ×ₗ String ×ₗ String), o)) =
        .ok ((eligibleOf candidates name).map fun o => (key o, o)) := by
    refine Checked.mapM_eq_map fun o hmem => ?_
    rw [lookup_priority h.targetsDistinct (h.known o (mem_eligibleOf.mp hmem).1)]
    rfl
  refine ⟨(((eligibleOf candidates name).map fun o => (key o, o)).insertionSort
    fun a b => a.1 ≤ b.1).map (·.2), ?_, fun o => ?_⟩
  · unfold sortedEligible
    rw [hkeyed]
    rfl
  · rw [List.mem_map]
    simp only [(List.perm_insertionSort _ _).mem_iff, List.mem_map]
    constructor
    · rintro ⟨_, ⟨other, hother, rfl⟩, rfl⟩
      exact hother
    · exact fun ho => ⟨_, ⟨o, ho, rfl⟩, rfl⟩

theorem inventoryModel_eq (hnodup : (targets.map (·.targetId)).Nodup) :
    inventoryModel targets = .ok (inventoryOf targets) := if_pos hnodup

theorem WellFormed.exists_solverContext (h : WellFormed graph candidates targets)
    (evidence : HandoffEvidence) : ∃ (c : SolverContext) (level : String → List CandidateRecord),
      solverContext graph candidates targets evidence = .ok c ∧ c.Prepared level ∧
        c.graph = graph ∧ c.candidates = candidates ∧ c.targets = targets ∧ c.evidence = evidence := by
  choose level hlevel hmem using h.exists_sortedEligible
  have hbyNode : graph.nodeNames.mapM (fun name => do
      return (name,
        ← sortedEligible (targets.map fun t : Target => t.targetId).zipIdx candidates name)) =
        .ok (graph.nodeNames.map fun name => (name, level name)) := by
    refine Checked.mapM_eq_map fun name _ => ?_
    rw [hlevel name]
    rfl
  refine ⟨⟨graph, candidates, targets, evidence, inventoryOf targets, (targets.map (·.targetId)).zipIdx,
    graph.nodeNames.map fun name => (name, level name)⟩, level, ?_, ?_, rfl, rfl, rfl, rfl⟩
  · simp only [solverContext, hbyNode, inventoryModel_eq h.targetsDistinct, Checked.ok_bind]
    rfl
  · refine ⟨⟨h, rfl⟩, rfl, fun name hname => ?_, hmem⟩
    exact lookup_map (fun n : String => n) level hname fun y _ hy => congrArg level hy

/-- `_solve` stops at a limit, or finds the optimal assignment, or there is no feasible one. -/
theorem solve_cases (h : WellFormed graph candidates targets) (evidence : HandoffEvidence)
    (limit live : Nat) :
    (∃ error, solve graph candidates targets evidence limit live = .error error ∧ error.IsLimit) ∨
    (solve graph candidates targets evidence limit live = .error noAssignmentError ∧
      ∀ decisions, ¬ Feasible graph candidates targets evidence decisions) ∨
    ∃ decisions, solve graph candidates targets evidence limit live = .ok decisions ∧
      Optimal graph candidates targets evidence decisions := by
  obtain ⟨c, level, hcontext, hc, rfl, rfl, rfl, rfl⟩ := h.exists_solverContext evidence
  have hlevels : c.graph.nodeNames.mapM (lookup c.byNode) = .ok (c.graph.nodeNames.map level) :=
    Checked.mapM_eq_map hc.lookup_level
  simp only [solve, hcontext, hlevels, Checked.ok_bind]
  cases hvisit : (c.search limit).visit (c.graph.nodeNames.map level) [] (⟨0, live, 0⟩, none) with
  | error error =>
      refine .inl ⟨error, rfl, ?_⟩
      exact (c.search limit).visit_error (fun _ _ _ _ hrecord => reserveIncumbent_error hrecord)
        (hc.search_raises limit) hvisit
  | ok st =>
      obtain ⟨hnone, hsome⟩ := (c.search limit).visit_spec (hc.search_admissible limit) rfl hvisit
      refine .inr ?_
      obtain ⟨resource, best⟩ := st
      cases best with
      | none => exact .inl ⟨rfl, hc.not_feasible hc.mem_level (hnone rfl)⟩
      | some found =>
          obtain ⟨key, choice⟩ := found
          obtain ⟨hmem, hkey, hleast⟩ := hsome key choice rfl
          obtain ⟨pick, -, rfl, -, hoptimal⟩ := hc.optimal hc.mem_level hmem hkey hleast
          refine .inr ⟨_, rfl, ?_⟩
          rw [decisionsOf_map]
          exact hoptimal

/-! ## The oracle -/

section Oracle

/-- The oracle also has the identifiers of a choice in its score. -/
def SolverContext.oracleScored (c : SolverContext) (chosen : List CandidateRecord) :
    Option (Score ×ₗ List String) :=
  (c.scored chosen).map fun score => toLex (score, chosen.map (·.candidateId))

theorem SolverContext.oracle_enter (c : SolverContext) (limit : Nat)
    (chosen : List CandidateRecord) (st : SearchState) :
    (∃ error, (c.oracle limit).enter chosen st = .error error ∧ error.IsLimit) ∨
      ∃ receipt st', (c.oracle limit).enter chosen st = .ok (none, receipt, st') := by
  simp only [SolverContext.oracle]
  cases hreserve : reserve limit st.live
      (canonicalSize (searchPayload chosen [] []) + 128) "oracle-frontier" with
  | error error => exact .inl ⟨error, rfl, reserve_error hreserve⟩
  | ok live => exact .inr ⟨_, _, rfl⟩

theorem SolverContext.Frozen.oracle_value (hc : c.Frozen) (limit : Nat)
    (hpick : pick.Eligible c.graph c.candidates) :
    (c.oracle limit).value (c.graph.nodeNames.map pick) =
      .ok (c.oracleScored (c.graph.nodeNames.map pick)) := by
  simp only [SolverContext.oracle]
  rw [(hc.value_spec hpick).1]
  rfl

theorem SolverContext.Frozen.oracle_admissible (hc : c.Frozen)
    (hlevel : ∀ name o, o ∈ level name ↔ o ∈ eligibleOf c.candidates name) (limit : Nat) :
    Everywhere ((c.oracle limit).Admissible c.oracleScored) (c.graph.nodeNames.map level) [] := by
  refine everywhere_of fun before levels chosen hall hchosen => ⟨?_, fun hdone => ?_⟩
  · intro st bound receipt st' henter
    rcases c.oracle_enter limit chosen st with ⟨_, herror, -⟩ | ⟨_, _, hok⟩
    · cases herror.symm.trans henter
    · cases hok.symm.trans henter
  · subst hdone
    rw [List.append_nil] at hall
    subst hall
    obtain ⟨pick, hpick, rfl⟩ := (mem_choices hc.wellFormed.nodesDistinct hlevel).mp hchosen
    exact hc.oracle_value limit hpick

theorem SolverContext.Frozen.oracle_raises (hc : c.Frozen)
    (hlevel : ∀ name o, o ∈ level name ↔ o ∈ eligibleOf c.candidates name) (limit : Nat) :
    Everywhere ((c.oracle limit).Raises PlanningError.IsLimit) (c.graph.nodeNames.map level) [] := by
  refine everywhere_of fun before levels chosen hall hchosen => ⟨?_, fun hdone error hvalue => ?_⟩
  · intro st error henter
    rcases c.oracle_enter limit chosen st with ⟨_, herror, hlimit⟩ | ⟨_, _, hok⟩
    · obtain rfl := Except.error.inj (herror.symm.trans henter)
      exact hlimit
    · cases hok.symm.trans henter
  · subst hdone
    rw [List.append_nil] at hall
    subst hall
    obtain ⟨pick, hpick, rfl⟩ := (mem_choices hc.wellFormed.nodesDistinct hlevel).mp hchosen
    cases (hc.oracle_value limit hpick).symm.trans hvalue

/-- The best choice of the oracle is the optimal assignment. -/
theorem SolverContext.Frozen.oracle_optimal (hc : c.Frozen)
    (hlevel : ∀ name o, o ∈ level name ↔ o ∈ eligibleOf c.candidates name)
    {choice : List CandidateRecord} {key : Score ×ₗ List String}
    (hmem : choice ∈ completions (c.graph.nodeNames.map level))
    (hkey : c.oracleScored choice = some key)
    (hleast : ∀ other ∈ completions (c.graph.nodeNames.map level), ∀ key',
      c.oracleScored other = some key' → key ≤ key') :
    ∃ pick : Pick, pick.Eligible c.graph c.candidates ∧ choice = c.graph.nodeNames.map pick ∧
      (ofLex key).1 = pick.score c.graph c.targets ∧
      Optimal c.graph c.candidates c.targets c.evidence (c.graph.nodeNames.map pick.decision) := by
  obtain ⟨score, hscore, rfl⟩ := Option.map_eq_some_iff.mp hkey
  refine hc.optimal hlevel hmem hscore fun other hother key' hkey' => ?_
  have hle := hleast other hother _ (Option.map_eq_some_iff.mpr ⟨key', hkey', rfl⟩)
  exact Prod.Lex.monotone_fst _ _ hle

/-- The oracle has nothing to say against the optimal assignment. -/
theorem checkOracle_optimal (h : WellFormed graph candidates targets)
    {decisions : List AdaptiveDecision}
    (hoptimal : Optimal graph candidates targets evidence decisions) (limit live : Nat) :
    checkOracle graph candidates targets decisions (some evidence) limit live ≠ .error oracleError := by
  let c : SolverContext := ⟨graph, candidates, targets, evidence, inventoryOf targets, [], []⟩
  have hc : c.Frozen := ⟨h, rfl⟩
  let level (name : String) :=
    (eligibleOf candidates name).insertionSort fun a b => a.candidateId ≤ b.candidateId
  have hlevel : ∀ name o, o ∈ level name ↔ o ∈ eligibleOf c.candidates name :=
    fun name o => (List.perm_insertionSort _ _).mem_iff
  have hlevels : (graph.nodeNames.map (eligibleOf candidates)).map (fun cs =>
      cs.insertionSort fun a b => a.candidateId ≤ b.candidateId) = c.graph.nodeNames.map level :=
    List.map_map
  simp only [checkOracle, inventoryModel_eq h.targetsDistinct, Checked.ok_bind]
  split
  · exact fun h => nomatch h
  · split
    · exact fun h => nomatch h
    · rw [hlevels]
      show ((c.oracle limit).visit (c.graph.nodeNames.map level) [] (⟨0, live, 0⟩, none) >>= _) ≠ _
      cases hvisit : (c.oracle limit).visit (c.graph.nodeNames.map level) [] (⟨0, live, 0⟩, none) with
      | error error =>
          have hlimit := (c.oracle limit).visit_error (fun _ _ _ _ hrecord => reserveIncumbent_error hrecord)
            (hc.oracle_raises hlevel limit) hvisit
          intro heq
          obtain rfl := Except.error.inj heq
          exact not_isLimit_oracleError hlimit
      | ok st =>
          obtain ⟨-, hsome⟩ := (c.oracle limit).visit_spec (hc.oracle_admissible hlevel limit) rfl hvisit
          obtain ⟨resource, best⟩ := st
          cases best with
          | none => exact fun h => nomatch h
          | some found =>
              obtain ⟨key, choice⟩ := found
              obtain ⟨hmem, hkey, hleast⟩ := hsome key choice rfl
              obtain ⟨pick, hpick, rfl, hscore, hfound⟩ := hc.oracle_optimal hlevel hmem hkey hleast
              obtain rfl := hoptimal.unique hfound
              rw [Checked.ok_bind]
              show (objective c.graph (c.graph.nodeNames.map pick.decision) c.candidates
                (inventoryOf c.targets) >>= _) ≠ _
              rw [h.objective_eq hpick, Checked.ok_bind, if_neg]
              · exact fun h => nomatch h
              · rintro (hdiffers | hdiffers)
                · exact hdiffers hscore.symm
                · exact hdiffers (by simp [Pick.decision, Function.comp_def])

end Oracle

/-! ## The solver and the plain enumeration -/

/-- Below its limits, `_solve` returns the optimal assignment, which is the only one; it
reports that there is none only where no assignment is feasible; and the oracle agrees. -/
theorem solve_selects_optimal (h : WellFormed graph candidates targets) (evidence : HandoffEvidence)
    (limit live : Nat)
    (hlimits : ∀ error, solve graph candidates targets evidence limit live = .error error →
      ¬ error.IsLimit) :
    (∀ decisions, solve graph candidates targets evidence limit live = .ok decisions ↔
      Optimal graph candidates targets evidence decisions) ∧
    (solve graph candidates targets evidence limit live = .error noAssignmentError ↔
      ∀ decisions, ¬ Feasible graph candidates targets evidence decisions) ∧
    ∀ decisions, solve graph candidates targets evidence limit live = .ok decisions →
      ∀ limit live, checkOracle graph candidates targets decisions (some evidence) limit live ≠
        .error oracleError := by
  rcases solve_cases h evidence limit live with
    ⟨error, herror, hlimit⟩ | ⟨hnone, hinfeasible⟩ | ⟨found, hfound, hoptimal⟩
  · exact absurd hlimit (hlimits error herror)
  · rw [hnone]
    refine ⟨fun decisions => ⟨fun h => (nomatch h), fun h => ?_⟩, ⟨fun _ => hinfeasible, fun _ => rfl⟩,
      fun decisions h => (nomatch h)⟩
    exact absurd h.feasible (hinfeasible decisions)
  · rw [hfound]
    refine ⟨fun decisions => ⟨fun heq => ?_, fun hother => ?_⟩, ⟨fun h => (nomatch h), fun hno => ?_⟩,
      fun decisions heq limit live => ?_⟩
    · obtain rfl := Except.ok.inj heq
      exact hoptimal
    · rw [hoptimal.unique hother]
    · exact absurd hoptimal.feasible (hno found)
    · obtain rfl := Except.ok.inj heq
      exact checkOracle_optimal h hoptimal limit live

/-! Two nodes on two targets, whose edge may cross from the second target to the first only. -/

section Sample

def sampleGraph : LogicalGraph :=
  ⟨[⟨"extract"⟩, ⟨"train"⟩], [⟨"extract", "out", "train", "in"⟩]⟩

def sampleTargets : List Target := [⟨"local", "engine:local"⟩, ⟨"spark", "engine:spark"⟩]

def sampleCandidates : List CandidateRecord :=
  [⟨"candidate:a", "extract", "local", .eligible, Dict.empty.set "proven_local_io_nodes" 1⟩,
    ⟨"candidate:b", "extract", "spark", .eligible, .empty⟩,
    ⟨"candidate:c", "train", "local", .rejected, .empty⟩,
    ⟨"candidate:d", "train", "spark", .eligible, Dict.empty.set "collection_units" 4⟩]

def sampleEvidence : HandoffEvidence := fun source _ _ =>
  if source.targetId = "spark" then ["sha256:handoff"] else []

def sampleDecisions : List AdaptiveDecision :=
  [⟨"extract", "candidate:b", "spark"⟩, ⟨"train", "candidate:d", "spark"⟩]

theorem sample_wellFormed : WellFormed sampleGraph sampleCandidates sampleTargets where
  nodesDistinct := by decide
  edgeEnds := by decide
  targetsDistinct := by decide
  candidatesDistinct := by decide
  cell := by
    have hpairs : (sampleCandidates.map fun c => (c.nodeName, c.targetId)).Nodup := by decide
    intro c hc c' hc' hnode htarget
    exact List.inj_on_of_nodup_map hpairs hc hc' (Prod.mk.injEq _ _ _ _ ▸ ⟨hnode, htarget⟩)
  known := by decide
  eligible := by decide
  facts := by
    have hentries : ∀ c ∈ sampleCandidates, ∀ entry ∈ c.objectiveFacts.entries, 0 ≤ entry.2 := by
      decide
    intro c hc key value hvalue
    exact hentries c hc (key, value) (Dict.mem_of_assoc hvalue)

theorem sample_solve : solve sampleGraph sampleCandidates sampleTargets sampleEvidence 100000 0 =
    .ok sampleDecisions := by
  decide +kernel

/-- The node that would run locally follows its consumer, since no handoff leaves `local`. -/
theorem solve_selects_optimal_sample :
    Optimal sampleGraph sampleCandidates sampleTargets sampleEvidence sampleDecisions :=
  ((solve_selects_optimal sample_wellFormed sampleEvidence 100000 0
    fun error h => by rw [sample_solve] at h; cases h).1 sampleDecisions).mp sample_solve

end Sample

end Etlantic.Planning
