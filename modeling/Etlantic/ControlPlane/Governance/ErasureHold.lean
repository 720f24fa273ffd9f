import Etlantic.Base.Checked
import Etlantic.ControlPlane.Governance.Erasure

/-!
# Legal hold over whole runs

What a request is about, and whether it is held, never changes as long as no id
is used twice and no hold comes after an unheld request for the same target.
Under that condition no provider touches a held target; and a report that says
completed was completed step by step, in every run.
-/

namespace Etlantic.ControlPlane.Governance

open Checked

namespace MemoryErasureStore

/-! ## Targets -/

/-- What a request is about, and whether it is held. -/
structure Target where
  subjectKeyFingerprint : String
  fieldPaths : List String
  legalHold : Bool

/-- The same subject and the same set of field paths. -/
def Target.Alike (a b : Target) : Prop :=
  a.subjectKeyFingerprint = b.subjectKeyFingerprint ∧ ∀ path, path ∈ a.fieldPaths ↔ path ∈ b.fieldPaths

def targetOf (request : ErasureRequest) : Target :=
  ⟨request.subjectKeyFingerprint, request.fieldPaths, request.legalHold⟩

def Create.target (call : Create) : Target :=
  ⟨call.subjectKeyFingerprint, call.fieldPaths, call.legalHold⟩

def target (s : MemoryErasureStore) (key : Scope × String) : Option Target :=
  (s.requests.get? key).map targetOf

theorem Target.Alike.symm {a b : Target} (h : a.Alike b) : b.Alike a :=
  ⟨h.1.symm, fun path => (h.2 path).symm⟩

theorem Target.Alike.trans {a b c : Target} (h : a.Alike b) (h' : b.Alike c) : a.Alike c :=
  ⟨h.1.trans h'.1, fun path => (h.2 path).trans (h'.2 path)⟩

/-- A call of `create_request` that neither hides a hold nor overwrites a request: a hold that
finds a prior request finds a held one for its target, and a new request uses a new id and agrees
about the hold with every request for its target. -/
def Orderly (s : MemoryErasureStore) : Event → Prop
  | .create call =>
      match s.idempotency.get? (call.ctx.scopeKey, call.idem) with
      | some prior => call.legalHold = true → ∃ found,
          s.target (call.ctx.scopeKey, prior) = some found ∧ found.legalHold = true ∧
            found.Alike call.target
      | none => s.target (call.ctx.scopeKey, call.rid) = none ∧
          ∀ id found, s.target (call.ctx.scopeKey, id) = some found → found.Alike call.target →
            found.legalHold = call.legalHold
  | _ => True

/-- Plans are about what their requests are about, and requests for one target agree about the
hold. -/
structure Consistent (s : MemoryErasureStore) : Prop where
  planned : ∀ scope id plan, s.plans.get? (scope, id) = some plan → ∃ found,
    s.target (scope, plan.requestId) = some found ∧
      ∀ step ∈ plan.steps, step.fieldPaths = found.fieldPaths
  agreed : ∀ scope id id' found found', s.target (scope, id) = some found →
    s.target (scope, id') = some found' → found.Alike found' → found.legalHold = found'.legalHold

/-- Some request in the scope holds the target. -/
def Held (s : MemoryErasureStore) (scope : Scope) (wanted : Target) : Prop :=
  ∃ id found, s.target (scope, id) = some found ∧ found.legalHold = true ∧ found.Alike wanted

/-! ## What a step does to the targets -/

theorem target_set_status {s : MemoryErasureStore} {key : Scope × String} {request : ErasureRequest}
    (hget : s.requests.get? key = some request) (status : ErasureStatus) (key' : Scope × String) :
    ((s.requests.set key { request with status := status }).get? key').map targetOf =
      s.target key' := by
  unfold target
  rw [Dict.get?_set]
  by_cases hkey : key = key'
  · rw [if_pos hkey, ← hkey, hget]
    rfl
  · rw [if_neg hkey]

theorem stepsOf_fieldPaths {call : Planning} {request : ErasureRequest}
    {provider : ErasureProvider} {steps : List ErasurePlanStep}
    (h : stepsOf call request provider = some steps) {step : ErasurePlanStep} (hstep : step ∈ steps) :
    step.fieldPaths = request.fieldPaths := by
  obtain ⟨action, -, hmade⟩ := exists_of_forall₂ (forall₂_of_mapM_some h).flip hstep
  obtain ⟨supported, -, rfl⟩ := Option.map_eq_some_iff.mp hmade
  rfl

/-- Planning adds a plan for the request it names and changes no target. -/
theorem plan_cases (s : MemoryErasureStore) (call : Planning) :
    (s.plan call).state = s ∨
    ∃ request steps, s.requests.get? (call.ctx.scopeKey, call.requestId) = some request ∧
      (∀ step ∈ steps, step.fieldPaths = request.fieldPaths) ∧
      (s.plan call).state.plans =
        s.plans.set (call.ctx.scopeKey, call.freshId) ⟨call.freshId, call.requestId, steps⟩ ∧
      ∀ key, (s.plan call).state.target key = s.target key := by
  unfold plan
  cases hget : s.requests.get? (call.ctx.scopeKey, call.requestId) with
  | none => exact .inl rfl
  | some request =>
      dsimp only
      split
      · exact .inl rfl
      · cases hsteps : call.providers.mapM (stepsOf call request) with
        | none => exact .inl rfl
        | some steps =>
            refine .inr ⟨request, steps.flatten, rfl, ?_, rfl, ?_⟩
            · intro step hstep
              obtain ⟨made, hmade, hstep⟩ := List.mem_flatten.mp hstep
              obtain ⟨provider, -, hprovider⟩ :=
                exists_of_forall₂ (forall₂_of_mapM_some hsteps).flip hmade
              exact stepsOf_fieldPaths hprovider hstep
            · exact target_set_status hget .planned

/-- Executing changes no plan and no target, and acts for an unheld request only. -/
theorem execute_cases (s : MemoryErasureStore) (call : Executing) :
    (s.execute call).2.state.plans = s.plans ∧
      (∀ key, (s.execute call).2.state.target key = s.target key) ∧
      ((s.execute call).1 = [] ∨ ∃ plan request results,
        s.plans.get? (call.ctx.scopeKey, call.planId) = some plan ∧
        s.requests.get? (call.ctx.scopeKey, plan.requestId) = some request ∧
        request.legalHold = false ∧
        runSteps call request 0 plan.steps = ((s.execute call).1, results)) := by
  unfold execute
  cases hplan : s.plans.get? (call.ctx.scopeKey, call.planId) with
  | none => exact ⟨rfl, fun _ => rfl, .inl rfl⟩
  | some plan =>
      dsimp only
      cases hrequest : s.requests.get? (call.ctx.scopeKey, plan.requestId) with
      | none => exact ⟨rfl, fun _ => rfl, .inl rfl⟩
      | some request =>
          dsimp only
          by_cases hhold : request.legalHold = true
          · rw [if_pos hhold]
            exact ⟨rfl, fun _ => rfl, .inl rfl⟩
          · rw [if_neg hhold]
            have hhold : request.legalHold = false := by simpa using hhold
            rcases hrun : runSteps call request 0 plan.steps with ⟨executions, results⟩
            cases results with
            | none =>
                exact ⟨rfl, fun _ => rfl, .inr ⟨plan, request, none, rfl, hrequest, hhold, hrun⟩⟩
            | some results =>
                refine ⟨rfl, ?_, .inr ⟨plan, request, some results, rfl, hrequest, hhold, hrun⟩⟩
                exact target_set_status hrequest (reportStatus results).1

/-- What the steps make a provider execute concerns the subject of the request and the fields of a
step. -/
theorem mem_runSteps {call : Executing} {request : ErasureRequest} {execution : Execution} :
    ∀ {i : Nat} {steps : List ErasurePlanStep},
      execution ∈ (runSteps call request i steps).1 → execution.scope = call.ctx.scopeKey ∧
        execution.subjectKeyFingerprint = request.subjectKeyFingerprint ∧
        ∃ step ∈ steps, execution.fieldPaths = step.fieldPaths
  | _, [], h => absurd h List.not_mem_nil
  | i, step :: rest, h => by
      have hstep : execution ∈ (runStep call request i step).1.toList →
          execution.scope = call.ctx.scopeKey ∧
            execution.subjectKeyFingerprint = request.subjectKeyFingerprint ∧
            execution.fieldPaths = step.fieldPaths := by
        intro hmem
        have hmem := Option.mem_toList.mp hmem
        unfold runStep at hmem
        split at hmem
        · cases hmem
        · split at hmem
          · cases hmem
          · obtain rfl := Option.some.inj hmem
            exact ⟨rfl, rfl, rfl⟩
      have hhead : execution ∈ (runStep call request i step).1.toList →
          execution.scope = call.ctx.scopeKey ∧
            execution.subjectKeyFingerprint = request.subjectKeyFingerprint ∧
            ∃ step' ∈ step :: rest, execution.fieldPaths = step'.fieldPaths := by
        intro hmem
        obtain ⟨hscope, hsubject, hfields⟩ := hstep hmem
        exact ⟨hscope, hsubject, step, List.mem_cons_self, hfields⟩
      unfold runSteps at h
      rcases hrun : runStep call request i step with ⟨done, result⟩
      rw [hrun] at h hhead
      cases result with
      | none => exact hhead h
      | some result =>
          rcases List.mem_append.mp h with h | h
          · exact hhead h
          · obtain ⟨hscope, hsubject, step', hmem, hfields⟩ := mem_runSteps h
            exact ⟨hscope, hsubject, step', List.mem_cons_of_mem _ hmem, hfields⟩

/-- Creating a request changes nothing or adds one target. -/
theorem create_cases (s : MemoryErasureStore) (call : Create) :
    ((∃ prior, s.idempotency.get? (call.ctx.scopeKey, call.idem) = some prior) ∧
      (s.createRequest call).state = s) ∨
    (s.idempotency.get? (call.ctx.scopeKey, call.idem) = none ∧
      (s.createRequest call).state.plans = s.plans ∧
      ∀ key, (s.createRequest call).state.target key =
        if (call.ctx.scopeKey, call.rid) = key then some call.target else s.target key) := by
  unfold createRequest
  cases hidem : s.idempotency.get? (call.ctx.scopeKey, call.idem) with
  | some prior =>
      refine .inl ⟨⟨prior, rfl⟩, ?_⟩
      dsimp only
      split <;> rfl
  | none =>
      refine .inr ⟨rfl, rfl, ?_⟩
      intro key
      unfold target
      dsimp only
      rw [Dict.get?_set]
      split <;> rfl

/-! ## Runs -/

theorem target_eq_some {s : MemoryErasureStore} {key : Scope × String} {request : ErasureRequest}
    (h : s.requests.get? key = some request) : s.target key = some (targetOf request) := by
  unfold target
  rw [h]
  rfl

/-- An orderly step keeps every target. -/
theorem target_next {s : MemoryErasureStore} {event : Event} (horderly : Orderly s event)
    {key : Scope × String} {found : Target} (h : s.target key = some found) :
    (next s event).target key = some found := by
  cases event with
  | plan call =>
      rcases plan_cases s call with hsame | ⟨request, steps, -, -, -, htarget⟩
      · show (s.plan call).state.target key = _
        rw [hsame, h]
      · exact (htarget key).trans h
  | execute call => exact ((execute_cases s call).2.1 key).trans h
  | create call =>
      rcases create_cases s call with ⟨-, hsame⟩ | ⟨hidem, -, htarget⟩
      · show (s.createRequest call).state.target key = _
        rw [hsame, h]
      · unfold Orderly at horderly
        simp only [hidem] at horderly
        have hne : (call.ctx.scopeKey, call.rid) ≠ key := by
          rintro rfl
          rw [horderly.1] at h
          cases h
        show (s.createRequest call).state.target key = _
        rw [htarget, if_neg hne, h]

theorem Consistent.of_same {s t : MemoryErasureStore} (h : Consistent s)
    (hplans : t.plans = s.plans) (htarget : ∀ key, t.target key = s.target key) :
    Consistent t := by
  refine ⟨?_, ?_⟩
  · intro scope id plan hplan
    rw [hplans] at hplan
    rw [htarget]
    exact h.planned scope id plan hplan
  · intro scope id id' found found' hfound hfound'
    rw [htarget] at hfound hfound'
    exact h.agreed scope id id' found found' hfound hfound'

theorem Consistent.next {s : MemoryErasureStore} {event : Event} (h : Consistent s)
    (horderly : Orderly s event) : Consistent (next s event) := by
  cases event with
  | execute call =>
      obtain ⟨hplans, htarget, -⟩ := execute_cases s call
      exact h.of_same hplans htarget
  | plan call =>
      rcases plan_cases s call with hsame | ⟨request, steps, hrequest, hfields, hplans, htarget⟩
      · show Consistent (s.plan call).state
        rw [hsame]
        exact h
      · refine ⟨?_, ?_⟩
        · intro scope id plan hplan
          show ∃ found, (s.plan call).state.target (scope, plan.requestId) = some found ∧ _
          rw [htarget]
          have hplan : (s.plan call).state.plans.get? (scope, id) = some plan := hplan
          rw [hplans] at hplan
          rcases Dict.get?_set_eq_some.mp hplan with ⟨hkey, rfl⟩ | ⟨-, hold⟩
          · obtain ⟨rfl, rfl⟩ := Prod.mk.inj hkey
            exact ⟨targetOf request, target_eq_some hrequest, hfields⟩
          · exact h.planned scope id plan hold
        · intro scope id id' found found' hfound hfound'
          have hfound : (s.plan call).state.target (scope, id) = some found := hfound
          have hfound' : (s.plan call).state.target (scope, id') = some found' := hfound'
          rw [htarget] at hfound hfound'
          exact h.agreed scope id id' found found' hfound hfound'
  | create call =>
      rcases create_cases s call with ⟨-, hsame⟩ | ⟨hidem, hplans, htarget⟩
      · show Consistent (s.createRequest call).state
        rw [hsame]
        exact h
      · have hfresh := horderly
        unfold Orderly at hfresh
        simp only [hidem] at hfresh
        obtain ⟨-, hagree⟩ := hfresh
        refine ⟨?_, ?_⟩
        · intro scope id plan hplan
          have hplan : (s.createRequest call).state.plans.get? (scope, id) = some plan := hplan
          rw [hplans] at hplan
          obtain ⟨found, hfound, hsteps⟩ := h.planned scope id plan hplan
          exact ⟨found, target_next horderly hfound, hsteps⟩
        · intro scope id id' found found' hfound hfound' halike
          have hfound : (s.createRequest call).state.target (scope, id) = some found := hfound
          have hfound' : (s.createRequest call).state.target (scope, id') = some found' := hfound'
          rw [htarget] at hfound hfound'
          by_cases hid : (call.ctx.scopeKey, call.rid) = (scope, id)
          · rw [if_pos hid] at hfound
            obtain rfl := Option.some.inj hfound
            by_cases hid' : (call.ctx.scopeKey, call.rid) = (scope, id')
            · rw [if_pos hid'] at hfound'
              obtain rfl := Option.some.inj hfound'
              rfl
            · rw [if_neg hid'] at hfound'
              rw [← (Prod.mk.inj hid).1] at hfound'
              exact (hagree id' found' hfound' halike.symm).symm
          · rw [if_neg hid] at hfound
            by_cases hid' : (call.ctx.scopeKey, call.rid) = (scope, id')
            · rw [if_pos hid'] at hfound'
              obtain rfl := Option.some.inj hfound'
              rw [← (Prod.mk.inj hid').1] at hfound
              exact hagree id found hfound halike
            · rw [if_neg hid'] at hfound'
              exact h.agreed scope id id' found found' hfound hfound' halike

theorem consistent_init : Consistent init := by
  refine ⟨?_, ?_⟩
  · intro scope id plan hplan
    cases hplan
  · intro scope id id' found found' hfound
    cases hfound

theorem Held.next {s : MemoryErasureStore} {event : Event} {scope : Scope} {wanted : Target}
    (h : Held s scope wanted) (horderly : Orderly s event) : Held (next s event) scope wanted := by
  obtain ⟨id, found, hfound, hhold, halike⟩ := h
  exact ⟨id, found, target_next horderly hfound, hhold, halike⟩

/-- An orderly request with a hold leaves its target held. -/
theorem held_of_create {s : MemoryErasureStore} {call : Create} (hhold : call.legalHold = true)
    (horderly : Orderly s (.create call)) :
    Held (next s (.create call)) call.ctx.scopeKey call.target := by
  rcases create_cases s call with ⟨⟨prior, hprior⟩, hsame⟩ | ⟨hidem, -, htarget⟩
  · unfold Orderly at horderly
    simp only [hprior] at horderly
    obtain ⟨found, hfound, hheld, halike⟩ := horderly hhold
    refine ⟨prior, found, ?_, hheld, halike⟩
    show (s.createRequest call).state.target _ = _
    rw [hsame]
    exact hfound
  · refine ⟨call.rid, call.target, ?_, hhold, rfl, fun _ => Iff.rfl⟩
    show (s.createRequest call).state.target _ = _
    rw [htarget, if_pos rfl]

/-- No provider is made to touch a held target. -/
theorem not_executed_of_held {s : MemoryErasureStore} (h : Consistent s) {scope : Scope}
    {wanted : Target} (hheld : Held s scope wanted) {event : Event} {execution : Execution}
    (hmem : execution ∈ s.executions event) :
    ¬ (execution.scope = scope ∧
      execution.subjectKeyFingerprint = wanted.subjectKeyFingerprint ∧
      ∀ path, path ∈ execution.fieldPaths ↔ path ∈ wanted.fieldPaths) := by
  rintro ⟨hscope, hsubject, hfields⟩
  cases event with
  | create call => cases hmem
  | plan call => cases hmem
  | execute call =>
      have hmem : execution ∈ (s.execute call).1 := hmem
      rcases (execute_cases s call).2.2 with
        hnone | ⟨plan, request, results, hplan, hrequest, hunheld, hrun⟩
      · rw [hnone] at hmem
        cases hmem
      · have hmem : execution ∈ (runSteps call request 0 plan.steps).1 := by
          rw [hrun]
          exact hmem
        obtain ⟨hctx, hsubject', step, hstep, hpaths⟩ := mem_runSteps hmem
        obtain ⟨found, hfound, hsteps⟩ := h.planned _ _ _ hplan
        rw [target_eq_some hrequest] at hfound
        obtain rfl := Option.some.inj hfound
        obtain ⟨id, held, hheldTarget, hhold, halike⟩ := hheld
        rw [← hscope, hctx] at hheldTarget
        -- The executed target and the held one are requested in one scope.
        have hsame : (targetOf request).Alike held := by
          refine Target.Alike.trans (b := wanted) ⟨?_, ?_⟩ halike.symm
          · exact hsubject'.symm.trans hsubject
          · intro path
            rw [← hfields path, hpaths, hsteps step hstep]
        have hagree := h.agreed _ _ _ _ _ (target_eq_some hrequest) hheldTarget hsame
        rw [hhold] at hagree
        have hrequestHeld : request.legalHold = true := hagree
        rw [hunheld] at hrequestHeld
        cases hrequestHeld

/-! ## Completed reports -/

/-- A present, supporting provider executed the step and answered completed. -/
def StepCompleted (call : Executing) (request : ErasureRequest) (i : Nat)
    (step : ErasurePlanStep) : Prop :=
  step.supported = true ∧ ∃ provider result, call.byId step.providerId = some provider ∧
    provider.execute i step.action request.subjectKeyFingerprint step.fieldPaths = some result ∧
    result.status = .completed

theorem reportStatus_completed (results : List ErasureStepResult) :
    ((reportStatus results).1 = .completed ∧ (reportStatus results).2 = true) ↔
      results ≠ [] ∧ ∀ r ∈ results, r.status = .completed := by
  cases results with
  | nil => simp [reportStatus]
  | cons first rest =>
      constructor
      · rintro ⟨hstatus, hreconciled⟩
        refine ⟨List.cons_ne_nil _ _, ?_⟩
        unfold reportStatus at hstatus hreconciled
        by_contra hsome
        have hall : ((first :: rest).all fun r => r.status = .completed) = false := by
          rw [Bool.eq_false_iff, ne_eq, List.all_eq_true]
          simpa using hsome
        simp only [List.isEmpty_cons, Bool.false_eq_true, if_false, hall] at hreconciled
        split at hreconciled <;> split at hreconciled <;> simp_all
      · rintro ⟨-, hall⟩
        have hnone : ∀ status, status ≠ ErasureStatus.completed →
            ((first :: rest).any fun r => r.status = status) = false := by
          intro status hstatus
          rw [List.any_eq_false]
          intro r hr
          rw [hall r hr]
          simpa using hstatus.symm
        have hcompleted : ((first :: rest).all fun r => r.status = .completed) = true := by
          rw [List.all_eq_true]
          intro r hr
          simpa using hall r hr
        have hunsupported := hnone .unsupported (by decide)
        have hfailed := hnone .failed (by decide)
        have hblocked := hnone .blocked (by decide)
        unfold reportStatus
        simp only [List.isEmpty_cons, hcompleted, hunsupported, hfailed, hblocked]
        exact ⟨rfl, rfl⟩

theorem runStep_completed {call : Executing} {request : ErasureRequest} {i : Nat}
    {step : ErasurePlanStep} {result : ErasureStepResult}
    (h : (runStep call request i step).2 = some result) :
    result.status = .completed ↔ StepCompleted call request i step := by
  unfold runStep at h
  unfold StepCompleted
  cases hprovider : call.byId step.providerId with
  | none =>
      rw [hprovider] at h
      obtain rfl := Option.some.inj h
      simp
  | some provider =>
      rw [hprovider] at h
      by_cases hsupported : step.supported = true
      · simp only [hsupported, Bool.not_true, Bool.false_eq_true, if_false] at h
        obtain ⟨answer, hanswer, rfl⟩ := Option.map_eq_some_iff.mp h
        constructor
        · intro hstatus
          exact ⟨hsupported, provider, answer, rfl, hanswer, hstatus⟩
        · rintro ⟨-, provider', answer', hprovider', hanswer', hstatus⟩
          obtain rfl := Option.some.inj hprovider'
          rw [hanswer] at hanswer'
          obtain rfl := Option.some.inj hanswer'
          exact hstatus
      · simp only [hsupported, Bool.not_false, if_true] at h
        obtain rfl := Option.some.inj h
        simp [hsupported]

/-- Every step has a result, completed exactly where the step is. -/
theorem runSteps_completed {call : Executing} {request : ErasureRequest} :
    ∀ {i : Nat} {steps : List ErasurePlanStep} {results : List ErasureStepResult},
      (runSteps call request i steps).2 = some results →
        (results = [] ↔ steps = []) ∧ ((∀ r ∈ results, r.status = .completed) ↔
          ∀ k step, steps[k]? = some step → StepCompleted call request (i + k) step)
  | i, [], results, h => by
      obtain rfl := Option.some.inj h
      simp
  | i, step :: rest, results, h => by
      unfold runSteps at h
      rcases hrun : runStep call request i step with ⟨done, result⟩
      have hstep : (runStep call request i step).2 = result := by rw [hrun]
      rw [hrun] at h
      cases result with
      | none => cases h
      | some result =>
          obtain ⟨later, hlater, rfl⟩ := Option.map_eq_some_iff.mp h
          have hhead := runStep_completed hstep
          obtain ⟨-, htail⟩ := runSteps_completed hlater
          refine ⟨by simp, ?_⟩
          rw [List.forall_mem_cons, hhead, htail]
          constructor
          · rintro ⟨hfirst, hrest⟩ k step' hget
            cases k with
            | zero =>
                obtain rfl := Option.some.inj hget
                exact hfirst
            | succ k =>
                have hk := hrest k step' hget
                rwa [Nat.add_right_comm] at hk
          · intro hall
            refine ⟨hall 0 step rfl, ?_⟩
            intro k step' hget
            have hk := hall (k + 1) step' hget
            rwa [← Nat.add_assoc, Nat.add_right_comm] at hk

/-- A report says completed and reconciled exactly where the plan has steps and all of them are
completed. -/
theorem execute_completed {s : MemoryErasureStore} {call : Executing} {report : ErasureReport}
    (h : (s.execute call).2.result = .ok report) :
    (report.status = .completed ∧ report.reconciled = true) ↔ ∃ plan request,
      s.plans.get? (call.ctx.scopeKey, call.planId) = some plan ∧
      s.requests.get? (call.ctx.scopeKey, plan.requestId) = some request ∧ plan.steps ≠ [] ∧
      ∀ k step, plan.steps[k]? = some step → StepCompleted call request k step := by
  unfold execute at h
  cases hplan : s.plans.get? (call.ctx.scopeKey, call.planId) with
  | none =>
      rw [hplan] at h
      cases h
  | some plan =>
      rw [hplan] at h
      dsimp only at h
      cases hrequest : s.requests.get? (call.ctx.scopeKey, plan.requestId) with
      | none =>
          rw [hrequest] at h
          cases h
      | some request =>
          rw [hrequest] at h
          dsimp only at h
          split at h
          · cases h
          · rcases hrun : runSteps call request 0 plan.steps with ⟨executions, results⟩
            have hresults : (runSteps call request 0 plan.steps).2 = results := by rw [hrun]
            rw [hrun] at h
            cases results with
            | none => cases h
            | some results =>
                obtain rfl := Except.ok.inj h
                obtain ⟨hempty, hcompleted⟩ := runSteps_completed hresults
                rw [reportStatus_completed, hcompleted, ne_eq, hempty]
                simp only [Nat.zero_add]
                constructor
                · rintro ⟨hsteps, hall⟩
                  exact ⟨plan, request, rfl, hrequest, hsteps, hall⟩
                · rintro ⟨plan', request', hplan', hrequest', hsteps, hall⟩
                  obtain rfl := Option.some.inj hplan'
                  rw [hrequest] at hrequest'
                  obtain rfl := Option.some.inj hrequest'
                  exact ⟨hsteps, hall⟩

/-! ## Holds over runs -/

theorem consistent_run {events : List Event} (h : Runs.Guarded next Orderly init events) :
    Consistent (Runs.run next init events) :=
  Runs.invariant (fun _ _ hs hevent => Consistent.next hs hevent) consistent_init h

theorem held_run {s : MemoryErasureStore} {events : List Event} {scope : Scope} {wanted : Target}
    (hheld : Held s scope wanted) (h : Runs.Guarded next Orderly s events) :
    Held (Runs.run next s events) scope wanted :=
  Runs.invariant (fun _ _ hs hevent => Held.next hs hevent) (I := fun s => Held s scope wanted)
    hheld h

/-- In an orderly run a held target is never executed after the hold; and in every state a report
says completed exactly where every step of a plan with steps was completed. -/
theorem legal_hold_respected (s : MemoryErasureStore) :
    (∀ (before : List Event) (call : Create) (between : List Event) (event : Event),
      call.legalHold = true →
      Runs.Guarded next Orderly init (before ++ .create call :: (between ++ [event])) →
      ∀ execution ∈ executions (Runs.run next init (before ++ .create call :: between)) event,
        ¬ (execution.scope = call.ctx.scopeKey ∧
          execution.subjectKeyFingerprint = call.subjectKeyFingerprint ∧
          ∀ path, path ∈ execution.fieldPaths ↔ path ∈ call.fieldPaths)) ∧
    ∀ (call : Executing) (report : ErasureReport),
      (s.execute call).2.result = .ok report →
        ((report.status = .completed ∧ report.reconciled = true) ↔ ∃ plan request,
          s.plans.get? (call.ctx.scopeKey, call.planId) = some plan ∧
          s.requests.get? (call.ctx.scopeKey, plan.requestId) = some request ∧ plan.steps ≠ [] ∧
          ∀ k step, plan.steps[k]? = some step → StepCompleted call request k step) := by
  refine ⟨?_, fun call report h => execute_completed h⟩
  intro before call between event hhold hguarded execution hmem
  have hbefore := hguarded.left
  obtain ⟨hcreate, hlater⟩ := hguarded.right
  have hbetween := hlater.left
  have hstart : Consistent (Runs.run next init before) := consistent_run hbefore
  have hcreated := held_of_create hhold hcreate
  have hconsistent : Consistent (Runs.run next (next (Runs.run next init before) (.create call))
      between) :=
    Runs.invariant (fun _ _ hs hevent => Consistent.next hs hevent)
      (Consistent.next hstart hcreate) hbetween
  rw [Runs.run_append, Runs.run_cons] at hmem
  exact not_executed_of_held hconsistent (held_run hcreated hbetween) hmem

/-! ## A hold that is lost -/

def officer : ControlPlaneContext where
  principal := ⟨"alice", none, .human⟩
  tenant := ⟨"acme"⟩
  workspace := ⟨"acme", "main"⟩
  environment := ⟨"prod"⟩
  securityDomain := ⟨"corp"⟩
  resourceOwnerId := none
  workspaceTenant := workspace_ofTenant "acme" "main"
  ownerNonEmpty := none_ownerNonEmpty

def eraser : ErasureProvider where
  providerId := "warehouse"
  supports := fun _ => some true
  execute := fun _ _ _ _ => some ⟨"done", "warehouse", .completed, none, none⟩

def requesting (hold : Bool) (freshId : String) : Create :=
  ⟨officer, "fp", ["email"], hold, none, freshId⟩

def planning : Planning :=
  ⟨officer, "r1", [eraser], none, "p1", fun provider _ => provider ++ ".step"⟩

def executing : Executing := ⟨officer, "p1", [eraser], "report"⟩

/-- A hold that comes after an unheld request for the same subject and fields gives that request
back and holds nothing. -/
theorem hold_lost :
    (requesting true "r2").legalHold = true ∧
    ((Runs.run next init [.create (requesting false "r1"), .plan planning]).createRequest
      (requesting true "r2")).result.toOption.isSome = true ∧
    ∃ execution ∈ executions (Runs.run next init [.create (requesting false "r1"), .plan planning,
        .create (requesting true "r2")]) (.execute executing),
      execution.scope = (requesting true "r2").ctx.scopeKey ∧
        execution.subjectKeyFingerprint = (requesting true "r2").subjectKeyFingerprint ∧
        execution.fieldPaths = (requesting true "r2").fieldPaths := by
  decide +kernel

/-- A hold of the first request for its target stands: the plan that comes after it is refused. -/
theorem hold_stands :
    Runs.Guarded next Orderly init
      [.create (requesting true "r1"), .plan planning, .execute executing] ∧
    ∀ execution ∈ executions (Runs.run next init [.create (requesting true "r1"), .plan planning])
        (.execute executing),
      ¬ (execution.scope = officer.scopeKey ∧ execution.subjectKeyFingerprint = "fp" ∧
        ∀ path, path ∈ execution.fieldPaths ↔ path ∈ ["email"]) := by
  have hguarded : Runs.Guarded next Orderly init
      [.create (requesting true "r1"), .plan planning, .execute executing] := by
    refine ⟨⟨rfl, ?_⟩, trivial, trivial, trivial⟩
    intro id found hfound
    cases hfound
  exact ⟨hguarded, (legal_hold_respected init).1 [] (requesting true "r1") [.plan planning]
    (.execute executing) rfl hguarded⟩

end MemoryErasureStore

end Etlantic.ControlPlane.Governance
