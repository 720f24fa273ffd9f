import Etlantic.Base.Runs
import Etlantic.Base.Dict
import Etlantic.ControlPlane.Models

/-!
# Governed erasure

`MemoryErasureStore`: requests, plans and reports.  A request is found again by
its subject and its sorted field paths, and kept under an id that the caller may
choose; a legal hold is a flag of the request.  Executing a plan reads the hold
from the request that stands under the plan's request id at that time.
-/

namespace Etlantic.ControlPlane.Governance

/-! ## Records -/

inductive ErasureAction where
  | delete
  | anonymize
  | lookup
  | proof
  | retry
deriving DecidableEq

inductive ErasureStatus where
  | pending
  | planned
  | inProgress
  | completed
  | partially
  | blocked
  | unsupported
  | failed
deriving DecidableEq

structure ErasureRequest where
  requestId : String
  tenantId : String
  workspaceId : String
  subjectKeyFingerprint : String
  fieldPaths : List String
  legalHold : Bool
  status : ErasureStatus
deriving DecidableEq

structure ErasurePlanStep where
  stepId : String
  providerId : String
  action : ErasureAction
  fieldPaths : List String
  supported : Bool
  reason : Option String
deriving DecidableEq

structure ErasurePlan where
  planId : String
  requestId : String
  steps : List ErasurePlanStep
deriving DecidableEq

structure ErasureStepResult where
  stepId : String
  providerId : String
  status : ErasureStatus
  proofFingerprint : Option String
  reason : Option String
deriving DecidableEq

structure ErasureReport where
  reportId : String
  requestId : String
  planId : String
  status : ErasureStatus
  results : List ErasureStepResult
  reconciled : Bool
deriving DecidableEq

/-- A provider during one call: what it says it supports, and what it does in each step.
`none` where it raises. -/
structure ErasureProvider where
  providerId : String
  supports : ErasureAction → Option Bool
  execute : Nat → ErasureAction → String → List String → Option ErasureStepResult

/-- An action that a provider was made to execute. -/
structure Execution where
  scope : Scope
  providerId : String
  action : ErasureAction
  subjectKeyFingerprint : String
  fieldPaths : List String
deriving DecidableEq

/-! ## The store -/

structure MemoryErasureStore where
  requests : Dict (Scope × String) ErasureRequest
  plans : Dict (Scope × String) ErasurePlan
  planByRequest : Dict (Scope × String) String
  reports : Dict (Scope × String) ErasureReport
  idempotency : Dict (Scope × String) String

namespace MemoryErasureStore

def init : MemoryErasureStore := ⟨.empty, .empty, .empty, .empty, .empty⟩

/-- The arguments of `create_request` and the fresh id. -/
structure Create where
  ctx : ControlPlaneContext
  subjectKeyFingerprint : String
  fieldPaths : List String
  legalHold : Bool
  requestId : Option String
  freshId : String

/-- `request_id or str(uuid.uuid4())`. -/
def Create.rid (call : Create) : String :=
  match call.requestId with
  | some given => if given = "" then call.freshId else given
  | none => call.freshId

/-- `f"{subject_key_fingerprint}:{','.join(sorted(field_paths))}"`. -/
def Create.idem (call : Create) : String :=
  call.subjectKeyFingerprint ++ ":" ++
    ",".intercalate (call.fieldPaths.insertionSort (fun a b => a ≤ b))

def Create.request (call : Create) : ErasureRequest where
  requestId := call.rid
  tenantId := call.ctx.tenant.tenantId
  workspaceId := call.ctx.workspace.workspaceId
  subjectKeyFingerprint := call.subjectKeyFingerprint
  fieldPaths := call.fieldPaths
  legalHold := call.legalHold
  status := if call.legalHold then .blocked else .pending

def createRequest (s : MemoryErasureStore) (call : Create) :
    Reply MemoryErasureStore ErasureRequest :=
  match s.idempotency.get? (call.ctx.scopeKey, call.idem) with
  | some prior =>
      match s.requests.get? (call.ctx.scopeKey, prior) with
      | some request => ⟨.ok request, s⟩
      | none => ⟨.error .keyError, s⟩
  | none =>
      ⟨.ok call.request,
        { s with
          requests := s.requests.set (call.ctx.scopeKey, call.rid) call.request
          idempotency := s.idempotency.set (call.ctx.scopeKey, call.idem) call.rid }⟩

/-- The arguments of `plan`, with the fresh plan id and the fresh id of every step. -/
structure Planning where
  ctx : ControlPlaneContext
  requestId : String
  providers : List ErasureProvider
  actions : Option (List ErasureAction)
  freshId : String
  freshStep : String → ErasureAction → String

/-- `actions or ("delete", "anonymize")`. -/
def Planning.wanted (call : Planning) : List ErasureAction :=
  match call.actions with
  | some (action :: rest) => action :: rest
  | _ => [.delete, .anonymize]

/-- The steps of one provider, `none` where `supports` raises. -/
def stepsOf (call : Planning) (request : ErasureRequest) (provider : ErasureProvider) :
    Option (List ErasurePlanStep) :=
  call.wanted.mapM fun action => (provider.supports action).map fun supported =>
    { stepId := call.freshStep provider.providerId action
      providerId := provider.providerId
      action := action
      fieldPaths := request.fieldPaths
      supported := supported
      reason := if supported then none else some "unsupported" }

def plan (s : MemoryErasureStore) (call : Planning) : Reply MemoryErasureStore ErasurePlan :=
  match s.requests.get? (call.ctx.scopeKey, call.requestId) with
  | none => ⟨.error (notFound "erasure request not found"), s⟩
  | some request =>
      if request.legalHold || request.status = .blocked then
        ⟨.error (forbidden "erasure blocked by legal hold"), s⟩
      else
        match call.providers.mapM (stepsOf call request) with
        | none => ⟨.error (.valueError "supports"), s⟩
        | some steps =>
            let made : ErasurePlan := ⟨call.freshId, call.requestId, steps.flatten⟩
            ⟨.ok made,
              { s with
                plans := s.plans.set (call.ctx.scopeKey, call.freshId) made
                planByRequest :=
                  s.planByRequest.set (call.ctx.scopeKey, call.requestId) call.freshId
                requests := s.requests.set (call.ctx.scopeKey, call.requestId)
                  { request with status := .planned } }⟩

/-- The arguments of `execute` and the fresh report id. -/
structure Executing where
  ctx : ControlPlaneContext
  planId : String
  providers : List ErasureProvider
  freshId : String

/-- `{p.provider_id: p for p in providers}.get(provider_id)`. -/
def Executing.byId (call : Executing) (providerId : String) : Option ErasureProvider :=
  call.providers.reverse.find? fun provider => provider.providerId = providerId

/-- The result of one step, and the execution it causes. A result of `none` means that the
provider raised. -/
def runStep (call : Executing) (request : ErasureRequest) (i : Nat) (step : ErasurePlanStep) :
    Option Execution × Option ErasureStepResult :=
  match call.byId step.providerId with
  | none =>
      (none, some ⟨step.stepId, step.providerId, .unsupported, none,
        some "provider missing or unsupported"⟩)
  | some provider =>
      if !step.supported then
        (none, some ⟨step.stepId, step.providerId, .unsupported, none,
          some "provider missing or unsupported"⟩)
      else
        (some ⟨call.ctx.scopeKey, provider.providerId, step.action,
            request.subjectKeyFingerprint, step.fieldPaths⟩,
          (provider.execute i step.action request.subjectKeyFingerprint step.fieldPaths).map
            fun result => { result with stepId := step.stepId })

/-- The steps in order, up to the first one whose provider raises. -/
def runSteps (call : Executing) (request : ErasureRequest) :
    Nat → List ErasurePlanStep → List Execution × Option (List ErasureStepResult)
  | _, [] => ([], some [])
  | i, step :: rest =>
      match runStep call request i step with
      | (execution, none) => (execution.toList, none)
      | (execution, some result) =>
          let (executions, results) := runSteps call request (i + 1) rest
          (execution.toList ++ executions, results.map (result :: ·))

/-- The status of a report and whether it is reconciled. -/
def reportStatus (results : List ErasureStepResult) : ErasureStatus × Bool :=
  if results.isEmpty then (.partially, false)
  else
    let has := fun status => results.any fun r => r.status = status
    let allCompleted := results.all fun r => r.status = .completed
    let reconciled := allCompleted && !has .unsupported
    let (status, reconciled) : ErasureStatus × Bool :=
      if has .unsupported || has .failed then
        if (results.filter fun r => r.status ≠ .unsupported).all fun r => r.status = .completed then
          (.partially, false)
        else if results.all fun r => r.status = .unsupported then (.unsupported, false)
        else (.partially, false)
      else if allCompleted then (.completed, reconciled)
      else (.partially, false)
    if has .unsupported || has .failed || has .blocked then
      (if status = .completed then .partially else status, false)
    else (status, reconciled)

/-- What `execute` makes of the request of its plan: the executions, the reply. -/
def execute (s : MemoryErasureStore) (call : Executing) :
    List Execution × Reply MemoryErasureStore ErasureReport :=
  match s.plans.get? (call.ctx.scopeKey, call.planId) with
  | none => ([], ⟨.error (notFound "erasure plan not found"), s⟩)
  | some plan =>
      match s.requests.get? (call.ctx.scopeKey, plan.requestId) with
      | none => ([], ⟨.error (notFound "erasure request not found"), s⟩)
      | some request =>
          if request.legalHold then ([], ⟨.error (forbidden "erasure blocked by legal hold"), s⟩)
          else
            match runSteps call request 0 plan.steps with
            | (executions, none) => (executions, ⟨.error (.valueError "execute"), s⟩)
            | (executions, some results) =>
                let report : ErasureReport :=
                  ⟨call.freshId, plan.requestId, call.planId, (reportStatus results).1, results,
                    (reportStatus results).2⟩
                (executions, ⟨.ok report,
                  { s with
                    reports := s.reports.set (call.ctx.scopeKey, call.freshId) report
                    requests := s.requests.set (call.ctx.scopeKey, plan.requestId)
                      { request with status := (reportStatus results).1 } }⟩)

/-! ## Runs -/

inductive Event where
  | create (call : Create)
  | plan (call : Planning)
  | execute (call : Executing)

def next (s : MemoryErasureStore) : Event → MemoryErasureStore
  | .create call => (s.createRequest call).state
  | .plan call => (s.plan call).state
  | .execute call => (s.execute call).2.state

/-- What the providers are made to execute. -/
def executions (s : MemoryErasureStore) : Event → List Execution
  | .execute call => (s.execute call).1
  | _ => []

end MemoryErasureStore

end Etlantic.ControlPlane.Governance
