import Etlantic.ControlPlane.Durable.Execution

/-!
# External effects and the cancellation reconcile

The two writers of effects: `record_effect` with its guards, and the reconcile
loop, which records an unknown effect for every execution it declares lost.
-/

namespace Etlantic.ControlPlane.Durable

/-- Evidence that is set and not blank. -/
def isProven (evidence : Option String) : Bool := evidence.any (fun text => !isBlank text)

/-- `safe_effect`: the effect with redacted metadata and evidence. -/
def safeEffect (host : Host) (effect : EffectRecord) : EffectRecord :=
  { effect with
    metadata := redactControlPlanePayload host.unicode effect.metadata
    idempotencyEvidence := effect.idempotencyEvidence.map (redactControlPlaneText host.unicode)
    reconciliationEvidence :=
      effect.reconciliationEvidence.map (redactControlPlaneText host.unicode)
    publicationEvidence := effect.publicationEvidence.map (redactControlPlaneText host.unicode)
    compensationEvidence := effect.compensationEvidence.map (redactControlPlaneText host.unicode) }

/-- The argument checks of `_record_effect`. -/
def invalidEffect (ctx : ControlPlaneContext) (effect : EffectRecord) : Option PyError :=
  match effect.status with
  | .other _ => some (.valueError "unsupported external effect status")
  | _ =>
      if isBlank effect.effectId then some (emptyFieldError "effect_id")
      else if isBlank effect.submissionId then some (emptyFieldError "submission_id")
      else if effect.scope ≠ ctx.scopeKey then some (notFound "Effect not found")
      else none

theorem invalidEffect_scope {ctx : ControlPlaneContext} {effect : EffectRecord}
    (h : invalidEffect ctx effect = none) : effect.scope = ctx.scopeKey := by
  unfold invalidEffect at h
  split at h
  · cases h
  · split_ifs at h with _ _ hscope
    simpa using hscope

/-- The lease claim of `record_attempt_effect`: `(attempt_id, owner_id, fencing_token)`. -/
structure LeaseClaim where
  attemptId : String
  ownerId : String
  fencingToken : Int

/-- The check of a lease claim. -/
def checkLeaseClaim (ctx : ControlPlaneContext) (claim : LeaseClaim) (submissionId : String)
    (submission : SubmissionRecord) (now : Instant) (s : Store) : Except PyError Unit :=
  if (s.attempts.get? (key ctx claim.attemptId)).any (fun attempt =>
      attempt.submissionId = submissionId && attempt.status = .running &&
        attempt.ownerId = claim.ownerId && attempt.fencingToken = claim.fencingToken) = false ∨
      submission.status.isTerminal = true then
    .error (conflict "Execution effect requires the current running attempt")
  else (s.requireLease (key ctx submissionId) claim.ownerId claim.fencingToken now).map
    (fun _ => ())

/-- The evidence an effect in doubt lacks for its new status. -/
def lacksEvidence (effect : EffectRecord) : Bool :=
  match effect.status with
  | .pending => true
  | .none | .notCommitted | .failed => !isProven effect.reconciliationEvidence
  | .committed =>
      !(isProven effect.reconciliationEvidence || isProven effect.idempotencyEvidence)
  | _ => false

/-- The refusals of an overwrite of `existing` by `effect`. -/
def effectRefusal (existing effect : EffectRecord) : Option PyError :=
  if existing.submissionId ≠ effect.submissionId then
    some (conflict "External effect submission identity cannot be changed")
  else if existing.authoritative ≠ effect.authoritative then
    some (conflict "External effect authority cannot be changed")
  else if existing.status = .committed ∧ effect.status ≠ .committed then
    some (conflict "Committed external effect cannot be downgraded")
  else if existing.status = .unknown ∧ lacksEvidence effect = true then
    some (conflict "Unknown external effect requires reconciliation evidence")
  else none

/-- `_record_effect`. -/
def recordEffectWith (host : Host) (env : Env) (ctx : ControlPlaneContext)
    (effect : EffectRecord) (leaseClaim : Option LeaseClaim) (s : Store) : Outcome EffectRecord :=
  match invalidEffect ctx effect with
  | some error => raise error s
  | none =>
      let safe := safeEffect host effect
      match s.submissions.get? (key ctx safe.submissionId) with
      | none => raise (notFound "Submission not found") s
      | some submission =>
          match leaseClaim.elim (.ok ()) (fun claim =>
              checkLeaseClaim ctx claim safe.submissionId submission (env.now [0]) s) with
          | .error error => raise error s
          | .ok _ =>
              match (s.effects.get? (key ctx safe.effectId)).bind
                  (fun existing => effectRefusal existing safe) with
              | some error => raise error s
              | none =>
                  ret safe { s with effects := s.effects.set (key ctx safe.effectId) safe }

def recordEffect (host : Host) (env : Env) (ctx : ControlPlaneContext) (effect : EffectRecord)
    (s : Store) : Outcome EffectRecord :=
  recordEffectWith host env ctx effect none s

def recordAttemptEffect (host : Host) (env : Env) (ctx : ControlPlaneContext)
    (effect : EffectRecord) (claim : LeaseClaim) (s : Store) : Outcome EffectRecord :=
  recordEffectWith host env ctx effect (some claim) s

/-! ## The cancellation reconcile -/

/-- The id of the effect that stands for a whole execution. -/
def executionEffectId (submissionId : String) : String := submissionId ++ ":execution"

def unknownExecutionEffect (scope : Scope) (submissionId : String) (now : Instant) :
    EffectRecord where
  effectId := executionEffectId submissionId
  submissionId := submissionId
  scope := scope
  status := .unknown
  recordedAt := .iso now
  idempotencyEvidence := none
  reconciliationEvidence := none
  publicationEvidence := none
  compensationEvidence := none
  authoritative := true
  metadata := []

/-- `_record_unknown_effect_locked`. -/
def recordUnknownEffect (scope : Scope) (submissionId : String) (now : Instant) (s : Store) :
    Store :=
  let k : Key := ⟨scope, executionEffectId submissionId⟩
  if (s.effects.get? k).any (fun existing => existing.status = .committed) then s
  else { s with effects := s.effects.set k (unknownExecutionEffect scope submissionId now) }

/-- The loop that declares the running attempts of a submission lost. -/
def loseRunningAttempts (now : Instant) (k : Key) : List (Key × AttemptRecord) → Store → Store
  | [], s => s
  | (attemptKey, attempt) :: rest, s =>
      if isRunningAttemptOf k attemptKey attempt then
        loseRunningAttempts now k rest
          { s with attempts := s.attempts.set attemptKey (attempt.finish .lost now) }
      else loseRunningAttempts now k rest s

/-- The dispatch of a cancelled submission, if nothing was created remotely. -/
def cancelledDispatch (dispatch : DispatchRecord) (now : Instant) : DispatchRecord :=
  { dispatch with
    status := .cancelled
    retryAfterAt := none
    lastErrorCode := some (if dispatch.status = .pending then "cancelled_before_dispatch"
      else "cancelled_after_dispatch_exhaustion")
    updatedAt := now }

/-- `status in {"pending", "reconciliation_required"}`. -/
def isCancellable (dispatch : DispatchRecord) : Bool :=
  dispatch.status = .pending || dispatch.status = .reconciliationRequired

def cancelDispatch (k : Key) (now : Instant) (s : Store) : Store :=
  match s.dispatches.get? k with
  | none => s
  | some dispatch =>
      if isCancellable dispatch then
        { s with dispatches := s.dispatches.set k (cancelledDispatch dispatch now) }
      else s

/-- The submission must wait: its lease is live, or a remote create whose
response was lost may have succeeded. -/
def cancellationWaits (s : Store) (k : Key) (now : Instant) : Bool :=
  s.leaseLive k now || (s.dispatches.get? k).any (fun dispatch =>
    dispatch.status = .uncertain && dispatch.prefectFlowRunId = none)

/-- The writes that finalize one cancellation. -/
def finalizeCancellation (env : Env) (row : Nat) (now : Instant) (acknowledgeOutbox : Bool)
    (k : Key) (submission : SubmissionRecord) (s : Store) : Store :=
  let own : Key := ⟨k.scope, submission.submissionId⟩
  let hadRunningAttempt := s.hasRunningAttempt own
  let s := loseRunningAttempts now own s.attempts.entries s
  let s :=
    if hadRunningAttempt then recordUnknownEffect own.scope own.id (env.now [1, row]) s else s
  let s := { s with submissions := s.submissions.set k (submission.withStatus .cancelled) }
  let s := cancelDispatch k now s
  if acknowledgeOutbox then
    ackSubmissionOutbox (fun n => env.now [2, row, n]) own.scope own.id s
  else s

/-- The loop of `reconcile_cancelled_submissions` over its candidates. -/
def reconcileCancelledRows (env : Env) (now : Instant) (limit : Int) (acknowledgeOutbox : Bool) :
    List (Key × SubmissionRecord) → List SubmissionRecord → Store → List SubmissionRecord × Store
  | [], reconciled, s => (reconciled, s)
  | (k, submission) :: rest, reconciled, s =>
      if max 0 limit ≤ (reconciled.length : Int) then (reconciled, s)
      else if cancellationWaits s k now then
        reconcileCancelledRows env now limit acknowledgeOutbox rest reconciled s
      else
        reconcileCancelledRows env now limit acknowledgeOutbox rest
          (reconciled ++ [submission.withStatus .cancelled])
          (finalizeCancellation env reconciled.length now acknowledgeOutbox k submission s)

/-- The arguments of `reconcile_cancelled_submissions`. -/
structure CancellationSweep where
  limit : Int
  acknowledgeOutbox : Bool
  submissionId : Option String
  executionRoute : Option String

/-- The cancellation requests of a sweep, oldest first. -/
def cancellationCandidates (s : Store) (scope : Scope) (sweep : CancellationSweep) :
    List (Key × SubmissionRecord) :=
  (s.submissions.entries.filter (fun e =>
    e.1.scope = scope && e.2.status = .cancelRequested &&
      sweep.submissionId.all (fun id => e.2.submissionId = id) &&
      sweep.executionRoute.all (fun route => e.2.executionRoute = route))).insertionSort
    (fun a b => stampedLe (a.2.createdAt, a.2.submissionId) (b.2.createdAt, b.2.submissionId))

def reconcileCancelledSubmissions (env : Env) (ctx : ControlPlaneContext)
    (sweep : CancellationSweep) (s : Store) : Outcome (List SubmissionRecord) :=
  if sweep.submissionId.any isBlank then
    raise (.valueError "submission_id must be a non-empty identifier") s
  else if sweep.executionRoute.any (fun route => !isExecutionRoute route) then raise routeError s
  else
    let done := reconcileCancelledRows env (env.now [0]) sweep.limit sweep.acknowledgeOutbox
      (cancellationCandidates s ctx.scopeKey sweep) [] s
    ret done.1 done.2

end Etlantic.ControlPlane.Durable
