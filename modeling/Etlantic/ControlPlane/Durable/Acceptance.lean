import Etlantic.ControlPlane.Durable.Routes

/-!
# Acceptance, the outbox and cancellation requests

`accept` writes a submission, its outbox row and its idempotency entry in one
step.  The rows of the outbox are acknowledged by three different operations.
-/

namespace Etlantic.ControlPlane.Durable

/-- The arguments of `accept`. -/
structure AcceptRequest where
  idempotencyKey : String
  operation : String
  planFingerprint : String
  revisionId : Option String
  pluginFingerprint : Option String
  policyFingerprint : Option String
  inputSnapshot : Option String
  schemaObservationFingerprint : Option String
  schemaBaselineId : Option String
  submissionId : Option String
  runId : Option String
  executionRoute : String

/-- The tuple of immutable inputs that `accept` compares. -/
structure RequestedInputs where
  planFingerprint : String
  revisionId : Option String
  pluginFingerprint : Option String
  policyFingerprint : Option String
  inputSnapshot : Option String
  schemaObservationFingerprint : Option String
  schemaBaselineId : Option String
  environment : Option String
  securityDomainId : Option String
  resourceOwnerId : Option String
  executionRoute : String
deriving DecidableEq

/-- `requested`, with the redacted input snapshot. -/
def requestedInputs (host : Host) (ctx : ControlPlaneContext) (request : AcceptRequest) :
    RequestedInputs where
  planFingerprint := request.planFingerprint
  revisionId := request.revisionId
  pluginFingerprint := request.pluginFingerprint
  policyFingerprint := request.policyFingerprint
  inputSnapshot := redactOrPreserveExecutionEnvelope host request.inputSnapshot
  schemaObservationFingerprint := request.schemaObservationFingerprint
  schemaBaselineId := request.schemaBaselineId
  environment := some ctx.environment.name
  securityDomainId := some ctx.securityDomain.domainId
  resourceOwnerId := ctx.resourceOwnerId
  executionRoute := request.executionRoute

/-- `actual`. -/
def actualInputs (prior : SubmissionRecord) : RequestedInputs where
  planFingerprint := prior.planFingerprint
  revisionId := prior.revisionId
  pluginFingerprint := prior.pluginFingerprint
  policyFingerprint := prior.policyFingerprint
  inputSnapshot := prior.inputSnapshot
  schemaObservationFingerprint := prior.schemaObservationFingerprint
  schemaBaselineId := prior.schemaBaselineId
  environment := prior.environment
  securityDomainId := prior.securityDomainId
  resourceOwnerId := prior.resourceOwnerId
  executionRoute := prior.executionRoute

/-- `"|".join(str(v or "") for v in requested)`. -/
def RequestedInputs.joined (r : RequestedInputs) : String :=
  String.intercalate "|" [r.planFingerprint, r.revisionId.getD "", r.pluginFingerprint.getD "",
    r.policyFingerprint.getD "", r.inputSnapshot.getD "",
    r.schemaObservationFingerprint.getD "", r.schemaBaselineId.getD "", r.environment.getD "",
    r.securityDomainId.getD "", r.resourceOwnerId.getD "", r.executionRoute]

def idempotencyTuple (ctx : ControlPlaneContext) (operation idempotencyKey : String) :
    IdempotencyTuple where
  scope := ctx.scopeKey
  issuer := ctx.principal.issuer.getD ""
  kind := ctx.principal.kind
  subject := ctx.principal.subject
  operation := operation
  idempotencyKey := idempotencyKey

/-- The argument checks of `accept`. -/
def AcceptRequest.invalid (request : AcceptRequest) : Option PyError :=
  if isBlank request.idempotencyKey then some (emptyFieldError "idempotency_key")
  else if isBlank request.operation then some (emptyFieldError "operation")
  else if isBlank request.planFingerprint then some (emptyFieldError "plan_fingerprint")
  else if request.submissionId.any isBlank then some (emptyFieldError "submission_id")
  else if request.runId.any isBlank then some (emptyFieldError "run_id")
  else if isExecutionRoute request.executionRoute = false then some routeError
  else none

/-- The submissions of the tenant that count against the admission limit. -/
def Store.inFlight (s : Store) (tenantId : String) : Nat :=
  s.submissions.count (fun k row => k.scope.tenantId = tenantId && row.status.isNonTerminal)

/-- A repeated `accept` of a known idempotency tuple. -/
def replayAccept (requested : RequestedInputs) (request : AcceptRequest) (existingId : String)
    (prior : SubmissionRecord) (s : Store) : Outcome (SubmissionRecord × Bool) :=
  if actualInputs prior ≠ requested then
    raise (conflict "Idempotency key reuse with different immutable inputs") s
  else if request.submissionId.any (fun given => given ≠ existingId) then
    raise (conflict "Idempotency key reuse with different submission_id") s
  else if request.runId.any (fun given => prior.runId.any (fun stored => given ≠ stored)) then
    raise (conflict "Idempotency key reuse with different run_id") s
  else ret (prior, false) s

/-- The record `accept` stores. -/
def acceptedSubmission (ctx : ControlPlaneContext) (request : AcceptRequest)
    (requested : RequestedInputs) (submissionId : String) (createdAt : Instant) :
    SubmissionRecord where
  submissionId := submissionId
  scope := ctx.scopeKey
  principalSubject := ctx.principal.subject
  operation := request.operation
  idempotencyKey := request.idempotencyKey
  createdAt := createdAt
  planFingerprint := request.planFingerprint
  revisionId := request.revisionId
  pluginFingerprint := request.pluginFingerprint
  policyFingerprint := request.policyFingerprint
  inputSnapshot := requested.inputSnapshot
  principalIssuer := ctx.principal.issuer
  principalKind := ctx.principal.kind
  status := .accepted
  schemaObservationFingerprint := request.schemaObservationFingerprint
  schemaBaselineId := request.schemaBaselineId
  environment := some ctx.environment.name
  securityDomainId := some ctx.securityDomain.domainId
  resourceOwnerId := ctx.resourceOwnerId
  runId := request.runId
  executionRoute := request.executionRoute

/-- The outbox row `accept` stores. -/
def acceptedOutbox (host : Host) (ctx : ControlPlaneContext) (requested : RequestedInputs)
    (outboxId submissionId : String) (createdAt : Instant) : OutboxRecord where
  outboxId := outboxId
  submissionId := submissionId
  scope := ctx.scopeKey
  createdAt := createdAt
  payloadFingerprint := host.sha256 requested.joined
  publishedAt := none
  deliveryCount := 0

/-- The three writes of a new acceptance. -/
def insertAcceptance (host : Host) (env : Env) (ctx : ControlPlaneContext)
    (request : AcceptRequest) (submissionId : String) (s : Store) :
    Outcome (SubmissionRecord × Bool) :=
  let requested := requestedInputs host ctx request
  let record := acceptedSubmission ctx request requested submissionId (env.now [0])
  let outbox := acceptedOutbox host ctx requested (env.generatedId "out-" 16 1) submissionId
    (env.now [1])
  ret (record, true) { s with
    submissions := s.submissions.set (key ctx submissionId) record
    outbox := s.outbox.set (key ctx outbox.outboxId) outbox
    idempotency := s.idempotency.set
      (idempotencyTuple ctx request.operation request.idempotencyKey) submissionId }

def accept (host : Host) (env : Env) (ctx : ControlPlaneContext) (request : AcceptRequest)
    (s : Store) : Outcome (SubmissionRecord × Bool) :=
  match request.invalid with
  | some error => raise error s
  | none =>
      match s.idempotency.get? (idempotencyTuple ctx request.operation request.idempotencyKey) with
      | some existingId =>
          match s.submissions.get? (key ctx existingId) with
          | none => raise .keyError s
          | some prior => replayAccept (requestedInputs host ctx request) request existingId prior s
      | none =>
          let routeState := s.routeState request.executionRoute
          if routeState.status ≠ .active then
            raise (conflictWith "Execution route is not accepting new submissions"
              (inactiveRouteExtensions request.executionRoute routeState)) s
          else if s.admissionLimit.any
              (fun limit => limit ≤ (s.inFlight ctx.tenant.tenantId : Int)) then
            raise (conflict "Per-tenant admission limit exceeded") s
          else
            match request.submissionId with
            | none => insertAcceptance host env ctx request (env.generatedId "sub-" 16 0) s
            | some submissionId =>
                if s.submissions.contains (key ctx submissionId) then
                  raise (conflict "submission_id already exists for a different accept") s
                else insertAcceptance host env ctx request submissionId s

/-! ## Acknowledging outbox rows -/

def markPublished (env : Env) (ctx : ControlPlaneContext) (outboxId : String) (s : Store) :
    Outcome OutboxRecord :=
  match s.outbox.get? (key ctx outboxId) with
  | none => raise (notFound "Outbox record not found") s
  | some row =>
      if row.publishedAt ≠ none then ret row s
      else
        let row := row.acknowledge (env.now [0])
        let s := { s with outbox := s.outbox.set (key ctx outboxId) row }
        match s.submissions.get? (key ctx row.submissionId) with
        | none => raise .keyError s
        | some submission =>
            -- Never revive cancel_requested or terminal work via publish.
            if submission.status = .accepted then
              ret row { s with
                submissions := s.submissions.set (key ctx row.submissionId)
                  (submission.withStatus .dispatched) }
            else ret row s

/-- The unpublished rows of a scope, oldest first. -/
def unpublishedRows (s : Store) (scope : Scope) : List (Key × OutboxRecord) :=
  (s.outbox.entries.filter (fun e => e.1.scope = scope && e.2.publishedAt = none)).insertionSort
    (fun a b => stampedLe (a.2.createdAt, a.2.outboxId) (b.2.createdAt, b.2.outboxId))

/-- The loop of `reconcile_terminal_outbox` over its candidates. -/
def reconcileTerminalRows (env : Env) (scope : Scope) (limit : Int) :
    List (Key × OutboxRecord) → List OutboxRecord → Store → List OutboxRecord × Store
  | [], reconciled, s => (reconciled, s)
  | (k, row) :: rest, reconciled, s =>
      if max 0 limit ≤ (reconciled.length : Int) then (reconciled, s)
      else
        match s.submissions.get? ⟨scope, row.submissionId⟩ with
        | none => reconcileTerminalRows env scope limit rest reconciled s
        | some submission =>
            if submission.status.isTerminal = false then
              reconcileTerminalRows env scope limit rest reconciled s
            else
              let acknowledged := row.acknowledge (env.now [reconciled.length])
              reconcileTerminalRows env scope limit rest (reconciled ++ [acknowledged])
                { s with outbox := s.outbox.set k acknowledged }

def reconcileTerminalOutbox (env : Env) (ctx : ControlPlaneContext) (limit : Int) (s : Store) :
    Outcome (List OutboxRecord) :=
  let done := reconcileTerminalRows env ctx.scopeKey limit (unpublishedRows s ctx.scopeKey) [] s
  ret done.1 done.2

/-- The loop of `_ack_submission_outbox_locked` over the rows it started with. -/
def ackRows (at_ : Nat → Instant) (scope : Scope) (submissionId : String) :
    Nat → List (Key × OutboxRecord) → Store → Store
  | _, [], s => s
  | n, (k, row) :: rest, s =>
      if k.scope = scope ∧ row.submissionId = submissionId ∧ row.publishedAt = none then
        ackRows at_ scope submissionId (n + 1) rest
          { s with outbox := s.outbox.set k (row.acknowledge (at_ n)) }
      else ackRows at_ scope submissionId n rest s

/-- `_ack_submission_outbox_locked`. -/
def ackSubmissionOutbox (at_ : Nat → Instant) (scope : Scope) (submissionId : String) (s : Store) :
    Store :=
  ackRows at_ scope submissionId 0 s.outbox.entries s

/-! ## Cancellation requests -/

/-- The submission has a running attempt. -/
def Store.hasRunningAttempt (s : Store) (k : Key) : Bool :=
  s.attempts.any (fun attemptKey attempt =>
    attemptKey.scope = k.scope && attempt.submissionId = k.id && attempt.status = .running)

/-- The submission is marked `cancel_requested`, if it is not yet. -/
def requestCancellation (k : Key) (submission : SubmissionRecord) (s : Store) : Store :=
  if submission.status = .cancelRequested then s
  else { s with submissions := s.submissions.set k (submission.withStatus .cancelRequested) }

def cancelSubmission (env : Env) (ctx : ControlPlaneContext) (submissionId : String) (s : Store) :
    Outcome SubmissionRecord :=
  let k := key ctx submissionId
  match s.submissions.get? k with
  | none => raise (notFound "Submission not found") s
  | some submission =>
      if submission.status.isTerminal then
        raise (conflict "Terminal submission cannot be cancelled") s
      else
        let requested := submission.withStatus .cancelRequested
        let s := requestCancellation k submission s
        match s.leases.get? k with
        | none => ret requested s
        | some lease =>
            -- A live attempt keeps its lease to acknowledge the cancellation;
            -- queued work has no owner to wake.
            if env.now [0] < lease.expiresAt ∧ s.hasRunningAttempt k = false then
              ret requested { s with
                leases := s.leases.set k (lease.expire (env.now [1]) (env.now [2])) }
            else ret requested s

end Etlantic.ControlPlane.Durable
