import Etlantic.ControlPlane.Durable.Previews

/-!
# Action jobs

Owner-scoped connector actions: accepted under an idempotency tuple, claimed
under a fence, finished, cancelled, and their expired results deleted.
-/

namespace Etlantic.ControlPlane.Durable

def actionDeadlineError : PyError :=
  .controlPlane {
    message := "Action deadline must be an ISO timestamp with a timezone"
    code := "PMCP400"
    status := 400
    type := "etlantic.control_plane/bad_request"
    title := "Bad Request"
    extensions := [] }

def actionPayloadError : PyError :=
  .controlPlane {
    message := "Connector action request exceeds the configured byte limit"
    code := "PMCP413"
    status := 413
    type := "etlantic.control_plane/payload_too_large"
    title := "Payload Too Large"
    extensions := [] }

/-- `_ACTION_ERROR_CODES`. -/
def actionErrorCodes : List String :=
  ["action_failed", "authorization_denied", "deadline_exceeded", "handler_unavailable",
    "invalid_action_request", "invalid_effect_receipt", "provider_timeout",
    "provision_parent_unavailable", "result_limit_exceeded"]

/-- `ctx.resource_owner_id or ctx.principal.identity_key`. -/
def actionOwner (host : Host) (ctx : ControlPlaneContext) : String :=
  ctx.resourceOwnerId.getD (ctx.principal.identityKey host.sha256)

/-- `json.dumps(..., sort_keys=True, separators=(",", ":"), allow_nan=False)`. -/
def canonicalText (fields : List (String × Json)) : String :=
  (Json.obj fields).dumps Json.escapeAscii

/-- The arguments of `accept_action_job`. -/
structure ActionRequest where
  action : String
  idempotencyKey : String
  request : List (String × Json)
  deadlineAt : String

/-- The idempotency tuple, with or without the authority of the caller. -/
def actionIdempotencyTuple (ctx : ControlPlaneContext)
    (authority : Option (String × String × String)) (request : ActionRequest) :
    ActionIdempotencyTuple where
  scope := ctx.scopeKey
  authority := authority
  issuer := ctx.principal.issuer.getD ""
  kind := ctx.principal.kind
  subject := ctx.principal.subject
  action := request.action
  idempotencyKey := request.idempotencyKey

/-- `idem`. -/
def actionIdem (host : Host) (ctx : ControlPlaneContext) (request : ActionRequest) :
    ActionIdempotencyTuple :=
  actionIdempotencyTuple ctx
    (some (ctx.securityDomain.domainId, ctx.environment.name, actionOwner host ctx)) request

/-- The caller owns the job and shares its security domain and environment. -/
def ownsAction (host : Host) (ctx : ControlPlaneContext) (row : ActionJobRecord) : Bool :=
  row.ownerId = actionOwner host ctx && row.securityDomainId = ctx.securityDomain.domainId &&
    row.environment = ctx.environment.name

/-- The action a tuple or its legacy form was accepted under. -/
def priorAction (host : Host) (ctx : ControlPlaneContext) (request : ActionRequest) (s : Store) :
    Option String :=
  match s.actionIdempotency.get? (actionIdem host ctx request) with
  | some id => some id
  | none =>
      match s.actionIdempotency.get? (actionIdempotencyTuple ctx none request) with
      | none => none
      | some legacyId =>
          ((s.actionJobs.get? (key ctx legacyId)).filter (ownsAction host ctx)).map
            ActionJobRecord.actionId

/-- A terminal provisioning job without a receipt that a same-key accept reopens. -/
def isRecoverable (prior : ActionJobRecord) : Bool :=
  (prior.action = "connector.provision" || prior.action = "connector.provision.cleanup") &&
    prior.resultJson = none && (prior.status = .timedOut || prior.status = .failed) &&
    (prior.errorCode = some "deadline_exceeded" || prior.errorCode = some "action_failed" ||
      prior.errorCode = some "provider_timeout")

/-- The digest that identifies the inputs of an action. -/
def requestFingerprint (host : Host) (action : String) (safeRequest : List (String × Json)) :
    String :=
  host.sha256 (canonicalText [("action", .str action), ("request", .obj safeRequest)])

/-- The job `accept_action_job` stores. -/
def queuedAction (host : Host) (ctx : ControlPlaneContext) (request : ActionRequest)
    (safeRequest : List (String × Json)) (actionId : String) (createdAt : Instant) :
    ActionJobRecord where
  actionId := actionId
  scope := ctx.scopeKey
  ownerId := actionOwner host ctx
  principalSubject := ctx.principal.subject
  principalIssuer := ctx.principal.issuer
  principalKind := ctx.principal.kind
  environment := ctx.environment.name
  securityDomainId := ctx.securityDomain.domainId
  action := request.action
  idempotencyKey := request.idempotencyKey
  requestFingerprint := requestFingerprint host request.action safeRequest
  requestJson := canonicalText safeRequest
  createdAt := createdAt
  deadlineAt := request.deadlineAt
  status := .queued
  phase := .queued
  attempt := 0
  fencingToken := 0
  workerId := none
  leaseExpiresAt := none
  startedAt := none
  completedAt := none
  resultJson := none
  resultExpiresAt := none
  errorCode := none

def acceptActionJob (host : Host) (env : Env) (ctx : ControlPlaneContext)
    (request : ActionRequest) (s : Store) : Outcome ActionJobRecord :=
  if isBlank request.action ∨ isBlank request.idempotencyKey then
    raise (.valueError "action and idempotency_key must not be empty") s
  else
    match host.parse request.deadlineAt with
    | none | some (.naive _) => raise actionDeadlineError s
    | some (.aware deadline) =>
        if deadline ≤ env.now [0] then raise (conflict "Action deadline has already elapsed") s
        else
          let safeRequest := redactControlPlanePayload host.unicode request.request
          if 64 * 1024 < (canonicalText safeRequest).utf8ByteSize then raise actionPayloadError s
          else
            match priorAction host ctx request s with
            | some priorId =>
                match s.actionJobs.get? (key ctx priorId) with
                | none => raise .keyError s
                | some prior =>
                    if prior.requestFingerprint ≠
                        requestFingerprint host request.action safeRequest then
                      raise (conflict "Action idempotency key reuse has different inputs") s
                    else if isRecoverable prior then
                      let reopened := { prior with
                        status := .queued, phase := .queued, deadlineAt := request.deadlineAt,
                        completedAt := none, errorCode := none }
                      ret reopened { s with
                        actionJobs := s.actionJobs.set (key ctx priorId) reopened }
                    else ret prior s
            | none =>
                let record := queuedAction host ctx request safeRequest
                  (env.generatedId "act-" 24 0) (env.now [1])
                ret record { s with
                  actionJobs := s.actionJobs.set (key ctx record.actionId) record
                  actionIdempotency :=
                    s.actionIdempotency.set (actionIdem host ctx request) record.actionId }

def cancelActionJob (host : Host) (env : Env) (ctx : ControlPlaneContext) (actionId : String)
    (s : Store) : Outcome ActionJobRecord :=
  let k := key ctx actionId
  match (s.actionJobs.get? k).filter (ownsAction host ctx) with
  | none => raise (notFound "Preparation operation not found") s
  | some row =>
      if row.action ≠ "run.prepare" then raise (notFound "Preparation operation not found") s
      else if row.status = .queued then
        let cancelled := { row with
          status := .cancelled, phase := .cancelled, completedAt := some (env.now [0]),
          errorCode := none }
        ret cancelled { s with actionJobs := s.actionJobs.set k cancelled }
      else if row.status = .running ∧ row.phase ≠ .accepting then
        let cancelled := { row with status := .cancelRequested }
        ret cancelled { s with actionJobs := s.actionJobs.set k cancelled }
      else if row.status = .cancelRequested then ret row s
      else
        raise (conflictWith "Preparation can no longer be cancelled"
          [("reason", .str "acceptance_started")]) s

/-! ## Claiming -/

/-- An instant that is set and has passed. -/
def hasPassed (at_ : Option Instant) (now : Instant) : Bool := at_.any (fun t => t ≤ now)

def isLiveAction (row : ActionJobRecord) : Bool :=
  row.status = .queued || row.status = .running || row.status = .cancelRequested

/-- The job of a worker that lost its lease after a cancellation request. -/
def expiredCancellation (row : ActionJobRecord) (current : Instant) : ActionJobRecord :=
  { row with
    status := .cancelled, phase := .cancelled, completedAt := some current, workerId := none,
    leaseExpiresAt := none }

/-- The job after its deadline. -/
def timedOutAction (row : ActionJobRecord) (current : Instant) : ActionJobRecord :=
  { row with
    status := .timedOut, completedAt := some current, workerId := none, leaseExpiresAt := none,
    errorCode := some "deadline_exceeded" }

/-- The first loop of `claim_action_job`: cancelled and overdue jobs end. -/
def sweepActions (host : Host) (current : Instant) (scope : Scope) :
    List (Key × ActionJobRecord) → Store → Outcome Unit
  | [], s => ret () s
  | (k, row) :: rest, s =>
      if k.scope = scope ∧ isLiveAction row = true then
        if row.status = .cancelRequested ∧ hasPassed row.leaseExpiresAt current = true then
          sweepActions host current scope rest
            { s with actionJobs := s.actionJobs.set k (expiredCancellation row current) }
        else
          match parsedBy host row.deadlineAt current with
          | .error error => raise error s
          | .ok false => sweepActions host current scope rest s
          | .ok true =>
              sweepActions host current scope rest
                { s with actionJobs := s.actionJobs.set k (timedOutAction row current) }
      else sweepActions host current scope rest s

/-- The jobs a worker may claim, oldest first. -/
def claimableActions (host : Host) (current : Instant) (scope : Scope) (s : Store) :
    Except PyError (List (Key × ActionJobRecord)) :=
  ((s.actionJobs.entries.filter (fun e =>
      e.1.scope = scope && (e.2.status = .queued || e.2.status = .running))).mapM
    (fun e => (parsedBy host e.2.deadlineAt current).map (fun passed => (passed, e)))).map
    fun rows =>
      ((rows.filter (fun row =>
          !row.1 && (row.2.2.status = .queued || row.2.2.leaseExpiresAt = none ||
            hasPassed row.2.2.leaseExpiresAt current))).map Prod.snd).insertionSort
        (fun a b => stampedLe (a.2.createdAt, a.2.actionId) (b.2.createdAt, b.2.actionId))

def claimActionJob (host : Host) (env : Env) (ctx : ControlPlaneContext) (workerId : String)
    (leaseSeconds : Int) (now : Option Instant) (s : Store) : Outcome (Option ActionJobRecord) :=
  if isBlank workerId ∨ leaseSeconds < 1 then
    raise (.valueError "worker_id and a positive lease_seconds are required") s
  else
    let current := now.getD (env.now [0])
    let swept := sweepActions host current ctx.scopeKey s.actionJobs.entries s
    match swept.result with
    | .error error => raise error swept.store
    | .ok _ =>
        match claimableActions host current ctx.scopeKey swept.store with
        | .error error => raise error swept.store
        | .ok [] => ret none swept.store
        | .ok ((k, row) :: _) =>
            let claimed := { row with
              status := .running
              attempt := row.attempt + 1
              fencingToken := row.fencingToken + 1
              workerId := some workerId
              leaseExpiresAt := some (current + seconds leaseSeconds)
              startedAt := some (row.startedAt.getD current)
              phase := if row.phase = .queued then .preparing else row.phase }
            ret (some claimed)
              { swept.store with actionJobs := swept.store.actionJobs.set k claimed }

/-- The worker holds the live lease of a job. -/
def holdsAction (row : ActionJobRecord) (workerId : String) (fencingToken : Int)
    (current : Instant) : Bool :=
  row.workerId = some workerId && row.fencingToken = fencingToken &&
    isAhead row.leaseExpiresAt current

def heartbeatActionJob (env : Env) (ctx : ControlPlaneContext) (actionId workerId : String)
    (fencingToken leaseSeconds : Int) (now : Option Instant) (s : Store) :
    Outcome ActionJobRecord :=
  if isBlank workerId ∨ leaseSeconds < 1 then
    raise (.valueError "worker_id and a positive lease_seconds are required") s
  else
    let current := now.getD (env.now [0])
    let k := key ctx actionId
    match s.actionJobs.get? k with
    | none => raise (notFound "Action job not found") s
    | some row =>
        if (row.status = .running ∨ row.status = .cancelRequested) ∧
            holdsAction row workerId fencingToken current = true then
          let updated := { row with leaseExpiresAt := some (current + seconds leaseSeconds) }
          ret updated { s with actionJobs := s.actionJobs.set k updated }
        else raise (conflict "Action worker lease is stale") s

def markActionJobAccepting (env : Env) (ctx : ControlPlaneContext) (actionId workerId : String)
    (fencingToken : Int) (now : Option Instant) (s : Store) : Outcome ActionJobRecord :=
  let current := now.getD (env.now [0])
  let k := key ctx actionId
  match s.actionJobs.get? k with
  | none => raise (notFound "Action job not found") s
  | some row =>
      if row.status = .cancelRequested then
        raise (conflictWith "Preparation was cancelled before acceptance"
          [("reason", .str "cancelled")]) s
      else if row.action ≠ "run.prepare" ∨ row.status ≠ .running ∨
          holdsAction row workerId fencingToken current = false then
        raise (conflict "Action worker lease is stale") s
      else if row.phase = .accepting then ret row s
      else
        let updated := { row with phase := .accepting }
        ret updated { s with actionJobs := s.actionJobs.set k updated }

/-! ## Finishing -/

/-- The arguments of `finish_action_job`. -/
structure ActionCompletion where
  workerId : String
  fencingToken : Int
  status : String
  result : Option (List (String × Json))
  errorCode : Option String
  resultTtlSeconds : Option Int

/-- The job ends without a result of its own. -/
def closedAction (row : ActionJobRecord) (status : ActionJobStatus) (current : Instant) :
    ActionJobRecord :=
  { row with
    status := status, completedAt := some current, workerId := none, leaseExpiresAt := none }

/-- The retention checks of a completion before its deadline. -/
def retentionError (row : ActionJobRecord) (status : ActionJobStatus) (ttl : Option Int) :
    Option PyError :=
  if status = .succeeded then
    if row.action = "connector.preview" then
      match ttl with
      | none => some (.valueError "connector preview results require separate retention")
      | some n =>
          if n < 60 ∨ 86400 < n then
            some (.valueError
              "connector preview result TTL must be between 60 and 86400 seconds")
          else none
    else if ttl ≠ none then
      some (.valueError "result TTL applies only to connector preview actions")
    else none
  else if ttl ≠ none then some (.valueError "failed action jobs cannot retain result payloads")
  else none

/-- The record of a worker that finishes under its live lease. -/
def finishedAction (host : Host) (row : ActionJobRecord) (completion : ActionCompletion)
    (status : ActionJobStatus) (effectJson : Option String) (current : Instant) :
    Except PyError ActionJobRecord :=
  if row.status = .cancelRequested ∨ status = .cancelled then
    .ok { closedAction row .cancelled current with
      phase := .cancelled, resultJson := effectJson, resultExpiresAt := none, errorCode := none }
  else if status = .timedOut then
    if completion.resultTtlSeconds ≠ none then
      .error (.valueError "timed-out action jobs cannot retain result payloads")
    else
      match parsedBy host row.deadlineAt current with
      | .error error => .error error
      | .ok false => .error (conflict "Action deadline has not elapsed")
      | .ok true => .ok (timedOutAction row current)
  else
    match parsedBy host row.deadlineAt current with
    | .error error => .error error
    | .ok true => .ok { timedOutAction row current with resultJson := effectJson }
    | .ok false =>
        match retentionError row status completion.resultTtlSeconds with
        | some error => .error error
        | none =>
            let safeResult :=
              redactControlPlanePayload host.unicode (completion.result.getD [])
            .ok { closedAction row status current with
              resultJson := if status = .succeeded then some (canonicalText safeResult) else none
              resultExpiresAt :=
                if status = .succeeded then
                  completion.resultTtlSeconds.map (fun n => current + seconds n)
                else none
              errorCode :=
                if status = .failed then
                  some ((completion.errorCode.filter (fun code => code ∈ actionErrorCodes)).getD
                    "action_failed")
                else none }

def finishActionJob (host : Host) (env : Env) (ctx : ControlPlaneContext) (actionId : String)
    (completion : ActionCompletion) (now : Option Instant) (s : Store) :
    Outcome ActionJobRecord :=
  match ActionJobStatus.ofCompletionText? completion.status with
  | none => raise (.valueError "action job completion status is invalid") s
  | some status =>
      if completion.resultTtlSeconds.any (fun n => n < 1) then
        raise (.valueError "result_ttl_seconds must be a positive integer") s
      else
        let current := now.getD (env.now [0])
        let k := key ctx actionId
        match s.actionJobs.get? k with
        | none => raise (notFound "Action job not found") s
        | some row =>
            let retainsEffect : Bool :=
              (row.action = "connector.provision" || row.action = "connector.provision.cleanup" ||
                row.action = "run.prepare") &&
                status = .succeeded && completion.result.isSome &&
                completion.resultTtlSeconds = none
            let effectJson :=
              if retainsEffect then
                some (canonicalText
                  (redactControlPlanePayload host.unicode (completion.result.getD [])))
              else none
            if (row.status = .timedOut ∨ row.status = .cancelled) ∧
                row.fencingToken = completion.fencingToken ∧ row.startedAt ≠ none ∧
                retainsEffect = true then
              -- A receipt describes a committed mutation: the terminal status stays.
              if row.resultJson ≠ none ∧ row.resultJson ≠ effectJson then
                raise (conflict "Action effect receipt conflicts") s
              else
                let finished := { row with resultJson := effectJson }
                ret finished { s with actionJobs := s.actionJobs.set k finished }
            else if (row.status ≠ .running ∧ row.status ≠ .cancelRequested) ∨
                holdsAction row completion.workerId completion.fencingToken current = false then
              raise (conflict "Action worker lease is stale") s
            else
              match finishedAction host row completion status effectJson current with
              | .error error => raise error s
              | .ok finished =>
                  ret finished { s with actionJobs := s.actionJobs.set k finished }

/-- The order `(result_expires_at or "", action_id)` of two jobs. -/
def expiryLe (a b : Key × ActionJobRecord) : Bool :=
  match a.2.resultExpiresAt, b.2.resultExpiresAt with
  | some t, some u => stampedLe (t, a.2.actionId) (u, b.2.actionId)
  | none, some _ => true
  | some _, none => false
  | none, none => a.2.actionId ≤ b.2.actionId

def cleanupExpiredActionResults (env : Env) (ctx : ControlPlaneContext) (limit : Int)
    (now : Option Instant) (s : Store) : Outcome Nat :=
  if limit < 1 ∨ 1000 < limit then raise (.valueError "limit must be between 1 and 1000") s
  else
    let current := now.getD (env.now [0])
    let expired := ((s.actionJobs.entries.filter (fun e =>
      e.1.scope = ctx.scopeKey && e.2.resultJson ≠ none &&
        hasPassed e.2.resultExpiresAt current)).insertionSort (fun a b => expiryLe a b)).take
          limit.toNat
    ret expired.length { s with
      actionJobs := expired.foldl
        (fun jobs e => jobs.set e.1 { e.2 with resultJson := none }) s.actionJobs }

end Etlantic.ControlPlane.Durable
