import Etlantic.ControlPlane.Durable.Acceptance

/-!
# Remote dispatch

The fenced delivery of a submission to a remote backend: the dispatch record is
prepared before any remote create, claimed under a lease, linked to the remote
run or released, and rearmed with a new generation while no execution began.
-/

namespace Etlantic.ControlPlane.Durable

/-- `_MAX_DISPATCH_GENERATIONS`. -/
def maxDispatchGenerations : Nat := 3

/-- `PLAN_SCHEMA`. -/
def planSchemaTag : String := "etlantic.plan/1"

/-- The text that `_dispatch_creation_key` digests. -/
def creationIdentity (k : Key) (binding : String) (generation : Nat) : String :=
  (Json.arr [.str k.scope.tenantId, .str k.scope.workspaceId, .str k.id, .str binding,
    .int generation]).dumps Json.escapeAscii

/-- `_dispatch_creation_key`. -/
def dispatchCreationKey (host : Host) (k : Key) (binding : String) (generation : Nat) : String :=
  "etlantic-" ++ host.sha256 (creationIdentity k binding generation)

/-- The dispatch that `prepare_dispatch` stores. -/
def preparedDispatch (host : Host) (ctx : ControlPlaneContext) (submission : SubmissionRecord)
    (submissionId snapshot : String) (now : Instant)
    (hvalid : isExecutionRoute submission.executionRoute = true)
    (hprefect : isPrefectRoute submission.executionRoute = true) : DispatchRecord where
  submissionId := submissionId
  scope := ctx.scopeKey
  executionRoute := submission.executionRoute
  bindingFingerprint := removePrefix "prefect:" submission.executionRoute
  planFingerprint := submission.planFingerprint
  envelopeSha256 := host.sha256 snapshot
  generation := 1
  creationKey := dispatchCreationKey host (key ctx submissionId)
    (removePrefix "prefect:" submission.executionRoute) 1
  createdAt := now
  updatedAt := now
  status := if submission.status.isIneligible then .cancelled else .pending
  dispatchAttempts := 0
  leaseOwnerId := none
  leaseFencingToken := 0
  leaseExpiresAt := none
  retryAfterAt := none
  lastErrorCode := none
  reconciliationHistory := []
  remoteRunId := none
  routeValid := hvalid
  routePrefect := hprefect
  bindingOfRoute := rfl

def prepareDispatch (host : Host) (env : Env) (ctx : ControlPlaneContext) (submissionId : String)
    (s : Store) : Outcome DispatchRecord :=
  let k := key ctx submissionId
  match s.submissions.get? k with
  | none => raise (notFound "Submission not found") s
  | some submission =>
      if hvalid : isExecutionRoute submission.executionRoute = true then
        if hprefect : isPrefectRoute submission.executionRoute = true then
          match submission.inputSnapshot.filter (fun text => text ≠ "") with
          | none =>
              raise (conflict "Prefect dispatch requires an immutable execution envelope") s
          | some snapshot =>
              match host.executionEnvelope snapshot with
              | .error error => raise error s
              | .ok envelope =>
                  if envelope.planFingerprint ≠ submission.planFingerprint ∨
                      envelope.planSchema ≠ some planSchemaTag then
                    raise (conflict
                      "Submission envelope is unsupported for managed Prefect dispatch") s
                  else
                    let binding := removePrefix "prefect:" submission.executionRoute
                    match s.dispatches.get? k with
                    | some existing =>
                        if existing.executionRoute ≠ submission.executionRoute ∨
                            existing.bindingFingerprint ≠ binding ∨
                            existing.planFingerprint ≠ submission.planFingerprint ∨
                            existing.envelopeSha256 ≠ host.sha256 snapshot ∨
                            existing.creationKey ≠
                              dispatchCreationKey host k binding existing.generation then
                          raise (conflict
                            "Accepted dispatch identity conflicts with its durable record") s
                        else ret existing s
                    | none =>
                        let record := preparedDispatch host ctx submission submissionId snapshot
                          (env.now [0]) hvalid hprefect
                        ret record { s with dispatches := s.dispatches.set k record }
        else raise (conflict "Submission is not assigned to a Prefect execution route") s
      else raise routeError s

/-! ## The dispatch lease -/

/-- An instant that is set and still ahead. -/
def isAhead (at_ : Option Instant) (now : Instant) : Bool := at_.any (fun t => now < t)

/-- The claimed record. -/
def claimedDispatch (record : DispatchRecord) (ownerId : String) (leaseSeconds : Int)
    (current : Instant) : DispatchRecord :=
  { record with
    status := .leased
    dispatchAttempts := record.dispatchAttempts + 1
    leaseOwnerId := some ownerId
    leaseFencingToken := record.leaseFencingToken + 1
    leaseExpiresAt := some (current + seconds leaseSeconds)
    updatedAt := current }

/-- `claim_dispatch` refuses the record of this submission. -/
def isUnclaimable (record : DispatchRecord) (submission : SubmissionRecord) (current : Instant) :
    Bool :=
  record.status.isSettled || isAhead record.retryAfterAt current ||
    (submission.status.isIneligible &&
      !(record.status = .uncertain &&
        (submission.status = .cancelRequested || submission.status = .cancelled))) ||
    (record.status = .leased && isAhead record.leaseExpiresAt current)

def claimDispatch (env : Env) (ctx : ControlPlaneContext) (submissionId ownerId : String)
    (leaseSeconds : Int) (now : Option Instant) (s : Store) : Outcome (Option DispatchRecord) :=
  if isBlank ownerId ∨ 256 < ownerId.toList.length then
    raise (.valueError "owner_id must contain 1 to 256 characters") s
  else if leaseSeconds < 1 ∨ 600 < leaseSeconds then
    raise (.valueError "lease_seconds must be between 1 and 600") s
  else
    let current := now.getD (env.now [0])
    let k := key ctx submissionId
    match s.dispatches.get? k, s.submissions.get? k with
    | some record, some submission =>
        if isUnclaimable record submission current then ret none s
        else
          let claimed := claimedDispatch record ownerId leaseSeconds current
          ret (some claimed) { s with dispatches := s.dispatches.set k claimed }
    | _, _ => raise (notFound "Dispatch candidate not found") s

/-- The linked record. -/
def linkedDispatch (record : DispatchRecord) (remoteRunId : RemoteRunId) (current : Instant) :
    DispatchRecord :=
  { record with
    status := .dispatched
    remoteRunId := some remoteRunId
    leaseOwnerId := none
    leaseExpiresAt := none
    retryAfterAt := none
    lastErrorCode := none
    updatedAt := current }

/-- `record` is leased to the caller. -/
def holdsDispatchLease (record : DispatchRecord) (ownerId : String) (fencingToken : Int) : Bool :=
  record.status = .leased && record.leaseOwnerId = some ownerId &&
    record.leaseFencingToken = fencingToken

def linkDispatch (env : Env) (ctx : ControlPlaneContext) (submissionId ownerId : String)
    (fencingToken : Int) (remoteRunId prefectFlowRunId : Option String) (now : Option Instant)
    (s : Store) : Outcome DispatchRecord :=
  match selectRemoteRunId remoteRunId prefectFlowRunId with
  | .error error => raise error s
  | .ok selected =>
      let current := now.getD (env.now [0])
      let k := key ctx submissionId
      match s.dispatches.get? k with
      | none => raise (notFound "Dispatch record not found") s
      | some record =>
          if record.status = .dispatched then
            if record.remoteRunId = some selected then ret record s
            else raise (conflict "Dispatch is already linked to a different remote run") s
          else if holdsDispatchLease record ownerId fencingToken &&
              isAhead record.leaseExpiresAt current then
            let linked := linkedDispatch record selected current
            ret linked { s with dispatches := s.dispatches.set k linked }
          else raise (conflict "Dispatch lease was lost") s

/-- The retry delay after a failed delivery, in seconds. -/
def dispatchBackoff (attempts : Nat) : Int := min 300 (2 ^ min attempts 9)

/-- The released record. -/
def releasedDispatch (record : DispatchRecord) (outcomeUncertain cancelled : Bool)
    (errorCode : Option String) (current : Instant) : DispatchRecord :=
  { record with
    status := if cancelled then .cancelled else if outcomeUncertain then .uncertain else .pending
    leaseOwnerId := none
    leaseExpiresAt := none
    retryAfterAt :=
      if cancelled then none
      else some (current + seconds (dispatchBackoff record.dispatchAttempts))
    lastErrorCode := errorCode
    updatedAt := current }

/-- A bounded lowercase diagnostic token. -/
def isErrorCode (u : Unicode) (code : String) : Bool :=
  code.toList.length ≤ 64 &&
    code.toList.all (fun c => u.isLower c || u.isDigit c || c = '_')

def releaseDispatch (host : Host) (env : Env) (ctx : ControlPlaneContext)
    (submissionId ownerId : String) (fencingToken : Int) (outcomeUncertain cancelled : Bool)
    (errorCode : Option String) (now : Option Instant) (s : Store) : Outcome DispatchRecord :=
  if errorCode.any (fun code => !isErrorCode host.unicode code) then
    raise (.valueError "error_code must be a bounded lowercase diagnostic token") s
  else
    let current := now.getD (env.now [0])
    let k := key ctx submissionId
    match s.dispatches.get? k with
    | none => raise (notFound "Dispatch record not found") s
    | some record =>
        if record.status = .dispatched then ret record s
        else if holdsDispatchLease record ownerId fencingToken then
          let released := releasedDispatch record outcomeUncertain cancelled errorCode current
          ret released { s with dispatches := s.dispatches.set k released }
        else raise (conflict "Dispatch lease was lost") s

/-! ## New generations -/

/-- The submission has an attempt, an effect or a result publication. -/
def Store.executionBegan (s : Store) (k : Key) : Bool :=
  s.attempts.any (fun _ attempt => attempt.submissionId = k.id && attempt.scope = k.scope) ||
    s.effects.any (fun _ effect => effect.submissionId = k.id && effect.scope = k.scope) ||
    s.resultPublications.any (fun _ publication =>
      publication.submissionId = k.id && publication.scope = k.scope)

/-- A lease that has not expired. -/
def Store.leaseLive (s : Store) (k : Key) (now : Instant) : Bool :=
  (s.leases.get? k).any (fun lease => now < lease.expiresAt)

/-- The record with the next generation. -/
def rearmedDispatch (host : Host) (k : Key) (record : DispatchRecord) (errorCode : String)
    (current : Instant) : DispatchRecord :=
  { record with
    generation := record.generation + 1
    creationKey := dispatchCreationKey host k record.bindingFingerprint (record.generation + 1)
    status := .pending
    remoteRunId := none
    retryAfterAt := none
    lastErrorCode := some errorCode
    updatedAt := current }

/-- The record once its generations are used up. -/
def exhaustedDispatch (record : DispatchRecord) (current : Instant) : DispatchRecord :=
  { record with
    status := .reconciliationRequired
    retryAfterAt := none
    lastErrorCode := some "dispatch_generation_exhausted"
    updatedAt := current }

def rearmDispatchIfUnclaimed (host : Host) (env : Env) (ctx : ControlPlaneContext)
    (submissionId : String) (expectedRemoteRunId : RemoteRunId) (reasonCode : String)
    (minimumAgeSeconds : Int) (now : Option Instant) (s : Store) :
    Outcome (Option DispatchRecord) :=
  let current := now.getD (env.now [0])
  let wallNow := env.now [1]
  let k := key ctx submissionId
  match s.dispatches.get? k, s.submissions.get? k with
  | some record, some submission =>
      if record.status ≠ .dispatched ∨ record.remoteRunId ≠ some expectedRemoteRunId ∨
          submission.status ≠ .accepted ∨
          (0 < minimumAgeSeconds ∧ current - seconds minimumAgeSeconds < record.updatedAt) ∨
          s.leaseLive k wallNow = true ∨ s.executionBegan k = true then
        ret none s
      else if maxDispatchGenerations ≤ record.generation then
        let required := exhaustedDispatch record current
        ret (some required) { s with dispatches := s.dispatches.set k required }
      else
        let rearmed := rearmedDispatch host k record reasonCode current
        ret (some rearmed) { s with dispatches := s.dispatches.set k rearmed }
  | _, _ => ret none s

def rearmDispatchAfterRemoteFailure (host : Host) (env : Env) (ctx : ControlPlaneContext)
    (submissionId : String) (expectedRemoteRunId expectedFlowRunId : Option String)
    (now : Option Instant) (s : Store) : Outcome (Option DispatchRecord) :=
  match selectRemoteRunId expectedRemoteRunId expectedFlowRunId with
  | .error error => raise error s
  | .ok selected =>
      rearmDispatchIfUnclaimed host env ctx submissionId selected "remote_failed_before_claim" 0
        now s

def rearmDispatchAfterRemoteMissing (host : Host) (env : Env) (ctx : ControlPlaneContext)
    (submissionId : String) (expectedRemoteRunId expectedFlowRunId : Option String)
    (minimumAgeSeconds : Int) (now : Option Instant) (s : Store) :
    Outcome (Option DispatchRecord) :=
  if minimumAgeSeconds < 30 ∨ 86400 < minimumAgeSeconds then
    raise (.valueError "minimum_age_seconds must be between 30 and 86400") s
  else
    match selectRemoteRunId expectedRemoteRunId expectedFlowRunId with
    | .error error => raise error s
    | .ok selected =>
        rearmDispatchIfUnclaimed host env ctx submissionId selected "remote_missing_before_claim"
          minimumAgeSeconds now s

/-- A lowercase SHA-256 digest. -/
def isSha256Text (value : String) : Bool :=
  value.toList.length = 64 && value.toList.all isLowerHex

/-- The audit entry of an operator rearm. -/
def reconciliationAudit (ctx : ControlPlaneContext) (record : DispatchRecord)
    (remoteRunId : RemoteRunId) (evidenceSha256 : String) (current : Instant) :
    DispatchReconciliation where
  fromGeneration := record.generation
  toGeneration := record.generation + 1
  remoteRunId := some remoteRunId
  authorizedAt := current
  principalSubject := ctx.principal.subject
  principalIssuer := ctx.principal.issuer
  evidenceSha256 := evidenceSha256

def rearmReconciliationRequiredDispatch (host : Host) (env : Env) (ctx : ControlPlaneContext)
    (submissionId : String) (expectedGeneration : Int)
    (expectedRemoteRunId expectedFlowRunId : Option String) (evidenceSha256 : String)
    (now : Option Instant) (s : Store) : Outcome DispatchRecord :=
  if expectedGeneration < 1 then
    raise (.valueError "expected_generation must be a positive integer") s
  else
    match selectRemoteRunId expectedRemoteRunId expectedFlowRunId with
    | .error error => raise error s
    | .ok selected =>
        if isSha256Text evidenceSha256 = false then
          raise (.valueError "evidence_sha256 must be a lowercase SHA-256 digest") s
        else
          let current := now.getD (env.now [0])
          let k := key ctx submissionId
          match s.dispatches.get? k, s.submissions.get? k with
          | some record, some submission =>
              if record.status ≠ .reconciliationRequired ∨
                  (record.generation : Int) ≠ expectedGeneration ∨
                  record.remoteRunId ≠ some selected ∨ submission.status ≠ .accepted then
                raise (conflictWith "Dispatch no longer matches the reconciled generation"
                  [("reason", .str "stale_dispatch_reconciliation")]) s
              else if (s.routeState record.executionRoute).status ≠ .active then
                raise (conflictWith
                  "Execution route must be active before dispatch reconciliation"
                  [("reason", .str "execution_route_not_active")]) s
              else if s.leaseLive k current = true then
                raise (conflictWith
                  "Dispatch cannot be reconciled while an execution lease is active"
                  [("reason", .str "execution_lease_active")]) s
              else if s.executionBegan k = true then
                raise (conflictWith
                  "Dispatch cannot be reconciled after canonical execution began"
                  [("reason", .str "canonical_execution_started")]) s
              else
                let rearmed := { rearmedDispatch host k record "operator_reconciled_preclaim" current
                  with reconciliationHistory := lastEntries (record.reconciliationHistory ++
                    [reconciliationAudit ctx record selected evidenceSha256 current]) }
                ret rearmed { s with dispatches := s.dispatches.set k rearmed }
          | _, _ => raise (notFound "Dispatch record not found") s

/-! ## Polling -/

/-- `pending_dispatches` lists this outbox row. -/
def isPendingDispatch (s : Store) (scope : Scope) (route : String) (now : Instant)
    (row : OutboxRecord) : Bool :=
  match s.submissions.get? ⟨scope, row.submissionId⟩ with
  | none => false
  | some submission =>
      let dispatch := s.dispatches.get? ⟨scope, row.submissionId⟩
      submission.executionRoute = route &&
        !(submission.status = .completed || submission.status = .failed) &&
        !((submission.status = .cancelRequested || submission.status = .cancelled) &&
          !dispatch.any (fun d => d.status = .uncertain)) &&
        !dispatch.any (fun d => d.status.isSettled) &&
        !dispatch.any (fun d => isAhead d.retryAfterAt now) &&
        !dispatch.any (fun d => d.status = .leased && isAhead d.leaseExpiresAt now)

def pendingDispatches (env : Env) (ctx : ControlPlaneContext) (route : String) (limit : Int)
    (s : Store) : Outcome (List OutboxRecord) :=
  if isExecutionRoute route = false then raise routeError s
  else if isPrefectRoute route = false then
    raise (.valueError "dispatch polling requires a Prefect execution route") s
  else if limit < 1 ∨ 1000 < limit then
    raise (.valueError "limit must be between 1 and 1000") s
  else
    let ready := ((unpublishedRows s ctx.scopeKey).map Prod.snd).filter
      (isPendingDispatch s ctx.scopeKey route (env.now [0]))
    ret (ready.take limit.toNat) s

end Etlantic.ControlPlane.Durable
