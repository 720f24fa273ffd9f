import Etlantic.ControlPlane.Durable.Dispatch

/-!
# Leases, attempts and their outcomes

Worker operations: execution leases with fencing tokens, attempts, result
publications, checkpoints, and the reconcile loop that finalizes cancellations.
-/

namespace Etlantic.ControlPlane.Durable

/-! ## Execution leases -/

/-- The token `acquire_lease` grants over the old lease. -/
def nextToken (old : Option LeaseRecord) (ownerId : String) (now : Instant) : Int :=
  match old with
  | none => 1
  | some lease =>
      if lease.ownerId = ownerId ∧ now < lease.expiresAt then lease.fencingToken
      else lease.fencingToken + 1

/-- Another owner holds a lease that has not expired. -/
def leasedByOther (old : Option LeaseRecord) (ownerId : String) (now : Instant) : Bool :=
  old.any (fun lease => now < lease.expiresAt && lease.ownerId ≠ ownerId)

def acquireLease (env : Env) (ctx : ControlPlaneContext) (submissionId ownerId : String)
    (ttlSeconds : Int) (s : Store) : Outcome LeaseRecord :=
  if ttlSeconds ≤ 0 then raise (.valueError "ttl_seconds must be positive") s
  else
    let k := key ctx submissionId
    match s.submissions.get? k with
    | none => raise (notFound "Submission not found") s
    | some submission =>
        if submission.status.isIneligible then
          raise (conflict "Submission is not eligible for execution") s
        else
          let old := s.leases.get? k
          let now := env.now [0]
          if leasedByOther old ownerId now then
            raise (conflict "Submission is leased by another execution host") s
          else
            let lease : LeaseRecord := {
              submissionId := submissionId
              scope := ctx.scopeKey
              ownerId := ownerId
              fencingToken := nextToken old ownerId now
              acquiredAt := now
              expiresAt := now + seconds ttlSeconds
              heartbeatAt := now }
            ret lease { s with leases := s.leases.set k lease }

def heartbeat (env : Env) (ctx : ControlPlaneContext) (submissionId ownerId : String)
    (fencingToken ttlSeconds : Int) (s : Store) : Outcome LeaseRecord :=
  if ttlSeconds ≤ 0 then raise (.valueError "ttl_seconds must be positive") s
  else
    let k := key ctx submissionId
    match s.submissions.get? k with
    | none => raise (notFound "Submission not found") s
    | some submission =>
        if submission.status.isIneligible then
          raise (conflict "Submission is not eligible for heartbeat") s
        else
          match s.requireLease k ownerId fencingToken (env.now [0]) with
          | .error error => raise error s
          | .ok old =>
              let now := env.now [1]
              let lease := { old with heartbeatAt := now, expiresAt := now + seconds ttlSeconds }
              ret lease { s with leases := s.leases.set k lease }

def releaseLease (env : Env) (ctx : ControlPlaneContext) (submissionId ownerId : String)
    (fencingToken : Int) (s : Store) : Outcome Unit :=
  let k := key ctx submissionId
  match s.requireLease k ownerId fencingToken (env.now [0]) with
  | .error error => raise error s
  | .ok old =>
      -- The expired tombstone makes the next acquire increment the token.
      ret () { s with leases := s.leases.set k (old.expire (env.now [1]) (env.now [2])) }

/-! ## Attempts -/

/-- A running attempt of the submission. -/
def isRunningAttemptOf (k : Key) (attemptKey : Key) (attempt : AttemptRecord) : Bool :=
  attemptKey.scope = k.scope && attempt.submissionId = k.id && attempt.status = .running

/-- The loop of `start_attempt` over the attempts: running attempts under an
older token are lost, one under the current token refuses the start. -/
def loseOlderAttempts (at_ : Nat → Instant) (k : Key) (fencingToken : Int) :
    Nat → List (Key × AttemptRecord) → Store → Outcome Unit
  | _, [], s => ret () s
  | n, (attemptKey, attempt) :: rest, s =>
      if isRunningAttemptOf k attemptKey attempt then
        if fencingToken ≤ attempt.fencingToken then
          raise (conflict
            "Submission already has a running attempt with the current fencing token") s
        else
          loseOlderAttempts at_ k fencingToken (n + 1) rest
            { s with attempts := s.attempts.set attemptKey (attempt.finish .lost (at_ n)) }
      else loseOlderAttempts at_ k fencingToken n rest s

def optionalText (value : Option String) : Json := value.elim .null .str

/-- The authoritative fields of an attempt's context. -/
def authoritativeContext (submission : SubmissionRecord) : List (String × Json) :=
  [("plan_fingerprint", .str submission.planFingerprint),
    ("revision_id", optionalText submission.revisionId),
    ("schema_baseline_id", optionalText submission.schemaBaselineId),
    ("schema_observation_fingerprint", optionalText submission.schemaObservationFingerprint)]

/-- The attempt that `start_attempt` stores. -/
def startedAttempt (host : Host) (env : Env) (ctx : ControlPlaneContext)
    (submission : SubmissionRecord) (submissionId ownerId : String) (fencingToken : Int)
    (context : List (String × Json)) : AttemptRecord where
  attemptId := env.generatedId "att-" 16 0
  submissionId := submissionId
  scope := ctx.scopeKey
  ownerId := ownerId
  fencingToken := fencingToken
  startedAt := env.now [2]
  status := .running
  completedAt := none
  context := redactControlPlanePayload host.unicode
    (Json.update context (authoritativeContext submission))

def startAttempt (host : Host) (env : Env) (ctx : ControlPlaneContext)
    (submissionId ownerId : String) (fencingToken : Int) (context : List (String × Json))
    (s : Store) : Outcome AttemptRecord :=
  let k := key ctx submissionId
  match s.requireLease k ownerId fencingToken (env.now [0]) with
  | .error error => raise error s
  | .ok _ =>
      match s.submissions.get? k with
      | none => raise .keyError s
      | some submission =>
          if submission.status = .cancelRequested then
            raise (conflict "Cancelled submission cannot start an attempt") s
          else if submission.status.isTerminal then
            raise (conflict "Terminal submission cannot start an attempt") s
          else
            let older := loseOlderAttempts (fun n => env.now [1, n]) k fencingToken 0
              s.attempts.entries s
            match older.result with
            | .error error => raise error older.store
            | .ok _ =>
                let record := startedAttempt host env ctx submission submissionId ownerId
                  fencingToken context
                ret record { older.store with
                  attempts := older.store.attempts.set (key ctx record.attemptId) record }

/-- The fence check of `finish_attempt`: under a cancellation request the lease
may have expired, as long as it is still the caller's. -/
def finishFence (s : Store) (submission : SubmissionRecord) (k : Key) (ownerId : String)
    (fencingToken : Int) (now : Instant) : Except PyError Unit :=
  if submission.status = .cancelRequested then
    if (s.leases.get? k).any
        (fun lease => lease.ownerId = ownerId && lease.fencingToken = fencingToken) then .ok ()
    else .error (conflict "Stale or invalid execution lease")
  else (s.requireLease k ownerId fencingToken now).map (fun _ => ())

/-- The statuses `finish_attempt` writes to the attempt and the submission. -/
def finishStatuses (status : AttemptStatus) (submission : SubmissionRecord) :
    AttemptStatus × SubmissionStatus :=
  if status = .cancelled ∨ submission.status = .cancelRequested then (.cancelled, .cancelled)
  else (status, if status = .completed then .completed else .failed)

def finishAttempt (env : Env) (ctx : ControlPlaneContext) (attemptId ownerId : String)
    (fencingToken : Int) (status : String) (s : Store) : Outcome AttemptRecord :=
  match AttemptStatus.ofTerminalText? status with
  | none => raise (.valueError "attempt status must be terminal") s
  | some status =>
      match s.attempts.get? (key ctx attemptId) with
      | none => raise (notFound "Attempt not found") s
      | some attempt =>
          let k := key ctx attempt.submissionId
          match s.submissions.get? k with
          | none => raise .keyError s
          | some submission =>
              match finishFence s submission k ownerId fencingToken (env.now [0]) with
              | .error error => raise error s
              | .ok _ =>
                  if attempt.status ≠ .running then ret attempt s
                  else
                    let statuses := finishStatuses status submission
                    let result := attempt.finish statuses.1 (env.now [1])
                    ret result { s with
                      attempts := s.attempts.set (key ctx attemptId) result
                      submissions := s.submissions.set k (submission.withStatus statuses.2) }

/-! ## Result publications -/

/-- The checks of a report before the lock is taken. -/
def invalidPublication (host : Host) (ctx : ControlPlaneContext)
    (record : ResultPublicationRecord) : Option PyError :=
  if record.scope ≠ ctx.scopeKey then
    some (forbidden "Result publication must match the trusted scope")
  else if record.submissionId = "" ∨ record.attemptId = "" ∨ record.runId = "" then
    some (.valueError "result publication identities must be non-empty")
  else if 4 * 1024 * 1024 < record.reportJson.utf8ByteSize then
    some (conflictWith "Run report exceeds the durable recovery size limit"
      [("reason", .str "result_too_large")])
  else if host.sha256 record.reportJson ≠ record.reportSha256 then
    some (.valueError "result publication fingerprint does not match report")
  else
    match host.loads record.reportJson with
    | none => some (.valueError "result publication report is invalid JSON")
    | some report =>
        match report.field? "schema", report.field? "run_id" with
        | some (.str schema), some (.str runId) =>
            if schema = "etlantic.run_report/1" ∧ runId = record.runId then none
            else some (.valueError "result publication report identity is invalid")
        | _, _ => some (.valueError "result publication report identity is invalid")

/-- The record to store next to a prior publication of the same attempt. -/
def mergePublication (prior record : ResultPublicationRecord) :
    Except PyError ResultPublicationRecord :=
  if prior.runId ≠ record.runId then
    .error (conflict "Result publication run identity changed")
  else if prior.reportSha256 ≠ record.reportSha256 then
    if prior.publishedAt ≠ none then .error (conflict "Published run result is immutable")
    else .ok { record with createdAt := prior.createdAt }
  else if prior.publishedAt ≠ none then .ok { record with publishedAt := prior.publishedAt }
  else .ok record

def recordResultPublication (host : Host) (env : Env) (ctx : ControlPlaneContext)
    (record : ResultPublicationRecord) (ownerId : String) (fencingToken : Int) (s : Store) :
    Outcome ResultPublicationRecord :=
  match invalidPublication host ctx record with
  | some error => raise error s
  | none =>
      let k : PublicationKey := ⟨ctx.scopeKey, record.submissionId, record.attemptId⟩
      match s.requireLease (key ctx record.submissionId) ownerId fencingToken (env.now [0]) with
      | .error error => raise error s
      | .ok _ =>
          if (s.attempts.get? (key ctx record.attemptId)).any (fun attempt =>
              attempt.submissionId = record.submissionId && attempt.ownerId = ownerId &&
                attempt.fencingToken = fencingToken) = false then
            raise (conflict "Result publication does not match the current attempt fence") s
          else
            match (s.resultPublications.get? k).elim (.ok record)
                (fun prior => mergePublication prior record) with
            | .error error => raise error s
            | .ok stored =>
                ret stored { s with resultPublications := s.resultPublications.set k stored }

def markResultPublicationPublished (env : Env) (ctx : ControlPlaneContext)
    (submissionId attemptId reportSha256 : String) (s : Store) :
    Outcome ResultPublicationRecord :=
  let k : PublicationKey := ⟨ctx.scopeKey, submissionId, attemptId⟩
  match s.resultPublications.get? k with
  | none => raise (notFound "Result publication not found") s
  | some record =>
      if record.reportSha256 ≠ reportSha256 then
        raise (conflict "Result publication fingerprint changed") s
      else if record.publishedAt ≠ none then ret record s
      else
        let published := { record with publishedAt := some (.iso (env.now [0])) }
        ret published { s with resultPublications := s.resultPublications.set k published }

/-! ## Checkpoints -/

/-- `STATE_NAMESPACES`. -/
def stateNamespaces : List String :=
  ["cursor:", "watermark:", "partition:", "snapshot:", "checkpoint:"]

/-- `_require_namespaced_checkpoint_id`. -/
def isNamespaced (checkpointId : String) : Bool :=
  stateNamespaces.any (fun namespace_ => hasPrefix namespace_ checkpointId)

def checkpointIdError : PyError :=
  .valueError ("checkpoint_id must use a namespaced prefix (" ++
    String.intercalate ", " stateNamespaces ++ ")")

/-- The text is set and not empty. -/
def truthy (value : Option String) : Bool := value.any (fun text => text ≠ "")

/-- The arguments of `compare_and_swap_checkpoint`. -/
structure CheckpointSwap where
  checkpointId : String
  expectedVersion : Option Int
  valueFingerprint : String
  attemptId : String
  fencingToken : Int
  schemaBaselineId : Option String

/-- The record a swap stores. -/
def swappedCheckpoint (ctx : ControlPlaneContext) (swap : CheckpointSwap)
    (attempt : AttemptRecord) (previous : Option CheckpointRecord) (now : Instant) :
    CheckpointRecord where
  checkpointId := swap.checkpointId
  scope := ctx.scopeKey
  version := (previous.map CheckpointRecord.version).getD 0 + 1
  valueFingerprint := swap.valueFingerprint
  updatedAt := now
  submissionId := some attempt.submissionId
  attemptId := some swap.attemptId
  schemaBaselineId :=
    if truthy swap.schemaBaselineId then swap.schemaBaselineId
    else previous.bind CheckpointRecord.schemaBaselineId

def compareAndSwapCheckpoint (env : Env) (ctx : ControlPlaneContext) (swap : CheckpointSwap)
    (s : Store) : Outcome CheckpointRecord :=
  if isNamespaced swap.checkpointId = false then raise checkpointIdError s
  else
    let k := key ctx swap.checkpointId
    let previous := s.checkpoints.get? k
    if previous.map CheckpointRecord.version ≠ swap.expectedVersion then
      raise (conflict "Checkpoint compare-and-swap conflict") s
    else
      match (s.attempts.get? (key ctx swap.attemptId)).filter
          (fun attempt => attempt.status = .running) with
      | none =>
          raise (conflict "Checkpoint requires a current running attempt and fencing token") s
      | some attempt =>
          if (s.submissions.get? (key ctx attempt.submissionId)).all
              (fun submission => submission.status.isIneligible) then
            raise (conflict "Checkpoint CAS refused for cancelled or terminal submission") s
          else
            match s.requireLease (key ctx attempt.submissionId) attempt.ownerId
                swap.fencingToken (env.now [0]) with
            | .error error => raise error s
            | .ok _ =>
                if previous.any (fun row =>
                    row.submissionId ≠ none && row.submissionId ≠ some attempt.submissionId) then
                  raise (conflict "Checkpoint belongs to another submission") s
                else
                  let record := swappedCheckpoint ctx swap attempt previous (env.now [1])
                  ret record { s with checkpoints := s.checkpoints.set k record }

def diagnoseCheckpoint (host : Host) (env : Env) (ctx : ControlPlaneContext)
    (checkpointId kind detail : String) (s : Store) : Outcome StateDiagnostic :=
  match StateDiagnosticKind.ofText? kind with
  | none => raise (.valueError "unsupported diagnostic kind") s
  | some kind =>
      if isNamespaced checkpointId = false then raise checkpointIdError s
      else if s.checkpoints.get? (key ctx checkpointId) = none ∧ kind ≠ .migration then
        raise (notFound "Checkpoint not found") s
      else
        let safeDetail := redactControlPlaneText host.unicode detail
        let diagnostic : StateDiagnostic := {
          diagnosticId := env.generatedId "diag-" 16 0
          scope := ctx.scopeKey
          checkpointId := checkpointId
          kind := kind
          detail := if safeDetail = "" then kind.text else safeDetail
          createdAt := env.now [0]
          recoverable := kind = .migration }
        ret diagnostic { s with diagnostics := s.diagnostics ++ [diagnostic] }

def acknowledgeBaseline (env : Env) (ctx : ControlPlaneContext)
    (schemaBaselineId observationFingerprint : String) (expectedVersion : Option Int)
    (submissionId : Option String) (s : Store) : Outcome BaselineAcknowledgement :=
  if isBlank schemaBaselineId then raise (emptyFieldError "schema_baseline_id") s
  else if isBlank observationFingerprint then raise (emptyFieldError "observation_fingerprint") s
  else
    let k := key ctx schemaBaselineId
    let version := (s.baselines.get? k).map BaselineAcknowledgement.version
    if version ≠ expectedVersion then
      raise (conflict "Baseline acknowledgement compare-and-swap conflict") s
    else if submissionId.any (fun id => id ≠ "" && !s.submissions.contains (key ctx id)) then
      raise (notFound "Submission not found") s
    else
      let record : BaselineAcknowledgement := {
        acknowledgementId := env.generatedId "ack-" 16 0
        scope := ctx.scopeKey
        schemaBaselineId := schemaBaselineId
        observationFingerprint := observationFingerprint
        version := version.getD 0 + 1
        createdAt := env.now [0]
        submissionId := submissionId }
      ret record { s with baselines := s.baselines.set k record }

end Etlantic.ControlPlane.Durable
