import Etlantic.ControlPlane.Models
import Etlantic.Base.Dict
import Mathlib.Data.Finset.Card
import Mathlib.Data.Finset.Insert

/-!
# Durable-work records

The records of the durable work store, with the source's fields.  A pair of
`tenant_id` and `workspace_id` fields is one `Scope`.

Stamps the store writes itself are instants: its `_iso` and `_parse` are inverse
to each other on them.  Stamps that callers hand in are kept as text.
-/

namespace Etlantic.ControlPlane

/-! ## Time -/

/-- A point in time, in microseconds. -/
abbrev Instant := Int

/-- `timedelta(seconds=n)`. -/
def seconds (n : Int) : Int := n * 1000000

/-- The order of the ISO texts of instants: `isoformat` drops a zero fraction,
and `Z` sorts after `.`, so a whole second comes last within its second. -/
def isoRank (t : Instant) : Int := if t % 1000000 = 0 then 2 * (t + 1000000) - 1 else 2 * t

/-- The civil date of a day, counted from 1970-01-01: year, month and day. -/
def civilDate (days : Int) : Int × Int × Int :=
  let shifted := days + 719468
  let dayOfEra := shifted % 146097
  let yearOfEra := (dayOfEra - dayOfEra / 1460 + dayOfEra / 36524 - dayOfEra / 146096) / 365
  let dayOfYear := dayOfEra - (365 * yearOfEra + yearOfEra / 4 - yearOfEra / 100)
  let monthFromMarch := (5 * dayOfYear + 2) / 153
  let month := if monthFromMarch < 10 then monthFromMarch + 3 else monthFromMarch - 9
  (yearOfEra + shifted / 146097 * 400 + (if month ≤ 2 then 1 else 0), month,
    dayOfYear - (153 * monthFromMarch + 2) / 5 + 1)

/-- A number with leading zeros. -/
def zeroPadded (width : Nat) (n : Int) : String :=
  let digits := (Nat.toDigits 10 n.toNat)
  String.ofList (List.replicate (width - digits.length) '0' ++ digits)

/-- `_iso` of an instant. -/
def isoText (t : Instant) : String :=
  let date := civilDate (t / seconds 86400)
  let second := t / seconds 1 % 86400
  let fraction := t % seconds 1
  zeroPadded 4 date.1 ++ "-" ++ zeroPadded 2 date.2.1 ++ "-" ++ zeroPadded 2 date.2.2 ++ "T" ++
    zeroPadded 2 (second / 3600) ++ ":" ++ zeroPadded 2 (second / 60 % 60) ++ ":" ++
    zeroPadded 2 (second % 60) ++
    (if fraction = 0 then "" else "." ++ zeroPadded 6 fraction) ++ "Z"

example : isoText (seconds 1709164800 + 250) = "2024-02-29T00:00:00.000250Z" := by decide

/-- The sort key `(created_at, id)` of two rows. -/
def stampedLe (a b : Instant × String) : Bool :=
  isoRank a.1 < isoRank b.1 || (isoRank a.1 = isoRank b.1 && a.2 ≤ b.2)

/-- What `datetime.fromisoformat` can return: with or without a time zone. -/
inductive ParsedTime where
  | naive (t : Instant)
  | aware (t : Instant)

/-- A stamp in a record that a caller may hand in: its own text, or an instant
the store wrote. -/
inductive Stamp where
  | text (value : String)
  | iso (t : Instant)
deriving DecidableEq

/-! ## Execution routes -/

/-- `EXECUTION_ROUTE_PATTERN.fullmatch` together with the length bound. -/
def isExecutionRoute (value : String) : Bool :=
  value = "local" ||
    (hasPrefix "prefect:" value && (removePrefix "prefect:" value).toList.length = 64 &&
      (removePrefix "prefect:" value).toList.all isLowerHex)

inductive ExecutionRouteLifecycle where
  | active
  | draining
  | retired
  | cleanupPending
  | cleaned
deriving DecidableEq

namespace ExecutionRouteLifecycle

def text : ExecutionRouteLifecycle → String
  | active => "active"
  | draining => "draining"
  | retired => "retired"
  | cleanupPending => "cleanup_pending"
  | cleaned => "cleaned"

def ofText? (value : String) : Option ExecutionRouteLifecycle :=
  [active, draining, retired, cleanupPending, cleaned].find? (fun status => status.text = value)

/-- The edges `transition_execution_route_state` allows. -/
def allowed : List (ExecutionRouteLifecycle × ExecutionRouteLifecycle) :=
  [(active, draining), (draining, active), (draining, retired), (retired, active),
    (retired, cleanupPending), (cleanupPending, cleaned)]

end ExecutionRouteLifecycle

structure ExecutionRouteTransition where
  revision : Nat
  fromStatus : ExecutionRouteLifecycle
  toStatus : ExecutionRouteLifecycle
  changedAt : Instant
  principalSubject : String
  principalIssuer : Option String
deriving DecidableEq

structure ExecutionRouteRecord where
  executionRoute : String
  status : ExecutionRouteLifecycle
  revision : Nat
  changedAt : Option Instant
  history : List ExecutionRouteTransition
deriving DecidableEq

/-- `ExecutionRouteRecord(execution_route)`. -/
def ExecutionRouteRecord.initial (executionRoute : String) : ExecutionRouteRecord where
  executionRoute := executionRoute
  status := .active
  revision := 0
  changedAt := none
  history := []

structure ExecutionRouteWorkload where
  executionRoute : String
  activeSubmissions : Nat
  activeAttempts : Nat
  incompleteDispatches : Nat
  unresolvedEffects : Nat
  pendingPublications : Nat
  unpublishedOutboxes : Nat
deriving DecidableEq

def ExecutionRouteWorkload.drained (w : ExecutionRouteWorkload) : Bool :=
  w.activeSubmissions = 0 && w.activeAttempts = 0 && w.incompleteDispatches = 0 &&
    w.unresolvedEffects = 0 && w.pendingPublications = 0 && w.unpublishedOutboxes = 0

def ExecutionRouteWorkload.toDict (w : ExecutionRouteWorkload) : Json :=
  .obj [("schema", .str "etlantic.control_plane.execution_route_workload/1"),
    ("execution_route", .str w.executionRoute),
    ("active_submissions", .int w.activeSubmissions),
    ("active_attempts", .int w.activeAttempts),
    ("incomplete_dispatches", .int w.incompleteDispatches),
    ("unresolved_effects", .int w.unresolvedEffects),
    ("pending_publications", .int w.pendingPublications),
    ("unpublished_outboxes", .int w.unpublishedOutboxes),
    ("drained", .bool w.drained)]

structure ExecutionRouteReferenceCounts where
  canonicalSubmissions : Nat
  scheduleReservations : Nat
deriving DecidableEq

def ExecutionRouteReferenceCounts.toDict (c : ExecutionRouteReferenceCounts) : Json :=
  .obj [("canonical_submissions", .int c.canonicalSubmissions),
    ("schedule_reservations", .int c.scheduleReservations)]

/-! ## Submissions and the outbox -/

inductive SubmissionStatus where
  | accepted
  | dispatched
  | cancelRequested
  | cancelled
  | completed
  | failed
deriving DecidableEq

namespace SubmissionStatus

/-- `{"cancelled", "completed", "failed"}`. -/
def isTerminal : SubmissionStatus → Bool
  | cancelled | completed | failed => true
  | _ => false

/-- `_NON_TERMINAL`. -/
def isNonTerminal : SubmissionStatus → Bool
  | accepted | dispatched | cancelRequested => true
  | _ => false

/-- `{"cancel_requested", "cancelled", "completed", "failed"}`. -/
def isIneligible : SubmissionStatus → Bool
  | cancelRequested | cancelled | completed | failed => true
  | _ => false

end SubmissionStatus

structure SubmissionRecord where
  submissionId : String
  scope : Scope
  principalSubject : String
  operation : String
  idempotencyKey : String
  createdAt : Instant
  planFingerprint : String
  revisionId : Option String
  pluginFingerprint : Option String
  policyFingerprint : Option String
  inputSnapshot : Option String
  principalIssuer : Option String
  principalKind : PrincipalKind
  status : SubmissionStatus
  schemaObservationFingerprint : Option String
  schemaBaselineId : Option String
  environment : Option String
  securityDomainId : Option String
  resourceOwnerId : Option String
  runId : Option String
  executionRoute : String
deriving DecidableEq

/-- A page of accepted execution scopes. -/
structure ExecutionScopePage where
  scopes : List ControlPlaneContext
  nextCursor : Option String
  highWatermark : Option String
deriving DecidableEq

/-- `execution_context_from_submission`: none for incomplete authority data. -/
def executionContextFromSubmission (submission : SubmissionRecord) : Option ControlPlaneContext :=
  match submission.environment.filter (· ≠ ""), submission.securityDomainId.filter (· ≠ "") with
  | some environment, some domainId =>
      if submission.scope.tenantId = "" ∨ submission.scope.workspaceId = "" ∨
          submission.principalSubject = "" then none
      else if howner : submission.resourceOwnerId.all (fun owner => !isBlank owner) = true then
        some {
          principal :=
            ⟨submission.principalSubject, submission.principalIssuer, submission.principalKind⟩
          tenant := ⟨submission.scope.tenantId⟩
          workspace := ⟨submission.scope.tenantId, submission.scope.workspaceId⟩
          environment := ⟨environment⟩
          securityDomain := ⟨domainId⟩
          resourceOwnerId := submission.resourceOwnerId
          workspaceTenant := rfl
          ownerNonEmpty := howner }
      else none
  | _, _ => none

/-- `replace(row, status=status)`: the other fields of an accepted submission are
immutable. -/
def SubmissionRecord.withStatus (row : SubmissionRecord) (status : SubmissionStatus) :
    SubmissionRecord :=
  { row with status := status }

structure OutboxRecord where
  outboxId : String
  submissionId : String
  scope : Scope
  createdAt : Instant
  payloadFingerprint : String
  publishedAt : Option Instant
  deliveryCount : Nat
deriving DecidableEq

/-- `replace(row, published_at=..., delivery_count=row.delivery_count + 1)`. -/
def OutboxRecord.acknowledge (row : OutboxRecord) (at_ : Instant) : OutboxRecord :=
  { row with publishedAt := some at_, deliveryCount := row.deliveryCount + 1 }

/-! ## Remote dispatch -/

inductive DispatchStatus where
  | pending
  | leased
  | uncertain
  | dispatched
  | cancelled
  | reconciliationRequired
deriving DecidableEq

/-- `{"dispatched", "cancelled", "reconciliation_required"}`. -/
def DispatchStatus.isSettled : DispatchStatus → Bool
  | dispatched | cancelled | reconciliationRequired => true
  | _ => false

/-- A remote run id: not blank and at most 256 characters. -/
def isRemoteRunId (value : String) : Bool := !isBlank value && value.toList.length ≤ 256

abbrev RemoteRunId := { value : String // isRemoteRunId value = true }

/-- `prefect_flow_run_id` is kept equal to `remote_run_id`. -/
structure DispatchReconciliation where
  fromGeneration : Nat
  toGeneration : Nat
  remoteRunId : Option RemoteRunId
  authorizedAt : Instant
  principalSubject : String
  principalIssuer : Option String
  evidenceSha256 : String
deriving DecidableEq

/-- A dispatch of the one registered backend, `prefect`.  The checks of
`__post_init__` are fields; `prefect_flow_run_id` is kept equal to
`remote_run_id` there, so one field stands for both. -/
structure DispatchRecord where
  submissionId : String
  scope : Scope
  executionRoute : String
  bindingFingerprint : String
  planFingerprint : String
  envelopeSha256 : String
  generation : Nat
  creationKey : String
  createdAt : Instant
  updatedAt : Instant
  status : DispatchStatus
  dispatchAttempts : Nat
  leaseOwnerId : Option String
  leaseFencingToken : Int
  leaseExpiresAt : Option Instant
  retryAfterAt : Option Instant
  lastErrorCode : Option String
  reconciliationHistory : List DispatchReconciliation
  remoteRunId : Option RemoteRunId
  routeValid : isExecutionRoute executionRoute = true
  routePrefect : hasPrefix "prefect:" executionRoute = true
  bindingOfRoute : bindingFingerprint = removePrefix "prefect:" executionRoute

/-- `prefect_flow_run_id`. -/
def DispatchRecord.prefectFlowRunId (record : DispatchRecord) : Option RemoteRunId :=
  record.remoteRunId

/-! ## Leases, attempts and their outcomes -/

structure LeaseRecord where
  submissionId : String
  scope : Scope
  ownerId : String
  fencingToken : Int
  acquiredAt : Instant
  expiresAt : Instant
  heartbeatAt : Instant
deriving DecidableEq

/-- The lease as an expired tombstone. -/
def LeaseRecord.expire (lease : LeaseRecord) (now heartbeat : Instant) : LeaseRecord :=
  { lease with expiresAt := now - seconds 1, heartbeatAt := heartbeat }

inductive AttemptStatus where
  | running
  | cancelled
  | completed
  | failed
  | lost
deriving DecidableEq

namespace AttemptStatus

def text : AttemptStatus → String
  | running => "running"
  | cancelled => "cancelled"
  | completed => "completed"
  | failed => "failed"
  | lost => "lost"

/-- `status in {"cancelled", "completed", "failed", "lost"}`. -/
def ofTerminalText? (value : String) : Option AttemptStatus :=
  [cancelled, completed, failed, lost].find? (fun status => status.text = value)

end AttemptStatus

structure AttemptRecord where
  attemptId : String
  submissionId : String
  scope : Scope
  ownerId : String
  fencingToken : Int
  startedAt : Instant
  status : AttemptStatus
  completedAt : Option Instant
  context : List (String × Json)

structure ResultPublicationRecord where
  submissionId : String
  attemptId : String
  runId : String
  scope : Scope
  reportJson : String
  reportSha256 : String
  createdAt : String
  publishedAt : Option Stamp
deriving DecidableEq

structure CheckpointRecord where
  checkpointId : String
  scope : Scope
  version : Int
  valueFingerprint : String
  updatedAt : Instant
  submissionId : Option String
  attemptId : Option String
  schemaBaselineId : Option String
deriving DecidableEq

/-- `replace(attempt, status=status, completed_at=...)`. -/
def AttemptRecord.finish (attempt : AttemptRecord) (status : AttemptStatus) (at_ : Instant) :
    AttemptRecord :=
  { attempt with status := status, completedAt := some at_ }

/-- The six statuses; `other` is any other text, which the store refuses. -/
inductive EffectStatus where
  | none
  | pending
  | committed
  | notCommitted
  | failed
  | unknown
  | other (text : String)
deriving DecidableEq

structure EffectRecord where
  effectId : String
  submissionId : String
  scope : Scope
  status : EffectStatus
  recordedAt : Stamp
  idempotencyEvidence : Option String
  reconciliationEvidence : Option String
  publicationEvidence : Option String
  compensationEvidence : Option String
  authoritative : Bool
  metadata : List (String × Json)

@[simp] theorem AttemptRecord.finish_status (attempt : AttemptRecord) (outcome : AttemptStatus)
    (at_ : Instant) : (attempt.finish outcome at_).status = outcome := rfl

@[simp] theorem OutboxRecord.acknowledge_submissionId (outbox : OutboxRecord) (at_ : Instant) :
    (outbox.acknowledge at_).submissionId = outbox.submissionId := rfl

@[simp] theorem OutboxRecord.acknowledge_deliveryCount (outbox : OutboxRecord) (at_ : Instant) :
    (outbox.acknowledge at_).deliveryCount = outbox.deliveryCount + 1 := rfl

/-! ## Previews, shadow runs and diagnostics -/

structure PreviewWorkspace where
  previewId : String
  scope : Scope
  baseRevisionId : String
  candidateRevisionId : String
  createdAt : String
  expiresAt : String
  quota : Int
  codeFingerprint : String
  planFingerprint : String
  policyFingerprint : Option String
  environmentFingerprint : Option String
  commitRef : Option String
  pullRequestRef : Option String
  cleanedAt : Option Stamp
  stale : Bool
  staleReason : Option String
deriving DecidableEq

structure DiffRecord where
  diffId : String
  previewId : String
  scope : Scope
  createdAt : String
  contractDiffFingerprint : Option String
  graphDiffFingerprint : Option String
  planDiffFingerprint : Option String
  schemaDiffFingerprint : Option String
  policyDiffFingerprint : Option String
  costDiffFingerprint : Option String
  environmentDiffFingerprint : Option String
  impactedSubgraphFingerprint : Option String
deriving DecidableEq

structure ShadowRunRecord where
  shadowRunId : String
  previewId : String
  submissionId : String
  scope : Scope
  authorizedBy : String
  createdAt : String
  effectIds : List String
  productionAuthority : Bool
deriving DecidableEq

inductive StateDiagnosticKind where
  | corruption
  | migration
  | conflict
deriving DecidableEq

namespace StateDiagnosticKind

def text : StateDiagnosticKind → String
  | corruption => "corruption"
  | migration => "migration"
  | conflict => "conflict"

def ofText? (value : String) : Option StateDiagnosticKind :=
  [corruption, migration, conflict].find? (fun kind => kind.text = value)

end StateDiagnosticKind

structure StateDiagnostic where
  diagnosticId : String
  scope : Scope
  checkpointId : String
  kind : StateDiagnosticKind
  detail : String
  createdAt : Instant
  recoverable : Bool
deriving DecidableEq

structure BaselineAcknowledgement where
  acknowledgementId : String
  scope : Scope
  schemaBaselineId : String
  observationFingerprint : String
  version : Int
  createdAt : Instant
  submissionId : Option String
deriving DecidableEq

structure StateTransitionExplanation where
  explanationId : String
  scope : Scope
  checkpointId : String
  expectedVersion : Option Int
  proposedFingerprint : String
  currentVersion : Option Int
  currentFingerprint : Option String
  wouldSucceed : Bool
  reason : String
  createdAt : Instant
deriving DecidableEq

/-! ## Replays and repair plans -/

structure ReplayRecord where
  replayId : String
  submissionId : String
  scope : Scope
  planFingerprint : String
  revisionId : Option String
  pluginFingerprint : Option String
  policyFingerprint : Option String
  inputSnapshot : Option String
  checkpointId : Option String
  createdAt : Instant
  differences : List String
  schemaObservationFingerprint : Option String
  schemaBaselineId : Option String
deriving DecidableEq

inductive RepairPlanKind where
  | resume
  | repair
  | backfill
deriving DecidableEq

structure RepairPlan where
  planId : String
  kind : RepairPlanKind
  submissionId : String
  scope : Scope
  createdAt : Instant
  sourcePlanFingerprint : String
  checkpointId : Option String
  partitionIds : List String
  reusableArtifactIds : List String
  invalidatedPartitionIds : List String
  minimumSafeClosure : List String
  schemaBaselineId : Option String
  notes : List String
deriving DecidableEq

/-! ## Action jobs -/

inductive ActionJobStatus where
  | queued
  | running
  | cancelRequested
  | succeeded
  | failed
  | timedOut
  | cancelled
deriving DecidableEq

namespace ActionJobStatus

def text : ActionJobStatus → String
  | queued => "queued"
  | running => "running"
  | cancelRequested => "cancel_requested"
  | succeeded => "succeeded"
  | failed => "failed"
  | timedOut => "timed_out"
  | cancelled => "cancelled"

/-- `status in {"succeeded", "failed", "timed_out", "cancelled"}`. -/
def ofCompletionText? (value : String) : Option ActionJobStatus :=
  [succeeded, failed, timedOut, cancelled].find? (fun status => status.text = value)

end ActionJobStatus

inductive ActionPhase where
  | queued
  | preparing
  | accepting
  | cancelled
deriving DecidableEq

structure ActionJobRecord where
  actionId : String
  scope : Scope
  ownerId : String
  principalSubject : String
  principalIssuer : Option String
  principalKind : PrincipalKind
  environment : String
  securityDomainId : String
  action : String
  idempotencyKey : String
  requestFingerprint : String
  requestJson : String
  createdAt : Instant
  deadlineAt : String
  status : ActionJobStatus
  phase : ActionPhase
  attempt : Nat
  fencingToken : Int
  workerId : Option String
  leaseExpiresAt : Option Instant
  startedAt : Option Instant
  completedAt : Option Instant
  resultJson : Option String
  resultExpiresAt : Option Instant
  errorCode : Option String
deriving DecidableEq

end Etlantic.ControlPlane
