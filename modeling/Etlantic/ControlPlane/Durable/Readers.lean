import Etlantic.ControlPlane.Durable.Actions

/-!
# Reading the store

The operations that only read: single records, scoped listings and pages, and
the plans that are made from an accepted submission.
-/

namespace Etlantic.ControlPlane.Durable

/-- A record, or the refusal that it is not there. -/
def found {α : Type} (record : Option α) (detail : String) (s : Store) : Outcome α :=
  match record with
  | none => raise (notFound detail) s
  | some record => ret record s

/-- The entries of a table that lie in a scope, in the order of the table. -/
def scopedRows {ν : Type} (table : Dict Key ν) (scope : Scope) : List (Key × ν) :=
  table.entries.filter fun e => e.1.scope = scope

/-! ## Submissions and attempts -/

def getSubmission (ctx : ControlPlaneContext) (submissionId : String) (s : Store) :
    Outcome SubmissionRecord :=
  found (s.submissions.get? (key ctx submissionId)) "Submission not found" s

def submissionStatus (ctx : ControlPlaneContext) (submissionId : String) (s : Store) :
    Outcome (Option SubmissionStatus) :=
  ret ((s.submissions.get? (key ctx submissionId)).map SubmissionRecord.status) s

def getSubmissionByIdempotency (ctx : ControlPlaneContext) (idempotencyKey operation : String)
    (s : Store) : Outcome (Option SubmissionRecord) :=
  ret ((s.idempotency.get? (idempotencyTuple ctx operation idempotencyKey)).bind
    fun submissionId => s.submissions.get? (key ctx submissionId)) s

/-- The candidates of a page of scopes, up to the watermark and behind the cursor. -/
def scopeCandidates (rows : List (Key × SubmissionRecord))
    (highWatermark afterSubmissionId : Option String) : List (Key × SubmissionRecord) :=
  match rows.findIdx? (fun row => some row.1.id = highWatermark) with
  | none => []
  | some index =>
      ((rows.take (index + 1)).filter fun row => afterSubmissionId.all (· < row.1.id)).insertionSort
        fun a b => a.1.id ≤ b.1.id

def listExecutionScopes (ctx : ControlPlaneContext)
    (afterSubmissionId throughSubmissionId : Option String) (limit : Int) (s : Store) :
    Outcome ExecutionScopePage :=
  if limit < 1 ∨ 1000 < limit then raise (.valueError "limit must be between 1 and 1000") s
  else
    let workspaceRows := scopedRows s.submissions ctx.scopeKey
    let highWatermark := throughSubmissionId <|> workspaceRows.getLast?.map fun row => row.1.id
    let candidates := scopeCandidates workspaceRows highWatermark afterSubmissionId
    let selected := candidates.take limit.toNat
    ret {
      scopes := (selected.filterMap fun row => executionContextFromSubmission row.2).eraseDups
      nextCursor :=
        if limit < (candidates.length : Int) then selected.getLast?.map fun row => row.1.id
        else none
      highWatermark := highWatermark } s

def listAttempts (ctx : ControlPlaneContext) (submissionId : String) (s : Store) :
    Outcome (List AttemptRecord) :=
  if s.submissions.contains (key ctx submissionId) = false then
    raise (notFound "Submission not found") s
  else
    ret ((((scopedRows s.attempts ctx.scopeKey).map Prod.snd).filter
      fun row => row.submissionId = submissionId).insertionSort
        fun a b => stampedLe (a.startedAt, a.attemptId) (b.startedAt, b.attemptId)) s

/-! ## The outbox and dispatches -/

/-- The arguments of `pending_outbox`. -/
structure OutboxQuery where
  limit : Int
  includeTerminal : Bool
  terminalOnly : Bool
  submissionId : Option String
  executionRoute : Option String

/-- `pending_outbox` lists this row. -/
def isPendingOutbox (s : Store) (scope : Scope) (query : OutboxQuery) (row : OutboxRecord) :
    Bool :=
  query.submissionId.all (fun id => row.submissionId = id) && row.publishedAt = none &&
    (s.submissions.get? ⟨scope, row.submissionId⟩).any fun submission =>
      query.executionRoute.all (fun route => submission.executionRoute = route) &&
        (if query.terminalOnly then submission.status.isTerminal
          else query.includeTerminal || !submission.status.isTerminal)

def pendingOutbox (ctx : ControlPlaneContext) (query : OutboxQuery) (s : Store) :
    Outcome (List OutboxRecord) :=
  if query.executionRoute.any (fun route => !isExecutionRoute route) then raise routeError s
  else
    ret ((((scopedRows s.outbox ctx.scopeKey).map Prod.snd).filter
      (isPendingOutbox s ctx.scopeKey query)).take query.limit.toNat) s

def getDispatch (ctx : ControlPlaneContext) (submissionId : String) (s : Store) :
    Outcome DispatchRecord :=
  found (s.dispatches.get? (key ctx submissionId)) "Dispatch record not found" s

/-- `dispatched_for_reconciliation` lists this record. -/
def isReconcilable (s : Store) (route : String) (afterSubmissionId : Option String)
    (entry : Key × DispatchRecord) : Bool :=
  entry.2.executionRoute = route && entry.2.status = .dispatched && entry.2.remoteRunId.isSome &&
    afterSubmissionId.all (· < entry.2.submissionId) &&
      (s.submissions.get? entry.1).any fun submission => submission.status = .accepted

def dispatchedForReconciliation (ctx : ControlPlaneContext) (route : String) (limit : Int)
    (afterSubmissionId : Option String) (s : Store) : Outcome (List DispatchRecord) :=
  if isExecutionRoute route = false then raise routeError s
  else if isPrefectRoute route = false then
    raise (.valueError "dispatch reconciliation requires a Prefect route") s
  else if limit < 1 ∨ 1000 < limit then
    raise (.valueError "limit must be between 1 and 1000") s
  else
    let rows := ((scopedRows s.dispatches ctx.scopeKey).filter
      (isReconcilable s route afterSubmissionId)).map Prod.snd
    ret ((rows.insertionSort fun a b => a.submissionId ≤ b.submissionId).take limit.toNat) s

/-! ## Result publications -/

/-- `time > best` of two parsed times. -/
def isLater (time best : ParsedTime) : Except PyError Bool :=
  match time, best with
  | .aware t, .aware u | .naive t, .naive u => .ok (u < t)
  | _, _ => .error (.typeError "can't compare offset-naive and offset-aware datetimes")

/-- `_parse` of a given text. -/
def parsedTime (host : Host) (text : String) : Except PyError ParsedTime :=
  match host.parse text with
  | none => .error (.valueError "Invalid isoformat string")
  | some time => .ok time

/-- `max(rows, key=lambda record: _parse(record.created_at))`. -/
def latestPublication (host : Host) : List ResultPublicationRecord →
    Except PyError (Option ResultPublicationRecord)
  | [] => .ok none
  | first :: rest => do
      let time ← parsedTime host first.createdAt
      let best ← rest.foldlM (fun best record => do
        let time ← parsedTime host record.createdAt
        return if ← isLater time best.1 then (time, record) else best) (time, first)
      return some best.2

def getLatestResultPublication (host : Host) (ctx : ControlPlaneContext) (submissionId : String)
    (s : Store) : Outcome (Option ResultPublicationRecord) :=
  let rows := (s.resultPublications.entries.filter fun e =>
    e.1.scope = ctx.scopeKey && e.1.submissionId = submissionId).map Prod.snd
  match latestPublication host rows with
  | .error error => raise error s
  | .ok latest => ret latest s

def pendingResultPublications (ctx : ControlPlaneContext) (limit : Int) (s : Store) :
    Outcome (List ResultPublicationRecord) :=
  if limit < 1 then raise (.valueError "limit must be a positive integer") s
  else
    let rows := (s.resultPublications.entries.filter fun e =>
      e.1.scope = ctx.scopeKey && e.2.publishedAt = none).map Prod.snd
    ret ((rows.insertionSort fun a b => a.createdAt ≤ b.createdAt).take limit.toNat) s

/-! ## Checkpoints, effects and plans -/

def explainTransition (env : Env) (ctx : ControlPlaneContext) (checkpointId : String)
    (expectedVersion : Option Int) (valueFingerprint : String) (s : Store) :
    Outcome StateTransitionExplanation :=
  if isNamespaced checkpointId = false then raise checkpointIdError s
  else
    let previous := s.checkpoints.get? (key ctx checkpointId)
    let would : Bool := previous.map CheckpointRecord.version = expectedVersion
    ret {
      explanationId := env.generatedId "xpl-" 16 0
      scope := ctx.scopeKey
      checkpointId := checkpointId
      expectedVersion := expectedVersion
      proposedFingerprint := valueFingerprint
      currentVersion := previous.map CheckpointRecord.version
      currentFingerprint := previous.map CheckpointRecord.valueFingerprint
      wouldSucceed := would
      reason :=
        if would then "compare-and-swap would succeed"
        else "expected version does not match current checkpoint"
      createdAt := env.now [0] } s

def getEffect (ctx : ControlPlaneContext) (effectId : String) (s : Store) : Outcome EffectRecord :=
  found (s.effects.get? (key ctx effectId)) "Effect not found" s

/-- What a plan reads of its checkpoint: whether the schema baseline differs. -/
def checkpointDiffers (ctx : ControlPlaneContext) (source : SubmissionRecord)
    (submissionId : String) (checkpointId : Option String) (mismatch : PyError) (s : Store) :
    Except PyError Bool :=
  match checkpointId.filter (· ≠ "") with
  | none => .ok false
  | some checkpointId =>
      match s.checkpoints.get? (key ctx checkpointId) with
      | none => .error (notFound "Checkpoint not found")
      | some checkpoint =>
          if checkpoint.submissionId ≠ none ∧ checkpoint.submissionId ≠ some submissionId then
            .error mismatch
          else .ok (truthy checkpoint.schemaBaselineId && truthy source.schemaBaselineId &&
            checkpoint.schemaBaselineId ≠ source.schemaBaselineId)

def replay (env : Env) (ctx : ControlPlaneContext) (submissionId : String)
    (checkpointId : Option String) (s : Store) : Outcome ReplayRecord :=
  match s.submissions.get? (key ctx submissionId) with
  | none => raise (notFound "Submission not found") s
  | some source =>
      match checkpointDiffers ctx source submissionId checkpointId
          (conflict "Checkpoint belongs to another submission") s with
      | .error error => raise error s
      | .ok differs =>
          ret {
            replayId := env.generatedId "rep-" 16 0
            submissionId := submissionId
            scope := ctx.scopeKey
            planFingerprint := source.planFingerprint
            revisionId := source.revisionId
            pluginFingerprint := source.pluginFingerprint
            policyFingerprint := source.policyFingerprint
            inputSnapshot := source.inputSnapshot
            checkpointId := checkpointId
            createdAt := env.now [0]
            differences := if differs then ["schema_baseline_id"] else []
            schemaObservationFingerprint := source.schemaObservationFingerprint
            schemaBaselineId := source.schemaBaselineId } s

/-- What the three planners hand to `_repair_plan`. -/
structure RepairRequest where
  kind : RepairPlanKind
  checkpointId : Option String
  partitionIds : List String
  reusableArtifactIds : List String
  invalidatedPartitionIds : List String
  minimumSafeClosure : List String
  notes : List String

/-- `_repair_plan`. -/
def repairPlan (env : Env) (ctx : ControlPlaneContext) (submissionId : String)
    (request : RepairRequest) (s : Store) : Outcome RepairPlan :=
  match s.submissions.get? (key ctx submissionId) with
  | none => raise (notFound "Submission not found") s
  | some source =>
      match checkpointDiffers ctx source submissionId request.checkpointId
          (conflictWith "Checkpoint belongs to another submission"
            [("reason", .str "checkpoint_submission_mismatch")]) s with
      | .error error => raise error s
      | .ok differs =>
          ret {
            planId := env.generatedId "rpl-" 16 0
            kind := request.kind
            submissionId := submissionId
            scope := ctx.scopeKey
            createdAt := env.now [0]
            sourcePlanFingerprint := source.planFingerprint
            checkpointId := request.checkpointId
            partitionIds := request.partitionIds
            reusableArtifactIds := request.reusableArtifactIds
            invalidatedPartitionIds := request.invalidatedPartitionIds
            minimumSafeClosure := request.minimumSafeClosure
            schemaBaselineId := source.schemaBaselineId
            notes :=
              if differs then
                request.notes ++ ["checkpoint schema baseline differs from source submission"]
              else request.notes } s

def planResume (env : Env) (ctx : ControlPlaneContext) (submissionId : String)
    (checkpointId : Option String) (s : Store) : Outcome RepairPlan :=
  repairPlan env ctx submissionId
    ⟨.resume, checkpointId, [], [], [], [], ["resume from selected checkpoint"]⟩ s

def planRepair (env : Env) (ctx : ControlPlaneContext) (submissionId : String)
    (checkpointId : Option String) (invalidated reusable : List String) (s : Store) :
    Outcome RepairPlan :=
  repairPlan env ctx submissionId ⟨.repair, checkpointId, invalidated, reusable, invalidated,
    invalidated, ["minimum-safe repair closure over invalidated partitions"]⟩ s

def planBackfill (env : Env) (ctx : ControlPlaneContext) (submissionId : String)
    (partitionIds : List String) (checkpointId : Option String) (s : Store) :
    Outcome RepairPlan :=
  if partitionIds = [] then raise (.valueError "backfill requires partition_ids") s
  else
    repairPlan env ctx submissionId
      ⟨.backfill, checkpointId, partitionIds, [], [], partitionIds,
        ["bounded partition backfill"]⟩ s

/-! ## Action jobs -/

def getActionJob (host : Host) (ctx : ControlPlaneContext) (actionId : String) (s : Store) :
    Outcome ActionJobRecord :=
  found ((s.actionJobs.get? (key ctx actionId)).filter (ownsAction host ctx))
    "Action job not found" s

/-- The action of an idempotency tuple, or else of its legacy form. -/
def actionOfTuple (host : Host) (ctx : ControlPlaneContext) (request : ActionRequest) (s : Store) :
    Option String :=
  s.actionIdempotency.get? (actionIdem host ctx request) <|>
    s.actionIdempotency.get? (actionIdempotencyTuple ctx none request)

def getActionJobByIdempotency (host : Host) (ctx : ControlPlaneContext)
    (action idempotencyKey : String) (s : Store) : Outcome (Option ActionJobRecord) :=
  ret ((actionOfTuple host ctx ⟨action, idempotencyKey, [], ""⟩ s).bind fun actionId =>
    (s.actionJobs.get? (key ctx actionId)).filter (ownsAction host ctx)) s

def listActionJobs (host : Host) (ctx : ControlPlaneContext) (after : Option (String × String))
    (limit : Int) (s : Store) : Outcome (List ActionJobRecord) :=
  if limit < 1 then raise (.valueError "limit must be a positive integer") s
  else
    let records := (((scopedRows s.actionJobs ctx.scopeKey).map Prod.snd).filter
      (ownsAction host ctx)).insertionSort
        fun a b => stampedLe (a.createdAt, a.actionId) (b.createdAt, b.actionId)
    let page := records.filter fun row => after.all fun cursor =>
      cursor.1 < isoText row.createdAt ||
        (cursor.1 = isoText row.createdAt && cursor.2 < row.actionId)
    ret (page.take limit.toNat) s

end Etlantic.ControlPlane.Durable
