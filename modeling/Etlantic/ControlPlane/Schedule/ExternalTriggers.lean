import Etlantic.ControlPlane.Schedule.Triggers

/-!
# Deliveries of external triggers

`trigger_external` with `_trigger_record` under it, as a process that makes one
call on the stores at a time.  Between two calls other deliveries may take theirs,
and a delivery that takes no further step has crashed.  What the authorizer and
the managed service answer, and which of their hooks they call, is part of the
step that asks them.
-/

namespace Etlantic.ControlPlane.Schedule

open Durable (Key key Env)

/-! ## Envelopes -/

/-- The arguments of `TriggerEnvelope`. -/
structure TriggerContent where
  scheduleId : String
  scheduleRevisionId : String
  timerOwnerGeneration : Int
  occurrenceId : String
  scheduledAt : String
  deliveryAttemptId : String
  correlationId : String

def maxTriggerEnvelopeBytes : Nat := 16 * 1024

/-- `external_occurrence_id`. -/
def externalOccurrenceId (host : ScheduleHost)
    (scheduleId scheduleRevisionId scheduledAt : String) : String :=
  "occ-" ++ host.durable.sha256 ((Json.arr [.str scheduleId, .str scheduleRevisionId,
    .str scheduledAt]).dumps Json.escapeUnicode)

/-- The first text that is blank or longer than the bound. -/
def lengthError (bound : Nat) (texts : List (String × String)) : Option PyError :=
  (texts.find? fun t => isBlank t.2 || decide (bound < t.2.length)).map fun t =>
    .valueError (t.1 ++ " must contain 1 to " ++ toString bound ++ " characters")

/-- `to_dict`. -/
def TriggerContent.toDict (content : TriggerContent) : Json :=
  .obj [("schema", .str triggerEnvelopeSchema), ("schedule_id", .str content.scheduleId),
    ("schedule_revision_id", .str content.scheduleRevisionId),
    ("timer_owner_generation", .int content.timerOwnerGeneration),
    ("occurrence_id", .str content.occurrenceId), ("scheduled_at", .str content.scheduledAt),
    ("delivery_attempt_id", .str content.deliveryAttemptId),
    ("correlation_id", .str content.correlationId)]

/-- `semantic_fingerprint`. -/
def TriggerContent.semanticFingerprint (host : ScheduleHost) (content : TriggerContent) :
    String :=
  host.durable.sha256 ((Json.obj [("schema", .str triggerEnvelopeSchema),
    ("schedule_id", .str content.scheduleId),
    ("schedule_revision_id", .str content.scheduleRevisionId),
    ("occurrence_id", .str content.occurrenceId),
    ("scheduled_at", .str content.scheduledAt)]).dumps Json.escapeUnicode)

/-- `TriggerEnvelope.__post_init__`. -/
def TriggerContent.envelope (host : ScheduleHost) (content : TriggerContent) :
    Except PyError TriggerEnvelope :=
  match lengthError 512 [("schedule_id", content.scheduleId),
      ("schedule_revision_id", content.scheduleRevisionId),
      ("occurrence_id", content.occurrenceId), ("scheduled_at", content.scheduledAt)] with
  | some error => .error error
  | none =>
      if content.timerOwnerGeneration < 1 then
        .error (.valueError "timer_owner_generation must be a positive integer")
      else
        match lengthError 256 [("delivery_attempt_id", content.deliveryAttemptId),
            ("correlation_id", content.correlationId)] with
        | some error => .error error
        | none =>
            match host.fromisoformat content.scheduledAt with
            | none => .error (.valueError "scheduled_at must be an ISO-8601 timestamp")
            | some ⟨_, none⟩ => .error (.valueError "scheduled_at must include a timezone")
            | some ⟨t, some _⟩ =>
                if content.scheduledAt ≠ host.iso t then
                  .error (.valueError "scheduled_at must use canonical UTC ISO-8601 form")
                else if content.occurrenceId ≠ externalOccurrenceId host content.scheduleId
                    content.scheduleRevisionId content.scheduledAt then
                  .error (.valueError "occurrence_id does not match the registered schedule slot")
                else if maxTriggerEnvelopeBytes <
                    (content.toDict.dumps Json.escapeUnicode).utf8ByteSize then
                  .error (.valueError "trigger envelope exceeds the size limit")
                else .ok {
                  scheduleId := content.scheduleId
                  scheduleRevisionId := content.scheduleRevisionId
                  timerOwnerGeneration := content.timerOwnerGeneration
                  occurrenceId := content.occurrenceId
                  scheduledAt := t
                  semanticFingerprint := content.semanticFingerprint host }

/-! ## The parts of the checks and of the claim -/

/-- The checks of `trigger_external` on the schedule. -/
def recordError (ctx : ControlPlaneContext) (record : ScheduleRecord)
    (envelope : TriggerEnvelope) : Option PyError :=
  if record.timerOwner ≠ .external then
    some (forbidden "Schedule is not owned by an external timer")
  else if record.revisionId ≠ envelope.scheduleRevisionId then
    some (conflict "Trigger schedule revision is stale")
  else if record.timerOwnerGeneration ≠ envelope.timerOwnerGeneration then
    some (conflict "Trigger timer owner generation is stale")
  else if record.workloadIdentity ≠ some ctx.principal then
    some (forbidden "Trigger principal does not match the bound workload identity")
  else none

/-- The checks it makes of an occurrence without a firing. -/
def slotError (host : ScheduleHost) (record : ScheduleRecord) (envelope : TriggerEnvelope)
    (now : Instant) : Option PyError :=
  if record.status ≠ .active then some (conflict "Schedule is not active")
  else if now + seconds maxTriggerFutureSkewSeconds < envelope.scheduledAt then
    some (conflict "External trigger arrived before its scheduled occurrence")
  else
    match record.nextFireAt with
    | none => some (conflict "External trigger has no next scheduled occurrence")
    | some expected =>
        match host.fromisoformat expected with
        | none => some (conflict "Schedule next occurrence is invalid")
        | some expectedTime =>
            if expectedTime.instant ≠ envelope.scheduledAt then
              some (conflict "Trigger timestamp does not match the next scheduled occurrence")
            else none

def triggerMetadata (envelope : TriggerEnvelope) : List (String × Json) :=
  [("external_trigger_schema", .str triggerEnvelopeSchema),
    ("external_trigger_occurrence_id", .str envelope.occurrenceId),
    ("external_trigger_fingerprint", .str envelope.semanticFingerprint)]

/-- The claim of `_trigger_record` for an external trigger. -/
def externalRequest (host : ScheduleHost) (record : ScheduleRecord) (envelope : TriggerEnvelope)
    (now : Instant) : Except PyError ClaimRequest :=
  let skipMisfire := skipsMisfire record.spec envelope.scheduledAt now
  let options : TriggerOptions :=
    { triggerMetadata := triggerMetadata envelope
      advanceSchedule := true
      advanceAfter := if skipMisfire then some now else none
      skipStatus := if skipMisfire then some .skippedMisfire else none
      expectedNextFireAt := record.nextFireAt
      expectedTimerOwner := .external
      expectedTimerOwnerGeneration := envelope.timerOwnerGeneration }
  match triggerCursor host record envelope.scheduledAt options with
  | .error error => .error error
  | .ok nextFireAt =>
      .ok (managedTriggerClaim host record envelope.scheduledAt options nextFireAt)

/-! ## Receipts -/

inductive TriggerStatus where
  | accepted
  | skipped
  | pending
deriving DecidableEq

structure TriggerReceipt where
  status : TriggerStatus
  firingStatus : FiringStatus
  scheduleId : String
  scheduleRevisionId : String
  occurrenceId : String
  submissionId : Option String
  runId : Option String
  statusReference : String
  duplicate : Bool
deriving DecidableEq

/-- `quote(text, safe="")`. -/
def quoteUrl (text : String) : String :=
  String.join (text.toUTF8.data.toList.map fun byte =>
    let c := Char.ofNat byte.toNat
    if byte < 128 ∧ (c.isAlphanum ∨ c = '_' ∨ c = '.' ∨ c = '-' ∨ c = '~') then
      String.singleton c
    else String.ofList ('%' :: [byte.toNat / 16, byte.toNat % 16].map fun digit =>
      (Nat.digitChar digit).toUpper))

/-- The receipt for a firing, with the run of its submission. -/
def triggerReceipt (record : ScheduleRecord) (envelope : TriggerEnvelope) (firing : FiringRecord)
    (created : Bool) (runId : Option String) : TriggerReceipt where
  status :=
    if firing.status ≠ .accepted then .skipped
    else if firing.submissionId ≠ none then .accepted
    else .pending
  firingStatus := firing.status
  scheduleId := record.scheduleId
  scheduleRevisionId := record.revisionId
  occurrenceId := envelope.occurrenceId
  submissionId := firing.submissionId
  runId := runId
  statusReference := "/v1/schedules/" ++ quoteUrl record.scheduleId ++ "/occurrences/" ++
    quoteUrl envelope.occurrenceId
  duplicate := !created

/-! ## Deliveries -/

/-- How far a delivery has come, with the values it holds. -/
inductive Stage where
  | received
  | read (record : ScheduleRecord)
  | checked (record : ScheduleRecord) (now : Instant)
  | claiming (record : ScheduleRecord) (now : Instant)
  | recovering (record : ScheduleRecord) (firing : FiringRecord) (created : Bool)
  | acquiring (record : ScheduleRecord) (firing : FiringRecord) (created : Bool)
  | preparing (record : ScheduleRecord) (firing : FiringRecord) (created : Bool)
      (ownerId : String)
  | submitting (record : ScheduleRecord) (firing : FiringRecord) (created : Bool)
      (ownerId : String) (attemptId : Option String)
  | linking (record : ScheduleRecord) (firing : FiringRecord) (created : Bool)
      (request : LinkRequest)
  | abandoning (firing : FiringRecord) (ownerId : String) (error : PyError)
  | releasing (firing : FiringRecord) (ownerId : String) (error : PyError)
  | replying (record : ScheduleRecord) (firing : FiringRecord) (created : Bool)
  | answered (receipt : TriggerReceipt)
  | refused (error : PyError)

structure Delivery where
  ctx : ControlPlaneContext
  envelope : TriggerEnvelope
  stage : Stage

/-- What `_accept_durable` takes from an execution envelope and a receipt. -/
structure ManagedAcceptance where
  planFingerprint : String
  revisionId : String
  pluginFingerprint : Option String
  policyFingerprint : Option String
  inputSnapshot : String
  submissionId : String
  runId : String
  executionRoute : String

/-- What a step depends on besides the stores. `proceed` is the delivery's own code;
the others are what the authorizer and the managed service do when they are asked. -/
inductive Answer where
  | proceed
  | raises (error : PyError)
  /-- `recover_scheduled_occurrence` finds no submission. -/
  | nothing
  | accepts (acceptance : ManagedAcceptance)
  /-- `recover_scheduled_occurrence` or `submit_scheduled_run` returns. -/
  | submitted (submissionId planFingerprint : String)
  | checkpoint (values : List (String × Json))
  /-- `prepare_scheduled_occurrence` returns. -/
  | prepared (snapshot : List (String × Json))
  | begins
  | rejects
  | compensates

/-- The durable acceptance of an occurrence: `firing_key`, the idempotency key in
`submit_scheduled_run`, and `_accept_durable`. -/
def managedAccept (host : ScheduleHost) (record : ScheduleRecord) (firing : FiringRecord)
    (envelope : TriggerEnvelope) (acceptance : ManagedAcceptance) :
    Except PyError Durable.AcceptRequest :=
  match firingKey record.scheduleId firing.revisionId (host.iso envelope.scheduledAt) with
  | .error error => .error error
  | .ok occurrence => .ok {
      idempotencyKey := scheduleIdempotencyKey host occurrence
      operation := "run.submit"
      planFingerprint := acceptance.planFingerprint
      revisionId := some acceptance.revisionId
      pluginFingerprint := acceptance.pluginFingerprint
      policyFingerprint := acceptance.policyFingerprint
      inputSnapshot := some acceptance.inputSnapshot
      schemaObservationFingerprint := none
      schemaBaselineId := none
      submissionId := some acceptance.submissionId
      runId := some acceptance.runId
      executionRoute := acceptance.executionRoute }

/-- `is_permanent_control_plane_error`. -/
def isPermanentError : PyError → Bool
  | .controlPlane error =>
      error.status = 501 ||
        (error.status = 409 && (match (Json.obj error.extensions).field? "reason" with
          | some (.str reason) => reason = "occurrence_intent_changed"
          | _ => false)) ||
        (400 ≤ error.status && error.status < 500 &&
          error.status ∉ [408, 409, 423, 424, 425, 429])
  | _ => false

def preparationOwner (env : Env) : String := env.generatedId "trigger-" 32 0

/-- The firing of the occurrence among those listed. -/
def existingFiring (host : ScheduleHost) (ctx : ControlPlaneContext) (record : ScheduleRecord)
    (envelope : TriggerEnvelope) (s : Stores) : Option FiringRecord :=
  (listFirings ctx record.scheduleId s).find? fun item =>
    item.revisionId = record.revisionId &&
      item.nominalFireTime = host.iso envelope.scheduledAt

/-- The metadata written after preparation. -/
def snapshotMetadata (envelope : TriggerEnvelope) (snapshot : List (String × Json)) :
    List (String × Json) := Json.update snapshot (triggerMetadata envelope)

/-- The call a delivery makes in a step. -/
def Delivery.call (host : ScheduleHost) (d : Delivery) (env : Env) (answer : Answer) :
    Option Call :=
  match d.stage, answer with
  | .claiming record now, .proceed =>
      match externalRequest host record d.envelope now with
      | .error _ => none
      | .ok request => some (.claimFiring d.ctx request)
  | .recovering record firing _, .accepts acceptance
  | .submitting record firing _ _ _, .accepts acceptance =>
      match managedAccept host record firing d.envelope acceptance with
      | .error _ => none
      | .ok request => some (.durable (.accept d.ctx request))
  | .acquiring _ firing _, .proceed =>
      some (.acquireFiringPreparation d.ctx firing.firingId (preparationOwner env) 300)
  | .preparing _ firing _ ownerId, .checkpoint values =>
      some (.updateFiringMetadata d.ctx firing.firingId values ownerId
        firing.preparationFencingToken)
  | .preparing _ firing _ ownerId, .prepared snapshot =>
      some (.updateFiringMetadata d.ctx firing.firingId (snapshotMetadata d.envelope snapshot)
        ownerId firing.preparationFencingToken)
  | .submitting _ firing _ ownerId _, .begins =>
      some (.beginFiringSubmission d.ctx firing.firingId ownerId firing.preparationFencingToken
        (some (env.uuid 0)))
  | .submitting _ firing _ _ (some attemptId), .rejects =>
      some (.rejectFiringSubmission d.ctx firing.firingId attemptId)
  | .submitting _ firing _ _ (some attemptId), .compensates =>
      some (.failFiringAfterCompensatedSubmission d.ctx firing.firingId attemptId)
  | .linking _ firing _ request, .proceed =>
      some (.linkFiringSubmission d.ctx firing.firingId request)
  | .abandoning firing ownerId _, .proceed =>
      some (.failFiringPreparation d.ctx firing.firingId ownerId firing.preparationFencingToken)
  | .releasing firing ownerId _, .proceed =>
      some (.releaseFiringPreparation d.ctx firing.firingId ownerId
        firing.preparationFencingToken)
  | _, _ => none

/-- A firing that needs no managed work is reported as it is. -/
def afterClaim (record : ScheduleRecord) (firing : FiringRecord) (created : Bool) : Stage :=
  if firing.status ≠ .accepted ∨ firing.submissionId ≠ none then .replying record firing created
  else .recovering record firing created

/-- Where an error during preparation leads. -/
def afterFailedPreparation (firing : FiringRecord) (ownerId : String) (error : PyError) : Stage :=
  if isPermanentError error then .abandoning firing ownerId error
  else .releasing firing ownerId error

/-- The stage after a step, from what the call of the step returns or raises. -/
def Delivery.after (host : ScheduleHost) (d : Delivery) (env : Env) (now : Instant)
    (answer : Answer) (s : Stores) : Stage :=
  match d.stage, answer with
  | .received, .raises error | .read _, .raises error => .refused error
  | .received, .proceed =>
      match s.live? d.ctx d.envelope.scheduleId with
      | none => .refused (notFound "schedule not found")
      | some record =>
          match recordError d.ctx record d.envelope with
          | some error => .refused error
          | none => .read record
  | .read record, .proceed =>
      match existingFiring host d.ctx record d.envelope s with
      | some _ => .checked record now
      | none =>
          match slotError host record d.envelope now with
          | some error => .refused error
          | none => .checked record now
  | .checked record checkedAt, .proceed =>
      match existingFiring host d.ctx record d.envelope s with
      | some firing => afterClaim record firing false
      | none => .claiming record checkedAt
  | .claiming record checkedAt, .proceed =>
      match externalRequest host record d.envelope checkedAt with
      | .error error => .refused error
      | .ok request =>
          match (claimFiring host env d.ctx request s).result with
          | .error error => .refused error
          | .ok (firing, created) => afterClaim record firing created
  | .recovering _ _ _, .raises error => .refused error
  | .recovering record firing created, .nothing => .acquiring record firing created
  | .recovering record firing created, .submitted submissionId planFingerprint =>
      .linking record firing created ⟨submissionId, planFingerprint, none, none, true⟩
  | .acquiring record firing created, .proceed =>
      match (acquireFiringPreparation env d.ctx firing.firingId (preparationOwner env) 300
          s).result with
      | .error error => .refused error
      | .ok (leased, true) => .preparing record leased created (preparationOwner env)
      | .ok (held, false) => .replying record held created
  | .preparing record firing created ownerId, .checkpoint values =>
      match (updateFiringMetadata host env d.ctx firing.firingId values ownerId
          firing.preparationFencingToken s).result with
      | .error error => afterFailedPreparation firing ownerId error
      | .ok _ => .preparing record firing created ownerId
  | .preparing _ firing _ ownerId, .raises error => afterFailedPreparation firing ownerId error
  | .preparing record firing created ownerId, .prepared snapshot =>
      match (updateFiringMetadata host env d.ctx firing.firingId
          (snapshotMetadata d.envelope snapshot) ownerId firing.preparationFencingToken
          s).result with
      | .error error => afterFailedPreparation firing ownerId error
      | .ok _ => .submitting record firing created ownerId none
  | .submitting record firing created ownerId _, .begins =>
      match (beginFiringSubmission env d.ctx firing.firingId ownerId
          firing.preparationFencingToken (some (env.uuid 0)) s).result with
      | .error error => .releasing firing ownerId error
      | .ok _ => .submitting record firing created ownerId (some (env.uuid 0))
  | .submitting _ firing _ ownerId _, .raises error => .releasing firing ownerId error
  | .submitting record firing created ownerId _, .submitted submissionId planFingerprint =>
      .linking record firing created ⟨submissionId, planFingerprint, some ownerId,
        some firing.preparationFencingToken, false⟩
  | .linking record firing created request, .proceed =>
      match (linkFiringSubmission host env d.ctx firing.firingId request s).result with
      | .ok linked => .replying record linked created
      | .error error =>
          match request.preparationOwnerId with
          | none => .refused error
          | some ownerId => .releasing firing ownerId error
  | .abandoning firing ownerId error, .proceed => .releasing firing ownerId error
  | .releasing _ _ error, .proceed => .refused error
  | .replying record firing created, .proceed =>
      match firing.submissionId with
      | none => .answered (triggerReceipt record d.envelope firing created none)
      | some submissionId =>
          match s.durable.submissions.get? (key d.ctx submissionId) with
          | none => .refused (notFound "Submission not found")
          | some submission =>
              .answered (triggerReceipt record d.envelope firing created submission.runId)
  | stage, _ => stage

/-! ## Sessions of deliveries -/

structure Gateways where
  stores : Stores
  deliveries : List Delivery

inductive Move where
  | deliver (ctx : ControlPlaneContext) (content : TriggerContent)
  | step (delivery : Nat) (env : Env) (now : Instant) (answer : Answer)
  | other (e : Event)

/-- The stores after a call, if one is made. -/
def callStores (host : ScheduleHost) (env : Env) (s : Stores) : Option Call → Stores
  | none => s
  | some call => next host s ⟨env, call⟩

def move (host : ScheduleHost) (σ : Gateways) : Move → Gateways
  | .deliver ctx content =>
      match content.envelope host with
      | .error _ => σ
      | .ok envelope => { σ with deliveries := σ.deliveries ++ [⟨ctx, envelope, .received⟩] }
  | .step i env now answer =>
      match σ.deliveries[i]? with
      | none => σ
      | some d => {
          stores := callStores host env σ.stores (d.call host env answer)
          deliveries := σ.deliveries.set i
            { d with stage := d.after host env now answer σ.stores } }
  | .other e => { σ with stores := next host σ.stores e }

end Etlantic.ControlPlane.Schedule
