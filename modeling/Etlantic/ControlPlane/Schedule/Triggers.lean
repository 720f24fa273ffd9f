import Etlantic.ControlPlane.Schedule.SchedulerService

/-!
# Manual and external triggers

The claims of `ScheduleApplicationService.trigger` and `trigger_external`.  Both
read the schedule first and claim afterwards; between the two other callers may
have changed it.
-/

namespace Etlantic.ControlPlane.Schedule

open Durable (Key key Env)

/-- The keyword arguments of `_trigger_record`. -/
structure TriggerOptions where
  triggerMetadata : List (String × Json)
  advanceSchedule : Bool
  advanceAfter : Option Instant
  skipStatus : Option FiringStatus
  expectedNextFireAt : Option String
  expectedTimerOwner : TimerOwner
  expectedTimerOwnerGeneration : Int

/-- The cursor a managed trigger passes on. -/
def triggerCursor (host : ScheduleHost) (record : ScheduleRecord) (at_ : Instant)
    (options : TriggerOptions) : Except PyError (Option String) :=
  if options.advanceSchedule then
    match nextFireAfter host record.spec (options.advanceAfter.getD at_) (some at_) with
    | .error error => .error error
    | .ok next => .ok (next.map fun t => host.iso t.instant)
  else .ok record.nextFireAt

/-- The claim of `_trigger_record` with a managed service. -/
def managedTriggerClaim (host : ScheduleHost) (record : ScheduleRecord) (at_ : Instant)
    (options : TriggerOptions) (nextFireAt : Option String) : ClaimRequest where
  scheduleId := record.scheduleId
  revisionId := record.revisionId
  nominalFireTime := host.iso at_
  ownerId := "gateway"
  fencingToken := 0
  planFingerprint := "managed-admission-pending"
  withDurable := true
  nextFireAt := nextFireAt
  requireLeaderLease := false
  admitSubmission := false
  skipStatus := options.skipStatus
  metadata := options.triggerMetadata
  expectedNextFireAt := options.expectedNextFireAt
  expectedTimerOwner := some options.expectedTimerOwner
  expectedTimerOwnerGeneration := some options.expectedTimerOwnerGeneration
  requireActive := true

/-- The claim of `_trigger_record` without one. It names no next occurrence. -/
def gatewayTriggerClaim (host : ScheduleHost) (withDurable : Bool) (record : ScheduleRecord)
    (at_ : Instant) (options : TriggerOptions) : ClaimRequest where
  scheduleId := record.scheduleId
  revisionId := record.revisionId
  nominalFireTime := host.iso at_
  ownerId := "gateway"
  fencingToken := 0
  planFingerprint :=
    if record.policyFingerprint = "" then "gateway" else record.policyFingerprint
  withDurable := withDurable
  nextFireAt := none
  requireLeaderLease := false
  admitSubmission := true
  skipStatus := none
  metadata := []
  expectedNextFireAt := options.expectedNextFireAt
  expectedTimerOwner := some options.expectedTimerOwner
  expectedTimerOwnerGeneration := some options.expectedTimerOwnerGeneration
  requireActive := true

/-- How a gateway is set up. -/
inductive Gateway where
  | managed
  | unmanaged (withDurable : Bool)
deriving DecidableEq

/-- The claim of `trigger` on a schedule it has read. -/
def manualClaim (host : ScheduleHost) (gateway : Gateway) (record : ScheduleRecord)
    (at_ : Instant) : Except PyError ClaimRequest :=
  let options : TriggerOptions :=
    { triggerMetadata := []
      advanceSchedule := false
      advanceAfter := none
      skipStatus := none
      expectedNextFireAt := none
      expectedTimerOwner := .local
      expectedTimerOwnerGeneration := record.timerOwnerGeneration }
  if record.timerOwner ≠ .local then
    .error (forbidden "Externally owned schedules require an authenticated trigger envelope")
  else
    match gateway with
    | .unmanaged withDurable => .ok (gatewayTriggerClaim host withDurable record at_ options)
    | .managed =>
        match triggerCursor host record at_ options with
        | .error error => .error error
        | .ok nextFireAt => .ok (managedTriggerClaim host record at_ options nextFireAt)

/-- `TriggerEnvelope`. Its `scheduled_at` is the canonical text of an instant. -/
structure TriggerEnvelope where
  scheduleId : String
  scheduleRevisionId : String
  timerOwnerGeneration : Int
  occurrenceId : String
  scheduledAt : Instant
  semanticFingerprint : String

def maxTriggerFutureSkewSeconds : Int := 60

def triggerEnvelopeSchema : String := "etlantic.trigger_envelope/1"

/-- The checks of `trigger_external` on an occurrence that has no firing yet. -/
def externalError (host : ScheduleHost) (ctx : ControlPlaneContext) (record : ScheduleRecord)
    (envelope : TriggerEnvelope) (now : Instant) : Option PyError :=
  if record.timerOwner ≠ .external then
    some (forbidden "Schedule is not owned by an external timer")
  else if record.revisionId ≠ envelope.scheduleRevisionId then
    some (conflict "Trigger schedule revision is stale")
  else if record.timerOwnerGeneration ≠ envelope.timerOwnerGeneration then
    some (conflict "Trigger timer owner generation is stale")
  else if record.workloadIdentity ≠ some ctx.principal then
    some (forbidden "Trigger principal does not match the bound workload identity")
  else if record.status ≠ .active then some (conflict "Schedule is not active")
  else if now + seconds maxTriggerFutureSkewSeconds < envelope.scheduledAt then
    some (conflict "External trigger arrived before its scheduled occurrence")
  else
    match record.nextFireAt with
    | none => some (conflict "External trigger has no next scheduled occurrence")
    | some expected =>
        match host.fromisoformat expected with
        | none => some (conflict "Schedule next occurrence is invalid")
        | some expectedTime =>
            if expectedTime.instant ≠ envelope.scheduledAt then
              some (conflict "Trigger timestamp does not match the next scheduled occurrence")
            else none

/-- `skip_misfire` in `trigger_external`. -/
def skipsMisfire (spec : ScheduleSpec) (scheduledAt now : Instant) : Bool :=
  (spec.misfire = .skip && scheduledAt < now) ||
    (spec.misfire = .catchUp && spec.catchUpMax = 0 && scheduledAt ≤ now)

/-- The claim of `trigger_external` on a schedule it has read. -/
def externalClaim (host : ScheduleHost) (ctx : ControlPlaneContext) (record : ScheduleRecord)
    (envelope : TriggerEnvelope) (now : Instant) : Except PyError ClaimRequest :=
  match externalError host ctx record envelope now with
  | some error => .error error
  | none =>
      let skipMisfire := skipsMisfire record.spec envelope.scheduledAt now
      let options : TriggerOptions :=
        { triggerMetadata :=
            [("external_trigger_schema", .str triggerEnvelopeSchema),
              ("external_trigger_occurrence_id", .str envelope.occurrenceId),
              ("external_trigger_fingerprint", .str envelope.semanticFingerprint)]
          advanceSchedule := true
          advanceAfter := if skipMisfire then some now else none
          skipStatus := if skipMisfire then some .skippedMisfire else none
          expectedNextFireAt := record.nextFireAt
          expectedTimerOwner := .external
          expectedTimerOwnerGeneration := envelope.timerOwnerGeneration }
      match triggerCursor host record envelope.scheduledAt options with
      | .error error => .error error
      | .ok nextFireAt =>
          .ok (managedTriggerClaim host record envelope.scheduledAt options nextFireAt)

end Etlantic.ControlPlane.Schedule
