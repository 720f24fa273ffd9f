import Etlantic.ControlPlane.Durable.Acceptance
import Etlantic.ControlPlane.ScheduleModels

/-!
# The schedule store

`MemoryScheduleStore` next to the durable store it admits work to.  An operation
is a function of both stores, with its result or error and the stores it leaves:
`claim_firing` writes the firing before the checks of the schedule it rewrites,
and a submission it accepted stays accepted when a later check fails.
-/

namespace Etlantic.ControlPlane.Schedule

open Durable (Key key Env)

structure Stores where
  schedules : Dict Key ScheduleRecord
  firings : Dict Key FiringRecord
  leaders : Dict Scope SchedulerLeaderLease
  durable : Durable.Store

/-- An empty schedule store next to a durable store. -/
def Stores.init (durable : Durable.Store) : Stores where
  schedules := .empty
  firings := .empty
  leaders := .empty
  durable := durable

structure Outcome (α : Type) where
  result : Except PyError α
  stores : Stores

def raise {α : Type} (error : PyError) (s : Stores) : Outcome α := ⟨.error error, s⟩

def ret {α : Type} (value : α) (s : Stores) : Outcome α := ⟨.ok value, s⟩

/-- The surroundings of a call made inside another one. -/
def nested (env : Env) (place : Nat) : Env where
  now path := env.now (place :: path)
  uuid n := env.uuid (n + 16)

/-! ## Which firings are in flight -/

/-- `_submission_inflight`, with or without the durable store. -/
def submissionInflight (withDurable : Bool) (scope : Scope) (durable : Durable.Store) :
    Option String → Bool
  | none => true
  | some submissionId =>
      !withDurable ||
        (durable.submissions.get? ⟨scope, submissionId⟩).any fun row => row.status.isNonTerminal

/-- A firing of the schedule that counts as active. -/
def inflight (withDurable : Bool) (s : Stores) (scope : Scope) (scheduleId : String)
    (firing : FiringRecord) : Bool :=
  firing.scheduleId = scheduleId && firing.scope = scope && firing.status = .accepted &&
    submissionInflight withDurable scope s.durable firing.submissionId

/-- `_has_inflight_firing`. -/
def hasInflightFiring (withDurable : Bool) (s : Stores) (scope : Scope) (scheduleId : String) :
    Bool :=
  s.firings.any fun _ firing => inflight withDurable s scope scheduleId firing

/-- A firing of the schedule that is still being prepared. -/
def unlinked (scope : Scope) (scheduleId : String) (firing : FiringRecord) : Bool :=
  firing.scheduleId = scheduleId && firing.scope = scope && firing.status = .accepted &&
    firing.submissionId = none

/-- The scan of `_set_status` and `transfer_timer_owner`. -/
def hasUnlinkedFiring (s : Stores) (scope : Scope) (scheduleId : String) : Bool :=
  s.firings.any fun _ firing => unlinked scope scheduleId firing

/-! ## Schedules -/

structure CreateRequest where
  definitionId : String
  profileName : String
  spec : ScheduleSpec
  scheduleId : Option String
  policyFingerprint : String
  definitionRevisionId : Option String
  parameterRefs : List (String × String)
  secretRefs : List (String × Json)
  revisionPolicy : ScheduleRevisionPolicy
  workloadIdentity : Option Principal
  executionRoute : String
  timerOwner : TimerOwner
  nextFireAt : Option String

/-- The record `create` builds. -/
def createdSchedule (env : Env) (ctx : ControlPlaneContext) (request : CreateRequest) :
    ScheduleRecord where
  scheduleId :=
    match request.scheduleId with
    | none | some "" => strip (env.generatedId "sch-" 16 0)
    | some given => strip given
  definitionId := request.definitionId
  revisionId := env.generatedId "rev-" 12 1
  scope := ctx.scopeKey
  profileName := request.profileName
  policyFingerprint := request.policyFingerprint
  spec := request.spec
  createdAt := env.now [0]
  updatedAt := env.now [0]
  status := .active
  nextFireAt := request.nextFireAt
  definitionRevisionId := request.definitionRevisionId
  parameterRefs := request.parameterRefs
  secretRefs := request.secretRefs
  metadata := []
  revisionPolicy := request.revisionPolicy
  workloadIdentity := request.workloadIdentity
  executionRoute := request.executionRoute
  timerOwner := request.timerOwner
  timerOwnerGeneration := 1

def create (host : ScheduleHost) (env : Env) (ctx : ControlPlaneContext) (request : CreateRequest)
    (s : Stores) : Outcome ScheduleRecord :=
  if isExecutionRoute request.executionRoute = false then raise Durable.routeError s
  else
    match checkSchedule host (createdSchedule env ctx request) with
    | .error error => raise error s
    | .ok record =>
        if s.schedules.contains (key ctx record.scheduleId) then
          raise (conflict ("schedule " ++ record.scheduleId ++ " already exists")) s
        else ret record { s with schedules := s.schedules.set (key ctx record.scheduleId) record }

/-- A schedule that is there and not deleted. -/
def Stores.live? (s : Stores) (ctx : ControlPlaneContext) (scheduleId : String) :
    Option ScheduleRecord :=
  (s.schedules.get? (key ctx scheduleId)).filter fun record => record.status ≠ .deleted

def get (ctx : ControlPlaneContext) (scheduleId : String) (s : Stores) : Outcome ScheduleRecord :=
  match s.live? ctx scheduleId with
  | none => raise (notFound "schedule not found") s
  | some record => ret record s

def listSchedules (ctx : ControlPlaneContext) (s : Stores) : List ScheduleRecord :=
  s.schedules.entries.filterMap fun e =>
    if e.1.scope = ctx.scopeKey ∧ e.2.status ≠ .deleted then some e.2 else none

def dueSchedules (ctx : ControlPlaneContext) (now : String) (s : Stores) : List ScheduleRecord :=
  s.schedules.entries.filterMap fun e =>
    if e.1.scope = ctx.scopeKey ∧ e.2.status = .active ∧ e.2.timerOwner = .local ∧
        e.2.nextFireAt.any (fun cursor => cursor ≤ now) then
      some e.2
    else none

def pendingOccurrence (detail : String) : PyError :=
  fireConflict detail "occurrence_preparation_pending"

def setStatus (host : ScheduleHost) (env : Env) (ctx : ControlPlaneContext) (scheduleId : String)
    (status : ScheduleStatus) (s : Stores) : Outcome ScheduleRecord :=
  match s.live? ctx scheduleId with
  | none => raise (notFound "schedule not found") s
  | some record =>
      if status = .deleted ∧ hasUnlinkedFiring s ctx.scopeKey scheduleId = true then
        raise (pendingOccurrence "Schedule cannot be deleted while an occurrence is unlinked") s
      else
        match checkSchedule host { record with status := status, updatedAt := env.now [0] } with
        | .error error => raise error s
        | .ok updated => ret updated { s with
            schedules := s.schedules.set (key ctx scheduleId) updated }

def pause (host : ScheduleHost) (env : Env) (ctx : ControlPlaneContext) (scheduleId : String)
    (s : Stores) : Outcome ScheduleRecord :=
  setStatus host env ctx scheduleId .paused s

def resume (host : ScheduleHost) (env : Env) (ctx : ControlPlaneContext) (scheduleId : String)
    (s : Stores) : Outcome ScheduleRecord :=
  setStatus host env ctx scheduleId .active s

def delete (host : ScheduleHost) (env : Env) (ctx : ControlPlaneContext) (scheduleId : String)
    (s : Stores) : Outcome ScheduleRecord :=
  setStatus host env ctx scheduleId .deleted s

structure Amendment where
  expectedRevisionId : String
  spec : ScheduleSpec
  nextFireAt : Option String
  executionRoute : Option String
  policyFingerprint : Option String
  withDurable : Bool

/-- The revision `amend` stores. -/
def amendedSchedule (env : Env) (amendment : Amendment) (record : ScheduleRecord) :
    ScheduleRecord :=
  let amendedRoute := amendment.executionRoute.getD record.executionRoute
  let metadata := Json.setField "amends_revision_id" (.str record.revisionId) record.metadata
  { record with
    revisionId := env.generatedId "rev-" 12 0
    spec := amendment.spec
    nextFireAt := amendment.nextFireAt
    updatedAt := env.now [0]
    metadata :=
      if amendedRoute ≠ record.executionRoute then
        Json.setField "execution_route_amended_from" (.str record.executionRoute) metadata
      else metadata
    executionRoute := amendedRoute
    policyFingerprint := amendment.policyFingerprint.getD record.policyFingerprint }

def amend (host : ScheduleHost) (env : Env) (ctx : ControlPlaneContext) (scheduleId : String)
    (amendment : Amendment) (s : Stores) : Outcome ScheduleRecord :=
  match s.live? ctx scheduleId with
  | none => raise (notFound "schedule not found") s
  | some record =>
      if record.revisionId ≠ amendment.expectedRevisionId then
        raise (fireConflict "Schedule revision changed before amendment" "stale_revision") s
      else if hasInflightFiring amendment.withDurable s ctx.scopeKey scheduleId then
        raise (fireConflict "Schedule cannot be amended while a firing is active"
          "active_firing") s
      else if amendment.executionRoute.any (fun route => isExecutionRoute route = false) then
        raise Durable.routeError s
      else
        match checkSchedule host (amendedSchedule env amendment record) with
        | .error error => raise error s
        | .ok amended => ret amended { s with
            schedules := s.schedules.set (key ctx scheduleId) amended }

structure OwnerTransfer where
  expectedRevisionId : String
  expectedGeneration : Int
  timerOwner : TimerOwner
  workloadIdentity : Option Principal
  policyFingerprint : String

/-- The argument checks of `transfer_timer_owner`. -/
def OwnerTransfer.invalid (transfer : OwnerTransfer) : Option PyError :=
  if transfer.expectedGeneration < 1 then
    some (.valueError "expected_generation must be positive")
  else if transfer.timerOwner = .external ∧ transfer.workloadIdentity = none then
    some (.valueError "external timer ownership requires workload_identity")
  else if transfer.workloadIdentity.any (fun identity => identity.kind = .human) then
    some (.valueError "timer workload identity must be workload or service")
  else none

/-- The record `transfer_timer_owner` stores. -/
def transferredSchedule (env : Env) (transfer : OwnerTransfer) (record : ScheduleRecord) :
    ScheduleRecord :=
  { record with
    timerOwner := transfer.timerOwner
    timerOwnerGeneration := record.timerOwnerGeneration + 1
    workloadIdentity := transfer.workloadIdentity
    policyFingerprint := transfer.policyFingerprint
    updatedAt := env.now [0] }

def transferTimerOwner (host : ScheduleHost) (env : Env) (ctx : ControlPlaneContext)
    (scheduleId : String) (transfer : OwnerTransfer) (s : Stores) : Outcome ScheduleRecord :=
  match transfer.invalid with
  | some error => raise error s
  | none =>
      match s.live? ctx scheduleId with
      | none => raise (notFound "schedule not found") s
      | some record =>
          if record.revisionId ≠ transfer.expectedRevisionId ∨
              record.timerOwnerGeneration ≠ transfer.expectedGeneration then
            raise (conflict "Schedule timer owner changed before transfer") s
          else if hasUnlinkedFiring s ctx.scopeKey scheduleId then
            raise (pendingOccurrence
              "Schedule timer owner cannot transfer while an occurrence is unlinked") s
          else
            match checkSchedule host (transferredSchedule env transfer record) with
            | .error error => raise error s
            | .ok updated => ret updated { s with
                schedules := s.schedules.set (key ctx scheduleId) updated }

/-! ## Leader leases -/

/-- `_require_leader`, with its reading of the clock. -/
def Stores.requireLeader (s : Stores) (scope : Scope) (ownerId : String) (token : Int)
    (now : Instant) : Except PyError SchedulerLeaderLease :=
  match s.leaders.get? scope with
  | none => .error (conflict "Stale or invalid scheduler leader lease")
  | some lease =>
      if lease.ownerId ≠ ownerId ∨ lease.fencingToken ≠ token ∨ lease.expiresAt ≤ now then
        .error (conflict "Stale or invalid scheduler leader lease")
      else .ok lease

/-- The lease a scope hands to a new leader. -/
def grantedLease (ctx : ControlPlaneContext) (ownerId : String) (ttlSeconds : Int) (now : Instant)
    (current : Option SchedulerLeaderLease) : SchedulerLeaderLease where
  ownerId := ownerId
  fencingToken := (current.map (·.fencingToken)).getD 0 + 1
  expiresAt := now + seconds ttlSeconds
  heartbeatAt := now
  scope := ctx.scopeKey

def acquireLeaderLease (env : Env) (ctx : ControlPlaneContext) (ownerId : String)
    (ttlSeconds : Int) (s : Stores) : Outcome SchedulerLeaderLease :=
  let now := env.now [0]
  let grant (lease : SchedulerLeaderLease) :=
    ret lease { s with leaders := s.leaders.set ctx.scopeKey lease }
  match s.leaders.get? ctx.scopeKey with
  | none => grant (grantedLease ctx ownerId ttlSeconds now none)
  | some current =>
      if current.expiresAt ≤ now then grant (grantedLease ctx ownerId ttlSeconds now (some current))
      else if current.ownerId ≠ ownerId then raise (conflict "scheduler leader lease held") s
      else grant { current with expiresAt := now + seconds ttlSeconds, heartbeatAt := now }

def heartbeatLeader (env : Env) (ctx : ControlPlaneContext) (ownerId : String)
    (fencingToken ttlSeconds : Int) (s : Stores) : Outcome SchedulerLeaderLease :=
  match s.requireLeader ctx.scopeKey ownerId fencingToken (env.now [0]) with
  | .error error => raise error s
  | .ok lease =>
      let renewed := { lease with
        expiresAt := env.now [1] + seconds ttlSeconds
        heartbeatAt := env.now [1] }
      ret renewed { s with leaders := s.leaders.set ctx.scopeKey renewed }

def releaseLeader (env : Env) (ctx : ControlPlaneContext) (ownerId : String) (fencingToken : Int)
    (s : Stores) : Outcome Unit :=
  match s.requireLeader ctx.scopeKey ownerId fencingToken (env.now [0]) with
  | .error error => raise error s
  | .ok lease => ret () { s with
      leaders := s.leaders.set ctx.scopeKey { lease with expiresAt := env.now [1] - seconds 1 } }

/-! ## Claims -/

structure ClaimRequest where
  scheduleId : String
  revisionId : String
  nominalFireTime : String
  ownerId : String
  fencingToken : Int
  planFingerprint : String
  withDurable : Bool
  nextFireAt : Option String
  requireLeaderLease : Bool
  admitSubmission : Bool
  skipStatus : Option FiringStatus
  metadata : List (String × Json)
  expectedNextFireAt : Option String
  expectedTimerOwner : Option TimerOwner
  expectedTimerOwnerGeneration : Option Int
  requireActive : Bool

/-- The leader check of a claim. -/
def leaderError (now : Instant) (ctx : ControlPlaneContext) (request : ClaimRequest) (s : Stores) :
    Option PyError :=
  if request.requireLeaderLease = false then none
  else
    match s.requireLeader ctx.scopeKey request.ownerId request.fencingToken now with
    | .error error => some error
    | .ok _ => none

/-- The checks of a claim that every repeat of it passes as well. -/
def fenceError (request : ClaimRequest) (record : ScheduleRecord) : Option PyError :=
  if record.status = .deleted then
    some (fireConflict "Deleted schedules cannot accept a firing" "schedule_deleted")
  else if record.revisionId ≠ request.revisionId then
    some (fireConflict "Schedule revision changed before firing claim" "stale_revision")
  else if request.requireLeaderLease = true ∧ record.timerOwner ≠ .local then
    some (fireConflict "Polling scheduler cannot claim an externally owned schedule"
      "timer_owner_changed")
  else if request.expectedTimerOwner.any (fun owner => record.timerOwner ≠ owner) then
    some (fireConflict "Schedule timer owner changed before firing claim" "timer_owner_changed")
  else if request.expectedTimerOwnerGeneration.any
      (fun generation => record.timerOwnerGeneration ≠ generation) then
    some (fireConflict "Schedule timer owner generation changed before firing claim"
      "timer_generation_changed")
  else none

/-- The checks that only a new occurrence has to pass. -/
def occurrenceError (request : ClaimRequest) (record : ScheduleRecord) : Option PyError :=
  if request.expectedNextFireAt.any (fun expected => record.nextFireAt ≠ some expected) then
    some (fireConflict "Schedule next occurrence changed before external trigger admission"
      "stale_occurrence")
  else if (request.requireActive = true ∨ request.requireLeaderLease = true) ∧
      record.status ≠ .active then
    some (fireConflict "Only active schedules can accept a scheduled firing" "schedule_not_active")
  else none

/-- `_in_window`. -/
def inWindow (spec : ScheduleSpec) (instant : Instant) : Bool :=
  spec.windowStart.all (fun start => start.instant ≤ instant) &&
    spec.windowEnd.all (fun stop => instant < stop)

/-- The status of a new occurrence. A naive nominal time cannot be compared with
a window. -/
def occurrenceStatus (ctx : ControlPlaneContext) (request : ClaimRequest) (spec : ScheduleSpec)
    (nominal : Datetime) (s : Stores) : Except PyError FiringStatus :=
  match request.skipStatus with
  | some status => .ok status
  | none =>
      if nominal.offset = none ∧ (spec.windowStart.isSome ∨ spec.windowEnd.isSome) then
        .error (.typeError "can't compare offset-naive and offset-aware datetimes")
      else if inWindow spec nominal.instant = false then .ok .skippedWindow
      else if spec.overlap = .skip ∧
          hasInflightFiring request.withDurable s ctx.scopeKey request.scheduleId = true then
        .ok .skippedOverlap
      else .ok .accepted

/-- The firing a claim creates, before its submission. -/
def claimedFiring (env : Env) (ctx : ControlPlaneContext) (request : ClaimRequest)
    (status : FiringStatus) : FiringRecord where
  firingId := env.generatedId "fire-" 16 0
  scheduleId := request.scheduleId
  revisionId := request.revisionId
  nominalFireTime := request.nominalFireTime
  scope := ctx.scopeKey
  createdAt := env.now [1]
  status := status
  submissionId := none
  metadata := request.metadata
  preparation := none
  preparationFencingToken := 0
  submissionStarted := false
  submissionAttemptIds := []
  attemptsDistinct := List.nodup_nil
  attemptsStarted := fun h => absurd rfl h

/-- The submission a claim admits itself. -/
def fireRequest (request : ClaimRequest) (logical firingId : String) : Durable.AcceptRequest where
  idempotencyKey := logical
  operation := "schedule.fire"
  planFingerprint := request.planFingerprint
  revisionId := some request.revisionId
  pluginFingerprint := none
  policyFingerprint := none
  inputSnapshot := none
  schemaObservationFingerprint := none
  schemaBaselineId := none
  submissionId := some firingId
  runId := none
  executionRoute := "local"

/-- The two writes of a claim; the second runs the checks of the schedule. -/
def storeClaim (host : ScheduleHost) (env : Env) (ctx : ControlPlaneContext)
    (request : ClaimRequest) (record : ScheduleRecord) (logical : String) (firing : FiringRecord)
    (s : Stores) : Outcome (FiringRecord × Bool) :=
  let claimed := { s with firings := s.firings.set (key ctx logical) firing }
  match checkSchedule host
      { record with nextFireAt := request.nextFireAt, updatedAt := env.now [3] } with
  | .error error => raise error claimed
  | .ok updated => ret (firing, true) { claimed with
      schedules := s.schedules.set (key ctx request.scheduleId) updated }

/-- The part of a claim that makes a new firing. -/
def claimNew (host : ScheduleHost) (env : Env) (ctx : ControlPlaneContext)
    (request : ClaimRequest) (record : ScheduleRecord) (logical : String) (s : Stores) :
    Outcome (FiringRecord × Bool) :=
  match host.fromisoformat request.nominalFireTime with
  | none => raise isoError s
  | some nominal =>
      match occurrenceStatus ctx request record.spec nominal s with
      | .error error => raise error s
      | .ok status =>
          match payloadError host.lower request.metadata with
          | some error => raise error s
          | none =>
              match firingError host ctx.scopeKey request.scheduleId request.revisionId
                  request.nominalFireTime with
              | some error => raise error s
              | none =>
                  let firing := claimedFiring env ctx request status
                  if status = .accepted ∧ request.withDurable = true ∧
                      request.admitSubmission = true then
                    let accepted := Durable.accept host.durable (nested env 2) ctx
                      (fireRequest request logical firing.firingId) s.durable
                    match accepted.result with
                    | .error error => raise error { s with durable := accepted.store }
                    | .ok (submission, _) =>
                        storeClaim host env ctx request record logical
                          { firing with submissionId := some submission.submissionId }
                          { s with durable := accepted.store }
                  else storeClaim host env ctx request record logical firing s

def claimFiring (host : ScheduleHost) (env : Env) (ctx : ControlPlaneContext)
    (request : ClaimRequest) (s : Stores) : Outcome (FiringRecord × Bool) :=
  match firingKey request.scheduleId request.revisionId request.nominalFireTime with
  | .error error => raise error s
  | .ok logical =>
      match leaderError (env.now [0]) ctx request s with
      | some error => raise error s
      | none =>
          match s.schedules.get? (key ctx request.scheduleId) with
          | none => raise (notFound "schedule not found") s
          | some record =>
              match fenceError request record with
              | some error => raise error s
              | none =>
                  match s.firings.get? (key ctx logical) with
                  | some existing => ret (existing, false) s
                  | none =>
                      match occurrenceError request record with
                      | some error => raise error s
                      | none => claimNew host env ctx request record logical s

def listFirings (ctx : ControlPlaneContext) (scheduleId : String) (s : Stores) :
    List FiringRecord :=
  s.firings.entries.filterMap fun e =>
    if e.2.scheduleId = scheduleId ∧ e.2.scope = ctx.scopeKey then some e.2 else none

end Etlantic.ControlPlane.Schedule
