import Etlantic.ControlPlane.Durable.ActionJobs
import Etlantic.ControlPlane.Schedule.Firings
import Mathlib.Data.Nat.Pairing
import Mathlib.Logic.Equiv.Nat

/-!
# Runs of the two stores

Every call that changes the schedule store or the durable store, in any order
and from any caller.  `Write` lists the changes a call can make, with the guards
under which it makes them; the calls are shown to make no others.
-/

namespace Etlantic.ControlPlane.Schedule

open Durable (Key key Env)

inductive Call where
  | durable (call : Durable.Call)
  | create (ctx : ControlPlaneContext) (request : CreateRequest)
  | pause (ctx : ControlPlaneContext) (scheduleId : String)
  | resume (ctx : ControlPlaneContext) (scheduleId : String)
  | delete (ctx : ControlPlaneContext) (scheduleId : String)
  | amend (ctx : ControlPlaneContext) (scheduleId : String) (amendment : Amendment)
  | transferTimerOwner (ctx : ControlPlaneContext) (scheduleId : String)
      (transfer : OwnerTransfer)
  | acquireLeaderLease (ctx : ControlPlaneContext) (ownerId : String) (ttlSeconds : Int)
  | heartbeatLeader (ctx : ControlPlaneContext) (ownerId : String) (fencingToken ttlSeconds : Int)
  | releaseLeader (ctx : ControlPlaneContext) (ownerId : String) (fencingToken : Int)
  | claimFiring (ctx : ControlPlaneContext) (request : ClaimRequest)
  | acquireFiringPreparation (ctx : ControlPlaneContext) (firingId ownerId : String)
      (ttlSeconds : Int)
  | updateFiringMetadata (ctx : ControlPlaneContext) (firingId : String)
      (metadata : List (String × Json)) (ownerId : String) (fencingToken : Int)
  | releaseFiringPreparation (ctx : ControlPlaneContext) (firingId ownerId : String)
      (fencingToken : Int)
  | beginFiringSubmission (ctx : ControlPlaneContext) (firingId ownerId : String)
      (fencingToken : Int) (attemptId : Option String)
  | rejectFiringSubmission (ctx : ControlPlaneContext) (firingId attemptId : String)
  | failFiringAfterCompensatedSubmission (ctx : ControlPlaneContext)
      (firingId attemptId : String)
  | failFiringPreparation (ctx : ControlPlaneContext) (firingId ownerId : String)
      (fencingToken : Int)
  | linkFiringSubmission (ctx : ControlPlaneContext) (firingId : String) (request : LinkRequest)

/-- The stores a call leaves. -/
def Call.exec (host : ScheduleHost) (env : Env) : Call → Stores → Stores
  | durable call, s => { s with durable := (call.exec host.durable env s.durable).store }
  | create ctx request, s => (Schedule.create host env ctx request s).stores
  | pause ctx scheduleId, s => (Schedule.pause host env ctx scheduleId s).stores
  | resume ctx scheduleId, s => (Schedule.resume host env ctx scheduleId s).stores
  | delete ctx scheduleId, s => (Schedule.delete host env ctx scheduleId s).stores
  | amend ctx scheduleId amendment, s =>
      (Schedule.amend host env ctx scheduleId amendment s).stores
  | transferTimerOwner ctx scheduleId transfer, s =>
      (Schedule.transferTimerOwner host env ctx scheduleId transfer s).stores
  | acquireLeaderLease ctx ownerId ttlSeconds, s =>
      (Schedule.acquireLeaderLease env ctx ownerId ttlSeconds s).stores
  | heartbeatLeader ctx ownerId fencingToken ttlSeconds, s =>
      (Schedule.heartbeatLeader env ctx ownerId fencingToken ttlSeconds s).stores
  | releaseLeader ctx ownerId fencingToken, s =>
      (Schedule.releaseLeader env ctx ownerId fencingToken s).stores
  | claimFiring ctx request, s => (Schedule.claimFiring host env ctx request s).stores
  | acquireFiringPreparation ctx firingId ownerId ttlSeconds, s =>
      (Schedule.acquireFiringPreparation env ctx firingId ownerId ttlSeconds s).stores
  | updateFiringMetadata ctx firingId metadata ownerId fencingToken, s =>
      (Schedule.updateFiringMetadata host env ctx firingId metadata ownerId fencingToken s).stores
  | releaseFiringPreparation ctx firingId ownerId fencingToken, s =>
      (Schedule.releaseFiringPreparation ctx firingId ownerId fencingToken s).stores
  | beginFiringSubmission ctx firingId ownerId fencingToken attemptId, s =>
      (Schedule.beginFiringSubmission env ctx firingId ownerId fencingToken attemptId s).stores
  | rejectFiringSubmission ctx firingId attemptId, s =>
      (Schedule.rejectFiringSubmission ctx firingId attemptId s).stores
  | failFiringAfterCompensatedSubmission ctx firingId attemptId, s =>
      (Schedule.failFiringAfterCompensatedSubmission ctx firingId attemptId s).stores
  | failFiringPreparation ctx firingId ownerId fencingToken, s =>
      (Schedule.failFiringPreparation env ctx firingId ownerId fencingToken s).stores
  | linkFiringSubmission ctx firingId request, s =>
      (Schedule.linkFiringSubmission host env ctx firingId request s).stores

/-- One call with what it reads from its surroundings. -/
structure Event where
  env : Env
  call : Call

def next (host : ScheduleHost) (s : Stores) (e : Event) : Stores := e.call.exec host e.env s

abbrev run (host : ScheduleHost) (s : Stores) (es : List Event) : Stores :=
  Runs.run (next host) s es

/-- The stores a run reaches from empty ones. -/
abbrev reached (host : ScheduleHost) (limit : Option Int) (es : List Event) : Stores :=
  run host (.init (.init limit)) es

theorem reached_append (host : ScheduleHost) (limit : Option Int) (es es' : List Event) :
    reached host limit (es ++ es') = run host (reached host limit es) es' :=
  Runs.run_append _ es es'

/-- The acceptance inside a claim. -/
def admission (env : Env) (ctx : ControlPlaneContext) (request : ClaimRequest) (logical : String) :
    Durable.Event where
  env := nested env 2
  call := .accept ctx (fireRequest request logical (env.generatedId "fire-" 16 0))

/-- The identifiers a call generates for the durable store are not in use there. -/
def Event.isFresh (s : Stores) (e : Event) : Bool :=
  match e.call with
  | .durable call => Durable.Event.isFresh s.durable ⟨e.env, call⟩
  | .claimFiring ctx _ =>
      !s.durable.outbox.contains (key ctx ((nested e.env 2).generatedId "out-" 16 1))
  | _ => true

def Event.Fresh (s : Stores) (e : Event) : Prop := e.isFresh s = true

instance (s : Stores) (e : Event) : Decidable (e.Fresh s) :=
  inferInstanceAs (Decidable (e.isFresh s = true))

abbrev FreshRun (host : ScheduleHost) (s : Stores) (es : List Event) : Prop :=
  Runs.Guarded (next host) Event.Fresh s es

/-! ## Atomic changes -/

/-- The calls that begin an admission attempt or report that one is over. -/
def Event.handlesAttempts (e : Event) : Bool :=
  match e.call with
  | .beginFiringSubmission _ _ _ _ _ | .rejectFiringSubmission _ _ _
  | .failFiringAfterCompensatedSubmission _ _ _ => true
  | _ => false

/-- The call makes a new revision of a schedule. -/
def Event.amends (e : Event) : Bool :=
  match e.call with
  | .amend _ _ _ => true
  | _ => false

/-- How the firing under a key changes. -/
inductive FiringMove (host : ScheduleHost) (e : Event) (s : Stores) (k : Key)
    (firing : FiringRecord) : FiringRecord → Prop
  | prepare (preparation : Option PreparationLease) (token : Nat)
      (metadata : List (String × Json)) :
      FiringMove host e s k firing { firing with
        preparation := preparation, preparationFencingToken := token, metadata := metadata }
  | begin (attemptId : String) (hcall : e.handlesAttempts = true)
      (hnew : attemptId ∉ outstandingAttempts firing)
      (hopen : firing.status = .accepted ∧ firing.submissionId = none) :
      FiringMove host e s k firing (beginAttempt firing attemptId hnew)
  | drop (attemptId : String) (hcall : e.handlesAttempts = true)
      (hmem : attemptId ∈ firing.submissionAttemptIds) :
      FiringMove host e s k firing (dropAttempt firing attemptId)
  | compensated (attemptId : String) (hcall : e.handlesAttempts = true)
      (hopen : firing.status = .accepted ∧ firing.submissionId = none)
      (hmem : attemptId ∈ firing.submissionAttemptIds)
      (hlast : remainingAttempts firing attemptId = [])
      (htracked : legacyUntrackedAdmission ∉ firing.submissionAttemptIds) :
      FiringMove host e s k firing (failedFiring firing)
  | giveUp (hopen : firing.status = .accepted ∧ firing.submissionId = none)
      (hidle : firing.submissionStarted = false) :
      FiringMove host e s k firing
        { firing with status := .failedPreparation, preparation := none }
  | link (request : LinkRequest) (submission : SubmissionRecord)
      (definitionRevision : String)
      (hopen : firing.status = .accepted ∧ firing.submissionId = none)
      (hget : s.durable.submissions.get? ⟨k.scope, request.submissionId⟩ = some submission)
      (hlinked : linkedRevision host firing (s.schedules.get? ⟨k.scope, firing.scheduleId⟩)
        submission request.planFingerprint = .ok definitionRevision) :
      FiringMove host e s k firing (linkedFiring firing request definitionRevision)

/-- What a claim does with the durable store. -/
inductive Admits (host : ScheduleHost) (env : Env) (ctx : ControlPlaneContext)
    (request : ClaimRequest) (logical : String) (status : FiringStatus) (s : Durable.Store) :
    Option String → Durable.Store → Prop
  | nothing (h : ¬ (status = .accepted ∧ request.withDurable = true ∧
      request.admitSubmission = true)) : Admits host env ctx request logical status s none s
  | work {submission : SubmissionRecord} {created : Bool} (haccepted : status = .accepted)
      (hresult : (Durable.accept host.durable (nested env 2) ctx
        (fireRequest request logical (env.generatedId "fire-" 16 0)) s).result =
          .ok (submission, created)) :
      Admits host env ctx request logical status s (some submission.submissionId)
        (Durable.next host.durable s (admission env ctx request logical))

inductive Write (host : ScheduleHost) (e : Event) (s : Stores) : Stores → Prop
  | durable (event : Durable.Event) (hfresh : e.Fresh s → event.Fresh s.durable) :
      Write host e s { s with durable := Durable.next host.durable s.durable event }
  | leaders (leaders : Dict Scope SchedulerLeaderLease) :
      Write host e s { s with leaders := leaders }
  | create {k : Key} {record : ScheduleRecord} (hid : record.scheduleId = k.id)
      (hnew : s.schedules.get? k = none) :
      Write host e s { s with schedules := s.schedules.set k record }
  | status {k : Key} {record : ScheduleRecord} (status : ScheduleStatus) (at_ : Instant)
      (hget : s.schedules.get? k = some record) (hlive : record.status ≠ .deleted)
      (hdrained : status = .deleted → hasUnlinkedFiring s k.scope k.id = false) :
      Write host e s { s with
        schedules := s.schedules.set k { record with status := status, updatedAt := at_ } }
  | amend {k : Key} {record : ScheduleRecord} (env : Env) (amendment : Amendment)
      (hcall : e.amends = true) (hget : s.schedules.get? k = some record) (hlive : record.status ≠ .deleted)
      (hdrained : hasInflightFiring amendment.withDurable s k.scope k.id = false) :
      Write host e s { s with
        schedules := s.schedules.set k (amendedSchedule env amendment record) }
  | transfer {k : Key} {record : ScheduleRecord} (env : Env) (transfer : OwnerTransfer)
      (hget : s.schedules.get? k = some record) (hlive : record.status ≠ .deleted)
      (hdrained : hasUnlinkedFiring s k.scope k.id = false) :
      Write host e s { s with
        schedules := s.schedules.set k (transferredSchedule env transfer record) }
  | claim {ctx : ControlPlaneContext} {request : ClaimRequest} {record : ScheduleRecord}
      {logical : String} {nominal : Datetime} {status : FiringStatus}
      {submissionId : Option String} {durable : Durable.Store}
      {schedules : Dict Key ScheduleRecord}
      (hcall : e.call = .claimFiring ctx request)
      (hkey : firingKey request.scheduleId request.revisionId request.nominalFireTime =
        .ok logical)
      (hget : s.schedules.get? (key ctx request.scheduleId) = some record)
      (hfence : fenceError request record = none)
      (hnew : s.firings.get? (key ctx logical) = none)
      (hoccurrence : occurrenceError request record = none)
      (hstatus : occurrenceStatus ctx request record.spec nominal s = .ok status)
      (hadmits : Admits host e.env ctx request logical status s.durable submissionId durable)
      (hschedules : schedules = s.schedules ∨ schedules = s.schedules.set
        (key ctx request.scheduleId)
        { record with nextFireAt := request.nextFireAt, updatedAt := e.env.now [3] }) :
      Write host e s { s with
        schedules := schedules
        firings := s.firings.set (key ctx logical)
          { claimedFiring e.env ctx request status with submissionId := submissionId }
        durable := durable }
  | firing {k : Key} {firing firing' : FiringRecord} (hget : s.firings.get? k = some firing)
      (hmove : FiringMove host e s k firing firing') :
      Write host e s { s with firings := s.firings.set k firing' }

/-- The call changes nothing, or it makes one write. -/
def Writes (host : ScheduleHost) (e : Event) (s t : Stores) : Prop := t = s ∨ Write host e s t

/-! ## A sample deployment

The surroundings on which the witnesses below are run: the first ten minutes of
2026 in UTC, with the stamps that `isoformat` gives to whole minutes. -/

section Sample

/-- Whole minutes and their stamps. -/
def sampleTimes : List (Instant × String) :=
  (List.range 10).map fun minute : Nat =>
    (seconds (60 * (minute : Int)), "2026-01-01T00:0" ++ Nat.repr minute ++ ":00Z")

/-- One number for a time and its offset. -/
def sampleCode (d : Datetime) : Nat :=
  Nat.pair (Equiv.intEquivNat d.instant)
    (d.offset.elim 0 fun offset => Equiv.intEquivNat offset + 1)

def sampleDecode (code : Nat) : Datetime where
  instant := Equiv.intEquivNat.symm code.unpair.1
  offset :=
    match code.unpair.2 with
    | 0 => none
    | offset + 1 => some (Equiv.intEquivNat.symm offset)

theorem sampleDecode_sampleCode (d : Datetime) : sampleDecode (sampleCode d) = d := by
  obtain ⟨t, offset⟩ := d
  unfold sampleDecode sampleCode
  rw [Nat.unpair_pair]
  cases offset with
  | none => simp
  | some offset => simp

/-- Times outside the table get texts that are no stamps. -/
def sampleIsoformat (d : Datetime) : String :=
  match sampleTimes.find? (fun entry => d.offset = some 0 ∧ entry.1 = d.instant) with
  | some entry => entry.2
  | none => String.ofList (List.replicate (sampleCode d + 1) '~')

def sampleFromisoformat (text : String) : Option Datetime :=
  match sampleTimes.find? (fun entry => entry.2 = text) with
  | some entry => some ⟨entry.1, some 0⟩
  | none =>
      if text.toList.head? = some '~' then some (sampleDecode (text.toList.length - 1)) else none

theorem sampleTimes_text {entry : Instant × String} (h : entry ∈ sampleTimes) :
    sampleTimes.find? (fun other => other.2 = entry.2) = some entry := by
  revert entry
  decide

theorem sample_roundTrip (d : Datetime) : sampleFromisoformat (sampleIsoformat d) = some d := by
  obtain ⟨t, offset⟩ := d
  unfold sampleIsoformat
  split
  · rename_i entry hfind
    have hmatch := List.find?_some hfind
    simp only [decide_eq_true_eq] at hmatch
    unfold sampleFromisoformat
    rw [sampleTimes_text (List.mem_of_find?_eq_some hfind)]
    simp [hmatch.1, hmatch.2]
  · have habsent : ∀ n, sampleTimes.find? (fun entry =>
        entry.2 = String.ofList (List.replicate (n + 1) '~')) = none := by
      intro n
      rw [List.find?_eq_none]
      intro entry hmem
      have hhead : entry.2.toList.head? = some '2' := by
        revert entry
        decide
      intro heq
      simp only [decide_eq_true_eq] at heq
      rw [heq] at hhead
      simp [List.replicate_succ] at hhead
    unfold sampleFromisoformat
    rw [habsent]
    simp [List.replicate_succ, sampleDecode_sampleCode]

/-- Local time of a zone at UTC, in January 2026. -/
def sampleLocalTime (_timezone : String) (t : Instant) : LocalTime where
  minute := t / seconds 60 % 60
  hour := t / seconds 3600 % 24
  day := t / seconds 86400 + 1
  month := 1
  weekday := (t / seconds 86400 + 4) % 7

def sampleScheduleHost : ScheduleHost where
  durable := Durable.sampleHost
  lower text := text.map Char.toLower
  isoformat := sampleIsoformat
  fromisoformat := sampleFromisoformat
  roundTrip t offset _ := sample_roundTrip ⟨t, some offset⟩
  equal a b := a.dumps Json.escapeAscii = b.dumps Json.escapeAscii
  int := String.toInt?
  repr text := "'" ++ text ++ "'"
  localTime := sampleLocalTime

/-- The stamp of a minute of the table. -/
def sampleStamp (minute : Nat) : String := sampleScheduleHost.iso (seconds (60 * (minute : Int)))

/-- One run a minute. -/
def sampleSpec (misfire : MisfirePolicy) (overlap : OverlapPolicy) : ScheduleSpec where
  kind := .interval 60
  timezone := "UTC"
  misfire := misfire
  catchUpMax := 10
  overlap := overlap
  jitterSeconds := 0
  windowStart := none
  windowEnd := none
  kindValid := rfl
  windowAware := none_windowAware
  windowOrdered := none_windowOrdered

/-- A local schedule whose first occurrence is at the first minute. -/
def sampleCreate (spec : ScheduleSpec) : CreateRequest where
  definitionId := "orders"
  profileName := "dev"
  spec := spec
  scheduleId := some "nightly"
  policyFingerprint := ""
  definitionRevisionId := some "def-1"
  parameterRefs := []
  secretRefs := []
  revisionPolicy := .pinned
  workloadIdentity := none
  executionRoute := "local"
  timerOwner := .local
  nextFireAt := some (sampleStamp 1)

/-- A stored local schedule with a cursor. -/
def sampleRecord (spec : ScheduleSpec) (cursor : String) : ScheduleRecord where
  scheduleId := "nightly"
  definitionId := "orders"
  revisionId := "rev-1"
  scope := Durable.sampleContext.scopeKey
  profileName := "dev"
  policyFingerprint := ""
  spec := spec
  createdAt := 0
  updatedAt := 0
  status := .active
  nextFireAt := some cursor
  definitionRevisionId := none
  parameterRefs := []
  secretRefs := []
  metadata := []
  revisionPolicy := .pinned
  workloadIdentity := none
  executionRoute := "local"
  timerOwner := .local
  timerOwnerGeneration := 1

def sampleScheduleEnv (digit : Char) : Env := Durable.sampleEnv digit 0

/-- The revision of the schedule that the sample runs create. -/
def sampleRevision : String := (sampleScheduleEnv 'a').generatedId "rev-" 12 1

def sampleCreated (spec : ScheduleSpec) : Event :=
  ⟨sampleScheduleEnv 'a', .create Durable.sampleContext (sampleCreate spec)⟩

/-- A claim of the occurrence at a minute, for work that is admitted later. -/
def sampleClaim (minute : Nat) (nextFireAt : Option String) : ClaimRequest where
  scheduleId := "nightly"
  revisionId := sampleRevision
  nominalFireTime := sampleStamp minute
  ownerId := "gateway"
  fencingToken := 0
  planFingerprint := "managed-admission-pending"
  withDurable := true
  nextFireAt := nextFireAt
  requireLeaderLease := false
  admitSubmission := false
  skipStatus := none
  metadata := []
  expectedNextFireAt := none
  expectedTimerOwner := none
  expectedTimerOwnerGeneration := none
  requireActive := true

/-- The index key of the firing at a minute. -/
def sampleFiringKey (minute : Nat) : Key :=
  key Durable.sampleContext ("nightly:" ++ sampleRevision ++ ":" ++ sampleStamp minute)

end Sample

end Etlantic.ControlPlane.Schedule
