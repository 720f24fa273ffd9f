import Etlantic.ControlPlane.Durable.Store

/-!
# Schedules and firings

The records of the schedule store.  Stamps the store writes itself are instants;
the nominal time of a firing and the cursor of a schedule are texts that callers
hand in, and are kept as text.  The two fields of a preparation lease are
present together or not at all, so they are one optional record.

`ScheduleHost` is what schedules need outside themselves: text and calendar
functions of the standard library, the time-zone database and the durable
store's own surroundings.
-/

namespace Etlantic.ControlPlane.Schedule

open Durable (Key)

/-! ## Surroundings -/

/-- A `datetime`. A naive one has no offset; its `instant` reads it as UTC. -/
structure Datetime where
  instant : Instant
  offset : Option Int
deriving DecidableEq

/-- An offset of whole minutes below a day. One with seconds, such as `+00:00:30`,
does not survive the `replace` of `_iso`. -/
def isUtcOffset (offset : Int) : Bool :=
  offset % seconds 60 = 0 && -seconds 86400 < offset && offset < seconds 86400

/-- An aware time whose offset survives `_iso`. -/
def Datetime.IsAware (d : Datetime) : Prop :=
  ∃ offset, d.offset = some offset ∧ isUtcOffset offset = true

/-- A time in UTC. -/
def utc (t : Instant) : Datetime := ⟨t, some 0⟩

theorem isAware_utc (t : Instant) : (utc t).IsAware := ⟨0, rfl, rfl⟩

/-- The fields of a local time that a cron expression looks at. Sunday is 0. -/
structure LocalTime where
  minute : Int
  hour : Int
  day : Int
  month : Int
  weekday : Int

structure ScheduleHost where
  durable : Durable.Host
  /-- `text.lower()`. -/
  lower : String → String
  /-- `value.isoformat().replace("+00:00", "Z")`. -/
  isoformat : Datetime → String
  /-- `datetime.fromisoformat(text.replace("Z", "+00:00"))`, `none` where it raises. -/
  fromisoformat : String → Option Datetime
  roundTrip : ∀ t offset, isUtcOffset offset = true →
    fromisoformat (isoformat ⟨t, some offset⟩) = some ⟨t, some offset⟩
  /-- `a == b` on the values of a JSON document. -/
  equal : Json → Json → Bool
  /-- `int(text)`, `none` where it raises. -/
  int : String → Option Int
  repr : String → String
  /-- An instant in a time zone: `probe.astimezone(ZoneInfo(timezone))`. -/
  localTime : String → Instant → LocalTime

/-- `_iso` of a UTC time. -/
def ScheduleHost.iso (host : ScheduleHost) (t : Instant) : String := host.isoformat ⟨t, some 0⟩

theorem ScheduleHost.fromisoformat_isoformat (host : ScheduleHost) {d : Datetime}
    (h : d.IsAware) : host.fromisoformat (host.isoformat d) = some d := by
  obtain ⟨t, offset⟩ := d
  obtain ⟨o, rfl, ho⟩ := h
  exact host.roundTrip t o ho

@[simp] theorem ScheduleHost.fromisoformat_iso (host : ScheduleHost) (t : Instant) :
    host.fromisoformat (host.iso t) = some ⟨t, some 0⟩ :=
  host.roundTrip t 0 rfl

/-! ## Errors -/

def isoError : PyError := .valueError "Invalid isoformat string"

/-- A conflict under the code of the firing diagnostics. -/
def fireConflict (detail reason : String) : PyError :=
  .controlPlane { ControlPlaneError.conflict detail [("reason", .str reason)] with
    code := "PMFIRE409" }

/-! ## Specifications -/

inductive ScheduleKind where
  | interval (intervalSeconds : Nat)
  | cron (expression : String)
deriving DecidableEq

/-- The check of `ScheduleSpec.__post_init__` on the kind. -/
def ScheduleKind.valid : ScheduleKind → Bool
  | interval intervalSeconds => 0 < intervalSeconds
  | cron expression => !isBlank expression

inductive MisfirePolicy where
  | skip
  | fireOnce
  | catchUp
deriving DecidableEq

inductive OverlapPolicy where
  | skip
  | queue
deriving DecidableEq

/-- `ScheduleSpec`. Its checks are fields, and the window is kept as the times
that its texts name. -/
structure ScheduleSpec where
  kind : ScheduleKind
  timezone : String
  misfire : MisfirePolicy
  catchUpMax : Nat
  overlap : OverlapPolicy
  jitterSeconds : Nat
  windowStart : Option Datetime
  windowEnd : Option Instant
  kindValid : kind.valid = true
  windowAware : ∀ start ∈ windowStart, start.IsAware
  windowOrdered : ∀ start ∈ windowStart, ∀ stop ∈ windowEnd, start.instant < stop
deriving DecidableEq

theorem none_windowAware : ∀ start ∈ (none : Option Datetime), start.IsAware :=
  fun _ h => nomatch h

theorem none_windowOrdered : ∀ start ∈ (none : Option Datetime), ∀ stop ∈ (none : Option Instant),
    start.instant < stop := fun _ h => nomatch h

/-! ## Schedules -/

inductive ScheduleStatus where
  | active
  | paused
  | deleted
deriving DecidableEq

inductive ScheduleRevisionPolicy where
  | pinned
  | latestApproved
deriving DecidableEq

inductive TimerOwner where
  | «local»
  | external
deriving DecidableEq

/-- `ScheduleRecord` without the callbacks that a claimed occurrence carries. -/
structure ScheduleRecord where
  scheduleId : String
  definitionId : String
  revisionId : String
  scope : Scope
  profileName : String
  policyFingerprint : String
  spec : ScheduleSpec
  createdAt : Instant
  updatedAt : Instant
  status : ScheduleStatus
  nextFireAt : Option String
  definitionRevisionId : Option String
  parameterRefs : List (String × String)
  secretRefs : List (String × Json)
  metadata : List (String × Json)
  revisionPolicy : ScheduleRevisionPolicy
  workloadIdentity : Option Principal
  executionRoute : String
  timerOwner : TimerOwner
  timerOwnerGeneration : Int

/-- The texts of a schedule that must not be blank, with their names. -/
def requiredTexts (r : ScheduleRecord) : List (String × String) :=
  [("schedule_id", r.scheduleId), ("definition_id", r.definitionId),
    ("revision_id", r.revisionId), ("tenant_id", r.scope.tenantId),
    ("workspace_id", r.scope.workspaceId), ("profile_name", r.profileName)]

/-- The first blank text of a list, as the error a record raises. -/
def blankText (label : String) (texts : List (String × String)) : Option PyError :=
  (texts.find? fun t => isBlank t.2).map fun t =>
    .valueError (label ++ " " ++ t.1 ++ " must be non-empty")

/-- The check of `next_fire_at`. -/
def cursorError (host : ScheduleHost) : Option String → Option PyError
  | none => none
  | some cursor =>
      match host.fromisoformat cursor with
      | none => some (.valueError "schedule next_fire_at must be ISO-8601")
      | some ⟨_, none⟩ => some (.valueError "schedule next_fire_at must include a timezone")
      | some ⟨_, some _⟩ => none

/-- `ScheduleRecord.__post_init__`, which `replace` runs as well. -/
def checkSchedule (host : ScheduleHost) (r : ScheduleRecord) : Except PyError ScheduleRecord :=
  match blankText "schedule" (requiredTexts r) with
  | some error => .error error
  | none =>
      if r.timerOwnerGeneration < 1 then
        .error (.valueError "schedule timer_owner_generation must be positive")
      else if isExecutionRoute r.executionRoute = false then .error Durable.routeError
      else if r.workloadIdentity.any (fun identity => identity.kind = .human) then
        .error (.valueError "schedule workload_identity must be workload or service")
      else if r.timerOwner = .external ∧ r.workloadIdentity = none then
        .error (.valueError "externally owned schedule requires a workload identity")
      else
        match cursorError host r.nextFireAt with
        | some error => .error error
        | none => .ok r

theorem checkSchedule_eq_ok {host : ScheduleHost} {r r' : ScheduleRecord}
    (h : checkSchedule host r = .ok r') : r' = r := by
  unfold checkSchedule at h
  repeat' split at h
  all_goals first | cases h; done | exact (Except.ok.inj h).symm

/-! ## Firings -/

inductive FiringStatus where
  | accepted
  | skippedOverlap
  | skippedMisfire
  | skippedWindow
  | failedPreparation
deriving DecidableEq

/-- The lease under which a firing is prepared. -/
structure PreparationLease where
  ownerId : String
  expiresAt : Instant
deriving DecidableEq

/-- `FiringRecord`. The checks on its admission attempts are fields. -/
structure FiringRecord where
  firingId : String
  scheduleId : String
  revisionId : String
  nominalFireTime : String
  scope : Scope
  createdAt : Instant
  status : FiringStatus
  submissionId : Option String
  metadata : List (String × Json)
  preparation : Option PreparationLease
  preparationFencingToken : Nat
  submissionStarted : Bool
  submissionAttemptIds : List String
  attemptsDistinct : submissionAttemptIds.Nodup
  attemptsStarted : submissionAttemptIds ≠ [] → submissionStarted = true

def legacyUntrackedAdmission : String := "legacy-untracked-admission"

/-- `firing_key`. -/
def firingKey (scheduleId revisionId nominalFireTime : String) : Except PyError String :=
  let sid := strip scheduleId
  let rev := strip revisionId
  let nom := strip nominalFireTime
  if sid = "" ∨ rev = "" ∨ nom = "" then
    .error (.valueError "firing key parts must be non-empty")
  else .ok (sid ++ ":" ++ rev ++ ":" ++ nom)

/-- The checks of `FiringRecord.__post_init__` that a new firing can fail. -/
def firingError (host : ScheduleHost) (scope : Scope) (scheduleId revisionId nominal : String) :
    Option PyError :=
  match blankText "firing" [("schedule_id", scheduleId), ("revision_id", revisionId),
      ("nominal_fire_time", nominal), ("tenant_id", scope.tenantId),
      ("workspace_id", scope.workspaceId)] with
  | some error => some error
  | none =>
      match host.fromisoformat nominal with
      | none => some (.valueError "firing nominal_fire_time must be ISO-8601")
      | some ⟨_, none⟩ => some (.valueError "firing nominal_fire_time must include a timezone")
      | some ⟨_, some _⟩ => none

/-! ## Payload hygiene -/

def forbiddenScheduleKeys : List String :=
  ["payload", "secret", "password", "token", "row", "event", "body"]

/-- `any(token in text for token in ("payload", "secret"))`. -/
def mentionsPayload (text : String) : Bool :=
  ["payload", "secret"].any fun token => text.toList.tails.any token.toList.isPrefixOf

mutual

/-- The paths `_walk` reports below a node. -/
def payloadHits (lower : String → String) (path : String) : Json → List String
  | .obj fields => payloadFieldHits lower path fields
  | .arr items => payloadItemHits lower path 0 items
  | _ => []

def payloadItemHits (lower : String → String) (path : String) (i : Nat) :
    List Json → List String
  | [] => []
  | item :: rest =>
      payloadHits lower (path ++ "[" ++ toString i ++ "]") item ++
        payloadItemHits lower path (i + 1) rest

def payloadFieldHits (lower : String → String) (path : String) :
    List (String × Json) → List String
  | [] => []
  | (key, value) :: rest =>
      let here := if path = "" then key else path ++ "." ++ key
      let leaked :=
        match value with
        | .str text => !hasPrefix "secret_refs." here && mentionsPayload (lower text)
        | _ => false
      (if lower key ∈ forbiddenScheduleKeys then [here] else []) ++
        (if leaked then [here] else []) ++ payloadHits lower here value ++
        payloadFieldHits lower path rest

end

/-- `assert_schedule_payload_clean` on the metadata of an occurrence. -/
def payloadError (lower : String → String) (metadata : List (String × Json)) : Option PyError :=
  match payloadFieldHits lower "" [("metadata", .obj metadata)] with
  | [] => none
  | hits => some (.valueError
      ("PMFIRE150: Schedule artifacts must not contain payload or secret tokens: " ++
        String.intercalate ", " (hits.take 8)))

/-! ## Leader leases -/

structure SchedulerLeaderLease where
  ownerId : String
  fencingToken : Nat
  expiresAt : Instant
  heartbeatAt : Instant
  scope : Scope
deriving DecidableEq

end Etlantic.ControlPlane.Schedule
