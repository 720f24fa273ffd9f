import Etlantic.ControlPlane.Schedule.Store

/-!
# Preparation, admission and linking of a firing

A firing is prepared under a lease.  Before work is admitted for it, the attempt
is recorded on the firing; the firing can only be given up once every recorded
attempt has been rejected or compensated.  A row of an older release may have
started an admission it did not record: the entry `legacy-untracked-admission`
stands for it.
-/

namespace Etlantic.ControlPlane.Schedule

open Durable (Key key Env)

/-- The first firing of the scope under an id, with its place in the index. -/
def findFiring (s : Stores) (ctx : ControlPlaneContext) (firingId : String) :
    Option (Key × FiringRecord) :=
  s.firings.entries.find? fun e => e.1.scope = ctx.scopeKey && e.2.firingId = firingId

def firingNotFound : PyError := notFound "schedule firing not found"

/-- Store a firing and return it. -/
def storeFiring (k : Key) (firing : FiringRecord) (s : Stores) : Outcome FiringRecord :=
  ret firing { s with firings := s.firings.set k firing }

/-- `_require_firing_preparation_lease`. -/
def preparationLeaseError (firing : FiringRecord) (ownerId : String) (fencingToken : Int)
    (now : Instant) : Option PyError :=
  if firing.preparation.any (fun lease => lease.ownerId = ownerId && now < lease.expiresAt) ∧
      (firing.preparationFencingToken : Int) = fencingToken then none
  else some (fireConflict "Schedule occurrence preparation lease is stale"
    "stale_preparation_lease")

/-! ## The preparation lease -/

/-- The firing with the lease that `acquire_firing_preparation` grants. The token
goes up unless the owner renews a lease that is still its own. -/
def preparedFiring (firing : FiringRecord) (ownerId : String) (ttlSeconds : Int) (now : Instant) :
    FiringRecord :=
  let renewed := firing.preparation.any fun lease => lease.ownerId = ownerId && now < lease.expiresAt
  { firing with
    preparation := some ⟨ownerId, now + seconds ttlSeconds⟩
    preparationFencingToken :=
      if renewed then firing.preparationFencingToken else firing.preparationFencingToken + 1 }

def acquireFiringPreparation (env : Env) (ctx : ControlPlaneContext) (firingId ownerId : String)
    (ttlSeconds : Int) (s : Stores) : Outcome (FiringRecord × Bool) :=
  if isBlank ownerId then raise (.valueError "preparation owner_id must be non-empty") s
  else if ttlSeconds < 1 ∨ 900 < ttlSeconds then
    raise (.valueError "preparation ttl_seconds must be between 1 and 900") s
  else
    match findFiring s ctx firingId with
    | none => raise firingNotFound s
    | some (k, firing) =>
        if firing.status ≠ .accepted then ret (firing, false) s
        else if firing.submissionId ≠ none then ret (firing, false) s
        else if firing.preparation.any
            (fun lease => env.now [0] < lease.expiresAt && lease.ownerId ≠ ownerId) then
          ret (firing, false) s
        else
          let updated := preparedFiring firing ownerId ttlSeconds (env.now [0])
          ret (updated, true) { s with firings := s.firings.set k updated }

/-- The merge of `update_firing_metadata`; a stored value never changes. -/
def mergeMetadata (host : ScheduleHost) : List (String × Json) → List (String × Json) →
    Except PyError (List (String × Json))
  | merged, [] => .ok merged
  | merged, (name, value) :: rest =>
      if (merged.find? fun field => field.1 = name).any
          fun field => !host.equal field.2 value then
        .error (.controlPlane { ControlPlaneError.conflict
          "Schedule occurrence metadata changed after its durable claim"
          [("reason", .str "occurrence_intent_changed"), ("field", .str name)] with
            code := "PMFIRE409" })
      else mergeMetadata host (Json.setField name value merged) rest

def updateFiringMetadata (host : ScheduleHost) (env : Env) (ctx : ControlPlaneContext)
    (firingId : String) (metadata : List (String × Json)) (ownerId : String) (fencingToken : Int)
    (s : Stores) : Outcome FiringRecord :=
  match payloadError host.lower metadata with
  | some error => raise error s
  | none =>
      match findFiring s ctx firingId with
      | none => raise firingNotFound s
      | some (k, firing) =>
          match preparationLeaseError firing ownerId fencingToken (env.now [0]) with
          | some error => raise error s
          | none =>
              match mergeMetadata host firing.metadata metadata with
              | .error error => raise error s
              | .ok merged => storeFiring k { firing with metadata := merged } s

def releaseFiringPreparation (ctx : ControlPlaneContext) (firingId ownerId : String)
    (fencingToken : Int) (s : Stores) : Outcome Unit :=
  match findFiring s ctx firingId with
  | none => ret () s
  | some (k, firing) =>
      if firing.preparation.any (fun lease => lease.ownerId = ownerId) ∧
          (firing.preparationFencingToken : Int) = fencingToken then
        ret () { s with firings := s.firings.set k { firing with preparation := none } }
      else ret () s

/-! ## Admission attempts -/

/-- The attempts `begin_firing_submission` finds outstanding. Older rows may have
an untracked acceptance still in flight. -/
def outstandingAttempts (firing : FiringRecord) : List String :=
  if firing.submissionStarted = true ∧ firing.submissionAttemptIds = [] then
    [legacyUntrackedAdmission]
  else firing.submissionAttemptIds

theorem nodup_outstandingAttempts (firing : FiringRecord) :
    (outstandingAttempts firing).Nodup := by
  unfold outstandingAttempts
  split
  · exact List.nodup_singleton _
  · exact firing.attemptsDistinct

/-- The firing with one more attempt. -/
def beginAttempt (firing : FiringRecord) (attemptId : String)
    (hnew : attemptId ∉ outstandingAttempts firing) : FiringRecord :=
  { firing with
    submissionStarted := true
    submissionAttemptIds := outstandingAttempts firing ++ [attemptId]
    attemptsDistinct := (nodup_outstandingAttempts firing).append (List.nodup_singleton _)
      (List.disjoint_singleton.mpr hnew)
    attemptsStarted := fun _ => rfl }

def beginFiringSubmission (env : Env) (ctx : ControlPlaneContext) (firingId ownerId : String)
    (fencingToken : Int) (attemptId : Option String) (s : Stores) : Outcome FiringRecord :=
  let attempt := attemptId.getD (env.uuid 0)
  if isBlank attempt = true ∨ attempt = legacyUntrackedAdmission then
    raise (.valueError "submission attempt ID must be non-empty") s
  else
    match findFiring s ctx firingId with
    | none => raise firingNotFound s
    | some (k, firing) =>
        if firing.status ≠ .accepted ∨ firing.submissionId ≠ none then
          raise (conflict "Only unlinked accepted firings can begin submission") s
        else
          match preparationLeaseError firing ownerId fencingToken (env.now [0]) with
          | some error => raise error s
          | none =>
              if hnew : attempt ∉ outstandingAttempts firing then
                storeFiring k (beginAttempt firing attempt hnew) s
              else ret firing s

/-- The attempts other than one. -/
def remainingAttempts (firing : FiringRecord) (attemptId : String) : List String :=
  firing.submissionAttemptIds.filter fun item => item ≠ attemptId

/-- The firing without one of its attempts. -/
def dropAttempt (firing : FiringRecord) (attemptId : String) : FiringRecord :=
  { firing with
    submissionStarted := !(remainingAttempts firing attemptId).isEmpty
    submissionAttemptIds := remainingAttempts firing attemptId
    attemptsDistinct := firing.attemptsDistinct.filter _
    attemptsStarted := fun h => by simpa using h }

def rejectFiringSubmission (ctx : ControlPlaneContext) (firingId attemptId : String) (s : Stores) :
    Outcome FiringRecord :=
  match findFiring s ctx firingId with
  | none => raise firingNotFound s
  | some (k, firing) =>
      if attemptId ≠ legacyUntrackedAdmission ∧ attemptId ∈ firing.submissionAttemptIds then
        storeFiring k (dropAttempt firing attemptId) s
      else ret firing s

theorem started_of_attempt : ([] : List String) ≠ [] → false = true :=
  fun h => absurd rfl h

/-- The firing that is given up. -/
def failedFiring (firing : FiringRecord) : FiringRecord :=
  { firing with
    status := .failedPreparation
    preparation := none
    submissionStarted := false
    submissionAttemptIds := []
    attemptsDistinct := List.nodup_nil
    attemptsStarted := started_of_attempt }

def failFiringAfterCompensatedSubmission (ctx : ControlPlaneContext)
    (firingId attemptId : String) (s : Stores) : Outcome FiringRecord :=
  match findFiring s ctx firingId with
  | none => raise firingNotFound s
  | some (k, firing) =>
      if firing.status ≠ .accepted ∨ firing.submissionId ≠ none then
        raise (conflict "Only unlinked accepted firings can fail after compensation") s
      else if attemptId ∉ firing.submissionAttemptIds then ret firing s
      else if remainingAttempts firing attemptId ≠ [] then
        storeFiring k (dropAttempt firing attemptId) s
      else if legacyUntrackedAdmission ∈ firing.submissionAttemptIds then storeFiring k firing s
      else storeFiring k (failedFiring firing) s

def failFiringPreparation (env : Env) (ctx : ControlPlaneContext) (firingId ownerId : String)
    (fencingToken : Int) (s : Stores) : Outcome FiringRecord :=
  match findFiring s ctx firingId with
  | none => raise firingNotFound s
  | some (k, firing) =>
      match preparationLeaseError firing ownerId fencingToken (env.now [0]) with
      | some error => raise error s
      | none =>
          if firing.status ≠ .accepted ∨ firing.submissionId ≠ none then
            raise (conflict "Only unlinked accepted firings can fail preparation") s
          else if firing.submissionStarted then
            raise (fireConflict "Schedule occurrence submission has already started"
              "occurrence_submission_started") s
          else storeFiring k
            { firing with status := .failedPreparation, preparation := none } s

/-! ## Linking -/

structure LinkRequest where
  submissionId : String
  planFingerprint : String
  preparationOwnerId : Option String
  preparationFencingToken : Option Int
  recovered : Bool

/-- The lease check of a link. -/
def linkLeaseError (now : Instant) (firing : FiringRecord) (request : LinkRequest) :
    Option PyError :=
  if firing.preparation = none ∨ request.recovered = true then none
  else
    match request.preparationOwnerId, request.preparationFencingToken with
    | some ownerId, some fencingToken => preparationLeaseError firing ownerId fencingToken now
    | _, _ => some (conflict
        "Schedule occurrence preparation lease is required to link managed work")

/-- The definition revision that the submission of a firing must name. -/
def expectedDefinitionRevision (firing : FiringRecord) (schedule : Option ScheduleRecord) :
    Option String :=
  match (Json.obj firing.metadata).field? "selected_definition_revision_id" with
  | some (.str selected) =>
      if selected ≠ "" then some selected else schedule.bind (·.definitionRevisionId)
  | _ => schedule.bind (·.definitionRevisionId)

/-- `"schedule-" + sha256(logical_key)`. -/
def scheduleIdempotencyKey (host : ScheduleHost) (logical : String) : String :=
  "schedule-" ++ host.durable.sha256 logical

/-- The checks of `link_firing_submission` on the submission; its result is the
definition revision of the occurrence. -/
def linkedRevision (host : ScheduleHost) (firing : FiringRecord)
    (schedule : Option ScheduleRecord) (submission : SubmissionRecord) (planFingerprint : String) :
    Except PyError String :=
  match schedule, expectedDefinitionRevision firing schedule with
  | some _, some expected =>
      if submission.revisionId ≠ some expected then
        .error (conflict "Managed schedule submission does not match its occurrence revision")
      else
        match firingKey firing.scheduleId firing.revisionId firing.nominalFireTime with
        | .error error => .error error
        | .ok logical =>
            if submission.operation ≠ "run.submit" ∨
                submission.planFingerprint ≠ planFingerprint ∨
                submission.idempotencyKey ≠ scheduleIdempotencyKey host logical ∨
                submission.inputSnapshot.all (fun text => text = "") then
              .error (conflict "Managed schedule submission is not an accepted executable run")
            else .ok expected
  | _, _ => .error (conflict "Managed schedule submission does not match its occurrence revision")

/-- The linked firing. -/
def linkedFiring (firing : FiringRecord) (request : LinkRequest) (definitionRevision : String) :
    FiringRecord :=
  { firing with
    submissionId := some request.submissionId
    metadata := Json.update firing.metadata
      [("definition_revision_id", .str definitionRevision),
        ("plan_fingerprint", .str request.planFingerprint), ("admission", .str "managed")]
    preparation := none }

def linkFiringSubmission (host : ScheduleHost) (env : Env) (ctx : ControlPlaneContext)
    (firingId : String) (request : LinkRequest) (s : Stores) : Outcome FiringRecord :=
  match findFiring s ctx firingId with
  | none => raise firingNotFound s
  | some (k, firing) =>
      if firing.status ≠ .accepted then
        raise (conflict "Only accepted schedule firings can link managed work") s
      else
        match linkLeaseError (env.now [0]) firing request with
        | some error => raise error s
        | none =>
            match firing.submissionId with
            | some linked =>
                if linked ≠ request.submissionId then
                  raise (conflict "Schedule firing is already linked to another submission") s
                else ret firing s
            | none =>
                match s.durable.submissions.get? (key ctx request.submissionId) with
                | none => raise (notFound "Submission not found") s
                | some submission =>
                    match linkedRevision host firing
                        (s.schedules.get? (key ctx firing.scheduleId)) submission
                        request.planFingerprint with
                    | .error error => raise error s
                    | .ok definitionRevision =>
                        if isBlank request.submissionId then
                          raise (.valueError "firing submission_id must be non-empty when set") s
                        else storeFiring k (linkedFiring firing request definitionRevision) s

end Etlantic.ControlPlane.Schedule
