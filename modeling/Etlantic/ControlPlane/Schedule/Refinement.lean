import Etlantic.ControlPlane.Schedule.Calls

/-!
# The calls make nothing but the listed writes
-/

namespace Etlantic.ControlPlane.Schedule

open Durable (Key key Env)

variable {host : ScheduleHost} {env : Env} {e : Event} {ctx : ControlPlaneContext} {s t : Stores}
  {scheduleId firingId ownerId : String} {k : Key}

/-! ## Reading the stores -/

theorem live?_eq_some {record : ScheduleRecord} (h : s.live? ctx scheduleId = some record) :
    s.schedules.get? (key ctx scheduleId) = some record ∧ record.status ≠ .deleted := by
  unfold Stores.live? at h
  obtain ⟨hget, hstatus⟩ := Option.filter_eq_some_iff.mp h
  exact ⟨hget, by simpa using hstatus⟩

theorem findFiring_eq_some {firing : FiringRecord} (h : findFiring s ctx firingId = some (k, firing)) :
    s.firings.get? k = some firing ∧ k.scope = ctx.scopeKey ∧ firing.firingId = firingId := by
  unfold findFiring at h
  have hmatch := List.find?_some h
  simp only [Bool.and_eq_true, decide_eq_true_eq] at hmatch
  exact ⟨Dict.mem_entries_iff.mp (List.mem_of_find?_eq_some h), hmatch.1, hmatch.2⟩

/-! ## Schedules -/

theorem create_writes (request : CreateRequest) (s : Stores) :
    Writes host e s (create host env ctx request s).stores := by
  unfold create
  split
  · exact .inl rfl
  · split
    · exact .inl rfl
    · split
      · exact .inl rfl
      · rename_i hnew
        exact .inr (.create rfl (Dict.contains_eq_false.mp (by simpa using hnew)))

theorem setStatus_writes (scheduleId : String) (status : ScheduleStatus) (s : Stores) :
    Writes host e s (setStatus host env ctx scheduleId status s).stores := by
  unfold setStatus
  split
  · exact .inl rfl
  · rename_i record hlive
    obtain ⟨hget, hstatus⟩ := live?_eq_some hlive
    split
    · exact .inl rfl
    · rename_i hdrained
      split
      · exact .inl rfl
      · rename_i updated hcheck
        obtain rfl := checkSchedule_eq_ok hcheck
        refine .inr (.status status (env.now [0]) hget hstatus fun hdeleted => ?_)
        rw [not_and, Bool.not_eq_true] at hdrained
        exact hdrained hdeleted

theorem amend_writes (hcall : e.amends = true) (scheduleId : String) (amendment : Amendment)
    (s : Stores) :
    Writes host e s (amend host env ctx scheduleId amendment s).stores := by
  unfold amend
  split
  · exact .inl rfl
  · rename_i record hlive
    obtain ⟨hget, hstatus⟩ := live?_eq_some hlive
    split
    · exact .inl rfl
    · split
      · exact .inl rfl
      · rename_i hdrained
        split
        · exact .inl rfl
        · split
          · exact .inl rfl
          · rename_i amended hcheck
            obtain rfl := checkSchedule_eq_ok hcheck
            exact .inr (.amend env amendment hcall hget hstatus (Bool.eq_false_iff.mpr hdrained))

theorem transferTimerOwner_writes (scheduleId : String) (transfer : OwnerTransfer) (s : Stores) :
    Writes host e s (transferTimerOwner host env ctx scheduleId transfer s).stores := by
  unfold transferTimerOwner
  split
  · exact .inl rfl
  · split
    · exact .inl rfl
    · rename_i record hlive
      obtain ⟨hget, hstatus⟩ := live?_eq_some hlive
      split
      · exact .inl rfl
      · split
        · exact .inl rfl
        · rename_i hdrained
          split
          · exact .inl rfl
          · rename_i updated hcheck
            obtain rfl := checkSchedule_eq_ok hcheck
            exact .inr (.transfer env transfer hget hstatus (Bool.eq_false_iff.mpr hdrained))

/-! ## Leader leases -/

theorem acquireLeaderLease_writes (ownerId : String) (ttlSeconds : Int) (s : Stores) :
    Writes host e s (acquireLeaderLease env ctx ownerId ttlSeconds s).stores := by
  unfold acquireLeaderLease
  dsimp only
  split
  · exact .inr (.leaders _)
  · split
    · exact .inr (.leaders _)
    · split
      · exact .inl rfl
      · exact .inr (.leaders _)

theorem heartbeatLeader_writes (ownerId : String) (fencingToken ttlSeconds : Int) (s : Stores) :
    Writes host e s (heartbeatLeader env ctx ownerId fencingToken ttlSeconds s).stores := by
  unfold heartbeatLeader
  split
  · exact .inl rfl
  · exact .inr (.leaders _)

theorem releaseLeader_writes (ownerId : String) (fencingToken : Int) (s : Stores) :
    Writes host e s (releaseLeader env ctx ownerId fencingToken s).stores := by
  unfold releaseLeader
  split
  · exact .inl rfl
  · exact .inr (.leaders _)

/-! ## Claims -/

/-- The firing is stored first, and the cursor when the schedule passes its checks. -/
theorem storeClaim_stores (host : ScheduleHost) (env : Env) (ctx : ControlPlaneContext)
    (request : ClaimRequest) (record : ScheduleRecord) (logical : String) (firing : FiringRecord)
    (s : Stores) :
    let claimed := { s with firings := s.firings.set (key ctx logical) firing }
    (storeClaim host env ctx request record logical firing s).stores = claimed ∨
      (storeClaim host env ctx request record logical firing s).stores = { claimed with
        schedules := s.schedules.set (key ctx request.scheduleId)
          { record with nextFireAt := request.nextFireAt, updatedAt := env.now [3] } } := by
  intro claimed
  unfold storeClaim
  simp only
  split
  · exact .inl rfl
  · rename_i updated hcheck
    obtain rfl := checkSchedule_eq_ok hcheck
    exact .inr rfl

/-- A claim changes nothing, or it only leaves a submission it accepted before an
error, or it stores the firing and then perhaps the cursor. -/
theorem claimNew_writes {request : ClaimRequest} {record : ScheduleRecord} {logical : String}
    (hcall : e.call = .claimFiring ctx request)
    (hkey : firingKey request.scheduleId request.revisionId request.nominalFireTime = .ok logical)
    (hget : s.schedules.get? (key ctx request.scheduleId) = some record)
    (hfence : fenceError request record = none)
    (hnew : s.firings.get? (key ctx logical) = none)
    (hoccurrence : occurrenceError request record = none) :
    Writes host e s (claimNew host e.env ctx request record logical s).stores := by
  have hfresh : e.Fresh s → (admission e.env ctx request logical).Fresh s.durable := by
    intro h
    unfold Event.Fresh Event.isFresh at h
    rw [hcall] at h
    unfold Durable.Event.Fresh Durable.Event.isFresh admission fireRequest
    simpa using h
  unfold claimNew
  split
  · exact .inl rfl
  · rename_i nominal hnominal
    split
    · exact .inl rfl
    · rename_i status hstatus
      split
      · exact .inl rfl
      · split
        · exact .inl rfl
        · simp only
          have hstore : ∀ {submissionId : Option String} {durable : Durable.Store},
              Admits host e.env ctx request logical status s.durable submissionId durable →
              Writes host e s (storeClaim host e.env ctx request record logical
                { claimedFiring e.env ctx request status with submissionId := submissionId }
                { s with durable := durable }).stores := by
            intro submissionId durable hadmits
            have hclaim : ∀ schedules, (schedules = s.schedules ∨ schedules = s.schedules.set
                (key ctx request.scheduleId)
                { record with nextFireAt := request.nextFireAt, updatedAt := e.env.now [3] }) →
                Write host e s { s with
                  schedules := schedules
                  firings := s.firings.set (key ctx logical)
                    { claimedFiring e.env ctx request status with submissionId := submissionId }
                  durable := durable } :=
              fun _ => .claim hcall hkey hget hfence hnew hoccurrence hstatus hadmits
            rcases storeClaim_stores host e.env ctx request record logical
              { claimedFiring e.env ctx request status with submissionId := submissionId }
              { s with durable := durable } with h | h
            · rw [h]
              exact .inr (hclaim _ (.inl rfl))
            · rw [h]
              exact .inr (hclaim _ (.inr rfl))
          split
          · rename_i hadmits
            split
            · refine .inr (.durable (admission e.env ctx request logical) hfresh)
            · rename_i submission created hresult
              exact hstore (.work hadmits.1 hresult)
          · rename_i hadmits
            exact hstore (.nothing hadmits)

theorem claimFiring_writes {request : ClaimRequest} (hcall : e.call = .claimFiring ctx request)
    (s : Stores) : Writes host e s (claimFiring host e.env ctx request s).stores := by
  unfold claimFiring
  split
  · exact .inl rfl
  · rename_i logical hkey
    split
    · exact .inl rfl
    · split
      · exact .inl rfl
      · rename_i record hget
        split
        · exact .inl rfl
        · rename_i hfence
          split
          · exact .inl rfl
          · rename_i hnew
            split
            · exact .inl rfl
            · rename_i hoccurrence
              exact claimNew_writes hcall hkey hget hfence hnew hoccurrence

/-! ## Firings -/

theorem acquireFiringPreparation_writes (firingId ownerId : String) (ttlSeconds : Int)
    (s : Stores) :
    Writes host e s (acquireFiringPreparation env ctx firingId ownerId ttlSeconds s).stores := by
  unfold acquireFiringPreparation
  split
  · exact .inl rfl
  · split
    · exact .inl rfl
    · split
      · exact .inl rfl
      · rename_i k firing hfind
        split
        · exact .inl rfl
        · split
          · exact .inl rfl
          · split
            · exact .inl rfl
            · exact .inr (.firing (findFiring_eq_some hfind).1 (.prepare _ _ firing.metadata))

theorem updateFiringMetadata_writes (firingId : String) (metadata : List (String × Json))
    (ownerId : String) (fencingToken : Int) (s : Stores) :
    Writes host e s
      (updateFiringMetadata host env ctx firingId metadata ownerId fencingToken s).stores := by
  unfold updateFiringMetadata
  split
  · exact .inl rfl
  · split
    · exact .inl rfl
    · rename_i k firing hfind
      split
      · exact .inl rfl
      · split
        · exact .inl rfl
        · exact .inr (.firing (findFiring_eq_some hfind).1
            (.prepare firing.preparation firing.preparationFencingToken _))

theorem releaseFiringPreparation_writes (firingId ownerId : String) (fencingToken : Int)
    (s : Stores) :
    Writes host e s (releaseFiringPreparation ctx firingId ownerId fencingToken s).stores := by
  unfold releaseFiringPreparation
  split
  · exact .inl rfl
  · rename_i k firing hfind
    split
    · exact .inr (.firing (findFiring_eq_some hfind).1
        (.prepare none firing.preparationFencingToken firing.metadata))
    · exact .inl rfl

theorem beginFiringSubmission_writes (hcall : e.handlesAttempts = true)
    (firingId ownerId : String) (fencingToken : Int) (attemptId : Option String) (s : Stores) :
    Writes host e s
      (beginFiringSubmission env ctx firingId ownerId fencingToken attemptId s).stores := by
  unfold beginFiringSubmission
  simp only
  split
  · exact .inl rfl
  · split
    · exact .inl rfl
    · rename_i k firing hfind
      split
      · exact .inl rfl
      · rename_i hopen
        split
        · exact .inl rfl
        · split
          · rename_i hnew
            exact .inr (.firing (findFiring_eq_some hfind).1
              (.begin _ hcall hnew (by simpa [not_or] using hopen)))
          · exact .inl rfl

theorem rejectFiringSubmission_writes (hcall : e.handlesAttempts = true) (firingId attemptId : String) (s : Stores) :
    Writes host e s (rejectFiringSubmission ctx firingId attemptId s).stores := by
  unfold rejectFiringSubmission
  split
  · exact .inl rfl
  · rename_i k firing hfind
    split
    · rename_i hknown
      exact .inr (.firing (findFiring_eq_some hfind).1 (.drop attemptId hcall hknown.2))
    · exact .inl rfl

theorem failFiringAfterCompensatedSubmission_writes (hcall : e.handlesAttempts = true)
    (firingId attemptId : String) (s : Stores) :
    Writes host e s (failFiringAfterCompensatedSubmission ctx firingId attemptId s).stores := by
  unfold failFiringAfterCompensatedSubmission
  split
  · exact .inl rfl
  · rename_i k firing hfind
    have hget := (findFiring_eq_some hfind).1
    split
    · exact .inl rfl
    · rename_i hopen
      split
      · exact .inl rfl
      · rename_i hmem
        split
        · exact .inr (.firing hget (.drop attemptId hcall (not_not.mp hmem)))
        · rename_i hlast
          split
          · exact .inr (.firing hget (.prepare firing.preparation
              firing.preparationFencingToken firing.metadata))
          · rename_i htracked
            exact .inr (.firing hget (.compensated attemptId hcall (by simpa [not_or] using hopen)
              (not_not.mp hmem) (not_not.mp hlast) htracked))

theorem failFiringPreparation_writes (firingId ownerId : String) (fencingToken : Int)
    (s : Stores) :
    Writes host e s (failFiringPreparation env ctx firingId ownerId fencingToken s).stores := by
  unfold failFiringPreparation
  split
  · exact .inl rfl
  · rename_i k firing hfind
    split
    · exact .inl rfl
    · split
      · exact .inl rfl
      · rename_i hopen
        split
        · exact .inl rfl
        · rename_i hidle
          exact .inr (.firing (findFiring_eq_some hfind).1
            (.giveUp (by simpa [not_or] using hopen) (by simpa using hidle)))

theorem linkFiringSubmission_writes (firingId : String) (request : LinkRequest) (s : Stores) :
    Writes host e s (linkFiringSubmission host env ctx firingId request s).stores := by
  unfold linkFiringSubmission
  split
  · exact .inl rfl
  · rename_i k firing hfind
    split
    · exact .inl rfl
    · rename_i haccepted
      obtain ⟨hget, hscope, -⟩ := findFiring_eq_some hfind
      split
      · exact .inl rfl
      · split
        · split <;> exact .inl rfl
        · rename_i hunlinked
          split
          · exact .inl rfl
          · rename_i submission hsubmission
            split
            · exact .inl rfl
            · rename_i definitionRevision hlinked
              split
              · exact .inl rfl
              · unfold key at hsubmission hlinked
                rw [← hscope] at hsubmission hlinked
                exact .inr (.firing hget (.link request submission definitionRevision
                  ⟨not_not.mp haccepted, hunlinked⟩ hsubmission hlinked))

/-! ## Every call -/

theorem next_writes (host : ScheduleHost) (s : Stores) (e : Event) :
    Writes host e s (next host s e) := by
  obtain ⟨env, call⟩ := e
  cases call with
  | durable call =>
      exact .inr (.durable ⟨env, call⟩ fun h => h)
  | create ctx request => exact create_writes request s
  | pause ctx scheduleId => exact setStatus_writes scheduleId .paused s
  | resume ctx scheduleId => exact setStatus_writes scheduleId .active s
  | delete ctx scheduleId => exact setStatus_writes scheduleId .deleted s
  | amend ctx scheduleId amendment => exact amend_writes rfl scheduleId amendment s
  | transferTimerOwner ctx scheduleId transfer =>
      exact transferTimerOwner_writes scheduleId transfer s
  | acquireLeaderLease ctx ownerId ttlSeconds =>
      exact acquireLeaderLease_writes ownerId ttlSeconds s
  | heartbeatLeader ctx ownerId fencingToken ttlSeconds =>
      exact heartbeatLeader_writes ownerId fencingToken ttlSeconds s
  | releaseLeader ctx ownerId fencingToken => exact releaseLeader_writes ownerId fencingToken s
  | claimFiring ctx request => exact claimFiring_writes (e := ⟨env, _⟩) rfl s
  | acquireFiringPreparation ctx firingId ownerId ttlSeconds =>
      exact acquireFiringPreparation_writes firingId ownerId ttlSeconds s
  | updateFiringMetadata ctx firingId metadata ownerId fencingToken =>
      exact updateFiringMetadata_writes firingId metadata ownerId fencingToken s
  | releaseFiringPreparation ctx firingId ownerId fencingToken =>
      exact releaseFiringPreparation_writes firingId ownerId fencingToken s
  | beginFiringSubmission ctx firingId ownerId fencingToken attemptId =>
      exact beginFiringSubmission_writes (e := ⟨env, _⟩) rfl firingId ownerId fencingToken attemptId s
  | rejectFiringSubmission ctx firingId attemptId =>
      exact rejectFiringSubmission_writes (e := ⟨env, _⟩) rfl firingId attemptId s
  | failFiringAfterCompensatedSubmission ctx firingId attemptId =>
      exact failFiringAfterCompensatedSubmission_writes (e := ⟨env, _⟩) rfl firingId attemptId s
  | failFiringPreparation ctx firingId ownerId fencingToken =>
      exact failFiringPreparation_writes firingId ownerId fencingToken s
  | linkFiringSubmission ctx firingId request =>
      exact linkFiringSubmission_writes firingId request s

end Etlantic.ControlPlane.Schedule
