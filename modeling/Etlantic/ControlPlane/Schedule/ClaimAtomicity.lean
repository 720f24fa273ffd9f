import Etlantic.ControlPlane.Schedule.Calls

/-!
# Claims that raise

`claim_firing` admits work, records the firing and rewrites the schedule, in this
order.  Only the last write can still fail: the record it builds checks the new
`next_fire_at`.
-/

namespace Etlantic.ControlPlane.Schedule

open Durable (Env key)

variable {host : ScheduleHost} {env : Env} {ctx : ControlPlaneContext} {request : ClaimRequest}
  {record : ScheduleRecord} {logical : String} {nominal : Datetime} {status : FiringStatus}
  {s : Stores}

/-- A claim that raises changes nothing, and one that creates a firing has recorded it and
moved the cursor. -/
structure ClaimAtomic (host : ScheduleHost) (env : Env) (ctx : ControlPlaneContext)
    (request : ClaimRequest) (s : Stores) : Prop where
  unchanged : ∀ error, (claimFiring host env ctx request s).result = .error error →
    (claimFiring host env ctx request s).stores.schedules = s.schedules ∧
      (claimFiring host env ctx request s).stores.firings = s.firings ∧
      (claimFiring host env ctx request s).stores.leaders = s.leaders
  submitted : ∀ error, (claimFiring host env ctx request s).result = .error error →
    ∀ k row, (claimFiring host env ctx request s).stores.durable.submissions.get? k = some row →
      s.durable.submissions.get? k = none →
      ∃ k' firing, (claimFiring host env ctx request s).stores.firings.get? k' = some firing ∧
        firing.submissionId = some row.submissionId
  recorded : ∀ firing, (claimFiring host env ctx request s).result = .ok (firing, true) →
    ∃ logical, firingKey request.scheduleId request.revisionId request.nominalFireTime =
        .ok logical ∧
      (claimFiring host env ctx request s).stores.firings.get? (key ctx logical) = some firing
  advanced : ∀ firing, (claimFiring host env ctx request s).result = .ok (firing, true) →
    ∃ record, (claimFiring host env ctx request s).stores.schedules.get?
        (key ctx request.scheduleId) = some record ∧ record.nextFireAt = request.nextFireAt

/-- Everything that a claim checks before it records a firing. -/
structure Recordable (host : ScheduleHost) (env : Env) (ctx : ControlPlaneContext)
    (request : ClaimRequest) (s : Stores) (logical : String) (record : ScheduleRecord)
    (nominal : Datetime) (status : FiringStatus) : Prop where
  named : firingKey request.scheduleId request.revisionId request.nominalFireTime = .ok logical
  leader : leaderError (env.now [0]) ctx request s = none
  stored : s.schedules.get? (key ctx request.scheduleId) = some record
  fences : fenceError request record = none
  free : s.firings.get? (key ctx logical) = none
  occurrence : occurrenceError request record = none
  time : host.fromisoformat request.nominalFireTime = some nominal
  decided : occurrenceStatus ctx request record.spec nominal s = .ok status
  clean : payloadError host.lower request.metadata = none
  valid : firingError host ctx.scopeKey request.scheduleId request.revisionId
    request.nominalFireTime = none
  admitted : status = .accepted ∧ request.withDurable = true ∧ request.admitSubmission = true →
    ∃ accepted, (Durable.accept host.durable (nested env 2) ctx
      (fireRequest request logical (claimedFiring env ctx request status).firingId)
      s.durable).result = .ok accepted

/-! ## Admission that raises -/

theorem replayAccept_store (requested : Durable.RequestedInputs) (request : Durable.AcceptRequest)
    (existingId : String) (prior : SubmissionRecord) (s : Durable.Store) :
    (Durable.replayAccept requested request existingId prior s).store = s := by
  unfold Durable.replayAccept
  repeat' split
  all_goals rfl

/-- An acceptance that raises leaves the durable store as it was. -/
theorem accept_raised {host : Durable.Host} {request : Durable.AcceptRequest} {s : Durable.Store}
    {error : PyError} (h : (Durable.accept host env ctx request s).result = .error error) :
    (Durable.accept host env ctx request s).store = s := by
  unfold Durable.accept at h ⊢
  cases hinvalid : request.invalid with
  | some invalid => rfl
  | none =>
      simp only [hinvalid] at h ⊢
      cases hentry : s.idempotency.get?
          (Durable.idempotencyTuple ctx request.operation request.idempotencyKey) with
      | some existingId =>
          simp only [hentry] at h ⊢
          cases hprior : s.submissions.get? (key ctx existingId) with
          | none => rfl
          | some prior => exact replayAccept_store _ _ _ _ _
      | none =>
          simp only [hentry] at h ⊢
          split
          · rfl
          · rename_i hactive
            rw [if_neg hactive] at h
            split
            · rfl
            · rename_i hlimit
              rw [if_neg hlimit] at h
              split
              · rename_i hid
                rw [hid] at h
                cases h
              · rename_i submissionId hid
                rw [hid] at h
                dsimp only at h
                split
                · rfl
                · rename_i hfree
                  rw [if_neg hfree] at h
                  cases h

/-! ## The writes -/

/-- The rewritten schedule passes the checks exactly when its cursor does. -/
theorem checkSchedule_rewritten (hvalid : checkSchedule host record = .ok record)
    (cursor : Option String) (at_ : Instant) :
    checkSchedule host { record with nextFireAt := cursor, updatedAt := at_ } =
      match cursorError host cursor with
      | some error => .error error
      | none => .ok { record with nextFireAt := cursor, updatedAt := at_ } := by
  have hnames : requiredTexts { record with nextFireAt := cursor, updatedAt := at_ } =
      requiredTexts record := rfl
  unfold checkSchedule at hvalid ⊢
  rw [hnames]
  cases hblank : blankText "schedule" (requiredTexts record) with
  | some error => simp [hblank] at hvalid
  | none =>
      simp only [hblank] at hvalid
      dsimp only
      split at hvalid
      · cases hvalid
      · rename_i hgeneration
        rw [if_neg hgeneration]
        split at hvalid
        · cases hvalid
        · rename_i hroute
          rw [if_neg hroute]
          split at hvalid
          · cases hvalid
          · rename_i hidentity
            rw [if_neg hidentity]
            split at hvalid
            · cases hvalid
            · rename_i howner
              refine (if_neg howner).trans ?_
              cases cursorError host cursor <;> rfl

theorem storeClaim_eq {firing : FiringRecord} (hvalid : checkSchedule host record = .ok record) :
    storeClaim host env ctx request record logical firing s =
      match cursorError host request.nextFireAt with
      | some error => raise error { s with firings := s.firings.set (key ctx logical) firing }
      | none => ret (firing, true) { s with
          firings := s.firings.set (key ctx logical) firing
          schedules := s.schedules.set (key ctx request.scheduleId)
            { record with nextFireAt := request.nextFireAt, updatedAt := env.now [3] } } := by
  unfold storeClaim
  rw [checkSchedule_rewritten hvalid]
  cases cursorError host request.nextFireAt <;> rfl

/-- A claim that passes its checks comes to its writes. -/
theorem claimFiring_of_recordable (h : Recordable host env ctx request s logical record nominal
    status) : ∃ firing s', claimFiring host env ctx request s =
      storeClaim host env ctx request record logical firing s' ∧ s'.schedules = s.schedules ∧
        s'.firings = s.firings ∧ s'.leaders = s.leaders := by
  unfold claimFiring
  simp only [h.named, h.leader, h.stored, h.fences, h.free, h.occurrence]
  unfold claimNew
  simp only [h.time, h.decided, h.clean, h.valid]
  split
  · rename_i hadmits
    obtain ⟨⟨submission, created⟩, haccepted⟩ := h.admitted hadmits
    rw [haccepted]
    exact ⟨_, _, rfl, rfl, rfl, rfl⟩
  · exact ⟨_, _, rfl, rfl, rfl, rfl⟩

/-- Any other claim raises or finds a firing, and changes nothing. -/
theorem claimFiring_cases : (∃ logical record nominal status,
      Recordable host env ctx request s logical record nominal status) ∨
    (∃ error, claimFiring host env ctx request s = raise error s) ∨
    ∃ existing, claimFiring host env ctx request s = ret (existing, false) s := by
  unfold claimFiring
  cases hnamed : firingKey request.scheduleId request.revisionId request.nominalFireTime with
  | error error => exact .inr (.inl ⟨error, rfl⟩)
  | ok logical =>
  dsimp only
  cases hleader : leaderError (env.now [0]) ctx request s with
  | some error => exact .inr (.inl ⟨error, rfl⟩)
  | none =>
  cases hstored : s.schedules.get? (key ctx request.scheduleId) with
  | none => exact .inr (.inl ⟨_, rfl⟩)
  | some record =>
  dsimp only
  cases hfences : fenceError request record with
  | some error => exact .inr (.inl ⟨error, rfl⟩)
  | none =>
  cases hfree : s.firings.get? (key ctx logical) with
  | some existing => exact .inr (.inr ⟨existing, rfl⟩)
  | none =>
  dsimp only
  cases hoccurrence : occurrenceError request record with
  | some error => exact .inr (.inl ⟨error, rfl⟩)
  | none =>
  unfold claimNew
  cases htime : host.fromisoformat request.nominalFireTime with
  | none => exact .inr (.inl ⟨_, rfl⟩)
  | some nominal =>
  dsimp only
  cases hdecided : occurrenceStatus ctx request record.spec nominal s with
  | error error => exact .inr (.inl ⟨error, rfl⟩)
  | ok status =>
  dsimp only
  cases hclean : payloadError host.lower request.metadata with
  | some error => exact .inr (.inl ⟨error, rfl⟩)
  | none =>
  cases hvalid : firingError host ctx.scopeKey request.scheduleId request.revisionId
      request.nominalFireTime with
  | some error => exact .inr (.inl ⟨error, rfl⟩)
  | none =>
  dsimp only
  cases haccepted : (Durable.accept host.durable (nested env 2) ctx (fireRequest request logical
      (claimedFiring env ctx request status).firingId) s.durable).result with
  | ok accepted =>
      exact .inl ⟨logical, record, nominal, status, hnamed, hleader, hstored, hfences, hfree,
        hoccurrence, htime, hdecided, hclean, hvalid, fun _ => ⟨accepted, haccepted⟩⟩
  | error error =>
      by_cases hadmits : status = .accepted ∧ request.withDurable = true ∧
          request.admitSubmission = true
      · rw [if_pos hadmits, accept_raised haccepted]
        exact .inr (.inl ⟨error, rfl⟩)
      · exact .inl ⟨logical, record, nominal, status, hnamed, hleader, hstored, hfences, hfree,
          hoccurrence, htime, hdecided, hclean, hvalid, fun h => absurd h hadmits⟩

/-- A claim is atomic exactly when it does not record a firing for which it then sets a
cursor that is not a time with a zone. -/
theorem claim_atomic_iff (hvalid : ∀ k record, s.schedules.get? k = some record →
    checkSchedule host record = .ok record) :
    ClaimAtomic host env ctx request s ↔
      cursorError host request.nextFireAt = none ∨
        ¬ ∃ logical record nominal status,
          Recordable host env ctx request s logical record nominal status := by
  constructor
  · intro hatomic
    by_contra hnot
    rw [not_or, not_not] at hnot
    obtain ⟨hcursor, logical, record, nominal, status, hrecordable⟩ := hnot
    obtain ⟨error, herror⟩ := Option.ne_none_iff_exists'.mp hcursor
    obtain ⟨firing, s', hclaim, -, hfirings, -⟩ := claimFiring_of_recordable hrecordable
    rw [storeClaim_eq (hvalid _ record hrecordable.stored), herror] at hclaim
    have hkept := (hatomic.unchanged error (by rw [hclaim]; rfl)).2.1
    rw [hclaim] at hkept
    have hset : (s'.firings.set (key ctx logical) firing).get? (key ctx logical) =
        s.firings.get? (key ctx logical) := congrArg (fun d => d.get? (key ctx logical)) hkept
    rw [Dict.get?_set_self, hrecordable.free] at hset
    cases hset
  · intro hcondition
    rcases claimFiring_cases (s := s)
      with ⟨logical, record, nominal, status, hrecordable⟩ | ⟨error, hraised⟩ | ⟨existing, hfound⟩
    · have hcursor := hcondition.resolve_right
        (not_not.mpr ⟨logical, record, nominal, status, hrecordable⟩)
      obtain ⟨firing, s', hclaim, -, -, -⟩ := claimFiring_of_recordable hrecordable
      rw [storeClaim_eq (hvalid _ record hrecordable.stored), hcursor] at hclaim
      refine ⟨fun error herror => ?_, fun error herror => ?_, fun created hcreated => ?_,
        fun created hcreated => ?_⟩
      · rw [hclaim] at herror
        cases herror
      · rw [hclaim] at herror
        cases herror
      · rw [hclaim] at hcreated ⊢
        obtain ⟨rfl, -⟩ := Prod.mk.inj (Except.ok.inj hcreated)
        exact ⟨logical, hrecordable.named, Dict.get?_set_self _ _ _⟩
      · rw [hclaim]
        exact ⟨_, Dict.get?_set_self _ _ _, rfl⟩
    · refine ⟨fun error _ => ?_, fun error _ k row hrow hnew => ?_, fun created hcreated => ?_,
        fun created hcreated => ?_⟩
      · rw [hraised]
        exact ⟨rfl, rfl, rfl⟩
      · rw [hraised] at hrow
        have hsame : s.durable.submissions.get? k = some row := hrow
        rw [hnew] at hsame
        cases hsame
      · rw [hraised] at hcreated
        cases hcreated
      · rw [hraised] at hcreated
        cases hcreated
    · refine ⟨fun error herror => ?_, fun error herror => ?_, fun created hcreated => ?_,
        fun created hcreated => ?_⟩
      · rw [hfound] at herror
        cases herror
      · rw [hfound] at herror
        cases herror
      · rw [hfound] at hcreated
        cases hcreated
      · rw [hfound] at hcreated
        cases hcreated

section Sample

/-- A store with the sample schedule alone. -/
def claimStores : Stores :=
  { Stores.init (.init none) with
    schedules := Dict.empty.set (key Durable.sampleContext "nightly")
      (sampleRecord (sampleSpec .fireOnce .queue) (sampleStamp 1)) }

theorem claimStores_valid (k : Durable.Key) (record : ScheduleRecord)
    (h : claimStores.schedules.get? k = some record) :
    checkSchedule sampleScheduleHost record = .ok record := by
  rcases Dict.get?_set_eq_some.mp h with ⟨-, rfl⟩ | ⟨-, habsent⟩
  · rfl
  · cases habsent

/-- A claim that the gateway makes of the occurrence at the first minute. -/
def claimRequest (nextFireAt : String) : ClaimRequest :=
  { sampleClaim 1 (some nextFireAt) with revisionId := "rev-1" }

theorem claim_atomic_second_minute :
    ClaimAtomic sampleScheduleHost (sampleScheduleEnv 'b') Durable.sampleContext
      (claimRequest (sampleStamp 2)) claimStores :=
  (claim_atomic_iff claimStores_valid).mpr (.inl (by decide +kernel))

/-- A cursor that is no time: the claim raises and leaves its firing behind. -/
theorem claim_leaves_firing :
    ¬ ClaimAtomic sampleScheduleHost (sampleScheduleEnv 'b') Durable.sampleContext
      (claimRequest "tomorrow") claimStores := by
  intro hatomic
  have hraised : (claimFiring sampleScheduleHost (sampleScheduleEnv 'b') Durable.sampleContext
      (claimRequest "tomorrow") claimStores).result.toOption.isNone = true := by decide +kernel
  have hleft : (claimFiring sampleScheduleHost (sampleScheduleEnv 'b') Durable.sampleContext
      (claimRequest "tomorrow") claimStores).stores.firings.entries.length = 1 := by
    decide +kernel
  cases hresult : (claimFiring sampleScheduleHost (sampleScheduleEnv 'b') Durable.sampleContext
      (claimRequest "tomorrow") claimStores).result with
  | ok claimed =>
      rw [hresult] at hraised
      cases hraised
  | error error =>
      rw [(hatomic.unchanged error hresult).2.1] at hleft
      cases hleft

end Sample

end Etlantic.ControlPlane.Schedule
