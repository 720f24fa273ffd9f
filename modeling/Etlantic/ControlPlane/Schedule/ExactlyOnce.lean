import Etlantic.ControlPlane.Schedule.Admission

/-!
# One firing and one submission for each occurrence

The index of firings has one place for each logical key, a place is filled once,
and a submission is linked only when its idempotency key names the firing.  A
repeated claim finds its firing before it looks at the cursor or the status of
the schedule; the fences of the leader lease, the deletion, the revision and the
timer owner come before that and refuse it.
-/

namespace Etlantic.ControlPlane.Schedule

open Durable (Key key Env)

variable {host : ScheduleHost} {env : Env} {ctx : ControlPlaneContext} {s : Stores} {k k' : Key}
  {firing firing' : FiringRecord}

/-- The firing is the occurrence that a claim asks for. -/
structure Occurs (ctx : ControlPlaneContext) (request : ClaimRequest) (firing : FiringRecord) :
    Prop where
  scope : firing.scope = ctx.scopeKey
  scheduleId : firing.scheduleId = request.scheduleId
  revisionId : firing.revisionId = request.revisionId
  nominalFireTime : firing.nominalFireTime = request.nominalFireTime

/-- The checks that come before the search for the firing. -/
def claimFence (now : Instant) (ctx : ControlPlaneContext) (request : ClaimRequest) (s : Stores) :
    Option PyError :=
  match leaderError now ctx request s with
  | some error => some error
  | none =>
      match s.schedules.get? (key ctx request.scheduleId) with
      | none => some (notFound "schedule not found")
      | some record => fenceError request record

theorem scheduleIdempotencyKey_inj (hsha : Function.Injective host.durable.sha256)
    {a b : String} (h : scheduleIdempotencyKey host a = scheduleIdempotencyKey host b) : a = b := by
  unfold scheduleIdempotencyKey at h
  exact hsha ((String.append_right_inj _).mp h)

/-- A submission is accepted for at most one firing of its scope. -/
theorem AcceptedFor.same (hsha : Function.Injective host.durable.sha256)
    {row : SubmissionRecord} (h : AcceptedFor host k row) (h' : AcceptedFor host k' row)
    (hscope : k.scope = k'.scope) : k = k' := by
  have hid : k.id = k'.id := by
    rcases h with ⟨hdirect, hkey⟩ | ⟨hmanaged, hkey⟩
    · rcases h' with ⟨-, hkey'⟩ | ⟨hmanaged, -⟩
      · exact hkey.symm.trans hkey'
      · rw [hdirect] at hmanaged
        exact absurd hmanaged (by decide)
    · rcases h' with ⟨hdirect, -⟩ | ⟨-, hkey'⟩
      · rw [hdirect] at hmanaged
        exact absurd hmanaged (by decide)
      · exact scheduleIdempotencyKey_inj hsha (hkey.symm.trans hkey')
  cases k
  cases k'
  simp_all

/-- The logical key of a filed firing is the one its claim looks under. -/
theorem Filed.get_occurrence (hs : Filed host s) {request : ClaimRequest}
    (hget : s.firings.get? k = some firing) (hoccurs : Occurs ctx request firing) :
    firingKey request.scheduleId request.revisionId request.nominalFireTime = .ok k.id ∧
      key ctx k.id = k := by
  constructor
  · rw [← hoccurs.scheduleId, ← hoccurs.revisionId, ← hoccurs.nominalFireTime]
    exact hs.keyed k firing hget
  · have hscope : ctx.scopeKey = k.scope := hoccurs.scope.symm.trans (hs.home k firing hget)
    unfold key
    rw [hscope]

/-- A repeated claim is refused by a fence or returns the stored firing. -/
theorem claimFiring_repeated (hs : Filed host s) {request : ClaimRequest}
    (hget : s.firings.get? k = some firing) (hoccurs : Occurs ctx request firing) :
    claimFiring host env ctx request s =
      match claimFence (env.now [0]) ctx request s with
      | some error => raise error s
      | none => ret (firing, false) s := by
  obtain ⟨hkey, hplace⟩ := hs.get_occurrence hget hoccurs
  unfold claimFiring claimFence
  rw [hkey]
  dsimp only
  rw [hplace]
  cases leaderError (env.now [0]) ctx request s with
  | some error => rfl
  | none =>
      dsimp only
      cases s.schedules.get? (key ctx request.scheduleId) with
      | none => rfl
      | some record =>
          dsimp only
          cases fenceError request record with
          | some error => rfl
          | none =>
              dsimp only
              rw [hget]

section Sample

/-- An occurrence that was skipped, and an amendment after it. -/
def skippedThenAmended : List Event :=
  [sampleCreated (sampleSpec .fireOnce .skip),
    ⟨sampleScheduleEnv 'b', .claimFiring Durable.sampleContext
      { sampleClaim 1 (some (sampleStamp 2)) with skipStatus := some .skippedMisfire }⟩,
    ⟨sampleScheduleEnv 'c', .amend Durable.sampleContext "nightly"
      ⟨sampleRevision, sampleSpec .fireOnce .skip, some (sampleStamp 3), none, none, true⟩⟩]

/-- The retry of a claimed occurrence raises once its revision was amended. -/
theorem retry_after_amendment_refused :
    ((reached sampleScheduleHost none skippedThenAmended).firings.get? (sampleFiringKey 1)).map
        (fun firing => (firing.scope, firing.scheduleId, firing.revisionId,
          firing.nominalFireTime)) =
      some (Durable.sampleContext.scopeKey, "nightly", sampleRevision, sampleStamp 1) ∧
    (claimFiring sampleScheduleHost (sampleScheduleEnv 'd') Durable.sampleContext
      (sampleClaim 1 none) (reached sampleScheduleHost none skippedThenAmended)).result.toBool =
        false := by
  decide +kernel

end Sample

/-- In every reached store each occurrence has at most one firing, a stored
submission never changes, and no two firings of a scope share one. A repeated claim
is refused by the fences that come before the search, or returns the stored firing
and `False`; it changes nothing either way. -/
theorem firing_exactly_once (host : ScheduleHost) (limit : Option Int) (es : List Event)
    (hsha : Function.Injective host.durable.sha256)
    (hrun : FreshRun host (.init (.init limit)) es) :
    (∀ k k' firing firing', (reached host limit es).firings.get? k = some firing →
      (reached host limit es).firings.get? k' = some firing' → firing.scope = firing'.scope →
      firing.scheduleId = firing'.scheduleId → firing.revisionId = firing'.revisionId →
      firing.nominalFireTime = firing'.nominalFireTime → k = k') ∧
    (∀ es' k firing id, (reached host limit es).firings.get? k = some firing →
      firing.submissionId = some id → ∃ later,
        (reached host limit (es ++ es')).firings.get? k = some later ∧
          later.submissionId = some id) ∧
    (∀ k k' firing firing' id, (reached host limit es).firings.get? k = some firing →
      (reached host limit es).firings.get? k' = some firing' → firing.scope = firing'.scope →
      firing.submissionId = some id → firing'.submissionId = some id → k = k') ∧
    (∀ env ctx request k firing, (reached host limit es).firings.get? k = some firing →
      Occurs ctx request firing →
      claimFiring host env ctx request (reached host limit es) =
        match claimFence (env.now [0]) ctx request (reached host limit es) with
        | some error => raise error (reached host limit es)
        | none => ret (firing, false) (reached host limit es)) := by
  have hfiled : Filed host (reached host limit es) := reached_filed hrun
  refine ⟨?_, ?_, ?_, ?_⟩
  · intro k k' firing firing' hget hget' hscope hschedule hrevision hnominal
    have hkey : firingKey firing.scheduleId firing.revisionId firing.nominalFireTime = .ok k.id :=
      hfiled.keyed k firing hget
    rw [hschedule, hrevision, hnominal, hfiled.keyed k' firing' hget'] at hkey
    have hid : k'.id = k.id := Except.ok.inj hkey
    have hhome : k.scope = k'.scope := by
      rw [← hfiled.home k firing hget, ← hfiled.home k' firing' hget', hscope]
    cases k
    cases k'
    simp_all
  · intro es' k firing id hget hid
    obtain ⟨later, hlater, hsame⟩ := run_firing_kept host es' hget
    rw [reached_append]
    exact ⟨later, hlater, hsame.submission id hid⟩
  · intro k k' firing firing' id hget hget' hscope hid hid'
    have hhome : k.scope = k'.scope := by
      rw [← hfiled.home k firing hget, ← hfiled.home k' firing' hget', hscope]
    obtain ⟨row, hrow, hfor⟩ := hfiled.backed k firing hget id hid
    obtain ⟨row', hrow', hfor'⟩ := hfiled.backed k' firing' hget' id hid'
    rw [hhome] at hrow
    obtain rfl : row = row' := Option.some.inj (hrow.symm.trans hrow')
    exact hfor.same hsha hfor' hhome
  · intro env ctx request k firing hget hoccurs
    exact claimFiring_repeated hfiled hget hoccurs

section Sample

/-- An occurrence that is claimed with its own submission. -/
def claimedOnce : List Event :=
  [sampleCreated (sampleSpec .fireOnce .skip),
    ⟨sampleScheduleEnv 'b', .claimFiring Durable.sampleContext
      { sampleClaim 1 (some (sampleStamp 2)) with
        planFingerprint := "plan", admitSubmission := true }⟩]

/-- A second claim of the first minute gives the first firing. -/
theorem firing_exactly_once_retried : ∃ firing,
    claimFiring sampleScheduleHost (sampleScheduleEnv 'c') Durable.sampleContext
      (sampleClaim 1 none) (reached sampleScheduleHost none claimedOnce) =
        ret (firing, false) (reached sampleScheduleHost none claimedOnce) ∧
      firing.submissionId = some firing.firingId := by
  have hclaimed : ((reached sampleScheduleHost none claimedOnce).firings.get?
      (sampleFiringKey 1)).map (fun firing => (firing.scope, firing.scheduleId,
        firing.revisionId, firing.nominalFireTime,
        decide (firing.submissionId = some firing.firingId))) =
      some (Durable.sampleContext.scopeKey, "nightly", sampleRevision, sampleStamp 1, true) := by
    decide +kernel
  obtain ⟨firing, hget, hfields⟩ := Option.map_eq_some_iff.mp hclaimed
  simp only [Prod.mk.injEq, decide_eq_true_eq] at hfields
  obtain ⟨hscope, hschedule, hrevision, hnominal, hsubmission⟩ := hfields
  have hretry := (firing_exactly_once sampleScheduleHost none claimedOnce
    Durable.sampleSha256_injective (by decide +kernel)).2.2.2 (sampleScheduleEnv 'c')
    Durable.sampleContext (sampleClaim 1 none) (sampleFiringKey 1) firing hget
    ⟨hscope, hschedule, hrevision, hnominal⟩
  have hfence : claimFence ((sampleScheduleEnv 'c').now [0]) Durable.sampleContext
      (sampleClaim 1 none) (reached sampleScheduleHost none claimedOnce) = none := by
    have hnone : (claimFence ((sampleScheduleEnv 'c').now [0]) Durable.sampleContext
      (sampleClaim 1 none) (reached sampleScheduleHost none claimedOnce)).isNone = true := by
      decide +kernel
    exact Option.isNone_iff_eq_none.mp hnone
  rw [hfence] at hretry
  exact ⟨firing, hretry, hsubmission⟩

end Sample

end Etlantic.ControlPlane.Schedule
