import Etlantic.Base.Evolves
import Etlantic.ControlPlane.Schedule.Refinement

/-!
# What a firing keeps, and the schedule it was claimed for

A firing never leaves the index and never changes its identity.  While it is
accepted and not linked, three guards hold its schedule still: `amend` waits for
every firing in flight, `delete` and `transfer_timer_owner` scan for unlinked
ones.
-/

namespace Etlantic.ControlPlane.Schedule

open Durable (Key key Env)

/-- The firing is accepted and not linked. -/
def Preparing (firing : FiringRecord) : Prop :=
  firing.status = .accepted ∧ firing.submissionId = none

instance (firing : FiringRecord) : Decidable (Preparing firing) :=
  inferInstanceAs (Decidable (_ ∧ _))

/-- Two versions of one occurrence. A stored submission stays, and a firing that is
being prepared was so before. -/
structure SameOccurrence (old new : FiringRecord) : Prop where
  firingId : new.firingId = old.firingId
  scheduleId : new.scheduleId = old.scheduleId
  revisionId : new.revisionId = old.revisionId
  nominalFireTime : new.nominalFireTime = old.nominalFireTime
  scope : new.scope = old.scope
  submission : ∀ id, old.submissionId = some id → new.submissionId = some id
  accepted : new.status = .accepted → old.status = .accepted

/-- The schedule still is the one that a claim of this generation saw. -/
structure Serves (record : ScheduleRecord) (firing : FiringRecord) (generation : Int) : Prop where
  live : record.status ≠ .deleted
  revision : record.revisionId = firing.revisionId
  generation : record.timerOwnerGeneration = generation

/-- The schedule a firing names. -/
def scheduleKey (firing : FiringRecord) : Key := ⟨firing.scope, firing.scheduleId⟩

/-- The firing under a key is there, and its schedule is held still while it is
being prepared. -/
def HeldFor (k : Key) (generation : Int) (s : Stores) : Prop :=
  ∃ firing, s.firings.get? k = some firing ∧
    (Preparing firing → ∃ record, s.schedules.get? (scheduleKey firing) = some record ∧
      Serves record firing generation)

variable {host : ScheduleHost} {e : Event} {s t : Stores} {k : Key} {firing firing' : FiringRecord}

/-! ## One firing -/

theorem SameOccurrence.refl (firing : FiringRecord) : SameOccurrence firing firing :=
  ⟨rfl, rfl, rfl, rfl, rfl, fun _ h => h, fun h => h⟩

theorem SameOccurrence.trans {a b c : FiringRecord} (h : SameOccurrence a b)
    (h' : SameOccurrence b c) : SameOccurrence a c where
  firingId := h'.firingId.trans h.firingId
  scheduleId := h'.scheduleId.trans h.scheduleId
  revisionId := h'.revisionId.trans h.revisionId
  nominalFireTime := h'.nominalFireTime.trans h.nominalFireTime
  scope := h'.scope.trans h.scope
  submission := fun id hid => h'.submission id (h.submission id hid)
  accepted := fun haccepted => h.accepted (h'.accepted haccepted)

theorem SameOccurrence.preparing (h : SameOccurrence firing firing') (hnew : Preparing firing') :
    Preparing firing := by
  refine ⟨h.accepted hnew.1, ?_⟩
  cases hold : firing.submissionId with
  | none => rfl
  | some id =>
      have hkept := h.submission id hold
      rw [hnew.2] at hkept
      cases hkept

theorem SameOccurrence.scheduleKey_eq (h : SameOccurrence firing firing') :
    scheduleKey firing' = scheduleKey firing := by
  unfold scheduleKey
  rw [h.scope, h.scheduleId]

theorem FiringMove.same (h : FiringMove host e s k firing firing') : SameOccurrence firing firing' := by
  cases h with
  | prepare preparation token metadata => exact ⟨rfl, rfl, rfl, rfl, rfl, fun _ h => h, fun h => h⟩
  | begin attemptId hcall hnew hopen => exact ⟨rfl, rfl, rfl, rfl, rfl, fun _ h => h, fun h => h⟩
  | drop attemptId hcall hmem => exact ⟨rfl, rfl, rfl, rfl, rfl, fun _ h => h, fun h => h⟩
  | compensated attemptId hcall hopen hmem hlast htracked =>
      exact ⟨rfl, rfl, rfl, rfl, rfl, fun _ h => h, fun h => nomatch h⟩
  | giveUp hopen hidle => exact ⟨rfl, rfl, rfl, rfl, rfl, fun _ h => h, fun h => nomatch h⟩
  | link request submission definitionRevision hopen hget hlinked =>
      refine ⟨rfl, rfl, rfl, rfl, rfl, fun id hid => ?_, fun h => h⟩
      rw [hopen.2] at hid
      cases hid

/-! ## The firings of a store -/

/-- A stored firing is still there after a write, in a later version. -/
theorem Write.firing_kept (h : Write host e s t) (hget : s.firings.get? k = some firing) :
    ∃ firing', t.firings.get? k = some firing' ∧ SameOccurrence firing firing' := by
  cases h with
  | @claim ctx request record logical nominal status submissionId durable schedules hcall hkey hrecord
      hfence hnew hoccurrence hstatus hadmits hschedules =>
      exact Dict.Evolves.add .refl hnew k firing hget
  | firing hold hmove => exact Dict.Evolves.replace .refl hold hmove.same k firing hget
  | _ => exact ⟨firing, hget, .refl firing⟩

theorem next_firing_kept (host : ScheduleHost) (e : Event) (hget : s.firings.get? k = some firing) :
    ∃ firing', (next host s e).firings.get? k = some firing' ∧ SameOccurrence firing firing' := by
  rcases next_writes host s e with h | h
  · rw [h]
    exact ⟨firing, hget, .refl firing⟩
  · exact h.firing_kept hget

theorem run_firing_kept (host : ScheduleHost) (es : List Event)
    (hget : s.firings.get? k = some firing) :
    ∃ firing', (run host s es).firings.get? k = some firing' ∧ SameOccurrence firing firing' := by
  induction es generalizing s firing with
  | nil => exact ⟨firing, hget, .refl firing⟩
  | cons e es ih =>
      obtain ⟨middle, hmiddle, hsame⟩ := next_firing_kept host e hget
      obtain ⟨last, hlast, hsame'⟩ := ih hmiddle
      exact ⟨last, hlast, hsame.trans hsame'⟩

/-! ## Guards against unlinked firings -/

theorem not_preparing_of_no_unlinked (h : hasUnlinkedFiring s (scheduleKey firing).scope
    (scheduleKey firing).id = false) (hget : s.firings.get? k = some firing) :
    ¬ Preparing firing := by
  rintro ⟨haccepted, hunlinked⟩
  have hscan := Dict.any_eq_false.mp h k firing hget
  simp [unlinked, scheduleKey, haccepted, hunlinked] at hscan

/-- A firing without a submission counts as active, with or without the durable store. -/
theorem not_preparing_of_no_inflight {withDurable : Bool}
    (h : hasInflightFiring withDurable s (scheduleKey firing).scope (scheduleKey firing).id = false)
    (hget : s.firings.get? k = some firing) : ¬ Preparing firing := by
  rintro ⟨haccepted, hunlinked⟩
  have hscan := Dict.any_eq_false.mp h k firing hget
  simp [inflight, scheduleKey, haccepted, hunlinked, submissionInflight] at hscan

/-! ## The schedule of a firing -/

/-- A claim and its cursor leave the schedules alone but for their cursors. -/
theorem claimed_schedule {schedules : Dict Key ScheduleRecord} {record : ScheduleRecord}
    {k' : Key} {cursor : Option String} {at_ : Instant}
    (hrecord : s.schedules.get? k' = some record)
    (h : schedules = s.schedules ∨ schedules = s.schedules.set k'
      { record with nextFireAt := cursor, updatedAt := at_ })
    {old : ScheduleRecord} (hget : s.schedules.get? k = some old) :
    ∃ cursor' at', schedules.get? k = some { old with nextFireAt := cursor', updatedAt := at' } := by
  rcases h with rfl | rfl
  · exact ⟨old.nextFireAt, old.updatedAt, hget⟩
  · by_cases hk : k' = k
    · subst hk
      obtain rfl : record = old := Option.some.inj (hrecord.symm.trans hget)
      exact ⟨cursor, at_, Dict.get?_set_self _ _ _⟩
    · exact ⟨old.nextFireAt, old.updatedAt, (Dict.get?_set_ne _ _ hk).trans hget⟩

/-- Writing the schedule of another key, or one that keeps what a firing needs. -/
theorem HeldFor.setSchedule {generation : Int} {k' : Key} {record record' : ScheduleRecord}
    (h : HeldFor k generation s) (hrecord : s.schedules.get? k' = some record)
    (hkeep : ∀ firing, s.firings.get? k = some firing → scheduleKey firing = k' →
      Preparing firing → Serves record firing generation → Serves record' firing generation) :
    HeldFor k generation { s with schedules := s.schedules.set k' record' } := by
  obtain ⟨firing, hget, hheld⟩ := h
  refine ⟨firing, hget, fun hpreparing => ?_⟩
  obtain ⟨old, hold, hserves⟩ := hheld hpreparing
  by_cases hk : k' = scheduleKey firing
  · subst hk
    obtain rfl : record = old := Option.some.inj (hrecord.symm.trans hold)
    exact ⟨record', Dict.get?_set_self _ _ _, hkeep firing hget rfl hpreparing hserves⟩
  · exact ⟨old, (Dict.get?_set_ne _ _ hk).trans hold, hserves⟩

theorem Write.heldFor {generation : Int} (h : Write host e s t) (hs : HeldFor k generation s) :
    HeldFor k generation t := by
  cases h with
  | durable event hfresh => exact hs
  | leaders leaders => exact hs
  | @create k' record hid hnew =>
      obtain ⟨firing, hget, hheld⟩ := hs
      refine ⟨firing, hget, fun hpreparing => ?_⟩
      obtain ⟨old, hold, hserves⟩ := hheld hpreparing
      exact ⟨old, Dict.get?_set_fresh hnew hold, hserves⟩
  | @status k' record status at_ hrecord hlive hdrained =>
      refine hs.setSchedule hrecord fun firing hget hk hpreparing hserves => ?_
      subst hk
      refine ⟨fun hdeleted => ?_, hserves.revision, hserves.generation⟩
      exact not_preparing_of_no_unlinked (hdrained hdeleted) hget hpreparing
  | @amend k' record env amendment hcall hrecord hlive hdrained =>
      refine hs.setSchedule hrecord fun firing hget hk hpreparing _ => ?_
      subst hk
      exact absurd hpreparing (not_preparing_of_no_inflight hdrained hget)
  | @transfer k' record env transfer hrecord hlive hdrained =>
      refine hs.setSchedule hrecord fun firing hget hk hpreparing _ => ?_
      subst hk
      exact absurd hpreparing (not_preparing_of_no_unlinked hdrained hget)
  | @claim ctx request record logical nominal status submissionId durable schedules hcall hkey hrecord
      hfence hnew hoccurrence hstatus hadmits hschedules =>
      obtain ⟨firing, hget, hheld⟩ := hs
      refine ⟨firing, Dict.get?_set_fresh hnew hget, fun hpreparing => ?_⟩
      obtain ⟨old, hold, hserves⟩ := hheld hpreparing
      obtain ⟨cursor, at_, hnext⟩ := claimed_schedule hrecord hschedules hold
      exact ⟨_, hnext, hserves.live, hserves.revision, hserves.generation⟩
  | @firing k' old new hold hmove =>
      obtain ⟨firing, hget, hheld⟩ := hs
      by_cases hk : k' = k
      · subst hk
        obtain rfl : old = firing := Option.some.inj (hold.symm.trans hget)
        refine ⟨new, Dict.get?_set_self _ _ _, fun hpreparing => ?_⟩
        obtain ⟨record, hrecord, hserves⟩ := hheld (hmove.same.preparing hpreparing)
        rw [hmove.same.scheduleKey_eq]
        exact ⟨record, hrecord, hserves.live, hserves.revision.trans hmove.same.revisionId.symm,
          hserves.generation⟩
      · exact ⟨firing, (Dict.get?_set_ne _ _ hk).trans hget, hheld⟩

theorem next_heldFor {generation : Int} (host : ScheduleHost) (e : Event)
    (hs : HeldFor k generation s) : HeldFor k generation (next host s e) := by
  rcases next_writes host s e with h | h
  · rw [h]
    exact hs
  · exact h.heldFor hs

theorem run_heldFor {generation : Int} (host : ScheduleHost) (es : List Event)
    (hs : HeldFor k generation s) : HeldFor k generation (run host s es) :=
  Runs.invariant (I := HeldFor k generation)
    (fun _ e hs _ => next_heldFor host e hs) hs (Runs.guarded_true s es)

/-! ## Where a firing comes from -/

theorem fenceError_eq_none {request : ClaimRequest} {record : ScheduleRecord}
    (h : fenceError request record = none) :
    record.status ≠ .deleted ∧ record.revisionId = request.revisionId := by
  unfold fenceError at h
  split at h
  · cases h
  · rename_i hlive
    split at h
    · cases h
    · rename_i hrevision
      exact ⟨hlive, not_not.mp hrevision⟩

/-- A firing appears by a claim, which finds its schedule as it holds it. -/
theorem Write.claimed (h : Write host e s t) (habsent : s.firings.get? k = none)
    (hget : t.firings.get? k = some firing) :
    ∃ record, s.schedules.get? (scheduleKey firing) = some record ∧
      HeldFor k record.timerOwnerGeneration t := by
  cases h with
  | @claim ctx request record logical nominal status submissionId durable schedules hcall hkey hrecord
      hfence hnew hoccurrence hstatus hadmits hschedules =>
      obtain ⟨hlive, hrevision⟩ := fenceError_eq_none hfence
      rcases Dict.get?_set_eq_some.mp hget with ⟨rfl, rfl⟩ | ⟨-, hold⟩
      · refine ⟨record, hrecord, _, Dict.get?_set_self _ _ _, fun _ => ?_⟩
        obtain ⟨cursor, at_, hnext⟩ := claimed_schedule hrecord hschedules hrecord
        exact ⟨_, hnext, hlive, hrevision, rfl⟩
      · rw [habsent] at hold
        cases hold
  | @firing k' old new hold hmove =>
      rcases Dict.get?_set_eq_some.mp hget with ⟨rfl, -⟩ | ⟨-, hsame⟩
      · rw [habsent] at hold
        cases hold
      · rw [habsent] at hsame
        cases hsame
  | _ =>
      rw [habsent] at hget
      cases hget

/-- Every firing of a reached store was claimed by one call of the run. -/
theorem reached_claimed (host : ScheduleHost) (limit : Option Int) : ∀ {es : List Event},
    (reached host limit es).firings.get? k = some firing →
    ∃ before e after, es = before ++ e :: after ∧
      (reached host limit before).firings.get? k = none ∧
      ∃ claimed, (reached host limit (before ++ [e])).firings.get? k = some claimed := by
  intro es
  induction es using List.reverseRecOn generalizing firing with
  | nil =>
      intro hget
      cases hget
  | append_singleton es e ih =>
      intro hget
      cases hprior : (reached host limit es).firings.get? k with
      | none => exact ⟨es, e, [], rfl, hprior, firing, hget⟩
      | some prior =>
          obtain ⟨before, first, after, rfl, hnone, hclaimed⟩ := ih hprior
          exact ⟨before, first, after ++ [e], by simp, hnone, hclaimed⟩

/-- In every reached store, a firing that is accepted and not linked was claimed by
a call of the run, and its schedule is the one that call saw: not deleted, at the
firing's revision and in the same generation of its timer owner. -/
theorem unlinked_firing_keeps_schedule (host : ScheduleHost) (limit : Option Int)
    (es : List Event) (k : Key) (firing : FiringRecord)
    (hget : (reached host limit es).firings.get? k = some firing)
    (haccepted : firing.status = .accepted) (hunlinked : firing.submissionId = none) :
    ∃ before e after claimedFor current, es = before ++ e :: after ∧
      (reached host limit before).firings.get? k = none ∧
      ((reached host limit (before ++ [e])).firings.get? k).isSome = true ∧
      (reached host limit before).schedules.get? ⟨firing.scope, firing.scheduleId⟩ =
        some claimedFor ∧
      (reached host limit es).schedules.get? ⟨firing.scope, firing.scheduleId⟩ = some current ∧
      current.status ≠ .deleted ∧ current.revisionId = firing.revisionId ∧
      current.timerOwnerGeneration = claimedFor.timerOwnerGeneration := by
  obtain ⟨before, e, after, rfl, habsent, claimed, hclaimed⟩ := reached_claimed host limit hget
  have hstep : reached host limit (before ++ [e]) = next host (reached host limit before) e :=
    Runs.run_append_singleton _ before e
  have hwhole : reached host limit (before ++ e :: after) =
      run host (next host (reached host limit before) e) after :=
    Runs.run_append _ before (e :: after)
  -- the claiming call wrote the firing and left its schedule as it found it
  have hwrite : ∃ record, (reached host limit before).schedules.get? (scheduleKey claimed) =
      some record ∧ HeldFor k record.timerOwnerGeneration
        (next host (reached host limit before) e) := by
    rw [hstep] at hclaimed
    rcases next_writes host (reached host limit before) e with h | h
    · rw [h, habsent] at hclaimed
      cases hclaimed
    · exact h.claimed habsent hclaimed
  obtain ⟨claimedFor, hclaimedFor, hheld⟩ := hwrite
  -- the rest of the run keeps both
  rw [hstep] at hclaimed
  obtain ⟨last, hlast, hsame⟩ := run_firing_kept host after hclaimed
  rw [hwhole] at hget
  obtain rfl : last = firing := Option.some.inj (hlast.symm.trans hget)
  obtain ⟨final, hfinal, hserved⟩ := run_heldFor host after hheld
  obtain rfl : final = last := Option.some.inj (hfinal.symm.trans hlast)
  obtain ⟨current, hcurrent, hserves⟩ := hserved ⟨haccepted, hunlinked⟩
  refine ⟨before, e, after, claimedFor, current, rfl, habsent, ?_, ?_, ?_, hserves.live,
    hserves.revision, hserves.generation⟩
  · rw [hstep, hclaimed]
    rfl
  · rw [← hsame.scheduleKey_eq] at hclaimedFor
    exact hclaimedFor
  · rw [hwhole]
    exact hcurrent

section Sample

/-- A schedule with one occurrence that is being prepared, and an amendment that has
to wait for it. -/
def amendedTooEarly : List Event :=
  [sampleCreated (sampleSpec .fireOnce .skip),
    ⟨sampleScheduleEnv 'b', .claimFiring Durable.sampleContext (sampleClaim 1 none)⟩,
    ⟨sampleScheduleEnv 'c', .amend Durable.sampleContext "nightly"
      ⟨sampleRevision, sampleSpec .fireOnce .queue, none, none, none, true⟩⟩]

theorem unlinked_firing_keeps_schedule_amended : ∃ current,
    (reached sampleScheduleHost none amendedTooEarly).schedules.get?
      (key Durable.sampleContext "nightly") = some current ∧ current.revisionId = sampleRevision := by
  have hpreparing : ((reached sampleScheduleHost none amendedTooEarly).firings.get?
      (sampleFiringKey 1)).map (fun firing => (firing.status, firing.submissionId, firing.scope,
        firing.scheduleId, firing.revisionId)) =
      some (.accepted, none, Durable.sampleContext.scopeKey, "nightly", sampleRevision) := by
    decide +kernel
  obtain ⟨firing, hget, hfields⟩ := Option.map_eq_some_iff.mp hpreparing
  simp only [Prod.mk.injEq] at hfields
  obtain ⟨haccepted, hunlinked, hscope, hschedule, hrevision⟩ := hfields
  obtain ⟨_, _, _, _, current, -, -, -, -, hcurrent, -, hsame, -⟩ :=
    unlinked_firing_keeps_schedule sampleScheduleHost none amendedTooEarly (sampleFiringKey 1)
      firing hget haccepted hunlinked
  rw [hscope, hschedule] at hcurrent
  exact ⟨current, hcurrent, hsame.trans hrevision⟩

end Sample

end Etlantic.ControlPlane.Schedule
