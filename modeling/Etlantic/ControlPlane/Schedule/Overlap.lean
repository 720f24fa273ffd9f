import Etlantic.ControlPlane.Schedule.ExactlyOnce

/-!
# At most one firing in flight

Under the overlap policy `skip` a claim is skipped while a firing of the schedule
is in flight.  An amendment, which can switch the policy, waits until none is.
In between firings only leave flight: one that is being prepared fails or is
linked, and a submission that has ended stays ended.
-/

namespace Etlantic.ControlPlane.Schedule

open Durable (Key key Env SubmissionsAdvance)

/-- The firing is accepted, and it is not linked yet or its submission is open. -/
def InFlight (s : Stores) (firing : FiringRecord) : Prop :=
  firing.status = .accepted ∧ ∀ id, firing.submissionId = some id →
    ∃ row, s.durable.submissions.get? ⟨firing.scope, id⟩ = some row ∧
      (row.status = .accepted ∨ row.status = .dispatched ∨ row.status = .cancelRequested)

/-- A schedule that skips overlaps has at most one firing in flight. -/
def Alone (s : Stores) : Prop :=
  ∀ k k' firing firing' record, s.firings.get? k = some firing → s.firings.get? k' = some firing' →
    scheduleKey firing = scheduleKey firing' → InFlight s firing → InFlight s firing' →
    s.schedules.get? (scheduleKey firing) = some record → record.spec.overlap = .skip → k = k'

/-- A claim passes the durable store. -/
def Event.passesDurable (e : Event) : Bool :=
  match e.call with
  | .claimFiring _ request => request.withDurable
  | _ => true

/-- A claim that settles the status of its firing itself does not accept it. -/
def Event.skipsOnly (e : Event) : Bool :=
  match e.call with
  | .claimFiring _ request => request.skipStatus ≠ some .accepted
  | _ => true

/-- The calls of the runs below: claims pass the durable store and never bring the
status `accepted` with them. -/
def Event.Overlapping (s : Stores) (e : Event) : Prop :=
  e.Fresh s ∧ e.passesDurable = true ∧ e.skipsOnly = true

instance (s : Stores) (e : Event) : Decidable (e.Overlapping s) :=
  inferInstanceAs (Decidable (_ ∧ _))

variable {host : ScheduleHost} {e : Event} {s t : Stores} {k : Key} {firing firing' : FiringRecord}

/-! ## Leaving flight -/

theorem isNonTerminal_iff {status : SubmissionStatus} : status.isNonTerminal = true ↔
    status = .accepted ∨ status = .dispatched ∨ status = .cancelRequested := by
  cases status <;> simp [SubmissionStatus.isNonTerminal]

/-- An open submission was open before. -/
theorem open_of_canBecome {old new : SubmissionStatus}
    (h : Durable.SubmissionStatus.CanBecome old new) (hopen : new.isNonTerminal = true) :
    old.isNonTerminal = true := by
  rcases h with rfl | ⟨hlive, -⟩
  · exact hopen
  · cases old <;> first | rfl | cases hlive

/-- A firing in flight was so before its submission advanced. -/
theorem InFlight.of_advance (hs : Filed host s) (hget : s.firings.get? k = some firing)
    {durable : Durable.Store} (hadvance : SubmissionsAdvance s.durable durable)
    (h : InFlight { s with durable := durable } firing) : InFlight s firing := by
  refine ⟨h.1, fun id hid => ?_⟩
  obtain ⟨row, hrow, -⟩ := hs.backed k firing hget id hid
  rw [← hs.home k firing hget] at hrow
  obtain ⟨status, hlater, hcan⟩ := hadvance _ row hrow
  obtain ⟨later, hget', hopen⟩ := h.2 id hid
  obtain rfl : row.withStatus status = later := Option.some.inj (hlater.symm.trans hget')
  exact ⟨row, hrow, isNonTerminal_iff.mp (open_of_canBecome hcan (isNonTerminal_iff.mpr hopen))⟩

/-- A firing in flight was so before it changed. -/
theorem InFlight.of_move (hmove : FiringMove host e s k firing firing') (h : InFlight s firing') :
    InFlight s firing := by
  cases hmove with
  | prepare preparation token metadata => exact h
  | begin attemptId hcall hnew hopen => exact h
  | drop attemptId hcall hmem => exact h
  | compensated attemptId hcall hopen hmem hlast htracked => cases h.1
  | giveUp hopen hidle => cases h.1
  | link request submission definitionRevision hopen hsubmission hlinked =>
      refine ⟨hopen.1, fun id hid => ?_⟩
      rw [hopen.2] at hid
      cases hid

/-- A firing in flight is seen by the scan, whether it asks the durable store or not. -/
theorem hasInflightFiring_of_inFlight (withDurable : Bool) (hget : s.firings.get? k = some firing)
    (h : InFlight s firing) :
    hasInflightFiring withDurable s (scheduleKey firing).scope (scheduleKey firing).id = true := by
  refine Dict.any_eq_true.mpr ⟨k, firing, hget, ?_⟩
  have hsubmission :
      submissionInflight withDurable firing.scope s.durable firing.submissionId = true := by
    unfold submissionInflight
    cases hid : firing.submissionId with
    | none => rfl
    | some id =>
        obtain ⟨row, hrow, hopen⟩ := h.2 id hid
        simp [hrow, isNonTerminal_iff.mpr hopen]
  simp [inflight, scheduleKey, h.1, hsubmission]

/-! ## Claims -/

/-- A claim that accepts a firing under the policy `skip` found none in flight. -/
theorem no_inflight_of_accepted {ctx : ControlPlaneContext} {request : ClaimRequest}
    {spec : ScheduleSpec} {nominal : Datetime} (hskip : request.skipStatus ≠ some .accepted)
    (hoverlap : spec.overlap = .skip)
    (h : occurrenceStatus ctx request spec nominal s = .ok .accepted) :
    hasInflightFiring request.withDurable s ctx.scopeKey request.scheduleId = false := by
  unfold occurrenceStatus at h
  split at h
  · rename_i status hstatus
    obtain rfl : status = .accepted := Except.ok.inj h
    exact absurd hstatus hskip
  · split at h
    · cases h
    · split at h
      · cases h
      · split at h
        · cases h
        · rename_i hfree
          rw [not_and] at hfree
          exact Bool.eq_false_iff.mpr (hfree hoverlap)

/-- The stores after a claim, with its new firing at `k`. -/
theorem Alone.claim (hs : Alone s) (hfiled : Filed host s) {schedules : Dict Key ScheduleRecord}
    {durable : Durable.Store} (hadvance : SubmissionsAdvance s.durable durable)
    (hspec : ∀ k' record', schedules.get? k' = some record' → ∃ record,
      s.schedules.get? k' = some record ∧ record'.spec = record.spec)
    (halone : firing.status = .accepted → ∀ record, s.schedules.get? (scheduleKey firing) =
      some record → record.spec.overlap = .skip →
      hasInflightFiring true s (scheduleKey firing).scope (scheduleKey firing).id = false) :
    Alone { s with
      schedules := schedules, firings := s.firings.set k firing, durable := durable } := by
  -- no older firing of the schedule is in flight when the new one is
  have hclash : ∀ k' old record, s.firings.get? k' = some old →
      scheduleKey old = scheduleKey firing → firing.status = .accepted →
      InFlight { s with durable := durable } old →
      schedules.get? (scheduleKey firing) = some record → record.spec.overlap ≠ .skip := by
    intro k' old record' hold hsame haccepted hflight hrecord' hskip
    obtain ⟨record, hrecord, hequal⟩ := hspec _ _ hrecord'
    have hnone := halone haccepted record hrecord (hequal ▸ hskip)
    have hseen := hasInflightFiring_of_inFlight true hold
      (InFlight.of_advance hfiled hold hadvance hflight)
    rw [hsame, hnone] at hseen
    cases hseen
  intro k₁ k₂ f₁ f₂ record hget₁ hget₂ hsame hflight₁ hflight₂ hrecord hskip
  rcases Dict.get?_set_eq_some.mp hget₁ with ⟨rfl, rfl⟩ | ⟨-, hold₁⟩
  · rcases Dict.get?_set_eq_some.mp hget₂ with ⟨rfl, rfl⟩ | ⟨-, hold₂⟩
    · rfl
    · exact absurd hskip (hclash k₂ f₂ record hold₂ hsame.symm hflight₁.1 hflight₂ hrecord)
  · rcases Dict.get?_set_eq_some.mp hget₂ with ⟨rfl, rfl⟩ | ⟨-, hold₂⟩
    · rw [hsame] at hrecord
      exact absurd hskip (hclash k₁ f₁ record hold₁ hsame hflight₂.1 hflight₁ hrecord)
    · obtain ⟨before, hbefore, hequal⟩ := hspec _ _ hrecord
      exact hs k₁ k₂ f₁ f₂ before hold₁ hold₂ hsame
        (InFlight.of_advance hfiled hold₁ hadvance hflight₁)
        (InFlight.of_advance hfiled hold₂ hadvance hflight₂) hbefore (hequal ▸ hskip)

/-- Writing a schedule that keeps its policy, or that nothing is in flight for. -/
theorem Alone.setSchedule (hs : Alone s) {k' : Key} {record record' : ScheduleRecord}
    (hrecord : s.schedules.get? k' = some record)
    (hkeep : record'.spec = record.spec ∨
      ∃ withDurable, hasInflightFiring withDurable s k'.scope k'.id = false) :
    Alone { s with schedules := s.schedules.set k' record' } := by
  intro k₁ k₂ f₁ f₂ current hget₁ hget₂ hsame hflight₁ hflight₂ hcurrent hskip
  rcases Dict.get?_set_eq_some.mp hcurrent with ⟨rfl, rfl⟩ | ⟨-, hold⟩
  · rcases hkeep with hequal | ⟨withDurable, hdrained⟩
    · exact hs k₁ k₂ f₁ f₂ record hget₁ hget₂ hsame hflight₁ hflight₂ hrecord (hequal ▸ hskip)
    · have hseen := hasInflightFiring_of_inFlight (s := s) withDurable hget₁ hflight₁
      rw [hdrained] at hseen
      cases hseen
  · exact hs k₁ k₂ f₁ f₂ current hget₁ hget₂ hsame hflight₁ hflight₂ hold hskip

theorem Write.alone (h : Write host e s t) (hguard : e.Overlapping s) (hfiled : Filed host s)
    (hs : Alone s) : Alone t := by
  obtain ⟨hfresh, hdurable, hskips⟩ := hguard
  obtain ⟨-, hadvance⟩ := h.durable_kept hfresh hfiled.durable
  cases h with
  | durable event hevent =>
      intro k₁ k₂ f₁ f₂ record hget₁ hget₂ hsame hflight₁ hflight₂ hrecord hskip
      exact hs k₁ k₂ f₁ f₂ record hget₁ hget₂ hsame
        (InFlight.of_advance hfiled hget₁ hadvance hflight₁)
        (InFlight.of_advance hfiled hget₂ hadvance hflight₂) hrecord hskip
  | leaders leaders => exact hs
  | @create k' record hid hnew =>
      intro k₁ k₂ f₁ f₂ current hget₁ hget₂ hsame hflight₁ hflight₂ hcurrent hskip
      rcases Dict.get?_set_eq_some.mp hcurrent with ⟨rfl, rfl⟩ | ⟨-, hold⟩
      · obtain ⟨old, hold⟩ := hfiled.known k₁ f₁ hget₁
        rw [hnew] at hold
        cases hold
      · exact hs k₁ k₂ f₁ f₂ current hget₁ hget₂ hsame hflight₁ hflight₂ hold hskip
  | status status at_ hrecord hlive hdrained => exact hs.setSchedule hrecord (.inl rfl)
  | amend env amendment hcall hrecord hlive hdrained =>
      exact hs.setSchedule hrecord (.inr ⟨amendment.withDurable, hdrained⟩)
  | transfer env transfer hrecord hlive hdrained => exact hs.setSchedule hrecord (.inl rfl)
  | @claim ctx request record logical nominal status submissionId durable schedules hcall hkey hrecord
      hfence hnew hoccurrence hstatus hadmits hschedules =>
      unfold Event.passesDurable at hdurable
      unfold Event.skipsOnly at hskips
      rw [hcall] at hdurable hskips
      have hdurable : request.withDurable = true := hdurable
      refine hs.claim hfiled hadvance ?_ ?_
      · intro k' record' hrecord'
        rcases hschedules with rfl | rfl
        · exact ⟨record', hrecord', rfl⟩
        · rcases Dict.get?_set_eq_some.mp hrecord' with ⟨rfl, rfl⟩ | ⟨-, hold⟩
          · exact ⟨record, hrecord, rfl⟩
          · exact ⟨record', hold, rfl⟩
      · intro haccepted found hfound hoverlap
        obtain rfl : record = found := Option.some.inj (hrecord.symm.trans hfound)
        obtain rfl : status = .accepted := haccepted
        have hnone := no_inflight_of_accepted (of_decide_eq_true hskips) hoverlap hstatus
        rw [hdurable] at hnone
        exact hnone
  | @firing k' old new hold hmove =>
      -- each firing in flight now is an earlier version in flight
      have hbefore : ∀ k firing, (s.firings.set k' new).get? k = some firing → InFlight s firing →
          ∃ prior, s.firings.get? k = some prior ∧ InFlight s prior ∧
            scheduleKey firing = scheduleKey prior := by
        intro k firing hget hflight
        rcases Dict.get?_set_eq_some.mp hget with ⟨rfl, rfl⟩ | ⟨-, hsame⟩
        · exact ⟨old, hold, InFlight.of_move hmove hflight, hmove.same.scheduleKey_eq⟩
        · exact ⟨firing, hsame, hflight, rfl⟩
      intro k₁ k₂ f₁ f₂ record hget₁ hget₂ hsame hflight₁ hflight₂ hrecord hskip
      obtain ⟨p₁, hp₁, hflying₁, hkey₁⟩ := hbefore k₁ f₁ hget₁ hflight₁
      obtain ⟨p₂, hp₂, hflying₂, hkey₂⟩ := hbefore k₂ f₂ hget₂ hflight₂
      rw [hkey₁] at hrecord
      exact hs k₁ k₂ p₁ p₂ record hp₁ hp₂ (hkey₁.symm.trans (hsame.trans hkey₂)) hflying₁
        hflying₂ hrecord hskip

theorem next_alone (host : ScheduleHost) (e : Event) (hguard : e.Overlapping s)
    (hs : Filed host s ∧ Alone s) : Filed host (next host s e) ∧ Alone (next host s e) := by
  refine ⟨next_filed host e hguard.1 hs.1, ?_⟩
  rcases next_writes host s e with h | h
  · rw [h]
    exact hs.2
  · exact h.alone hguard hs.1 hs.2

section Sample

/-- A second occurrence that a claim accepts by itself, while the first is being
prepared. -/
def acceptedOverlap : List Event :=
  [sampleCreated (sampleSpec .fireOnce .skip),
    ⟨sampleScheduleEnv 'b', .claimFiring Durable.sampleContext
      (sampleClaim 1 (some (sampleStamp 2)))⟩,
    ⟨sampleScheduleEnv 'c', .claimFiring Durable.sampleContext
      { sampleClaim 2 (some (sampleStamp 3)) with skipStatus := some .accepted }⟩]

/-- A claim that brings the status `accepted` with it is not checked for overlaps. -/
theorem accepted_claim_overlaps :
    (Runs.Guarded (next sampleScheduleHost)
      (fun s e => e.Fresh s ∧ e.passesDurable = true) (.init (.init none)) acceptedOverlap) ∧
    [1, 2].all (fun minute =>
      ((reached sampleScheduleHost none acceptedOverlap).firings.get?
        (sampleFiringKey minute)).any fun firing =>
          firing.status = .accepted && firing.submissionId = none) = true ∧
    sampleFiringKey 1 ≠ sampleFiringKey 2 ∧
    ((reached sampleScheduleHost none acceptedOverlap).schedules.get?
      (key Durable.sampleContext "nightly")).map (fun record => record.spec.overlap) =
        some .skip := by
  decide +kernel

end Sample

/-- In every reached pair of stores, a schedule whose current overlap policy is `skip`
has at most one firing in flight, when all claims pass the durable store and none
brings the status `accepted` with it. -/
theorem one_firing_in_flight (host : ScheduleHost) (limit : Option Int) (es : List Event)
    (hrun : Runs.Guarded (next host) (fun s e => e.Overlapping s) (.init (.init limit)) es)
    (k k' : Key) (firing firing' : FiringRecord) (record : ScheduleRecord)
    (hget : (reached host limit es).firings.get? k = some firing)
    (hget' : (reached host limit es).firings.get? k' = some firing')
    (hscope : firing.scope = firing'.scope) (hschedule : firing.scheduleId = firing'.scheduleId)
    (hrecord : (reached host limit es).schedules.get? ⟨firing.scope, firing.scheduleId⟩ =
      some record) (hskip : record.spec.overlap = .skip)
    (hflight : InFlight (reached host limit es) firing)
    (hflight' : InFlight (reached host limit es) firing') : k = k' := by
  have hinit : Alone (.init (.init limit)) := by
    intro k₁ k₂ f₁ f₂ record hget₁
    simp [Stores.init] at hget₁
  have halone := (Runs.invariant (I := fun s => Filed host s ∧ Alone s)
    (fun s e hs hguard => next_alone host e hguard hs) ⟨filed_init host limit, hinit⟩ hrun).2
  have hsame : scheduleKey firing = scheduleKey firing' := by
    unfold scheduleKey
    rw [hscope, hschedule]
  exact halone k k' firing firing' record hget hget' hsame hflight hflight' hrecord hskip

section Sample

/-- Two claims of one schedule, the second while the first is being prepared. -/
def overlappingClaims : List Event :=
  [sampleCreated (sampleSpec .fireOnce .skip),
    ⟨sampleScheduleEnv 'b', .claimFiring Durable.sampleContext
      (sampleClaim 1 (some (sampleStamp 2)))⟩,
    ⟨sampleScheduleEnv 'c', .claimFiring Durable.sampleContext
      (sampleClaim 2 (some (sampleStamp 3)))⟩]

/-- The second firing is stored and not in flight. -/
theorem one_firing_in_flight_skipped : ∃ firing,
    (reached sampleScheduleHost none overlappingClaims).firings.get? (sampleFiringKey 2) =
      some firing ∧ ¬ InFlight (reached sampleScheduleHost none overlappingClaims) firing := by
  have hfirst : ((reached sampleScheduleHost none overlappingClaims).firings.get?
      (sampleFiringKey 1)).map (fun firing => (firing.status, firing.submissionId, firing.scope,
        firing.scheduleId)) =
      some (.accepted, none, Durable.sampleContext.scopeKey, "nightly") := by decide +kernel
  have hsecond : ((reached sampleScheduleHost none overlappingClaims).firings.get?
      (sampleFiringKey 2)).map (fun firing => (firing.scope, firing.scheduleId)) =
      some (Durable.sampleContext.scopeKey, "nightly") := by decide +kernel
  have hpolicy : ((reached sampleScheduleHost none overlappingClaims).schedules.get?
      ⟨Durable.sampleContext.scopeKey, "nightly"⟩).map (fun record => record.spec.overlap) =
      some .skip := by decide +kernel
  obtain ⟨first, hget, hfields⟩ := Option.map_eq_some_iff.mp hfirst
  obtain ⟨second, hget', hfields'⟩ := Option.map_eq_some_iff.mp hsecond
  obtain ⟨record, hrecord, hskip⟩ := Option.map_eq_some_iff.mp hpolicy
  simp only [Prod.mk.injEq] at hfields hfields'
  obtain ⟨haccepted, hunlinked, hscope, hschedule⟩ := hfields
  refine ⟨second, hget', fun hflight => ?_⟩
  have hsame := one_firing_in_flight sampleScheduleHost none overlappingClaims (by decide +kernel)
    (sampleFiringKey 1) (sampleFiringKey 2) first second record hget hget'
    (hscope.trans hfields'.1.symm) (hschedule.trans hfields'.2.symm)
    (by rw [hscope, hschedule]; exact hrecord) hskip
    ⟨haccepted, fun id hid => by rw [hunlinked] at hid; cases hid⟩ hflight
  exact absurd hsame (by decide +kernel)

end Sample

end Etlantic.ControlPlane.Schedule
