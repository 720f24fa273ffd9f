import Etlantic.ControlPlane.Schedule.Occurrences

/-!
# Firings and the submissions behind them

The durable store under the schedule store takes part in a run of its own, so
what holds of its runs holds here.  A firing that names a submission names an
accepted one, and the idempotency key of that submission names the firing.
-/

namespace Etlantic.ControlPlane.Durable

variable {host : Host} {e : Event} {s₀ s t : Store} {ctx : ControlPlaneContext} {k : Key}

/-- An idempotency entry points at a submission of its own operation and key. -/
def Entered (s : Store) : Prop :=
  s.idempotency.All fun entry id => ∃ row, s.submissions.get? ⟨entry.scope, id⟩ = some row ∧
    row.operation = entry.operation ∧ row.idempotencyKey = entry.idempotencyKey

theorem entered_init (limit : Option Int) : Entered (Store.init limit) := Dict.all_empty _

/-- Submissions that only advance keep what an entry says of them. -/
theorem Entered.advance (h : Entered s) (hidem : t.idempotency = s.idempotency)
    (hadvance : SubmissionsAdvance s t) : Entered t := by
  intro entry id hentry
  rw [hidem] at hentry
  obtain ⟨row, hget, hoperation, hkey⟩ := h entry id hentry
  obtain ⟨status, hlater, -⟩ := hadvance _ row hget
  exact ⟨row.withStatus status, hlater, hoperation, hkey⟩

theorem Write.entered (hfresh : e.Fresh s₀) (hlife : Lifecycle s) (hs : Entered s)
    (h : Write host e s₀ s t) : Entered t := by
  have hadvance : SubmissionsAdvance s t := h.submissionsAdvance hfresh hlife
  cases h with
  | accept hcall hid hnew hidem hvalid hroute hlimit =>
      intro entry id hentry
      rcases Dict.get?_set_eq_some.mp hentry with ⟨rfl, rfl⟩ | ⟨-, hold⟩
      · exact ⟨_, Dict.get?_set_self _ _ _, rfl, rfl⟩
      · obtain ⟨row, hget, hoperation, hkey⟩ := hs entry id hold
        obtain ⟨status, hlater, -⟩ := hadvance _ row hget
        exact ⟨row.withStatus status, hlater, hoperation, hkey⟩
  | _ => exact hs.advance rfl hadvance

/-- What a run of the durable store keeps of its submissions. -/
structure Kept (s : Store) : Prop where
  linked : Linked s
  lifecycle : Lifecycle s
  entered : Entered s

theorem kept_init (limit : Option Int) : Kept (Store.init limit) :=
  ⟨linked_init limit, lifecycle_init limit, entered_init limit⟩

theorem Kept.next (hs : Kept s) (hfresh : e.Fresh s) : Kept (Durable.next host s e) := by
  have hrun : FreshRun host s [e] := ⟨hfresh, trivial⟩
  obtain ⟨hlinked, hlife, hentered⟩ := run_invariant (I := fun s => Lifecycle s ∧ Entered s)
    (fun e s₀ s t hfresh _ _ _ hI hw => ⟨hw.lifecycle hI.1, hw.entered hfresh hI.1 hI.2⟩)
    hs.linked ⟨hs.lifecycle, hs.entered⟩ hrun
  exact ⟨hlinked, hlife, hentered⟩

theorem Kept.next_advance (hs : Kept s) (hfresh : e.Fresh s) :
    SubmissionsAdvance s (Durable.next host s e) := by
  have hrun : FreshRun host s [e] := ⟨hfresh, trivial⟩
  exact run_submissionsAdvance hs.linked hs.lifecycle hrun

/-- The submission an acceptance returns is stored, under the requested id when one
is given. -/
theorem accept_result {env : Env} {request : AcceptRequest} {submission : SubmissionRecord}
    {created : Bool} (hs : Kept s)
    (hresult : (accept host env ctx request s).result = .ok (submission, created)) :
    (accept host env ctx request s).store.submissions.get? (key ctx submission.submissionId) =
      some submission ∧ submission.operation = request.operation ∧
      submission.idempotencyKey = request.idempotencyKey := by
  unfold accept at hresult ⊢
  split at hresult
  · cases hresult
  · split at hresult
    · rename_i existingId hentry
      obtain ⟨row, hrow, hoperation, hkey⟩ := hs.entered _ _ hentry
      change s.submissions.get? (key ctx existingId) = some row at hrow
      simp only [hrow] at hresult ⊢
      have hid : row.submissionId = existingId := (hs.linked.submission _ row hrow).1
      unfold replayAccept at hresult ⊢
      split at hresult
      · cases hresult
      · split at hresult
        · cases hresult
        · split at hresult
          · cases hresult
          · obtain ⟨rfl, rfl⟩ := Prod.mk.inj (Except.ok.inj hresult)
            rename_i hinputs hsubmission hrun
            rw [if_neg hinputs, if_neg hsubmission, if_neg hrun, hid]
            exact ⟨hrow, hoperation, hkey⟩
    · dsimp only at hresult ⊢
      split at hresult
      · cases hresult
      · rename_i hactive
        split at hresult
        · cases hresult
        · rename_i hlimit
          rw [if_neg hactive, if_neg hlimit]
          split at hresult
          · obtain ⟨rfl, rfl⟩ := Prod.mk.inj (Except.ok.inj hresult)
            exact ⟨Dict.get?_set_self _ _ _, rfl, rfl⟩
          · split at hresult
            · cases hresult
            · rename_i hfree
              obtain ⟨rfl, rfl⟩ := Prod.mk.inj (Except.ok.inj hresult)
              rw [if_neg hfree]
              exact ⟨Dict.get?_set_self _ _ _, rfl, rfl⟩

end Etlantic.ControlPlane.Durable

namespace Etlantic.ControlPlane.Schedule

open Durable (Key key Env Kept SubmissionsAdvance)

variable {host : ScheduleHost} {e : Event} {s t : Stores} {k : Key} {firing firing' : FiringRecord}

/-! ## The durable store of a run -/

/-- A write makes at most one step of the durable store, a fresh one in a fresh call. -/
theorem Write.durable_step (h : Write host e s t) (hfresh : e.Fresh s) :
    t.durable = s.durable ∨ ∃ event : Durable.Event, event.Fresh s.durable ∧
      t.durable = Durable.next host.durable s.durable event := by
  cases h with
  | durable event hevent => exact .inr ⟨event, hevent hfresh, rfl⟩
  | @claim ctx request record logical nominal status submissionId durable schedules hcall hkey hrecord
      hfence hnew hoccurrence hstatus hadmits hschedules =>
      cases hadmits with
      | nothing hnone => exact .inl rfl
      | work haccepted hresult =>
          refine .inr ⟨admission e.env ctx request logical, ?_, rfl⟩
          unfold Event.Fresh Event.isFresh at hfresh
          rw [hcall] at hfresh
          unfold Durable.Event.Fresh Durable.Event.isFresh admission fireRequest
          simpa using hfresh
  | _ => exact .inl rfl

theorem Write.durable_kept (h : Write host e s t) (hfresh : e.Fresh s) (hs : Kept s.durable) :
    Kept t.durable ∧ SubmissionsAdvance s.durable t.durable := by
  rcases h.durable_step hfresh with hsame | ⟨event, hevent, hnext⟩
  · rw [hsame]
    exact ⟨hs, .refl _⟩
  · rw [hnext]
    exact ⟨hs.next hevent, hs.next_advance hevent⟩

/-! ## Filed firings -/

/-- The submission was accepted for the firing under the key: by the claim itself, or
as managed work. -/
def AcceptedFor (host : ScheduleHost) (k : Key) (row : SubmissionRecord) : Prop :=
  row.operation = "schedule.fire" ∧ row.idempotencyKey = k.id ∨
    row.operation = "run.submit" ∧ row.idempotencyKey = scheduleIdempotencyKey host k.id

/-- Firings are filed under their logical key, for a schedule that exists, and name
submissions accepted for them. -/
structure Filed (host : ScheduleHost) (s : Stores) : Prop where
  durable : Kept s.durable
  home : s.firings.All fun k firing => firing.scope = k.scope
  keyed : s.firings.All fun k firing =>
    firingKey firing.scheduleId firing.revisionId firing.nominalFireTime = .ok k.id
  known : s.firings.All fun _ firing => ∃ record, s.schedules.get? (scheduleKey firing) = some record
  backed : s.firings.All fun k firing => ∀ id, firing.submissionId = some id →
    ∃ row, s.durable.submissions.get? ⟨k.scope, id⟩ = some row ∧ AcceptedFor host k row

theorem filed_init (host : ScheduleHost) (limit : Option Int) :
    Filed host (.init (.init limit)) where
  durable := Durable.kept_init limit
  home := Dict.all_empty _
  keyed := Dict.all_empty _
  known := Dict.all_empty _
  backed := Dict.all_empty _

/-- Submissions that only advance still back their firings. -/
theorem Filed.backed_advance (hs : Filed host s) {durable : Durable.Store}
    (hadvance : SubmissionsAdvance s.durable durable) :
    s.firings.All fun k firing => ∀ id, firing.submissionId = some id →
      ∃ row, durable.submissions.get? ⟨k.scope, id⟩ = some row ∧ AcceptedFor host k row := by
  intro k firing hget id hid
  obtain ⟨row, hrow, hfor⟩ := hs.backed k firing hget id hid
  obtain ⟨status, hlater, -⟩ := hadvance _ row hrow
  exact ⟨row.withStatus status, hlater, hfor⟩

/-- Filing a schedule keeps every schedule known. -/
theorem Filed.setSchedule (hs : Filed host s) (k : Key) (record : ScheduleRecord) :
    Filed host { s with schedules := s.schedules.set k record } where
  durable := hs.durable
  home := hs.home
  keyed := hs.keyed
  known := by
    intro k' firing hget
    obtain ⟨old, hold⟩ := hs.known k' firing hget
    by_cases hk : k = scheduleKey firing
    · subst hk
      exact ⟨record, Dict.get?_set_self _ _ _⟩
    · exact ⟨old, (Dict.get?_set_ne _ _ hk).trans hold⟩
  backed := hs.backed

theorem linkedRevision_eq_ok {schedule : Option ScheduleRecord} {submission : SubmissionRecord}
    {planFingerprint definitionRevision : String}
    (hkey : firingKey firing.scheduleId firing.revisionId firing.nominalFireTime = .ok k.id)
    (h : linkedRevision host firing schedule submission planFingerprint = .ok definitionRevision) :
    AcceptedFor host k submission := by
  unfold linkedRevision at h
  split at h
  · split at h
    · cases h
    · rw [hkey] at h
      dsimp only at h
      split at h
      · cases h
      · rename_i hwork
        simp only [not_or, ne_eq, not_not] at hwork
        exact .inr ⟨hwork.1, hwork.2.2.1⟩
  · cases h

theorem FiringMove.backed (h : FiringMove host e s k firing firing') (hs : Filed host s)
    (hget : s.firings.get? k = some firing) : ∀ id, firing'.submissionId = some id →
      ∃ row, s.durable.submissions.get? ⟨k.scope, id⟩ = some row ∧ AcceptedFor host k row := by
  cases h with
  | link request submission definitionRevision hopen hsubmission hlinked =>
      intro id hid
      obtain rfl : request.submissionId = id := Option.some.inj hid
      exact ⟨submission, hsubmission, linkedRevision_eq_ok (hs.keyed k firing hget) hlinked⟩
  | _ => exact hs.backed k firing hget

/-- The firing a claim stores is backed by what it admitted. -/
theorem Admits.backed {env : Env} {ctx : ControlPlaneContext} {request : ClaimRequest}
    {logical : String} {status : FiringStatus} {submissionId : Option String}
    {durable : Durable.Store} (hs : Kept s.durable)
    (h : Admits host env ctx request logical status s.durable submissionId durable) :
    ∀ id, submissionId = some id →
      ∃ row, durable.submissions.get? (key ctx id) = some row ∧
        AcceptedFor host (key ctx logical) row := by
  cases h with
  | nothing hnone => exact fun _ hid => nomatch hid
  | @work submission created haccepted hresult =>
      intro id hid
      obtain rfl : submission.submissionId = id := Option.some.inj hid
      obtain ⟨hrow, hoperation, hkey⟩ := Durable.accept_result hs hresult
      exact ⟨submission, hrow, .inl ⟨hoperation, hkey⟩⟩

theorem Write.filed (h : Write host e s t) (hfresh : e.Fresh s) (hs : Filed host s) :
    Filed host t := by
  obtain ⟨hkept, hadvance⟩ := h.durable_kept hfresh hs.durable
  cases h with
  | durable event hevent => exact ⟨hkept, hs.home, hs.keyed, hs.known, hs.backed_advance hadvance⟩
  | leaders leaders => exact ⟨hs.durable, hs.home, hs.keyed, hs.known, hs.backed⟩
  | create hid hnew => exact hs.setSchedule _ _
  | status status at_ hrecord hlive hdrained => exact hs.setSchedule _ _
  | amend env amendment hcall hrecord hlive hdrained => exact hs.setSchedule _ _
  | transfer env transfer hrecord hlive hdrained => exact hs.setSchedule _ _
  | @claim ctx request record logical nominal status submissionId durable schedules hcall hkey hrecord
      hfence hnew hoccurrence hstatus hadmits hschedules =>
      have hknown : ∀ k old, s.schedules.get? k = some old →
          ∃ record', schedules.get? k = some record' := by
        intro k old hold
        obtain ⟨cursor, at_, hlater⟩ := claimed_schedule hrecord hschedules hold
        exact ⟨_, hlater⟩
      refine ⟨hkept, hs.home.set rfl, hs.keyed.set hkey, ?_, ?_⟩
      · refine Dict.All.set (fun k firing hget => ?_) (hknown _ record hrecord)
        obtain ⟨old, hold⟩ := hs.known k firing hget
        exact hknown _ old hold
      · exact Dict.All.set (hs.backed_advance hadvance) (hadmits.backed hs.durable)
  | @firing k' old new hold hmove =>
      have hsame := hmove.same
      refine ⟨hs.durable, hs.home.set ?_, hs.keyed.set ?_, hs.known.set ?_,
        hs.backed.set (hmove.backed hs hold)⟩
      · rw [hsame.scope]
        exact hs.home k' old hold
      · rw [hsame.scheduleId, hsame.revisionId, hsame.nominalFireTime]
        exact hs.keyed k' old hold
      · rw [hsame.scheduleKey_eq]
        exact hs.known k' old hold

theorem next_filed (host : ScheduleHost) (e : Event) (hfresh : e.Fresh s) (hs : Filed host s) :
    Filed host (next host s e) := by
  rcases next_writes host s e with h | h
  · rw [h]
    exact hs
  · exact h.filed hfresh hs

theorem reached_filed {limit : Option Int} {es : List Event}
    (hrun : FreshRun host (.init (.init limit)) es) : Filed host (reached host limit es) :=
  Runs.invariant (I := Filed host) (fun _ e hs hfresh => next_filed host e hfresh hs)
    (filed_init host limit) hrun

end Etlantic.ControlPlane.Schedule
