import Etlantic.Base.Evolves
import Etlantic.ControlPlane.Schedule.Triggers

/-!
# The cursor of a schedule

Schedulers, manual triggers and external triggers read a schedule and claim an
occurrence of it later on.  A session interleaves them: a reading may be used by
any later claim, however stale it is by then.
-/

namespace Etlantic.ControlPlane.Schedule

open Durable (Key key Env)

/-! ## Sessions -/

/-- A schedule as a caller has read it. -/
structure Reading where
  ctx : ControlPlaneContext
  record : ScheduleRecord

structure Session where
  stores : Stores
  readings : List Reading

/-- Everything but claims and amendments. -/
def Event.sparesCursors (e : Event) : Bool :=
  match e.call with
  | .claimFiring _ _ | .amend _ _ _ => false
  | _ => true

inductive Action where
  | read (ctx : ControlPlaneContext) (scheduleId : String)
  /-- One of the claims that a tick plans for a schedule it has read. -/
  | poll (env : Env) (service : SchedulerService) (reading : Nat) (now : Instant) (claim : Nat)
      (fencingToken : Int) (metadata : List (String × Json))
  | manual (env : Env) (gateway : Gateway) (reading : Nat) (at_ : Instant)
  | external (env : Env) (reading : Nat) (envelope : TriggerEnvelope) (now : Instant)
  | other (e : Event) (spares : e.sparesCursors = true)

/-- A claim that is about to be made. -/
structure Attempt where
  env : Env
  ctx : ControlPlaneContext
  request : ClaimRequest

/-- The claim an action makes with the readings at hand. -/
def Action.attempt (host : ScheduleHost) (readings : List Reading) : Action → Option Attempt
  | read _ _ | other _ _ => none
  | poll env service i now j fencingToken metadata =>
      match readings[i]? with
      | none => none
      | some reading =>
          match firePlan host reading.record now with
          | .error _ => none
          | .ok plan =>
              match plan[j]? with
              | some (.ok claim) => some ⟨env, reading.ctx,
                  scheduledClaim host service reading.record claim fencingToken metadata⟩
              | _ => none
  | manual env gateway i at_ =>
      match readings[i]? with
      | none => none
      | some reading =>
          match manualClaim host gateway reading.record at_ with
          | .error _ => none
          | .ok request => some ⟨env, occurrenceContext reading.ctx reading.record, request⟩
  | external env i envelope now =>
      match readings[i]? with
      | none => none
      | some reading =>
          match externalClaim host reading.ctx reading.record envelope now with
          | .error _ => none
          | .ok request => some ⟨env, reading.ctx, request⟩

def act (host : ScheduleHost) (σ : Session) (a : Action) : Session :=
  match a with
  | .read ctx scheduleId =>
      match σ.stores.live? ctx scheduleId with
      | none => σ
      | some record => { σ with readings := σ.readings ++ [⟨ctx, record⟩] }
  | .other e _ => { σ with stores := next host σ.stores e }
  | a =>
      match a.attempt host σ.readings with
      | none => σ
      | some attempt => { σ with
          stores := next host σ.stores
            ⟨attempt.env, .claimFiring attempt.ctx attempt.request⟩ }

/-! ## The law -/

/-- A firing of the occurrence at a cursor is created in a step. -/
def ClaimedAt (host : ScheduleHost) (k : Key) (revisionId : String) (due : Datetime)
    (s t : Stores) : Prop :=
  ∃ logical firing, s.firings.get? ⟨k.scope, logical⟩ = none ∧
    t.firings.get? ⟨k.scope, logical⟩ = some firing ∧ firing.scheduleId = k.id ∧
    firing.revisionId = revisionId ∧
    ∃ offset, firing.nominalFireTime = host.isoformat ⟨due.instant, offset⟩

/-- A cursor moves past an occurrence: to a later instant, or away when none is left. -/
def MovesPast (host : ScheduleHost) (spec : ScheduleSpec) (due : Instant) (cursor : Option String) :
    Prop :=
  (∃ t : Datetime, t.IsAware ∧ cursor = some (host.isoformat t) ∧ due < t.instant) ∨
    cursor = none ∧ ∃ after, due ≤ after ∧ nextFireAfter host spec after (some due) = .ok none

def Action.isManual : Action → Bool
  | manual _ _ _ _ => true
  | _ => false

/-- What an action may do to a cursor. -/
def Action.Advances (host : ScheduleHost) (a : Action) (s t : Stores) : Prop :=
  ∀ k r r', s.schedules.get? k = some r → t.schedules.get? k = some r' →
    r'.nextFireAt = r.nextFireAt ∨
      a.isManual = false ∧ ∃ cursor due, r.nextFireAt = some cursor ∧
        host.fromisoformat cursor = some due ∧ ClaimedAt host k r.revisionId due s t ∧
        MovesPast host r.spec due.instant r'.nextFireAt

/-- The claim passes all checks of the schedule, for an occurrence without a firing. -/
structure Admissible (attempt : Attempt) (record : ScheduleRecord) (s : Stores) : Prop where
  current : s.schedules.get? (key attempt.ctx attempt.request.scheduleId) = some record
  fence : fenceError attempt.request record = none
  occurrence : occurrenceError attempt.request record = none
  fresh : ∀ logical, firingKey attempt.request.scheduleId attempt.request.revisionId
    attempt.request.nominalFireTime = .ok logical → s.firings.get? (key attempt.ctx logical) = none

/-- An admissible manual trigger passes on the cursor the schedule has, and catching
up starts at the cursor that was read. -/
def Action.OnCursor (host : ScheduleHost) (σ : Session) (a : Action) : Prop :=
  ∀ attempt record, a.attempt host σ.readings = some attempt →
    Admissible attempt record σ.stores →
      match a with
      | .manual _ _ _ _ => attempt.request.nextFireAt = record.nextFireAt
      | .poll _ _ i now claim _ _ => claim = 0 → ∀ reading cursor due first rest,
          σ.readings[i]? = some reading → reading.record.spec.misfire = .catchUp →
          reading.record.nextFireAt = some cursor → host.fromisoformat cursor = some due →
          catchUpNominals host reading.record.spec
            (catchUpStart reading.record.spec due.instant) now = .ok (first :: rest) →
          first.instant = due.instant
      | _ => True

variable {host : ScheduleHost} {e : Event} {ctx : ControlPlaneContext} {s t : Stores} {k : Key}
  {record : ScheduleRecord} {request : ClaimRequest}

/-! ## Schedules under their keys -/

/-- Every schedule is stored under its own identifier. -/
def Keyed (s : Stores) : Prop := s.schedules.All fun k record => record.scheduleId = k.id

theorem Write.keyed (h : Write host e s t) (hs : Keyed s) : Keyed t := by
  cases h with
  | durable event hfresh => exact hs
  | leaders leaders => exact hs
  | create hid hnew => exact hs.set hid
  | status status at_ hget hlive hdrained =>
      have hid := hs _ _ hget
      exact hs.set hid
  | amend env amendment hcall hget hlive hdrained =>
      have hid := hs _ _ hget
      exact hs.set hid
  | transfer env transfer hget hlive hdrained =>
      have hid := hs _ _ hget
      exact hs.set hid
  | claim hcall hkey hget hfence hnew hoccurrence hstatus hadmits hschedules =>
      rcases hschedules with rfl | rfl
      · exact hs
      · have hid := hs _ _ hget
        exact hs.set hid
  | firing hget hmove => exact hs

theorem next_keyed (host : ScheduleHost) (e : Event) (hs : Keyed s) : Keyed (next host s e) := by
  rcases next_writes host s e with h | h
  · rw [h]
    exact hs
  · exact h.keyed hs

theorem reached_keyed (host : ScheduleHost) (limit : Option Int) (es : List Event) :
    Keyed (reached host limit es) :=
  Runs.invariant (I := Keyed) (fun _ e hs _ => next_keyed host e hs)
    (Dict.all_empty _) (Runs.guarded_true _ es)

/-- What only an amendment changes about a schedule. -/
def SameRevision (r r' : ScheduleRecord) : Prop := r'.revisionId = r.revisionId ∧ r'.spec = r.spec

theorem SameRevision.refl (r : ScheduleRecord) : SameRevision r r := ⟨rfl, rfl⟩

theorem Write.same_revision (h : Write host e s t) (hcall : e.amends = false)
    {r : ScheduleRecord} (hget : s.schedules.get? k = some r) :
    ∃ r', t.schedules.get? k = some r' ∧ SameRevision r r' := by
  cases h with
  | create hid hnew => exact Dict.Evolves.add .refl hnew k r hget
  | status status at_ hold hlive hdrained =>
      exact Dict.Evolves.replace .refl hold ⟨rfl, rfl⟩ k r hget
  | amend env amendment hamends hold hlive hdrained =>
      rw [hcall] at hamends
      cases hamends
  | transfer env transfer hold hlive hdrained =>
      exact Dict.Evolves.replace .refl hold ⟨rfl, rfl⟩ k r hget
  | claim hclaim hkey hold hfence hnew hoccurrence hstatus hadmits hschedules =>
      obtain ⟨cursor, at_, hnext⟩ := claimed_schedule hold hschedules hget
      exact ⟨_, hnext, rfl, rfl⟩
  | _ => exact ⟨r, hget, .refl r⟩

theorem next_same_revision (host : ScheduleHost) (e : Event) (hcall : e.amends = false)
    {r : ScheduleRecord} (hget : s.schedules.get? k = some r) :
    ∃ r', (next host s e).schedules.get? k = some r' ∧ SameRevision r r' := by
  rcases next_writes host s e with h | h
  · exact ⟨r, by rw [h, hget], rfl, rfl⟩
  · exact h.same_revision hcall hget

/-- A claim that moves the cursor of a schedule. -/
structure CursorClaim (attempt : Attempt) (r r' : ScheduleRecord) (k : Key) (s t : Stores) :
    Prop where
  key_eq : k = key attempt.ctx attempt.request.scheduleId
  admissible : Admissible attempt r s
  cursor_eq : r'.nextFireAt = attempt.request.nextFireAt
  firing : ∃ logical firing, s.firings.get? ⟨k.scope, logical⟩ = none ∧
    t.firings.get? ⟨k.scope, logical⟩ = some firing ∧
    firing.scheduleId = attempt.request.scheduleId ∧
    firing.revisionId = attempt.request.revisionId ∧
    firing.nominalFireTime = attempt.request.nominalFireTime

/-- The cursor stays, or a claim moves it. -/
def CursorStep (e : Event) (k : Key) (s t : Stores) (r r' : ScheduleRecord) : Prop :=
  r'.nextFireAt = r.nextFireAt ∨ ∃ ctx request, e.call = .claimFiring ctx request ∧
    CursorClaim ⟨e.env, ctx, request⟩ r r' k s t

theorem Write.cursor_moves (h : Write host e s t) (hcall : e.amends = false)
    {r : ScheduleRecord} (hget : s.schedules.get? k = some r) :
    ∃ r', t.schedules.get? k = some r' ∧ CursorStep e k s t r r' := by
  have hrefl : ∀ t a, CursorStep e k s t a a := fun _ _ => .inl rfl
  cases h with
  | create hid hnew => exact Dict.Evolves.add (hrefl _) hnew k r hget
  | status status at_ hold hlive hdrained =>
      refine Dict.Evolves.replace (hrefl _) hold ?_ k r hget
      exact .inl rfl
  | amend env amendment hamends hold hlive hdrained =>
      rw [hcall] at hamends
      cases hamends
  | transfer env transfer hold hlive hdrained =>
      refine Dict.Evolves.replace (hrefl _) hold ?_ k r hget
      exact .inl rfl
  | @claim ctx request record logical nominal status submissionId durable schedules hclaim hkey hold
      hfence hnew hoccurrence hstatus hadmits hschedules =>
      rcases hschedules with rfl | rfl
      · exact ⟨r, hget, .inl rfl⟩
      · by_cases hk : key ctx request.scheduleId = k
        · subst hk
          obtain rfl : record = r := Option.some.inj (hold.symm.trans hget)
          refine ⟨_, Dict.get?_set_self _ _ _, .inr ⟨ctx, request, hclaim, rfl,
            ⟨hold, hfence, hoccurrence, ?_⟩, rfl, ?_⟩⟩
          · intro logical' hkey'
            obtain rfl := Except.ok.inj (hkey.symm.trans hkey')
            exact hnew
          · exact ⟨logical, _, hnew, Dict.get?_set_self _ _ _, rfl, rfl, rfl⟩
        · exact ⟨r, (Dict.get?_set_ne _ _ hk).trans hget, .inl rfl⟩
  | _ => exact ⟨r, hget, .inl rfl⟩

theorem next_cursor_moves (host : ScheduleHost) (e : Event) (hcall : e.amends = false)
    {r r' : ScheduleRecord} (hget : s.schedules.get? k = some r)
    (hget' : (next host s e).schedules.get? k = some r') :
    CursorStep e k s (next host s e) r r' := by
  rcases next_writes host s e with h | h
  · rw [h] at hget'
    obtain rfl := Option.some.inj (hget.symm.trans hget')
    exact .inl rfl
  · obtain ⟨found, hfound, hmoves⟩ := h.cursor_moves hcall hget
    obtain rfl := Option.some.inj (hfound.symm.trans hget')
    exact hmoves

theorem Event.amends_of_sparesCursors (hspares : e.sparesCursors = true) : e.amends = false := by
  unfold Event.sparesCursors at hspares
  unfold Event.amends
  split
  · rename_i hcall
    rw [hcall] at hspares
    cases hspares
  · rfl

theorem next_cursor_kept (host : ScheduleHost) (hspares : e.sparesCursors = true)
    {r r' : ScheduleRecord} (hget : s.schedules.get? k = some r)
    (hget' : (next host s e).schedules.get? k = some r') : r'.nextFireAt = r.nextFireAt := by
  rcases next_cursor_moves host e (Event.amends_of_sparesCursors hspares) hget hget' with
    h | ⟨ctx, request, hcall, -⟩
  · exact h
  · unfold Event.sparesCursors at hspares
    rw [hcall] at hspares
    cases hspares

/-! ## What the callers claim -/

/-- The claim is for the occurrence at the cursor and moves the cursor past it. -/
def TakesCursor (host : ScheduleHost) (request : ClaimRequest) (record : ScheduleRecord) : Prop :=
  ∃ cursor due, record.nextFireAt = some cursor ∧ host.fromisoformat cursor = some due ∧
    (∃ offset, request.nominalFireTime = host.isoformat ⟨due.instant, offset⟩) ∧
    MovesPast host record.spec due.instant request.nextFireAt

/-- Both spellings of the next occurrence, the scheduler's and the service's. -/
theorem movesPast_of_next {spec : ScheduleSpec} {due after : Instant} {next : Option Datetime}
    (hafter : due ≤ after) (h : nextFireAfter host spec after (some due) = .ok next) :
    MovesPast host spec due (next.map host.isoformat) ∧
      MovesPast host spec due (next.map fun t => host.iso t.instant) := by
  cases next with
  | none => exact ⟨.inr ⟨rfl, after, hafter, h⟩, .inr ⟨rfl, after, hafter, h⟩⟩
  | some t =>
      have hlater := lt_of_le_of_lt hafter (lt_nextFireAfter h)
      exact ⟨.inl ⟨t, isAware_nextFireAfter h, rfl, hlater⟩,
        .inl ⟨utc t.instant, isAware_utc _, rfl, hlater⟩⟩

theorem cursor_of_occurrenceError {expected : String} (h : occurrenceError request record = none)
    (hexpected : request.expectedNextFireAt = some expected) :
    record.nextFireAt = some expected := by
  unfold occurrenceError at h
  split at h
  · cases h
  · rename_i hsame
    rw [hexpected] at hsame
    simpa using hsame

/-- The compare-and-set of the scheduler: its claims are for the cursor, once
catching up starts there. -/
theorem Planned.takesCursor {rec : ScheduleRecord} {now : Instant} {j : Nat} {claim : PlannedClaim}
    {cursor : String} {due : Datetime} {service : SchedulerService} {fencingToken : Int}
    {metadata : List (String × Json)} (h : Planned host rec now j claim cursor due)
    (hspec : record.spec = rec.spec)
    (hstart : j = 0 → rec.spec.misfire = .catchUp → ∀ first rest,
      catchUpNominals host rec.spec (catchUpStart rec.spec due.instant) now = .ok (first :: rest) →
      first.instant = due.instant)
    (hoccurrence : occurrenceError
      (scheduledClaim host service rec claim fencingToken metadata) record = none) :
    TakesCursor host (scheduledClaim host service rec claim fencingToken metadata) record := by
  obtain ⟨after, hafter, hnext⟩ := h.next_eq
  rw [← hspec] at hnext
  have hmoves := (movesPast_of_next hafter hnext).1
  rcases h.origin with ⟨-, hnominal, hexpected⟩ | ⟨hmisfire, found, hfound, hget, -, hexpected⟩
  · have hcursor : record.nextFireAt = some cursor := by
      refine cursor_of_occurrenceError hoccurrence ?_
      unfold scheduledClaim
      cases hclaim : claim.expectedCursor with
      | none => exact h.cursor_eq
      | some expected =>
          rw [hclaim] at hexpected
          exact congrArg some hexpected
    rw [hnominal] at hmoves
    refine ⟨cursor, due, hcursor, h.due_eq, ⟨due.offset, ?_⟩, hmoves⟩
    show host.isoformat claim.nominal = host.isoformat due
    rw [hnominal]
  · have hcursor : record.nextFireAt =
        some (if j = 0 then cursor else host.isoformat claim.nominal) := by
      refine cursor_of_occurrenceError hoccurrence ?_
      unfold scheduledClaim
      rw [hexpected]
    by_cases hj : j = 0
    · -- The first occurrence that is caught up is the one at the cursor.
      subst hj
      rw [if_pos rfl] at hcursor
      obtain ⟨rest, rfl⟩ : ∃ rest, found = claim.nominal :: rest := by
        cases found with
        | nil => cases hget
        | cons t' rest => exact ⟨rest, by rw [Option.some.inj hget]⟩
      have hfirst := hstart rfl hmisfire claim.nominal rest hfound
      rw [hfirst] at hmoves
      refine ⟨cursor, due, hcursor, h.due_eq, ⟨claim.nominal.offset, ?_⟩, hmoves⟩
      show host.isoformat claim.nominal = host.isoformat ⟨due.instant, claim.nominal.offset⟩
      rw [← hfirst]
    · rw [if_neg hj] at hcursor
      have haware := isAware_of_catchUp hfound (List.mem_of_getElem? hget)
      exact ⟨_, claim.nominal, hcursor, host.fromisoformat_isoformat haware,
        ⟨claim.nominal.offset, rfl⟩, hmoves⟩

theorem externalClaim_scheduleId {rec : ScheduleRecord} {envelope : TriggerEnvelope}
    {now : Instant} (h : externalClaim host ctx rec envelope now = .ok request) :
    request.scheduleId = rec.scheduleId := by
  unfold externalClaim at h
  split at h
  · cases h
  · dsimp only at h
    split at h
    · cases h
    · obtain rfl := Except.ok.inj h
      rfl

theorem externalClaim_takesCursor {rec : ScheduleRecord} {envelope : TriggerEnvelope}
    {now : Instant} (h : externalClaim host ctx rec envelope now = .ok request)
    (hspec : record.spec = rec.spec) (hoccurrence : occurrenceError request record = none) :
    TakesCursor host request record := by
  unfold externalClaim at h
  split at h
  · cases h
  · rename_i hchecks
    obtain ⟨expected, due, hread, hdue, hinstant⟩ : ∃ expected due,
        rec.nextFireAt = some expected ∧ host.fromisoformat expected = some due ∧
          due.instant = envelope.scheduledAt := by
      unfold externalError at hchecks
      repeat' split at hchecks
      all_goals first | cases hchecks; done | skip
      rename_i expected hread _ due hdue hsame
      exact ⟨expected, due, hread, hdue, not_not.mp hsame⟩
    dsimp only at h
    split at h
    · cases h
    · rename_i nextFireAt hcursor
      obtain rfl := Except.ok.inj h
      have hrecord : record.nextFireAt = some expected :=
        cursor_of_occurrenceError hoccurrence hread
      unfold triggerCursor at hcursor
      rw [if_pos rfl] at hcursor
      split at hcursor
      · cases hcursor
      · rename_i next hnext
        obtain rfl := Except.ok.inj hcursor
        refine ⟨expected, due, hrecord, hdue, ⟨some 0, ?_⟩, ?_⟩
        · show host.iso envelope.scheduledAt = host.iso due.instant
          rw [hinstant]
        · rw [← hspec, ← hinstant] at hnext
          refine (movesPast_of_next ?_ hnext).2
          -- A skipped occurrence is not later than the clock.
          by_cases hskip : skipsMisfire record.spec due.instant now = true
          · rw [hskip]
            unfold skipsMisfire at hskip
            have : due.instant ≤ now := by
              simp only [Bool.or_eq_true, Bool.and_eq_true, decide_eq_true_eq] at hskip
              rcases hskip with ⟨-, hlt⟩ | ⟨-, hle⟩
              · exact le_of_lt hlt
              · exact hle
            simpa using this
          · simp [hskip]

/-! ## Sessions keep to the law -/

/-- The readings are of revisions that are still there. -/
structure Session.Current (σ : Session) : Prop where
  keyed : Keyed σ.stores
  readings : ∀ reading ∈ σ.readings, ∃ r,
    σ.stores.schedules.get? (key reading.ctx reading.record.scheduleId) = some r ∧
      SameRevision reading.record r

/-- A session before anything has been read. -/
def Session.start (s : Stores) : Session := ⟨s, []⟩

theorem Session.Current.next {σ : Session} (h : σ.Current) (hcall : e.amends = false) :
    Session.Current { σ with stores := Schedule.next host σ.stores e } := by
  refine ⟨next_keyed host e h.keyed, fun reading hmem => ?_⟩
  obtain ⟨r, hget, hsame⟩ := h.readings reading hmem
  obtain ⟨r', hget', hsame'⟩ := next_same_revision host e hcall hget
  exact ⟨r', hget', hsame'.1.trans hsame.1, hsame'.2.trans hsame.2⟩

theorem act_current (host : ScheduleHost) (σ : Session) (a : Action) (h : σ.Current) :
    (act host σ a).Current := by
  unfold act
  split
  · rename_i ctx scheduleId
    split
    · exact h
    · rename_i record hlive
      obtain ⟨hget, -⟩ := live?_eq_some hlive
      refine ⟨h.keyed, fun reading hmem => ?_⟩
      rcases List.mem_append.mp hmem with hmem | hmem
      · exact h.readings reading hmem
      · obtain rfl := List.mem_singleton.mp hmem
        have hid : record.scheduleId = scheduleId := h.keyed _ _ hget
        exact ⟨record, by rw [hid]; exact hget, rfl, rfl⟩
  · rename_i e spares
    exact h.next (Event.amends_of_sparesCursors spares)
  · split
    · exact h
    · exact h.next rfl

/-- A claim by readings at hand finds the revision that was read. -/
theorem Session.Current.spec_eq {σ : Session} (h : σ.Current) {i : Nat} {reading : Reading}
    (hreading : σ.readings[i]? = some reading)
    (hget : σ.stores.schedules.get? (key reading.ctx reading.record.scheduleId) = some record) :
    record.spec = reading.record.spec := by
  obtain ⟨r, hr, -, hspec⟩ := h.readings reading (List.mem_of_getElem? hreading)
  obtain rfl := Option.some.inj (hr.symm.trans hget)
  exact hspec

/-- What a claim must be like for its step to keep to the law. -/
theorem advances_of_claim {a : Action} {attempt : Attempt}
    (h : ∀ record, Admissible attempt record s →
      attempt.request.nextFireAt = record.nextFireAt ∨
        a.isManual = false ∧ TakesCursor host attempt.request record) :
    a.Advances host s (next host s ⟨attempt.env, .claimFiring attempt.ctx attempt.request⟩) := by
  intro k r r' hget hget'
  rcases next_cursor_moves host _ rfl hget hget' with hkept | ⟨ctx, request, hcall, hclaim⟩
  · exact .inl hkept
  · cases hcall
    obtain ⟨rfl, hadmissible, hcursor, logical, firing, hnone, hsome, hid, hrevision, hnominal⟩ := hclaim
    rcases h r hadmissible with hsame | ⟨hmanual, cursor, due, hread, hdue, hname, hmoves⟩
    · exact .inl (hcursor.trans hsame)
    · obtain ⟨-, hfence⟩ := fenceError_eq_none hadmissible.fence
      refine .inr ⟨hmanual, cursor, due, hread, hdue,
        ⟨logical, firing, hnone, hsome, hid, hrevision.trans hfence.symm, ?_⟩, ?_⟩
      · rw [hnominal]
        exact hname
      · rw [hcursor]
        exact hmoves

theorem advances_refl (a : Action) (s : Stores) : a.Advances host s s := by
  intro k r r' hget hget'
  obtain rfl := Option.some.inj (hget.symm.trans hget')
  exact .inl rfl

theorem act_advances (host : ScheduleHost) (σ : Session) (a : Action) (h : σ.Current)
    (hcursor : a.OnCursor host σ) : a.Advances host σ.stores (act host σ a).stores := by
  cases a with
  | read ctx scheduleId =>
      unfold act
      dsimp only
      split <;> exact advances_refl _ _
  | other e spares =>
      intro k r r' hget hget'
      exact .inl (next_cursor_kept host spares hget hget')
  | poll env service i now j fencingToken metadata =>
      cases hattempt : (Action.poll env service i now j fencingToken metadata).attempt host
          σ.readings with
      | none =>
          unfold act
          simp only [hattempt]
          exact advances_refl _ _
      | some attempt =>
          unfold act
          simp only [hattempt]
          refine advances_of_claim fun record hadmissible => .inr ⟨rfl, ?_⟩
          have hstart := hcursor attempt record hattempt hadmissible
          simp only [Action.attempt] at hattempt
          split at hattempt
          · cases hattempt
          · rename_i reading hreading
            split at hattempt
            · cases hattempt
            · rename_i plan hplan
              split at hattempt
              · rename_i claim hclaim
                obtain rfl := Option.some.inj hattempt
                obtain ⟨cursor, due, hplanned⟩ := firePlan_planned hplan hclaim
                refine hplanned.takesCursor (h.spec_eq hreading hadmissible.current) ?_
                  hadmissible.occurrence
                intro hj hmisfire first rest hfound
                exact hstart hj reading cursor due first rest hreading hmisfire hplanned.cursor_eq
                  hplanned.due_eq hfound
              · cases hattempt
  | manual env gateway i at_ =>
      cases hattempt : (Action.manual env gateway i at_).attempt host σ.readings with
      | none =>
          unfold act
          simp only [hattempt]
          exact advances_refl _ _
      | some attempt =>
          unfold act
          simp only [hattempt]
          exact advances_of_claim fun record hadmissible =>
            .inl (hcursor attempt record hattempt hadmissible)
  | external env i envelope now =>
      cases hattempt : (Action.external env i envelope now).attempt host σ.readings with
      | none =>
          unfold act
          simp only [hattempt]
          exact advances_refl _ _
      | some attempt =>
          unfold act
          simp only [hattempt]
          refine advances_of_claim fun record hadmissible => .inr ⟨rfl, ?_⟩
          simp only [Action.attempt] at hattempt
          split at hattempt
          · cases hattempt
          · rename_i reading hreading
            split at hattempt
            · cases hattempt
            · rename_i request hrequest
              obtain rfl := Option.some.inj hattempt
              refine externalClaim_takesCursor hrequest ?_ hadmissible.occurrence
              refine h.spec_eq hreading ?_
              rw [← externalClaim_scheduleId hrequest]
              exact hadmissible.current

/-- In every session whose manual triggers pass on the cursor the schedule has, and
whose catching up starts at the cursor, a cursor moves only past the occurrence
that is claimed, and no manual trigger moves it. -/
theorem cursor_advances (host : ScheduleHost) (limit : Option Int) (es : List Event)
    (actions : List Action)
    (h : Runs.Guarded (act host) (fun σ a => a.OnCursor host σ)
      (.start (reached host limit es)) actions) :
    Runs.Guarded (act host) (fun σ a => a.Advances host σ.stores (act host σ a).stores)
      (.start (reached host limit es)) actions := by
  have hstart : (Session.start (reached host limit es)).Current :=
    ⟨reached_keyed host limit es, fun _ hmem => nomatch hmem⟩
  exact Runs.Guarded.along (I := Session.Current) (fun σ a hcurrent _ => act_current host σ a hcurrent)
    (fun σ a hcurrent hcursor => act_advances host σ a hcurrent hcursor) hstart h

/-! ## Stale and gateway triggers -/

def sampleLeader : Event :=
  ⟨sampleScheduleEnv 'l', .acquireLeaderLease Durable.sampleContext "scheduler-1" 30⟩

theorem sampleLeader_spares : sampleLeader.sparesCursors = true := rfl

/-- The claim of the first minute, by a scheduler that read the schedule before. -/
def samplePoll : Action :=
  .poll (sampleScheduleEnv 'p') sampleScheduler 0 (seconds 60) 0 1 []

/-- A manual trigger at the fifth minute. -/
def sampleTrigger (gateway : Gateway) (reading : Nat) : Action :=
  .manual (sampleScheduleEnv 't') gateway reading (seconds 300)

def sampleRead : Action := .read Durable.sampleContext "nightly"

/-- A session in which the schedule is triggered after the scheduler has moved its cursor. -/
def sampleSession (trigger : Action) : List Action :=
  [sampleRead, .other sampleLeader sampleLeader_spares, samplePoll, sampleRead, trigger]

def sampleStart : Session :=
  .start (reached sampleScheduleHost none [sampleCreated (sampleSpec .fireOnce .queue)])

/-- The cursor after some actions of a sample session. -/
def sampleCursor (actions : List Action) : Option (Option String) :=
  ((Runs.run (act sampleScheduleHost) sampleStart actions).stores.schedules.get?
    (key Durable.sampleContext "nightly")).map (·.nextFireAt)

theorem not_advances_of_moved {a : Action} (hmanual : a.isManual = true) {cursor cursor' : Option String}
    (hs : (s.schedules.get? k).map (·.nextFireAt) = some cursor)
    (ht : (t.schedules.get? k).map (·.nextFireAt) = some cursor') (hne : cursor' ≠ cursor) :
    ¬ a.Advances host s t := by
  intro h
  obtain ⟨r, hr, hcursor⟩ := Option.map_eq_some_iff.mp hs
  obtain ⟨r', hr', hcursor'⟩ := Option.map_eq_some_iff.mp ht
  rcases h k r r' hr hr' with hsame | ⟨hother, -⟩
  · exact hne (by rw [← hcursor, ← hcursor', hsame])
  · rw [hmanual] at hother
    cases hother

theorem sampleCursor_polled :
    sampleCursor [sampleRead, .other sampleLeader sampleLeader_spares, samplePoll, sampleRead] =
      some (some (sampleStamp 2)) := by
  decide +kernel

/-- A managed trigger by the reading from before the poll puts the cursor back, and
one without a managed service clears it. -/
theorem manual_trigger_moves_cursor :
    (¬ Runs.Guarded (act sampleScheduleHost)
      (fun σ a => a.Advances sampleScheduleHost σ.stores (act sampleScheduleHost σ a).stores)
      sampleStart (sampleSession (sampleTrigger .managed 0))) ∧
    ¬ Runs.Guarded (act sampleScheduleHost)
      (fun σ a => a.Advances sampleScheduleHost σ.stores (act sampleScheduleHost σ a).stores)
      sampleStart (sampleSession (sampleTrigger (.unmanaged true) 1)) := by
  have hback : sampleCursor (sampleSession (sampleTrigger .managed 0)) =
      some (some (sampleStamp 1)) := by decide +kernel
  have hcleared : sampleCursor (sampleSession (sampleTrigger (.unmanaged true) 1)) =
      some none := by decide +kernel
  constructor
  · intro h
    exact not_advances_of_moved rfl sampleCursor_polled hback (by decide +kernel) h.2.2.2.2.1
  · intro h
    exact not_advances_of_moved rfl sampleCursor_polled hcleared (by decide +kernel) h.2.2.2.2.1

/-- A managed trigger by a reading of the cursor as it is. -/
theorem cursor_advances_triggered :
    Runs.Guarded (act sampleScheduleHost)
      (fun σ a => a.Advances sampleScheduleHost σ.stores (act sampleScheduleHost σ a).stores)
      sampleStart (sampleSession (sampleTrigger .managed 1)) := by
  have hnone : ∀ {a : Action} {σ : Session}, a.attempt sampleScheduleHost σ.readings = none →
      a.OnCursor sampleScheduleHost σ := by
    intro a σ hnone attempt record hattempt
    rw [hnone] at hattempt
    cases hattempt
  refine cursor_advances sampleScheduleHost none [sampleCreated (sampleSpec .fireOnce .queue)] _
    ⟨hnone rfl, hnone rfl, ?_, hnone rfl, ?_, trivial⟩
  · intro attempt record hattempt hadmissible hfirst reading cursor due first rest hreading hmisfire
    -- The schedule does not catch up.
    have hpolicy : ((act sampleScheduleHost (act sampleScheduleHost sampleStart sampleRead)
        (.other sampleLeader sampleLeader_spares)).readings[0]?).map (·.record.spec.misfire) = some .fireOnce := by
      decide +kernel
    obtain ⟨found, hfound, hpolicy⟩ := Option.map_eq_some_iff.mp hpolicy
    obtain rfl := Option.some.inj (hfound.symm.trans hreading)
    rw [hpolicy] at hmisfire
    cases hmisfire
  · intro attempt record hattempt hadmissible
    show attempt.request.nextFireAt = record.nextFireAt
    have hrequest : ((sampleTrigger .managed 1).attempt sampleScheduleHost
        (Runs.run (act sampleScheduleHost) sampleStart
          [sampleRead, .other sampleLeader sampleLeader_spares, samplePoll, sampleRead]).readings).map
        (fun attempt => (key attempt.ctx attempt.request.scheduleId, attempt.request.nextFireAt)) =
          some (key Durable.sampleContext "nightly", some (sampleStamp 2)) := by
      decide +kernel
    obtain ⟨found, hfound, hfields⟩ := Option.map_eq_some_iff.mp hrequest
    obtain rfl := Option.some.inj (hfound.symm.trans hattempt)
    simp only [Prod.mk.injEq] at hfields
    obtain ⟨r, hr, hcursor⟩ := Option.map_eq_some_iff.mp sampleCursor_polled
    have hcurrent := hadmissible.current
    rw [hfields.1] at hcurrent
    obtain rfl := Option.some.inj (hr.symm.trans hcurrent)
    rw [hfields.2, hcursor]

end Etlantic.ControlPlane.Schedule
