import Etlantic.ControlPlane.Schedule.Cursor

/-!
# Progress of a due schedule

A tick leaves a due schedule with a later cursor, or with none, exactly when it
plans a claim for it and no firing is stored for the first occurrence it plans.
-/

namespace Etlantic.ControlPlane.Schedule

open Durable (Key key Env)

variable {host : ScheduleHost} {env : Env} {ctx : ControlPlaneContext} {s t : Stores} {k : Key}
  {record rec : ScheduleRecord} {request : ClaimRequest} {service : SchedulerService}
  {claim : PlannedClaim} {fencingToken : Int} {now : Instant}

/-! ## Callbacks leave the schedules alone -/

theorem next_schedules_spared {e : Event} (h : e.sparesSchedules = true) :
    (next host s e).schedules = s.schedules := by
  rcases next_spared h with ⟨call, hcall⟩ | ⟨firings, hnext⟩
  · unfold next
    rw [hcall]
    rfl
  · rw [hnext]

theorem Write.firing_absent {e : Event} (h : Write host e s t) (hspares : e.sparesSchedules = true)
    (hnone : s.firings.get? k = none) : t.firings.get? k = none := by
  cases h with
  | claim hcall hkey hget hfence hnew hoccurrence hstatus hadmits hschedules =>
      unfold Event.sparesSchedules at hspares
      rw [hcall] at hspares
      cases hspares
  | @firing k' old new hget hmove =>
      have hne : k' ≠ k := by
        rintro rfl
        rw [hnone] at hget
        cases hget
      exact (Dict.get?_set_ne _ _ hne).trans hnone
  | _ => exact hnone

theorem Reply.guarded {α : Type} (reply : Reply α) (s : Stores) :
    Runs.Guarded (next host) (fun _ e => e.sparesSchedules = true) s reply.calls := by
  refine Runs.guarded_iff.mpr fun before e after hcalls => reply.spares e ?_
  rw [hcalls]
  exact List.mem_append_right _ List.mem_cons_self

theorem Reply.schedules_eq {α : Type} (reply : Reply α) (s : Stores) :
    (reply.stores host s).schedules = s.schedules :=
  Runs.invariant (I := fun t : Stores => t.schedules = s.schedules)
    (fun _ _ hs he => (next_schedules_spared he).trans hs) rfl (reply.guarded s)

theorem Reply.firing_absent_iff {α : Type} (reply : Reply α) (s : Stores) :
    (reply.stores host s).firings.get? k = none ↔ s.firings.get? k = none := by
  constructor
  · intro hnone
    cases hget : s.firings.get? k with
    | none => rfl
    | some firing =>
        obtain ⟨firing', hget', -⟩ := run_firing_kept host reply.calls hget
        rw [show (reply.stores host s).firings.get? k = some firing' from hget'] at hnone
        cases hnone
  · intro hnone
    refine Runs.invariant (I := fun t : Stores => t.firings.get? k = none) (fun t e ht he => ?_) hnone
      (reply.guarded s)
    rcases next_writes host t e with hsame | hwrite
    · rw [hsame, ht]
    · exact hwrite.firing_absent he ht

/-! ## One claim -/

variable (host env ctx request record s) in
theorem claimNew_schedules (logical : String) :
    (claimNew host env ctx request record logical s).stores.schedules = s.schedules ∧
        (claimNew host env ctx request record logical s).result.toBool = false ∨
      ∃ at_, (claimNew host env ctx request record logical s).stores.schedules =
        s.schedules.set (key ctx request.scheduleId)
          { record with nextFireAt := request.nextFireAt, updatedAt := at_ } := by
  have hstore : ∀ (firing : FiringRecord) (s' : Stores), s'.schedules = s.schedules →
      (storeClaim host env ctx request record logical firing s').stores.schedules = s.schedules ∧
          (storeClaim host env ctx request record logical firing s').result.toBool = false ∨
        ∃ at_, (storeClaim host env ctx request record logical firing s').stores.schedules =
          s.schedules.set (key ctx request.scheduleId)
            { record with nextFireAt := request.nextFireAt, updatedAt := at_ } := by
    intro firing s' hs
    unfold storeClaim
    dsimp only
    split
    · exact .inl ⟨hs, rfl⟩
    · rename_i updated hcheck
      obtain rfl := checkSchedule_eq_ok hcheck
      exact .inr ⟨env.now [3], by rw [← hs]; rfl⟩
  unfold claimNew
  split
  · exact .inl ⟨rfl, rfl⟩
  · split
    · exact .inl ⟨rfl, rfl⟩
    · split
      · exact .inl ⟨rfl, rfl⟩
      · split
        · exact .inl ⟨rfl, rfl⟩
        · dsimp only
          split
          · split
            · exact .inl ⟨rfl, rfl⟩
            · exact hstore _ _ rfl
          · exact hstore _ _ rfl

variable (host env ctx request s) in
/-- A claim that succeeds without moving the cursor has found a firing. -/
theorem claimFiring_schedules :
    ((claimFiring host env ctx request s).stores.schedules = s.schedules ∧
        ((claimFiring host env ctx request s).result.toBool = true → ∃ logical firing,
          firingKey request.scheduleId request.revisionId request.nominalFireTime = .ok logical ∧
            s.firings.get? (key ctx logical) = some firing)) ∨
      ∃ record at_, s.schedules.get? (key ctx request.scheduleId) = some record ∧
        (claimFiring host env ctx request s).stores.schedules =
          s.schedules.set (key ctx request.scheduleId)
            { record with nextFireAt := request.nextFireAt, updatedAt := at_ } := by
  unfold claimFiring
  split
  · exact .inl ⟨rfl, fun h => by cases h⟩
  · rename_i logical hkey
    split
    · exact .inl ⟨rfl, fun h => by cases h⟩
    · split
      · exact .inl ⟨rfl, fun h => by cases h⟩
      · rename_i record hget
        split
        · exact .inl ⟨rfl, fun h => by cases h⟩
        · split
          · rename_i firing hfiring
            exact .inl ⟨rfl, fun _ => ⟨logical, firing, hkey, hfiring⟩⟩
          · split
            · exact .inl ⟨rfl, fun h => by cases h⟩
            · rcases claimNew_schedules host env ctx s record request logical with
                ⟨hsame, hfails⟩ | ⟨at_, hset⟩
              · refine .inl ⟨hsame, fun h => ?_⟩
                rw [hfails] at h
                cases h
              · exact .inr ⟨record, at_, hget, hset⟩

/-! ## Errors that are not swallowed -/

theorem cursorError_some {cursor : Option String} {error : PyError}
    (h : cursorError host cursor = some error) : isFireConflict error = false := by
  unfold cursorError at h
  repeat' split at h
  all_goals first | cases h; rfl | cases h

theorem checkSchedule_error {error : PyError} (h : checkSchedule host record = .error error) :
    isFireConflict error = false := by
  unfold checkSchedule at h
  split at h
  · rename_i blank hblank
    obtain rfl := Except.error.inj h
    obtain ⟨_, -, rfl⟩ := Option.map_eq_some_iff.mp hblank
    rfl
  · split at h
    · cases h
      rfl
    · split at h
      · cases h
        rfl
      · split at h
        · cases h
          rfl
        · split at h
          · cases h
            rfl
          · split at h
            · rename_i hcursor
              obtain rfl := Except.error.inj h
              exact cursorError_some hcursor
            · cases h

theorem accept_error {host : Durable.Host} {request : Durable.AcceptRequest} {s : Durable.Store}
    {error : PyError} (h : (Durable.accept host env ctx request s).result = .error error) :
    isFireConflict error = false := by
  unfold Durable.accept at h
  split at h
  · rename_i invalid hinvalid
    obtain rfl := Except.error.inj h
    unfold Durable.AcceptRequest.invalid at hinvalid
    repeat' split at hinvalid
    all_goals first | cases hinvalid; rfl | cases hinvalid
  · split at h
    · split at h
      · cases h
        rfl
      · unfold Durable.replayAccept at h
        repeat' split at h
        all_goals first | cases h; rfl | cases h
    · dsimp only at h
      repeat' split at h
      all_goals first | cases h; rfl | cases h

theorem claimNew_error {logical : String} {error : PyError}
    (h : (claimNew host env ctx request record logical s).result = .error error) :
    isFireConflict error = false := by
  have hstore : ∀ (firing : FiringRecord) (s' : Stores),
      (storeClaim host env ctx request record logical firing s').result = .error error →
        isFireConflict error = false := by
    intro firing s' h
    unfold storeClaim at h
    dsimp only at h
    split at h
    · rename_i hcheck
      obtain rfl := Except.error.inj h
      exact checkSchedule_error hcheck
    · cases h
  unfold claimNew at h
  split at h
  · cases h
    rfl
  · split at h
    · rename_i hstatus
      obtain rfl := Except.error.inj h
      unfold occurrenceStatus at hstatus
      repeat' split at hstatus
      all_goals first | cases hstatus; rfl | cases hstatus
    · split at h
      · rename_i hpayload
        obtain rfl := Except.error.inj h
        unfold payloadError at hpayload
        split at hpayload
        · cases hpayload
        · cases hpayload
          rfl
      · split at h
        · rename_i hfiring
          obtain rfl := Except.error.inj h
          unfold firingError at hfiring
          split at hfiring
          · rename_i hblank
            obtain ⟨_, -, hmessage⟩ := Option.map_eq_some_iff.mp hblank
            obtain rfl := Option.some.inj hfiring
            rw [← hmessage]
            rfl
          · repeat' split at hfiring
            all_goals first | cases hfiring; rfl | cases hfiring
        · dsimp only at h
          split at h
          · split at h
            · rename_i haccept
              obtain rfl := Except.error.inj h
              exact accept_error haccept
            · exact hstore _ _ h
          · exact hstore _ _ h

/-- A claim of a schedule that is as it was read raises no conflict of that kind. -/
theorem claimFiring_error {error : PyError}
    (hget : s.schedules.get? (key ctx request.scheduleId) = some record)
    (hfence : fenceError request record = none)
    (hoccurrence : occurrenceError request record = none)
    (h : (claimFiring host env ctx request s).result = .error error) :
    isFireConflict error = false := by
  unfold claimFiring at h
  split at h
  · rename_i hkey
    obtain rfl := Except.error.inj h
    unfold firingKey at hkey
    dsimp only at hkey
    split at hkey
    · cases hkey
      rfl
    · cases hkey
  · split at h
    · rename_i hleader
      obtain rfl := Except.error.inj h
      unfold leaderError Stores.requireLeader at hleader
      repeat' split at hleader
      all_goals first | cases hleader; done | skip
      rename_i hlease
      obtain rfl := Option.some.inj hleader
      repeat' split at hlease
      all_goals first | cases hlease; rfl | cases hlease
    · rw [hget] at h
      dsimp only at h
      rw [hfence] at h
      dsimp only at h
      split at h
      · cases h
      · rw [hoccurrence] at h
        exact claimNew_error h

/-! ## One planned claim -/

variable (host service env ctx rec claim fencingToken s) in
/-- A planned claim changes the schedules as its claim does, or not at all. -/
theorem claimScheduledFiring_schedules :
    (∃ metadata s', s'.schedules = s.schedules ∧
      (∀ k, s'.firings.get? k = none ↔ s.firings.get? k = none) ∧
      (claimScheduledFiring host service env ctx rec claim fencingToken s).stores.schedules =
        (claimFiring host env ctx
          (scheduledClaim host service rec claim fencingToken metadata) s').stores.schedules ∧
      ((claimScheduledFiring host service env ctx rec claim fencingToken s).result.toBool = true →
        ∀ error, (claimFiring host env ctx
          (scheduledClaim host service rec claim fencingToken metadata) s').result = .error error →
            isFireConflict error = true)) ∨
    (claimScheduledFiring host service env ctx rec claim fencingToken s).stores.schedules =
        s.schedules ∧
      (claimScheduledFiring host service env ctx rec claim fencingToken s).result.toBool = false := by
  unfold claimScheduledFiring
  dsimp only
  generalize (if service.managed = true then (Reply.pure [] : Reply (List (String × Json))) else
    service.occurrencePreparer (occurrenceContext ctx rec) rec (host.isoformat claim.nominal) s) =
      prepared
  split
  · exact .inr ⟨prepared.schedules_eq s, rfl⟩
  · rename_i metadata hprepared
    refine .inl ⟨metadata, prepared.stores host s, prepared.schedules_eq s,
      fun _ => prepared.firing_absent_iff s, ?_⟩
    generalize claimFiring host env ctx
      (scheduledClaim host service rec claim fencingToken metadata) (prepared.stores host s) = claimed
    split
    · rename_i error herror
      split
      · rename_i hconflict
        refine ⟨rfl, fun _ error' herror' => ?_⟩
        obtain rfl := Except.error.inj (herror.symm.trans herror')
        exact hconflict
      · exact ⟨rfl, fun h => by cases h⟩
    · rename_i firing created hclaimed
      have hnoError : ∀ error, claimed.result = .error error → isFireConflict error = true := by
        intro error herror
        rw [hclaimed] at herror
        cases herror
      split
      · generalize service.submitFiring (occurrenceContext ctx rec) rec firing claimed.stores =
          submitted
        have hspared : (submitted.stores host claimed.stores).schedules = claimed.stores.schedules :=
          submitted.schedules_eq claimed.stores
        split
        · exact ⟨hspared, fun h => by cases h⟩
        · exact ⟨hspared, fun _ => hnoError⟩
      · exact ⟨rfl, fun _ => hnoError⟩

/-- A planned claim touches only its own schedule. -/
theorem claimScheduledFiring_frame (hk : k ≠ key ctx rec.scheduleId) :
    (claimScheduledFiring host service env ctx rec claim fencingToken s).stores.schedules.get? k =
      s.schedules.get? k := by
  rcases claimScheduledFiring_schedules host env ctx s rec service claim fencingToken with
    ⟨metadata, s', hsame, -, hclaim, -⟩ | ⟨hsame, -⟩
  · rw [hclaim, ← hsame]
    rcases claimFiring_schedules host env ctx s'
      (scheduledClaim host service rec claim fencingToken metadata) with
      ⟨hkept, -⟩ | ⟨record, at_, -, hset⟩
    · rw [hkept]
    · rw [hset]
      exact Dict.get?_set_ne _ _ fun h => hk h.symm
  · rw [hsame]

variable (host service env ctx rec claim fencingToken) in
/-- A planned claim keeps the cursor, or moves it from the one it expects to the next. -/
theorem claimScheduledFiring_cursor {r : ScheduleRecord} (hget : s.schedules.get? k = some r) :
    ∃ r', (claimScheduledFiring host service env ctx rec claim fencingToken s).stores.schedules.get?
        k = some r' ∧
      (r'.nextFireAt = r.nextFireAt ∨ r'.nextFireAt = claim.nextFireAt.map host.isoformat ∧
        (∀ expected, claim.expectedCursor = some expected → r.nextFireAt = some expected) ∧
        ∀ logical, firingKey rec.scheduleId rec.revisionId (host.isoformat claim.nominal) =
          .ok logical → s.firings.get? (key ctx logical) = none) := by
  rcases claimScheduledFiring_schedules host env ctx s rec service claim fencingToken with
    ⟨metadata, s', hsame, habsent, hclaim, -⟩ | ⟨hsame, -⟩
  · have hget' : s'.schedules.get? k = some r := by rw [hsame, hget]
    let e : Event :=
      ⟨env, .claimFiring ctx (scheduledClaim host service rec claim fencingToken metadata)⟩
    obtain ⟨r', hnext, -⟩ := next_same_revision host e rfl hget'
    refine ⟨r', by rw [hclaim]; exact hnext, ?_⟩
    rcases next_cursor_moves host e rfl hget' hnext with hkept | ⟨ctx', request, hcall, hmoves⟩
    · exact .inl hkept
    · cases hcall
      refine .inr ⟨hmoves.cursor_eq, fun expected hexpected => ?_, fun logical hlogical => ?_⟩
      · refine cursor_of_occurrenceError hmoves.admissible.occurrence ?_
        unfold scheduledClaim
        rw [hexpected]
      · exact (habsent _).mp (hmoves.admissible.fresh logical hlogical)
  · exact ⟨r, by rw [hsame, hget], .inl rfl⟩

variable (host service fencingToken) in
theorem scheduledClaim_current {cursor : String} (metadata : List (String × Json))
    (hactive : rec.status = .active) (howner : rec.timerOwner = .local)
    (hcursor : rec.nextFireAt = some cursor)
    (hexpected : claim.expectedCursor.getD cursor = cursor) :
    fenceError (scheduledClaim host service rec claim fencingToken metadata) rec = none ∧
      occurrenceError (scheduledClaim host service rec claim fencingToken metadata) rec = none := by
  have hread : (scheduledClaim host service rec claim fencingToken metadata).expectedNextFireAt =
      some cursor := by
    unfold scheduledClaim
    cases hclaim : claim.expectedCursor with
    | none => exact hcursor
    | some expected =>
        rw [hclaim] at hexpected
        exact congrArg some hexpected
  constructor
  · simp [fenceError, scheduledClaim, hactive, howner]
  · unfold occurrenceError
    rw [hread]
    simp [hactive, hcursor]

/-- The first claim of a plan moves the cursor of the schedule that was read, unless
it finds a firing or raises. -/
theorem claimScheduledFiring_first {cursor logical : String}
    (hget : s.schedules.get? (key ctx rec.scheduleId) = some rec)
    (hactive : rec.status = .active) (howner : rec.timerOwner = .local)
    (hcursor : rec.nextFireAt = some cursor)
    (hexpected : claim.expectedCursor.getD cursor = cursor)
    (hlogical : firingKey rec.scheduleId rec.revisionId (host.isoformat claim.nominal) = .ok logical)
    (hnone : s.firings.get? (key ctx logical) = none)
    (hok : (claimScheduledFiring host service env ctx rec claim fencingToken s).result.toBool = true) :
    ∃ r', (claimScheduledFiring host service env ctx rec claim fencingToken s).stores.schedules.get?
        (key ctx rec.scheduleId) = some r' ∧ r'.nextFireAt = claim.nextFireAt.map host.isoformat := by
  rcases claimScheduledFiring_schedules host env ctx s rec service claim fencingToken with
    ⟨metadata, s', hsame, habsent, hclaim, hswallowed⟩ | ⟨-, hfails⟩
  · obtain ⟨hfence, hoccurrence⟩ := scheduledClaim_current host service fencingToken
      metadata hactive howner hcursor hexpected
    have hget' : s'.schedules.get? (key ctx rec.scheduleId) = some rec := by rw [hsame, hget]
    have hclaimed : (claimFiring host env ctx
        (scheduledClaim host service rec claim fencingToken metadata) s').result.toBool = true := by
      cases hresult : (claimFiring host env ctx
        (scheduledClaim host service rec claim fencingToken metadata) s').result with
      | ok value => rfl
      | error error =>
          have hconflict := hswallowed hok error hresult
          rw [claimFiring_error hget' hfence hoccurrence hresult] at hconflict
          cases hconflict
    rw [hclaim]
    rcases claimFiring_schedules host env ctx s'
      (scheduledClaim host service rec claim fencingToken metadata) with
      ⟨-, hfound⟩ | ⟨record, at_, -, hset⟩
    · obtain ⟨logical', firing, hkey, hfiring⟩ := hfound hclaimed
      obtain rfl := Except.ok.inj (hlogical.symm.trans hkey)
      rw [(habsent _).mpr hnone] at hfiring
      cases hfiring
    · rw [hset]
      exact ⟨_, Dict.get?_set_self _ _ _, rfl⟩
  · rw [hfails] at hok
    cases hok

/-! ## A whole plan -/

/-- A fact that every claim of a plan keeps. -/
theorem firePlanned_kept {P : Stores → Prop} {plan : List (Except PyError PlannedClaim)}
    (hstep : ∀ claim, .ok claim ∈ plan → ∀ env s, P s →
      P (claimScheduledFiring host service env ctx rec claim fencingToken s).stores)
    (envs : Nat → Env) (i : Nat) (hs : P s) :
    P (firePlanned host service envs ctx rec fencingToken plan i s).stores := by
  induction plan generalizing i s with
  | nil => exact hs
  | cons planned rest ih =>
      cases planned with
      | error error => exact hs
      | ok claim =>
          have hclaimed := hstep claim List.mem_cons_self (envs i) s hs
          unfold firePlanned
          dsimp only
          split
          · exact hclaimed
          · have hrest := ih (fun claim hmem => hstep claim (List.mem_cons_of_mem _ hmem)) (i + 1)
              hclaimed
            split
            · exact hrest
            · exact hrest

/-- A plan that succeeds has succeeded with its first claim. -/
theorem firePlanned_cons {rest : List (Except PyError PlannedClaim)} {envs : Nat → Env} {i : Nat}
    (hok : (firePlanned host service envs ctx rec fencingToken (.ok claim :: rest) i
      s).result.toBool = true) :
    (claimScheduledFiring host service (envs i) ctx rec claim fencingToken s).result.toBool = true ∧
      (firePlanned host service envs ctx rec fencingToken (.ok claim :: rest) i s).stores =
        (firePlanned host service envs ctx rec fencingToken rest (i + 1)
          (claimScheduledFiring host service (envs i) ctx rec claim fencingToken
            s).stores).stores := by
  rw [firePlanned] at hok ⊢
  dsimp only at hok ⊢
  cases hclaimed : (claimScheduledFiring host service (envs i) ctx rec claim fencingToken s).result with
  | error error =>
      rw [hclaimed] at hok
      cases hok
  | ok created =>
      refine ⟨rfl, ?_⟩
      dsimp only
      split <;> rfl

theorem fireDue_frame (hk : k ≠ key ctx rec.scheduleId) (envs : Nat → Env) (s : Stores) :
    (fireDue host service envs ctx rec now fencingToken s).stores.schedules.get? k =
      s.schedules.get? k := by
  unfold fireDue
  split
  · rfl
  · exact firePlanned_kept (P := fun t => t.schedules.get? k = s.schedules.get? k)
      (fun claim _ env t ht => (claimScheduledFiring_frame hk).trans ht) envs 0 rfl

/-- The cursor is gone or lies past an instant. -/
def CursorPast (host : ScheduleHost) (due : Instant) (r : ScheduleRecord) : Prop :=
  ∀ cursor, r.nextFireAt = some cursor →
    ∃ later, host.fromisoformat cursor = some later ∧ due < later.instant

/-- The occurrence a claim passes on is later, if there is one. -/
def LeadsPast (due : Instant) (next : Option Datetime) : Prop :=
  ∀ t, next = some t → t.IsAware ∧ due < t.instant

theorem cursorPast_of_next {due : Instant} {r : ScheduleRecord} {next : Option Datetime}
    (hcursor : r.nextFireAt = next.map host.isoformat) (hnext : LeadsPast due next) :
    CursorPast host due r := by
  intro cursor hread
  rw [hcursor] at hread
  obtain ⟨t, ht, rfl⟩ := Option.map_eq_some_iff.mp hread
  obtain ⟨haware, hlater⟩ := hnext t ht
  exact ⟨t, host.fromisoformat_isoformat haware, hlater⟩

theorem claimScheduledFiring_past {due : Instant} (hnext : LeadsPast due claim.nextFireAt)
    (h : ∃ r, s.schedules.get? k = some r ∧ CursorPast host due r) :
    ∃ r, (claimScheduledFiring host service env ctx rec claim fencingToken s).stores.schedules.get?
      k = some r ∧ CursorPast host due r := by
  obtain ⟨r, hget, hpast⟩ := h
  obtain ⟨r', hget', hkept | ⟨hmoved, -⟩⟩ := claimScheduledFiring_cursor host env ctx
    rec service claim fencingToken hget
  · refine ⟨r', hget', fun cursor hread => hpast cursor ?_⟩
    rw [← hkept, hread]
  · exact ⟨r', hget', cursorPast_of_next hmoved hnext⟩

/-- A claim that expects a later cursor leaves the cursor alone. -/
theorem claimScheduledFiring_stuck {cursor : String} {due later : Datetime}
    (hdue : host.fromisoformat cursor = some due) (haware : later.IsAware)
    (hexpected : claim.expectedCursor = some (host.isoformat later))
    (hlater : due.instant < later.instant)
    (h : ∃ r, s.schedules.get? k = some r ∧ r.nextFireAt = some cursor) :
    ∃ r, (claimScheduledFiring host service env ctx rec claim fencingToken s).stores.schedules.get?
      k = some r ∧ r.nextFireAt = some cursor := by
  obtain ⟨r, hget, hcursor⟩ := h
  obtain ⟨r', hget', hkept | ⟨-, hread, -⟩⟩ := claimScheduledFiring_cursor host env ctx
    rec service claim fencingToken hget
  · exact ⟨r', hget', hkept.trans hcursor⟩
  · obtain rfl : cursor = host.isoformat later :=
      Option.some.inj (hcursor.symm.trans (hread _ hexpected))
    rw [host.fromisoformat_isoformat haware] at hdue
    obtain rfl := Option.some.inj hdue
    exact absurd hlater (lt_irrefl _)

theorem claimScheduledFiring_key
    (hok : (claimScheduledFiring host service env ctx rec claim fencingToken s).result.toBool = true) :
    ∃ logical, firingKey rec.scheduleId rec.revisionId (host.isoformat claim.nominal) =
      .ok logical := by
  rcases claimScheduledFiring_schedules host env ctx s rec service claim fencingToken with
    ⟨metadata, s', -, -, -, hswallowed⟩ | ⟨-, hfails⟩
  · cases hkey : firingKey rec.scheduleId rec.revisionId (host.isoformat claim.nominal) with
    | ok logical => exact ⟨logical, rfl⟩
    | error error =>
        have hresult : (claimFiring host env ctx
            (scheduledClaim host service rec claim fencingToken metadata) s').result =
              .error error := by
          unfold claimFiring
          rw [show firingKey (scheduledClaim host service rec claim fencingToken metadata).scheduleId
            (scheduledClaim host service rec claim fencingToken metadata).revisionId
            (scheduledClaim host service rec claim fencingToken metadata).nominalFireTime =
              .error error from hkey]
          rfl
        have hconflict := hswallowed hok error hresult
        unfold firingKey at hkey
        dsimp only at hkey
        split at hkey
        · cases hkey
          cases hconflict
        · cases hkey
  · rw [hfails] at hok
    cases hok

variable (service ctx rec fencingToken) in
theorem firePlanned_past {due : Instant} {plan : List (Except PyError PlannedClaim)}
    (hplan : ∀ claim, .ok claim ∈ plan → LeadsPast due claim.nextFireAt)
    (envs : Nat → Env) (i : Nat) (h : ∃ r, s.schedules.get? k = some r ∧ CursorPast host due r) :
    ∃ r, (firePlanned host service envs ctx rec fencingToken plan i s).stores.schedules.get? k =
      some r ∧ CursorPast host due r :=
  firePlanned_kept (P := fun t => ∃ r, t.schedules.get? k = some r ∧ CursorPast host due r)
    (fun claim hmem _ _ ht => claimScheduledFiring_past (hplan claim hmem) ht) envs i h

variable (service ctx rec fencingToken) in
theorem firePlanned_stuck {cursor : String} {due : Datetime}
    {plan : List (Except PyError PlannedClaim)} (hdue : host.fromisoformat cursor = some due)
    (hplan : ∀ claim, .ok claim ∈ plan →
      ∃ later : Datetime, later.IsAware ∧ claim.expectedCursor = some (host.isoformat later) ∧
        due.instant < later.instant)
    (envs : Nat → Env) (i : Nat)
    (h : ∃ r, s.schedules.get? k = some r ∧ r.nextFireAt = some cursor) :
    ∃ r, (firePlanned host service envs ctx rec fencingToken plan i s).stores.schedules.get? k =
      some r ∧ r.nextFireAt = some cursor := by
  refine firePlanned_kept (P := fun t => ∃ r, t.schedules.get? k = some r ∧
    r.nextFireAt = some cursor) (fun claim hmem _ _ ht => ?_) envs i h
  obtain ⟨later, haware, hexpected, hlater⟩ := hplan claim hmem
  exact claimScheduledFiring_stuck hdue haware hexpected hlater ht

/-! ## One due schedule -/

/-- The cursor that was read has been passed. -/
def Progressed (host : ScheduleHost) (rec r : ScheduleRecord) : Prop :=
  ∃ cursor due, rec.nextFireAt = some cursor ∧ host.fromisoformat cursor = some due ∧
    CursorPast host due.instant r

/-- A scan plans a claim for the schedule, and its first occurrence has no firing. -/
def Unclaimed (host : ScheduleHost) (ctx : ControlPlaneContext) (rec : ScheduleRecord)
    (now : Instant) (s : Stores) : Prop :=
  ∃ first rest logical, firePlan host rec now = .ok (.ok first :: rest) ∧
    firingKey rec.scheduleId rec.revisionId (host.isoformat first.nominal) = .ok logical ∧
    s.firings.get? (key ctx logical) = none

theorem not_progressed {r : ScheduleRecord} (h : r.nextFireAt = rec.nextFireAt) :
    ¬ Progressed host rec r := by
  rintro ⟨cursor, due, hcursor, hdue, hpast⟩
  obtain ⟨later, hlater, hlt⟩ := hpast cursor (h.trans hcursor)
  obtain rfl := Option.some.inj (hdue.symm.trans hlater)
  exact absurd hlt (lt_irrefl _)

theorem fireDue_progress (envs : Nat → Env)
    (hget : s.schedules.get? (key ctx rec.scheduleId) = some rec)
    (hactive : rec.status = .active) (howner : rec.timerOwner = .local)
    (hok : (fireDue host service envs ctx rec now fencingToken s).result.toBool = true) :
    (∃ r, (fireDue host service envs ctx rec now fencingToken s).stores.schedules.get?
        (key ctx rec.scheduleId) = some r ∧ Progressed host rec r) ↔
      Unclaimed host ctx rec now s := by
  unfold fireDue at hok ⊢
  cases hplan : firePlan host rec now with
  | error error =>
      rw [hplan] at hok
      cases hok
  | ok plan =>
      rw [hplan] at hok
      dsimp only at hok ⊢
      cases plan with
      | nil =>
          -- Nothing is planned, and the cursor stays.
          constructor
          · rintro ⟨r, hr, hprogressed⟩
            obtain rfl := Option.some.inj (hget.symm.trans hr)
            exact absurd hprogressed (not_progressed rfl)
          · rintro ⟨first, rest, logical, hfirst, -⟩
            rw [hplan] at hfirst
            cases hfirst
      | cons planned rest =>
          cases planned with
          | error error => cases hok
          | ok first =>
              obtain ⟨cursor, due, hplanned⟩ := firePlan_planned (j := 0) hplan rfl
              have hrest : ∀ claim, .ok claim ∈ rest → ∃ j, j ≠ 0 ∧
                  Planned host rec now j claim cursor due := by
                intro claim hmem
                obtain ⟨j, hj⟩ := List.getElem?_of_mem hmem
                obtain ⟨cursor', due', hplanned'⟩ := firePlan_planned (j := j + 1) hplan hj
                obtain rfl := Option.some.inj (hplanned.cursor_eq.symm.trans hplanned'.cursor_eq)
                obtain rfl := Option.some.inj (hplanned.due_eq.symm.trans hplanned'.due_eq)
                exact ⟨j + 1, Nat.succ_ne_zero j, hplanned'⟩
              obtain ⟨hclaimed, hstores⟩ := firePlanned_cons hok
              rw [hstores]
              obtain ⟨logical, hlogical⟩ := claimScheduledFiring_key hclaimed
              by_cases hnone : s.firings.get? (key ctx logical) = none
              · -- The first claim moves the cursor, and the others keep it past.
                refine iff_of_true ?_ ⟨first, rest, logical, hplan, hlogical, hnone⟩
                obtain ⟨r, hr, hmoved⟩ := claimScheduledFiring_first hget hactive howner
                  hplanned.cursor_eq hplanned.first_expected hlogical hnone hclaimed
                obtain ⟨r', hr', hpast⟩ := firePlanned_past ctx rec service fencingToken
                  (fun claim hmem t hnext => by
                    obtain ⟨j, -, hclaim⟩ := hrest claim hmem
                    exact ⟨hclaim.isAware_next hnext, hclaim.lt_next hnext⟩)
                  envs 1 ⟨r, hr, cursorPast_of_next hmoved fun _ hnext =>
                    ⟨hplanned.isAware_next hnext, hplanned.lt_next hnext⟩⟩
                exact ⟨r', hr', cursor, due, hplanned.cursor_eq, hplanned.due_eq, hpast⟩
              · -- A duplicate leaves the cursor, and no later claim expects it.
                refine iff_of_false ?_ ?_
                · rintro ⟨r, hr, hprogressed⟩
                  obtain ⟨first', hfirst', hkept | ⟨-, -, hfresh⟩⟩ := claimScheduledFiring_cursor host
                    (envs 0) ctx rec service first fencingToken hget
                  · obtain ⟨r', hr', hstuck⟩ := firePlanned_stuck ctx rec service
                      fencingToken hplanned.due_eq (fun claim hmem => by
                        obtain ⟨j, hj, hclaim⟩ := hrest claim hmem
                        exact hclaim.later_expected hj)
                      envs 1 ⟨first', hfirst', hkept.trans hplanned.cursor_eq⟩
                    obtain rfl := Option.some.inj (hr.symm.trans hr')
                    exact not_progressed (hstuck.trans hplanned.cursor_eq.symm) hprogressed
                  · exact hnone (hfresh logical hlogical)
                · rintro ⟨first', rest', logical', hfirst', hlogical', hnone'⟩
                  rw [hplan] at hfirst'
                  cases hfirst'
                  obtain rfl := Except.ok.inj (hlogical.symm.trans hlogical')
                  exact hnone hnone'

/-! ## The whole scan -/

theorem mem_dueSchedules (hs : Keyed s) {text : String} (hmem : rec ∈ dueSchedules ctx text s) :
    s.schedules.get? (key ctx rec.scheduleId) = some rec ∧ rec.status = .active ∧
      rec.timerOwner = .local := by
  obtain ⟨⟨k, r⟩, hentry, hsome⟩ := List.mem_filterMap.mp hmem
  dsimp only at hsome
  split at hsome
  · rename_i hdue
    obtain rfl := Option.some.inj hsome
    have hget := Dict.mem_entries_iff.mp hentry
    have hk : k = key ctx r.scheduleId := by
      rw [hs k r hget]
      unfold key
      rw [← hdue.1]
    exact ⟨by rw [← hk]; exact hget, hdue.2.1, hdue.2.2.1⟩
  · cases hsome

/-- No schedule is scanned twice. -/
theorem dueSchedules_distinct (hs : Keyed s) (ctx : ControlPlaneContext) (text : String) :
    (dueSchedules ctx text s).Pairwise fun r r' => r.scheduleId ≠ r'.scheduleId := by
  have hkeys : s.schedules.entries.Pairwise fun e e' => e.1 ≠ e'.1 :=
    List.pairwise_map.mp s.schedules.nodup
  refine List.Pairwise.filterMap _ ?_ (List.Pairwise.and_mem.mp hkeys)
  rintro ⟨k, r⟩ ⟨k', r'⟩ ⟨hmem, hmem', hne⟩ found hfound found' hfound' hid
  dsimp only at hfound hfound' hne
  split at hfound
  · rename_i hdue
    split at hfound'
    · rename_i hdue'
      obtain rfl := Option.some.inj hfound
      obtain rfl := Option.some.inj hfound'
      have hr := hs k r (Dict.mem_entries_iff.mp hmem)
      have hr' := hs k' r' (Dict.mem_entries_iff.mp hmem')
      refine hne ?_
      obtain ⟨scope, id⟩ := k
      obtain ⟨scope', id'⟩ := k'
      rw [Durable.Key.mk.injEq]
      exact ⟨hdue.1.trans hdue'.1.symm, hr.symm.trans (hid.trans hr')⟩
    · cases hfound'
  · cases hfound

theorem fireAll_cons (envs : Nat → Nat → Env) (rest : List ScheduleRecord) (i : Nat) (s : Stores) :
    (fireAll host service envs ctx now fencingToken (rec :: rest) i s).2 =
      (fireAll host service envs ctx now fencingToken rest (i + 1)
        (fireDue host service (envs i) ctx rec now fencingToken s).stores).2 := by
  rw [fireAll]
  split <;> rfl

theorem fireAll_frame {due : List ScheduleRecord}
    (hk : ∀ rec ∈ due, k ≠ key ctx rec.scheduleId) (envs : Nat → Nat → Env) (i : Nat) (s : Stores) :
    (fireAll host service envs ctx now fencingToken due i s).2.schedules.get? k =
      s.schedules.get? k := by
  induction due generalizing i s with
  | nil => rfl
  | cons rec rest ih =>
      rw [fireAll_cons, ih (fun rec hmem => hk rec (List.mem_cons_of_mem _ hmem))]
      exact fireDue_frame (hk rec List.mem_cons_self) (envs i) s

theorem fireAll_append (envs : Nat → Nat → Env) (before after : List ScheduleRecord) (i : Nat)
    (s : Stores) :
    (fireAll host service envs ctx now fencingToken (before ++ after) i s).2 =
      (fireAll host service envs ctx now fencingToken after (i + before.length)
        (fireAll host service envs ctx now fencingToken before i s).2).2 := by
  induction before generalizing i s with
  | nil => rfl
  | cons rec rest ih =>
      rw [List.cons_append, fireAll_cons, fireAll_cons, ih, List.length_cons]
      congr 1
      congr 1
      omega

theorem scannedStores_keyed (hs : Keyed s) : Keyed (scannedStores host service env ctx s) := by
  have hlease : Keyed (acquireLeaderLease env ctx service.ownerId service.ttlSeconds s).stores :=
    next_keyed host ⟨env, .acquireLeaderLease ctx service.ownerId service.ttlSeconds⟩ hs
  unfold scannedStores Keyed
  rw [Reply.schedules_eq]
  exact hlease

/-- The stores when a scan comes to the schedule after `before`. -/
def storesAt (host : ScheduleHost) (service : SchedulerService) (env : Env)
    (envs : Nat → Nat → Env) (ctx : ControlPlaneContext) (now : Instant) (fencingToken : Int)
    (before : List ScheduleRecord) (s : Stores) : Stores :=
  (fireAll host service envs ctx now fencingToken before 0
    (scannedStores host service env ctx s)).2

/-- A tick that has the lease, and whose claims for a due schedule raise no error,
moves the cursor of the schedule past the due one, or clears it, if and only if it
plans a claim for the schedule and finds no firing of the first planned occurrence. -/
theorem tick_progress (host : ScheduleHost) (limit : Option Int) (es : List Event)
    (service : SchedulerService) (env : Env) (envs : Nat → Nat → Env) (ctx : ControlPlaneContext)
    (now : Instant) (granted : SchedulerLeaderLease) (before after : List ScheduleRecord)
    (rec : ScheduleRecord)
    (hlease : (acquireLeaderLease env ctx service.ownerId service.ttlSeconds
      (reached host limit es)).result = .ok granted)
    (hdue : dueSchedules ctx (host.iso now)
      (scannedStores host service env ctx (reached host limit es)) = before ++ rec :: after)
    (hok : (fireDue host service (envs before.length) ctx rec now granted.fencingToken
      (storesAt host service env envs ctx now granted.fencingToken before
        (reached host limit es))).result.toBool = true) :
    (∃ r, (tick host service env envs ctx now (reached host limit es)).2.schedules.get?
        (key ctx rec.scheduleId) = some r ∧ Progressed host rec r) ↔
      Unclaimed host ctx rec now (storesAt host service env envs ctx now granted.fencingToken
        before (reached host limit es)) := by
  have hkeyed : Keyed (scannedStores host service env ctx (reached host limit es)) :=
    scannedStores_keyed (reached_keyed host limit es)
  obtain ⟨hget, hactive, howner⟩ := mem_dueSchedules hkeyed (by
    rw [hdue]
    exact List.mem_append_right _ List.mem_cons_self)
  -- The scan of the other schedules does not touch this one.
  have hdistinct := dueSchedules_distinct hkeyed ctx (host.iso now)
  rw [hdue, List.pairwise_append] at hdistinct
  obtain ⟨-, hafter, hbefore⟩ := hdistinct
  have hne : ∀ other, rec.scheduleId ≠ other → key ctx rec.scheduleId ≠ key ctx other := by
    intro other hne hkey
    exact hne (congrArg Key.id hkey)
  have hreach : (storesAt host service env envs ctx now granted.fencingToken before
      (reached host limit es)).schedules.get? (key ctx rec.scheduleId) = some rec := by
    refine (fireAll_frame (fun other hmem => hne _ ?_) envs 0 _).trans hget
    exact fun h => hbefore other hmem rec List.mem_cons_self h.symm
  have htick : (tick host service env envs ctx now (reached host limit es)).2.schedules.get?
      (key ctx rec.scheduleId) =
        (fireDue host service (envs before.length) ctx rec now granted.fencingToken
          (storesAt host service env envs ctx now granted.fencingToken before
            (reached host limit es))).stores.schedules.get? (key ctx rec.scheduleId) := by
    unfold tick
    dsimp only
    rw [hlease]
    dsimp only
    rw [hdue, fireAll_append, fireAll_cons, Nat.zero_add]
    exact fireAll_frame (fun other hmem => hne _ (List.rel_of_pairwise_cons hafter hmem)) envs _ _
  rw [htick]
  exact fireDue_progress (envs before.length) hreach hactive howner hok

/-! ## A triggered occurrence -/

section Sample

def sampleDue : List Event := [sampleCreated (sampleSpec .fireOnce .queue)]

/-- The due schedule after a managed trigger at the time of its cursor. -/
def sampleTriggered : List Event :=
  sampleDue ++ [⟨sampleScheduleEnv 't', .claimFiring Durable.sampleContext
    { sampleClaim 1 (some (sampleStamp 1)) with
      expectedTimerOwner := some .local, expectedTimerOwnerGeneration := some 1 }⟩]

/-- The lease a sample tick gets. -/
def sampleLease (es : List Event) : Except PyError SchedulerLeaderLease :=
  (acquireLeaderLease (sampleScheduleEnv 'k') Durable.sampleContext sampleScheduler.ownerId
    sampleScheduler.ttlSeconds (reached sampleScheduleHost none es)).result

def sampleScanned (es : List Event) : Stores :=
  scannedStores sampleScheduleHost sampleScheduler (sampleScheduleEnv 'k') Durable.sampleContext
    (reached sampleScheduleHost none es)

/-- The schedules that are due at the first minute. -/
def sampleDueSchedules (es : List Event) : List ScheduleRecord :=
  dueSchedules Durable.sampleContext (sampleScheduleHost.iso (seconds 60)) (sampleScanned es)

/-- A tick at the first minute. -/
def sampleTick (es : List Event) : Stores :=
  (tick sampleScheduleHost sampleScheduler (sampleScheduleEnv 'k')
    (fun _ _ => sampleScheduleEnv 'f') Durable.sampleContext (seconds 60)
    (reached sampleScheduleHost none es)).2

def sampleFire (es : List Event) (rec : ScheduleRecord) : Outcome Nat :=
  fireDue sampleScheduleHost sampleScheduler (fun _ => sampleScheduleEnv 'f')
    Durable.sampleContext rec (seconds 60) 1 (sampleScanned es)

/-- What a sample tick finds: its lease, the one due schedule and its claims. -/
theorem sampleScan (es : List Event)
    (hlease : (sampleLease es).toOption.map (·.fencingToken) = some 1)
    (hdue : (sampleDueSchedules es).map (fun rec => (rec.scheduleId, rec.nextFireAt,
      (sampleFire es rec).result.toBool)) = [("nightly", some (sampleStamp 1), true)]) :
    ∃ granted rec, sampleLease es = .ok granted ∧ granted.fencingToken = 1 ∧
      sampleDueSchedules es = [] ++ rec :: [] ∧ rec.scheduleId = "nightly" ∧
      rec.nextFireAt = some (sampleStamp 1) ∧ (sampleFire es rec).result.toBool = true := by
  obtain ⟨granted, hgranted, htoken⟩ := Option.map_eq_some_iff.mp hlease
  obtain ⟨rec, hrec, hfields⟩ := List.map_eq_singleton_iff.mp hdue
  simp only [Prod.mk.injEq] at hfields
  refine ⟨granted, rec, ?_, htoken, hrec, hfields⟩
  cases hresult : sampleLease es with
  | error error =>
      rw [hresult] at hgranted
      cases hgranted
  | ok lease =>
      rw [hresult] at hgranted
      exact congrArg Except.ok (Option.some.inj hgranted)

/-- A trigger at the time of the cursor leaves a firing that every later scan finds,
and the cursor stays where it is. -/
theorem triggered_occurrence_blocks_tick : ∃ granted rec,
    sampleLease sampleTriggered = .ok granted ∧
      sampleDueSchedules sampleTriggered = [rec] ∧
      (sampleFire sampleTriggered rec).result.toBool = true ∧
      ¬ ∃ r, (sampleTick sampleTriggered).schedules.get?
        (key Durable.sampleContext rec.scheduleId) = some r ∧
          Progressed sampleScheduleHost rec r := by
  have hafter : ((sampleTick sampleTriggered).schedules.get?
      (key Durable.sampleContext "nightly")).map (·.nextFireAt) = some (some (sampleStamp 1)) := by
    decide +kernel
  obtain ⟨granted, rec, hgranted, -, hrec, hid, hcursor, hok⟩ :=
    sampleScan sampleTriggered (by decide +kernel) (by decide +kernel)
  refine ⟨granted, rec, hgranted, hrec, hok, ?_⟩
  rintro ⟨r, hr, hprogressed⟩
  rw [hid] at hr
  rw [hr] at hafter
  exact not_progressed ((Option.some.inj hafter).trans hcursor.symm) hprogressed

/-- The first tick of the sample schedule. -/
theorem tick_progress_first : ∃ rec, sampleDueSchedules sampleDue = [rec] ∧
    Unclaimed sampleScheduleHost Durable.sampleContext rec (seconds 60) (sampleScanned sampleDue) := by
  have hafter : ((sampleTick sampleDue).schedules.get?
      (key Durable.sampleContext "nightly")).map (·.nextFireAt) = some (some (sampleStamp 2)) := by
    decide +kernel
  obtain ⟨granted, rec, hgranted, htoken, hrec, hid, hcursor, hok⟩ :=
    sampleScan sampleDue (by decide +kernel) (by decide +kernel)
  refine ⟨rec, hrec, ?_⟩
  unfold sampleFire at hok
  have hiff := tick_progress sampleScheduleHost none sampleDue sampleScheduler
    (sampleScheduleEnv 'k') (fun _ _ => sampleScheduleEnv 'f') Durable.sampleContext (seconds 60)
    granted [] [] rec hgranted hrec (by rw [htoken]; exact hok)
  refine hiff.mp ?_
  obtain ⟨r, hr, hlater⟩ := Option.map_eq_some_iff.mp hafter
  refine ⟨r, by rw [hid]; exact hr, sampleStamp 1, ⟨seconds 60, some 0⟩, hcursor,
    sampleScheduleHost.fromisoformat_iso _, fun cursor hread => ?_⟩
  obtain rfl := Option.some.inj (hlater.symm.trans hread)
  exact ⟨⟨seconds 120, some 0⟩, sampleScheduleHost.fromisoformat_iso _, by decide⟩

end Sample

end Etlantic.ControlPlane.Schedule
