import Etlantic.ControlPlane.Schedule.Occurrences
import Etlantic.ControlPlane.ScheduleClock

/-!
# The scheduler service

`SchedulerService.tick`: it takes the leader lease, scans the due schedules and
claims for each of them the occurrences that its misfire policy plans.  The
callbacks of managed scheduling are code from outside the service; what they do
to the stores is a list of calls that leave the schedules alone.
-/

namespace Etlantic.ControlPlane.Schedule

open Durable (Key key Env)

/-! ## What a scan plans -/

/-- `last` in `_fire_due`: where catching up starts from. -/
def catchUpStart (spec : ScheduleSpec) (due : Instant) : Instant :=
  match spec.kind with
  | .interval intervalSeconds => due - seconds intervalSeconds
  | .cron _ => due - seconds 60

/-- The arguments with which `_fire_due` claims an occurrence. -/
structure PlannedClaim where
  nominal : Datetime
  nextFireAt : Option Datetime
  skipStatus : Option FiringStatus
  expectedCursor : Option String

/-- The loop over the nominal times; a failing search for the next occurrence ends it. -/
def plannedClaims (host : ScheduleHost) (spec : ScheduleSpec) :
    List Datetime → Option String → List (Except PyError PlannedClaim)
  | [], _ => []
  | nominal :: rest, expectedCursor =>
      match nextFireAfter host spec nominal.instant (some nominal.instant) with
      | .error error => [.error error]
      | .ok next =>
          .ok ⟨nominal, next, none, expectedCursor⟩ ::
            plannedClaims host spec rest (next.map host.isoformat)

/-- The policy drops a due occurrence instead of running it. -/
def dropsOccurrence (spec : ScheduleSpec) (due now : Instant) : Bool :=
  (spec.misfire = .skip && due < now) || (spec.misfire = .catchUp && spec.catchUpMax = 0)

/-- What `_fire_due` does with a schedule it has read. -/
def firePlan (host : ScheduleHost) (rec : ScheduleRecord) (now : Instant) :
    Except PyError (List (Except PyError PlannedClaim)) :=
  match rec.nextFireAt with
  | none => .ok []
  | some cursor =>
      match host.fromisoformat cursor with
      | none => .error isoError
      | some ⟨_, none⟩ =>
          .error (.typeError "can't compare offset-naive and offset-aware datetimes")
      | some ⟨due, some offset⟩ =>
          if now < due then .ok []
          else if dropsOccurrence rec.spec due now then
            match nextFireAfter host rec.spec now (some due) with
            | .error error => .error error
            | .ok next => .ok [.ok ⟨⟨due, some offset⟩, next, some .skippedMisfire, none⟩]
          else if rec.spec.misfire = .catchUp then
            match catchUpNominals host rec.spec (catchUpStart rec.spec due) now with
            | .error error => .error error
            | .ok nominals =>
                .ok (plannedClaims host rec.spec nominals (some cursor))
          else .ok (plannedClaims host rec.spec [⟨due, some offset⟩] (some cursor))

/-! ## Claiming -/

/-- The calls that callbacks make: on the durable store and on firings. -/
def Event.sparesSchedules (e : Event) : Bool :=
  match e.call with
  | .durable _ | .acquireFiringPreparation _ _ _ _ | .updateFiringMetadata _ _ _ _ _
  | .releaseFiringPreparation _ _ _ _ | .beginFiringSubmission _ _ _ _ _
  | .rejectFiringSubmission _ _ _ | .failFiringAfterCompensatedSubmission _ _ _
  | .failFiringPreparation _ _ _ _ | .linkFiringSubmission _ _ _ => true
  | _ => false

/-- Such a call is on the durable store, or it only changes firings. -/
theorem next_spared {host : ScheduleHost} {s : Stores} {e : Event}
    (h : e.sparesSchedules = true) :
    (∃ call, e.call = .durable call) ∨
      ∃ firings, next host s e = { s with firings := firings } := by
  obtain ⟨env, call⟩ := e
  unfold Event.sparesSchedules at h
  unfold next Call.exec
  cases call
  case durable call => exact .inl ⟨call, rfl⟩
  case acquireFiringPreparation =>
    dsimp only
    unfold acquireFiringPreparation
    repeat' split
    all_goals exact .inr ⟨_, rfl⟩
  case updateFiringMetadata =>
    dsimp only
    unfold updateFiringMetadata
    repeat' split
    all_goals exact .inr ⟨_, rfl⟩
  case releaseFiringPreparation =>
    dsimp only
    unfold releaseFiringPreparation
    repeat' split
    all_goals exact .inr ⟨_, rfl⟩
  case beginFiringSubmission =>
    dsimp only
    unfold beginFiringSubmission
    dsimp only
    repeat' split
    all_goals exact .inr ⟨_, rfl⟩
  case rejectFiringSubmission =>
    dsimp only
    unfold rejectFiringSubmission
    repeat' split
    all_goals exact .inr ⟨_, rfl⟩
  case failFiringAfterCompensatedSubmission =>
    dsimp only
    unfold failFiringAfterCompensatedSubmission
    repeat' split
    all_goals exact .inr ⟨_, rfl⟩
  case failFiringPreparation =>
    dsimp only
    unfold failFiringPreparation
    repeat' split
    all_goals exact .inr ⟨_, rfl⟩
  case linkFiringSubmission =>
    dsimp only
    unfold linkFiringSubmission
    repeat' split
    all_goals exact .inr ⟨_, rfl⟩
  all_goals cases h

/-- What a callback returns or raises, and the calls it makes. -/
structure Reply (α : Type) where
  result : Except PyError α
  calls : List Event
  spares : ∀ e ∈ calls, e.sparesSchedules = true

/-- The stores a callback leaves. -/
def Reply.stores {α : Type} (host : ScheduleHost) (reply : Reply α) (s : Stores) : Stores :=
  run host s reply.calls

/-- A callback that does nothing. -/
def Reply.pure {α : Type} (value : α) : Reply α where
  result := .ok value
  calls := []
  spares := fun _ h => nomatch h

structure SchedulerService where
  ownerId : String
  ttlSeconds : Nat
  planFingerprint : String
  /-- `durable is not None`. -/
  withDurable : Bool
  /-- `run_submitter is not None`. -/
  managed : Bool
  /-- The snapshot `occurrence_preparer` gives before a claim. -/
  occurrencePreparer : ControlPlaneContext → ScheduleRecord → String → Stores →
    Reply (List (String × Json))
  /-- Recovery or preparation and submission of a claimed firing. -/
  submitFiring : ControlPlaneContext → ScheduleRecord → FiringRecord → Stores → Reply Unit
  /-- `_reconcile_unlinked_firings`, which raises nothing. -/
  reconcileUnlinkedFirings : ControlPlaneContext → Stores → Reply Unit
  ttlPositive : 0 < ttlSeconds
  ownerNonEmpty : isBlank ownerId = false
  managedDurable : managed = true → withDurable = true

/-- The context of an occurrence. -/
def occurrenceContext (ctx : ControlPlaneContext) (rec : ScheduleRecord) : ControlPlaneContext :=
  match rec.workloadIdentity with
  | none => ctx
  | some identity => { ctx with principal := identity }

/-- The claim of a planned occurrence. -/
def scheduledClaim (host : ScheduleHost) (service : SchedulerService) (rec : ScheduleRecord)
    (claim : PlannedClaim) (fencingToken : Int) (metadata : List (String × Json)) :
    ClaimRequest where
  scheduleId := rec.scheduleId
  revisionId := rec.revisionId
  nominalFireTime := host.isoformat claim.nominal
  ownerId := service.ownerId
  fencingToken := fencingToken
  planFingerprint :=
    if service.managed then "managed-admission-pending" else service.planFingerprint
  withDurable := service.withDurable
  nextFireAt := claim.nextFireAt.map host.isoformat
  requireLeaderLease := true
  admitSubmission := !service.managed
  skipStatus := claim.skipStatus
  metadata := metadata
  expectedNextFireAt :=
    match claim.expectedCursor with
    | none => rec.nextFireAt
    | some expected => some expected
  expectedTimerOwner := some .local
  expectedTimerOwnerGeneration := some rec.timerOwnerGeneration
  requireActive := true

/-- An error that says that the schedule changed after the scan. -/
def isFireConflict : PyError → Bool
  | .controlPlane error => error.code = "PMFIRE409"
  | _ => false

/-- `_claim_scheduled_firing_reserved`. -/
def claimScheduledFiring (host : ScheduleHost) (service : SchedulerService) (env : Env)
    (ctx : ControlPlaneContext) (rec : ScheduleRecord) (claim : PlannedClaim)
    (fencingToken : Int) (s : Stores) : Outcome Bool :=
  let prepared := if service.managed then .pure []
    else service.occurrencePreparer (occurrenceContext ctx rec) rec
      (host.isoformat claim.nominal) s
  match prepared.result with
  | .error error => raise error (prepared.stores host s)
  | .ok metadata =>
      let claimed := claimFiring host env ctx
        (scheduledClaim host service rec claim fencingToken metadata) (prepared.stores host s)
      match claimed.result with
      | .error error =>
          if isFireConflict error then ret false claimed.stores else raise error claimed.stores
      | .ok (firing, created) =>
          if firing.status = .accepted ∧ service.managed = true ∧ firing.submissionId = none then
            let submitted := service.submitFiring (occurrenceContext ctx rec) rec firing
              claimed.stores
            match submitted.result with
            | .error error => raise error (submitted.stores host claimed.stores)
            | .ok () => ret created (submitted.stores host claimed.stores)
          else ret created claimed.stores

/-- The claims of a plan, one after another; an error ends them. -/
def firePlanned (host : ScheduleHost) (service : SchedulerService) (envs : Nat → Env)
    (ctx : ControlPlaneContext) (rec : ScheduleRecord) (fencingToken : Int) :
    List (Except PyError PlannedClaim) → Nat → Stores → Outcome Nat
  | [], _, s => ret 0 s
  | .error error :: _, _, s => raise error s
  | .ok claim :: rest, i, s =>
      let claimed := claimScheduledFiring host service (envs i) ctx rec claim fencingToken s
      match claimed.result with
      | .error error => raise error claimed.stores
      | .ok created =>
          let others := firePlanned host service envs ctx rec fencingToken rest (i + 1)
            claimed.stores
          match others.result with
          | .error error => raise error others.stores
          | .ok count => ret (created.toNat + count) others.stores

/-- `_fire_due`. -/
def fireDue (host : ScheduleHost) (service : SchedulerService) (envs : Nat → Env)
    (ctx : ControlPlaneContext) (rec : ScheduleRecord) (now : Instant) (fencingToken : Int)
    (s : Stores) : Outcome Nat :=
  match firePlan host rec now with
  | .error error => raise error s
  | .ok plan => firePlanned host service envs ctx rec fencingToken plan 0 s

/-- The scan of the due schedules. A bad occurrence does not keep it from the others. -/
def fireAll (host : ScheduleHost) (service : SchedulerService) (envs : Nat → Nat → Env)
    (ctx : ControlPlaneContext) (now : Instant) (fencingToken : Int) :
    List ScheduleRecord → Nat → Stores → Nat × Stores
  | [], _, s => (0, s)
  | rec :: rest, i, s =>
      let fired := fireDue host service (envs i) ctx rec now fencingToken s
      let others := fireAll host service envs ctx now fencingToken rest (i + 1) fired.stores
      match fired.result with
      | .error _ => others
      | .ok count => (count + others.1, others.2)

/-- The stores that a tick scans, once it has its lease and has reconciled firings. -/
def scannedStores (host : ScheduleHost) (service : SchedulerService) (env : Env)
    (ctx : ControlPlaneContext) (s : Stores) : Stores :=
  let lease := acquireLeaderLease env ctx service.ownerId service.ttlSeconds s
  (service.reconcileUnlinkedFirings ctx lease.stores).stores host lease.stores

/-- `_tick`, with the occurrences it claimed. -/
def tick (host : ScheduleHost) (service : SchedulerService) (env : Env) (envs : Nat → Nat → Env)
    (ctx : ControlPlaneContext) (now : Instant) (s : Stores) : Nat × Stores :=
  let lease := acquireLeaderLease env ctx service.ownerId service.ttlSeconds s
  match lease.result with
  | .error _ => (0, lease.stores)
  | .ok granted =>
      let scanned := scannedStores host service env ctx s
      fireAll host service envs ctx now granted.fencingToken
        (dueSchedules ctx (host.iso now) scanned) 0 scanned

/-! ## What is planned lies ahead -/

variable {host : ScheduleHost} {spec : ScheduleSpec} {t t' : Datetime}

/-- The occurrence after the first one that is caught up lies past the cursor. -/
theorem lt_second_catchUp {due : Instant}
    (hfirst : nextFireAfter host spec (catchUpStart spec due) (some (catchUpStart spec due)) =
      .ok (some t))
    (hsecond : nextFireAfter host spec t.instant (some t.instant) = .ok (some t')) :
    due < t'.instant := by
  obtain ⟨hwindow, cursor, hcursor, hkind⟩ := nextFireAfter_eq_some hfirst
  rcases hkind with ⟨n, hkind, ht⟩ | ⟨expression, hkind, n, ht⟩
  · -- An interval schedule catches up from the cursor itself on.
    have hvalid : 0 < n := by
      have := spec.kindValid
      rw [hkind] at this
      simpa [ScheduleKind.valid] using this
    have hge := (cursor_lt_intervalCandidate spec n cursor (utc (catchUpStart spec due)) hvalid).2
    have hlater := lt_nextFireAfter hsecond
    have hstart : catchUpStart spec due = due - seconds n := by
      unfold catchUpStart
      rw [hkind]
    rw [Option.map_some, Option.getD_some] at ht
    rw [← ht] at hge
    rw [hstart] at hge
    unfold utc at hge
    dsimp only at hge
    lia
  · -- A cron schedule may catch up from just before it; occurrences are a minute apart.
    have hfirstLater := lt_nextFireAfter hfirst
    have hstart : catchUpStart spec due = due - seconds 60 := by
      unfold catchUpStart
      rw [hkind]
    obtain ⟨_, cursor', hcursor', hkind'⟩ := nextFireAfter_eq_some hsecond
    rw [searchCursor_of_inWindow hwindow] at hcursor'
    obtain rfl := Option.some.inj hcursor'
    rcases hkind' with ⟨n', hinterval, _⟩ | ⟨_, _, n', ht'⟩
    · rw [hkind] at hinterval
      cases hinterval
    · have hmod := floorMinute_emod cursor.instant
      rw [hstart] at hfirstLater
      rw [ht, ht'] at *
      unfold utc floorMinute seconds at *
      dsimp only at *
      lia

/-! ## Which occurrences a plan claims -/

/-- Each occurrence is the next one after its predecessor. -/
def Succeeds (host : ScheduleHost) (spec : ScheduleSpec) (t t' : Datetime) : Prop :=
  nextFireAfter host spec t.instant (some t.instant) = .ok (some t')

theorem catchUpLoop_chain {now : Instant} : ∀ {left : Nat} {cursor : Datetime}
    {found : List Datetime}, catchUpLoop host spec now left cursor.instant = .ok found →
    List.IsChain (Succeeds host spec) (cursor :: found) ∧ ∀ t ∈ found, t.instant ≤ now
  | 0, _, _, h => by
      obtain rfl := Except.ok.inj h
      exact ⟨.singleton _, fun _ h => nomatch h⟩
  | left + 1, cursor, found, h => by
      unfold catchUpLoop at h
      split at h
      · cases h
      · obtain rfl := Except.ok.inj h
        exact ⟨.singleton _, fun _ h => nomatch h⟩
      · rename_i t hnext
        split at h
        · obtain rfl := Except.ok.inj h
          exact ⟨.singleton _, fun _ h => nomatch h⟩
        · rename_i hdue
          split at h
          · cases h
          · rename_i rest hrest
            obtain rfl := Except.ok.inj h
            obtain ⟨hchain, hle⟩ := catchUpLoop_chain hrest
            refine ⟨.cons_cons hnext hchain, fun t' hmem => ?_⟩
            rcases List.mem_cons.mp hmem with rfl | hmem
            · exact not_lt.mp hdue
            · exact hle t' hmem

/-- The occurrences that follow a due time. -/
theorem catchUpLoop_chain_utc {now start : Instant} {left : Nat} {found : List Datetime}
    (h : catchUpLoop host spec now left start = .ok found) :
    List.IsChain (Succeeds host spec) (utc start :: found) ∧ ∀ t ∈ found, t.instant ≤ now :=
  have hcursor : catchUpLoop host spec now left (utc start).instant = .ok found := h
  catchUpLoop_chain hcursor

/-- What a planned claim passes on: the occurrence after its own, and the cursor
that its predecessor has left. -/
theorem plannedClaims_getElem? {claim : PlannedClaim} : ∀ {found : List Datetime}
    {expected : Option String} {j : Nat}, List.IsChain (Succeeds host spec) found →
    (plannedClaims host spec found expected)[j]? = some (.ok claim) →
    found[j]? = some claim.nominal ∧ claim.skipStatus = none ∧
      nextFireAfter host spec claim.nominal.instant (some claim.nominal.instant) =
        .ok claim.nextFireAt ∧
      claim.expectedCursor = if j = 0 then expected else some (host.isoformat claim.nominal)
  | [], _, _, _, h => by cases h
  | t :: rest, expected, j, hchain, h => by
      simp only [plannedClaims] at h
      split at h
      · cases j with
        | zero => cases h
        | succ j => cases h
      · rename_i next hnext
        cases j with
        | zero =>
            obtain rfl := Except.ok.inj (Option.some.inj h)
            exact ⟨rfl, rfl, hnext, rfl⟩
        | succ j =>
            obtain ⟨hget, hskip, hnext', hexpected⟩ := plannedClaims_getElem? hchain.tail h
            refine ⟨hget, hskip, hnext', ?_⟩
            rw [if_neg (Nat.succ_ne_zero j), hexpected]
            split
            · rename_i hj
              subst hj
              obtain ⟨t'', rest', rfl⟩ : ∃ t'' rest', rest = t'' :: rest' := by
                cases rest with
                | nil => cases hget
                | cons t'' rest' => exact ⟨t'', rest', rfl⟩
              obtain rfl : t'' = claim.nominal := Option.some.inj hget
              have hsucceeds : Succeeds host spec t claim.nominal := hchain.rel
              obtain rfl := Except.ok.inj (hnext.symm.trans hsucceeds)
              rfl
            · rfl

/-- How a planned claim lies to the cursor the scheduler has read. -/
structure Planned (host : ScheduleHost) (rec : ScheduleRecord) (now : Instant) (j : Nat)
    (claim : PlannedClaim) (cursor : String) (due : Datetime) : Prop where
  cursor_eq : rec.nextFireAt = some cursor
  due_eq : host.fromisoformat cursor = some due
  next_eq : ∃ after, claim.nominal.instant ≤ after ∧
    nextFireAfter host rec.spec after (some claim.nominal.instant) = .ok claim.nextFireAt
  origin : (j = 0 ∧ claim.nominal = due ∧ claim.expectedCursor.getD cursor = cursor) ∨
    rec.spec.misfire = .catchUp ∧ ∃ found,
      catchUpNominals host rec.spec (catchUpStart rec.spec due.instant) now = .ok found ∧
      found[j]? = some claim.nominal ∧
      nextFireAfter host rec.spec claim.nominal.instant (some claim.nominal.instant) =
        .ok claim.nextFireAt ∧
      claim.expectedCursor = some (if j = 0 then cursor else host.isoformat claim.nominal)

theorem firePlan_planned {rec : ScheduleRecord} {now : Instant}
    {plan : List (Except PyError PlannedClaim)} {j : Nat} {claim : PlannedClaim}
    (h : firePlan host rec now = .ok plan) (hclaim : plan[j]? = some (.ok claim)) :
    ∃ cursor due, Planned host rec now j claim cursor due := by
  unfold firePlan at h
  split at h
  · obtain rfl := Except.ok.inj h
    cases hclaim
  · rename_i cursor hcursor
    split at h
    · cases h
    · cases h
    · rename_i due offset hdue
      refine ⟨cursor, ⟨due, some offset⟩, ?_⟩
      split at h
      · obtain rfl := Except.ok.inj h
        cases hclaim
      · rename_i hpast
        split at h
        · -- One claim that drops the occurrence.
          split at h
          · cases h
          · rename_i next hnext
            obtain rfl := Except.ok.inj h
            cases j with
            | zero =>
                obtain rfl := Except.ok.inj (Option.some.inj hclaim)
                exact ⟨hcursor, hdue, ⟨now, not_lt.mp hpast, hnext⟩, .inl ⟨rfl, rfl, rfl⟩⟩
            | succ j => cases hclaim
        · split at h
          · rename_i hmisfire
            split at h
            · cases h
            · rename_i found hfound
              obtain rfl := Except.ok.inj h
              have hloop := hfound
              unfold catchUpNominals at hloop
              rw [if_pos hmisfire] at hloop
              obtain ⟨hget, hskip, hnext, hexpected⟩ := plannedClaims_getElem?
                (catchUpLoop_chain_utc hloop).1.tail hclaim
              refine ⟨hcursor, hdue, ⟨claim.nominal.instant, le_refl _, hnext⟩,
                .inr ⟨hmisfire, found, hfound, hget, hnext, ?_⟩⟩
              rw [hexpected]
              split <;> rfl
          · -- One claim of the occurrence at the cursor.
            obtain rfl := Except.ok.inj h
            unfold plannedClaims at hclaim
            split at hclaim
            · cases j with
              | zero => cases hclaim
              | succ j => cases hclaim
            · rename_i next hnext
              cases j with
              | zero =>
                  obtain rfl := Except.ok.inj (Option.some.inj hclaim)
                  exact ⟨hcursor, hdue, ⟨due, le_refl _, hnext⟩, .inl ⟨rfl, rfl, rfl⟩⟩
              | succ j => cases hclaim

theorem isAware_of_catchUpLoop {now : Instant} : ∀ {left : Nat} {cursor : Instant}
    {found : List Datetime}, catchUpLoop host spec now left cursor = .ok found →
    ∀ t ∈ found, t.IsAware
  | 0, _, _, h => by
      obtain rfl := Except.ok.inj h
      exact fun _ h => by cases h
  | left + 1, cursor, found, h => by
      unfold catchUpLoop at h
      split at h
      · cases h
      · obtain rfl := Except.ok.inj h
        exact fun _ h => by cases h
      · rename_i t hnext
        split at h
        · obtain rfl := Except.ok.inj h
          exact fun _ h => by cases h
        · split at h
          · cases h
          · rename_i rest hrest
            obtain rfl := Except.ok.inj h
            intro t' hmem
            rcases List.mem_cons.mp hmem with rfl | hmem
            · exact isAware_nextFireAfter hnext
            · exact isAware_of_catchUpLoop hrest t' hmem

theorem isAware_of_catchUp {last now : Instant} {found : List Datetime}
    (h : catchUpNominals host spec last now = .ok found) (hmem : t ∈ found) : t.IsAware := by
  unfold catchUpNominals at h
  split at h
  · exact isAware_of_catchUpLoop h t hmem
  · split at h
    · cases h
    · rename_i t' hnext
      obtain rfl := Except.ok.inj h
      split at hmem
      · rw [List.mem_singleton.mp hmem]
        exact isAware_nextFireAfter hnext
      · cases hmem
    · obtain rfl := Except.ok.inj h
      cases hmem

/-- Every occurrence that is caught up after the first lies past the cursor. -/
theorem lt_later_catchUp {due now : Instant} {found : List Datetime} {j : Nat}
    (hmisfire : spec.misfire = .catchUp)
    (h : catchUpNominals host spec (catchUpStart spec due) now = .ok found)
    (hget : found[j]? = some t) (hj : j ≠ 0) : due < t.instant := by
  unfold catchUpNominals at h
  rw [if_pos hmisfire] at h
  have hchain := (catchUpLoop_chain_utc h).1
  obtain ⟨first, second, rest, rfl⟩ : ∃ first second rest, found = first :: second :: rest := by
    obtain ⟨j, rfl⟩ := Nat.exists_eq_succ_of_ne_zero hj
    rcases found with _ | ⟨first, _ | ⟨second, rest⟩⟩
    · cases hget
    · cases hget
    · exact ⟨first, second, rest, rfl⟩
  have hsecond : due < second.instant := lt_second_catchUp hchain.rel hchain.tail.rel
  have hsorted : List.Pairwise (· < ·) ((second :: rest).map (·.instant)) := by
    rw [← List.isChain_iff_pairwise, List.isChain_map]
    exact hchain.tail.tail.imp fun _ _ h => lt_nextFireAfter h
  have hmem : t ∈ second :: rest := by
    obtain ⟨j, rfl⟩ := Nat.exists_eq_succ_of_ne_zero hj
    exact List.mem_of_getElem? hget
  rcases List.mem_cons.mp hmem with rfl | hmem
  · exact hsecond
  · exact lt_trans hsecond (List.rel_of_pairwise_cons hsorted (List.mem_map_of_mem hmem))

/-- A plan never leads back to the cursor. -/
theorem Planned.lt_next {rec : ScheduleRecord} {now : Instant} {j : Nat} {claim : PlannedClaim}
    {cursor : String} {due : Datetime} (h : Planned host rec now j claim cursor due)
    (hnext : claim.nextFireAt = some t) : due.instant < t.instant := by
  rcases h.origin with ⟨-, hnominal, -⟩ | ⟨hmisfire, found, hfound, hget, hafter, -⟩
  · obtain ⟨after, hle, hafter⟩ := h.next_eq
    rw [hnext] at hafter
    rw [hnominal] at hle
    exact lt_of_le_of_lt hle (lt_nextFireAfter hafter)
  · rw [hnext] at hafter
    by_cases hj : j = 0
    · subst hj
      have hloop := hfound
      unfold catchUpNominals at hloop
      rw [if_pos hmisfire] at hloop
      obtain ⟨rest, rfl⟩ : ∃ rest, found = claim.nominal :: rest := by
        cases found with
        | nil => cases hget
        | cons first rest => exact ⟨rest, by rw [Option.some.inj hget]⟩
      have hchain := (catchUpLoop_chain_utc hloop).1
      exact lt_second_catchUp hchain.rel hafter
    · exact lt_trans (lt_later_catchUp hmisfire hfound hget hj) (lt_nextFireAfter hafter)

theorem Planned.isAware_next {rec : ScheduleRecord} {now : Instant} {j : Nat}
    {claim : PlannedClaim} {cursor : String} {due : Datetime}
    (h : Planned host rec now j claim cursor due) (hnext : claim.nextFireAt = some t) :
    t.IsAware := by
  obtain ⟨after, -, hafter⟩ := h.next_eq
  rw [hnext] at hafter
  exact isAware_nextFireAfter hafter

/-- Only the first claim of a plan expects the cursor that was read. -/
theorem Planned.later_expected {rec : ScheduleRecord} {now : Instant} {j : Nat}
    {claim : PlannedClaim} {cursor : String} {due : Datetime}
    (h : Planned host rec now j claim cursor due) (hj : j ≠ 0) :
    ∃ t : Datetime, t.IsAware ∧ claim.expectedCursor = some (host.isoformat t) ∧
      due.instant < t.instant := by
  rcases h.origin with ⟨hzero, -⟩ | ⟨hmisfire, found, hfound, hget, -, hexpected⟩
  · exact absurd hzero hj
  · rw [if_neg hj] at hexpected
    exact ⟨claim.nominal, isAware_of_catchUp hfound (List.mem_of_getElem? hget), hexpected,
      lt_later_catchUp hmisfire hfound hget hj⟩

theorem Planned.first_expected {rec : ScheduleRecord} {now : Instant} {claim : PlannedClaim}
    {cursor : String} {due : Datetime} (h : Planned host rec now 0 claim cursor due) :
    claim.expectedCursor.getD cursor = cursor := by
  rcases h.origin with ⟨-, -, hexpected⟩ | ⟨-, found, -, -, -, hexpected⟩
  · exact hexpected
  · rw [hexpected]
    rfl

/-- A managed scheduler whose callbacks do nothing. -/
def sampleScheduler : SchedulerService where
  ownerId := "scheduler-1"
  ttlSeconds := 30
  planFingerprint := "plan"
  withDurable := true
  managed := true
  occurrencePreparer _ _ _ _ := .pure []
  submitFiring _ _ _ _ := .pure ()
  reconcileUnlinkedFirings _ _ := .pure ()
  ttlPositive := by decide
  ownerNonEmpty := by decide
  managedDurable _ := rfl

end Etlantic.ControlPlane.Schedule
