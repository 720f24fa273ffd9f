import Etlantic.ControlPlane.Schedule.Overlap
import Mathlib.Data.Finset.Basic

/-!
# The admission fence

An admission attempt that was begun for a firing may still commit.  The firing
records it until it is rejected or compensated, and is given up only when no
attempt is left.  `begin` refuses the id `legacy-untracked-admission` and `reject`
passes over it; `fail_firing_after_compensated_submission` drops it like any other
when another attempt is recorded next to it.
-/

namespace Etlantic.ControlPlane.Schedule

open Durable (Key key Env)

variable {host : ScheduleHost} {e : Event} {s : Stores} {ctx : ControlPlaneContext} {k : Key}
  {firing firing' : FiringRecord} {pending pending' : Finset String} {attemptId : String}

/-- A call that names the firing under the key. -/
def names (s : Stores) (ctx : ControlPlaneContext) (firingId : String) (k : Key) : Bool :=
  (findFiring s ctx firingId).any fun m => m.1 = k

/-- The attempts of a firing that were begun and not rejected or compensated since,
after one more call. An untracked admission is neither. -/
def track (k : Key) (s : Stores) (e : Event) (pending : Finset String) : Finset String :=
  match e.call with
  | .beginFiringSubmission ctx firingId ownerId fencingToken attemptId =>
      if names s ctx firingId k = true ∧ (beginFiringSubmission e.env ctx firingId ownerId
          fencingToken attemptId s).result.toBool = true then
        insert (attemptId.getD (e.env.uuid 0)) pending
      else pending
  | .rejectFiringSubmission ctx firingId attemptId =>
      if names s ctx firingId k = true ∧ attemptId ≠ legacyUntrackedAdmission then
        pending.erase attemptId
      else pending
  | .failFiringAfterCompensatedSubmission ctx firingId attemptId =>
      if names s ctx firingId k = true ∧ (failFiringAfterCompensatedSubmission ctx firingId
          attemptId s).result.toBool = true ∧ attemptId ≠ legacyUntrackedAdmission then
        pending.erase attemptId
      else pending
  | _ => pending

/-- The stores and the pending attempts of one firing, side by side. -/
def fenceNext (host : ScheduleHost) (k : Key) (p : Stores × Finset String) (e : Event) :
    Stores × Finset String :=
  (next host p.1 e, track k p.1 e p.2)

/-- The attempts pending for a firing after a run. They start from what its row
records; a row that was started without a record has an untracked admission. -/
def pendingAttempts (host : ScheduleHost) (k : Key) (s : Stores) (firing : FiringRecord)
    (es : List Event) : Finset String :=
  (Runs.run (fenceNext host k) (s, (outstandingAttempts firing).toFinset) es).2

/-- The call does not compensate the untracked admission of the firing while another
attempt of it is recorded. -/
def SparesLegacy (k : Key) (s : Stores) (e : Event) : Prop :=
  ∀ ctx firingId firing,
    e.call = .failFiringAfterCompensatedSubmission ctx firingId legacyUntrackedAdmission →
    findFiring s ctx firingId = some (k, firing) → Preparing firing →
    legacyUntrackedAdmission ∈ firing.submissionAttemptIds →
    remainingAttempts firing legacyUntrackedAdmission = []

/-- Every pending attempt of a firing that is being prepared is on record. -/
def Tracked (firing : FiringRecord) (pending : Finset String) : Prop :=
  Preparing firing → ∀ a ∈ pending, a ∈ outstandingAttempts firing

/-- One step of a firing with its pending attempts. -/
structure FenceStep (firing firing' : FiringRecord) (pending pending' : Finset String) :
    Prop where
  tracked : Tracked firing' pending'
  failed : firing.status ≠ .failedPreparation → firing'.status = .failedPreparation → pending' = ∅
  legacy : legacyUntrackedAdmission ∈ firing.submissionAttemptIds →
    firing'.submissionId = none → legacyUntrackedAdmission ∈ firing'.submissionAttemptIds

/-! ## Attempts on record -/

theorem outstandingAttempts_of_ne_nil (h : firing.submissionAttemptIds ≠ []) :
    outstandingAttempts firing = firing.submissionAttemptIds := by
  unfold outstandingAttempts
  rw [if_neg fun hempty => h hempty.2]

theorem outstandingAttempts_of_idle (h : firing.submissionStarted = false) :
    outstandingAttempts firing = [] := by
  have hnone : firing.submissionAttemptIds = [] := by
    by_contra hne
    rw [firing.attemptsStarted hne] at h
    cases h
  unfold outstandingAttempts
  simp [h, hnone]

theorem mem_remainingAttempts {a : String} : a ∈ remainingAttempts firing attemptId ↔
    a ∈ firing.submissionAttemptIds ∧ a ≠ attemptId := by
  simp [remainingAttempts]

/-- Dropping one of the recorded attempts leaves the others. -/
theorem outstandingAttempts_drop :
    outstandingAttempts (dropAttempt firing attemptId) = remainingAttempts firing attemptId := by
  unfold outstandingAttempts dropAttempt
  dsimp only
  split
  · rename_i h
    simp [h.2] at h
  · rfl

/-! ## The kinds of steps -/

/-- Nothing happens to the firing, and an attempt may be over that it does not have. -/
theorem FenceStep.same (h : Tracked firing pending) (hsub : pending' ⊆ pending) :
    FenceStep firing firing pending pending' where
  tracked := fun hpreparing a ha => h hpreparing a (hsub ha)
  failed := fun hlive hfailed => absurd hfailed hlive
  legacy := fun hlegacy _ => hlegacy

/-- The lease, the metadata or the link of the firing changes, or it is given up with
nothing on record. -/
theorem FenceStep.of_move (h : Tracked firing pending) (hmove : FiringMove host e s k firing firing')
    (hquiet : e.handlesAttempts = false) : FenceStep firing firing' pending pending := by
  cases hmove with
  | prepare preparation token metadata =>
      exact ⟨h, fun hlive hfailed => absurd hfailed hlive, fun hlegacy _ => hlegacy⟩
  | begin attemptId hcall hnew hopen => rw [hquiet] at hcall; cases hcall
  | drop attemptId hcall hmem => rw [hquiet] at hcall; cases hcall
  | compensated attemptId hcall hopen hmem hlast htracked => rw [hquiet] at hcall; cases hcall
  | giveUp hopen hidle =>
      have hnone := outstandingAttempts_of_idle hidle
      refine ⟨fun hpreparing => (nomatch hpreparing.1), fun _ _ => ?_, fun hlegacy _ => hlegacy⟩
      rw [Finset.eq_empty_iff_forall_notMem]
      intro a ha
      have hrecorded := h hopen a ha
      rw [hnone] at hrecorded
      cases hrecorded
  | link request submission definitionRevision hopen hsubmission hlinked =>
      refine ⟨fun hpreparing => (nomatch hpreparing.2), fun hlive hfailed => absurd hfailed hlive,
        fun hlegacy _ => hlegacy⟩

theorem FenceStep.begin (h : Tracked firing pending) (hpreparing : Preparing firing)
    (hnew : attemptId ∉ outstandingAttempts firing) :
    FenceStep firing (beginAttempt firing attemptId hnew) pending (insert attemptId pending) := by
  have hrecord : outstandingAttempts (beginAttempt firing attemptId hnew) =
      outstandingAttempts firing ++ [attemptId] :=
    outstandingAttempts_of_ne_nil (by simp [beginAttempt])
  refine ⟨fun _ a ha => ?_, fun hlive hfailed => absurd hfailed hlive, fun hlegacy _ => ?_⟩
  · rw [hrecord, List.mem_append, List.mem_singleton]
    rcases Finset.mem_insert.mp ha with rfl | ha
    · exact .inr rfl
    · exact .inl (h hpreparing a ha)
  · have hkept : legacyUntrackedAdmission ∈ outstandingAttempts firing := by
      rw [outstandingAttempts_of_ne_nil (List.ne_nil_of_mem hlegacy)]
      exact hlegacy
    exact List.mem_append_left _ hkept

/-- A recorded attempt is begun once more. -/
theorem FenceStep.again (h : Tracked firing pending)
    (hold : attemptId ∈ outstandingAttempts firing) :
    FenceStep firing firing pending (insert attemptId pending) where
  tracked := by
    intro hpreparing a ha
    rcases Finset.mem_insert.mp ha with rfl | ha
    · exact hold
    · exact h hpreparing a ha
  failed := fun hlive hfailed => absurd hfailed hlive
  legacy := fun hlegacy _ => hlegacy

theorem pending_remaining (h : Tracked firing pending) (hpreparing : Preparing firing)
    (hmem : attemptId ∈ firing.submissionAttemptIds) {a : String}
    (ha : a ∈ pending.erase attemptId) : a ∈ remainingAttempts firing attemptId := by
  obtain ⟨hne, ha⟩ := Finset.mem_erase.mp ha
  have hrecorded := h hpreparing a ha
  rw [outstandingAttempts_of_ne_nil (List.ne_nil_of_mem hmem)] at hrecorded
  exact mem_remainingAttempts.mpr ⟨hrecorded, hne⟩

theorem FenceStep.drop (h : Tracked firing pending)
    (hmem : attemptId ∈ firing.submissionAttemptIds)
    (hother : attemptId ≠ legacyUntrackedAdmission) :
    FenceStep firing (dropAttempt firing attemptId) pending (pending.erase attemptId) := by
  refine ⟨fun hpreparing a ha => ?_, fun hlive hfailed => absurd hfailed hlive,
    fun hlegacy _ => ?_⟩
  · rw [outstandingAttempts_drop]
    exact pending_remaining h hpreparing hmem ha
  · exact mem_remainingAttempts.mpr ⟨hlegacy, hother.symm⟩

/-- The last recorded attempt was compensated. -/
theorem FenceStep.fail (h : Tracked firing pending) (hpreparing : Preparing firing)
    (hmem : attemptId ∈ firing.submissionAttemptIds)
    (hlast : remainingAttempts firing attemptId = [])
    (htracked : legacyUntrackedAdmission ∉ firing.submissionAttemptIds) :
    FenceStep firing (failedFiring firing) pending (pending.erase attemptId) := by
  refine ⟨fun hpreparing => (nomatch hpreparing.1), fun _ _ => ?_,
    fun hlegacy => absurd hlegacy htracked⟩
  rw [Finset.eq_empty_iff_forall_notMem]
  intro a ha
  have hremaining := pending_remaining h hpreparing hmem ha
  rw [hlast] at hremaining
  cases hremaining

/-! ## One call -/

theorem storeFiring_get {k' : Key} {new : FiringRecord}
    (hget : s.firings.get? k = some firing)
    (hafter : (storeFiring k' new s).stores.firings.get? k = some firing') :
    (k' = k ∧ firing' = new) ∨ (k' ≠ k ∧ firing' = firing) := by
  rcases Dict.get?_set_eq_some.mp hafter with ⟨hk, rfl⟩ | ⟨hk, hsame⟩
  · exact .inl ⟨hk, rfl⟩
  · exact .inr ⟨hk, Option.some.inj (hsame.symm.trans hget)⟩

theorem begin_fenceStep {env : Env} {firingId ownerId : String} {fencingToken : Int}
    {given : Option String} (h : Tracked firing pending) (hget : s.firings.get? k = some firing)
    (hafter : (beginFiringSubmission env ctx firingId ownerId fencingToken given s).stores.firings.get?
      k = some firing') :
    FenceStep firing firing' pending
      (track k s ⟨env, .beginFiringSubmission ctx firingId ownerId fencingToken given⟩ pending) := by
  have hstill : ∀ {error : PyError}, beginFiringSubmission env ctx firingId ownerId fencingToken
      given s = raise error s → FenceStep firing firing' pending
        (track k s ⟨env, .beginFiringSubmission ctx firingId ownerId fencingToken given⟩
          pending) := by
    intro error hraise
    rw [hraise] at hafter
    obtain rfl : firing = firing' := Option.some.inj (hget.symm.trans hafter)
    refine .same h ?_
    simp [track, hraise, raise, Except.toBool]
  unfold beginFiringSubmission at hafter hstill
  dsimp only at hafter hstill
  split at hafter
  · rename_i hblank
    exact hstill (if_pos hblank)
  · rename_i hblank
    rw [if_neg hblank] at hstill
    split at hafter
    · rename_i hfind
      rw [hfind] at hstill
      exact hstill rfl
    · rename_i k' found hfind
      rw [hfind] at hstill
      dsimp only at hstill
      split at hafter
      · rename_i hclosed
        exact hstill (if_pos hclosed)
      · rename_i hopen
        rw [if_neg hopen] at hstill
        split at hafter
        · rename_i error hlease
          rw [hlease] at hstill
          exact hstill rfl
        · rename_i hlease
          have hcall : track k s ⟨env, .beginFiringSubmission ctx firingId ownerId fencingToken
              given⟩ pending = if k' = k then insert (given.getD (env.uuid 0)) pending
                else pending := by
            have hresult : (beginFiringSubmission env ctx firingId ownerId fencingToken given
                s).result.toBool = true := by
              unfold beginFiringSubmission
              simp only [if_neg hblank, hfind, if_neg hopen, hlease]
              split <;> rfl
            simp [track, hresult, names, hfind]
          rw [hcall]
          split at hafter
          · rename_i hnew
            rcases storeFiring_get hget hafter with ⟨rfl, rfl⟩ | ⟨hne, rfl⟩
            · obtain rfl : found = firing :=
                Option.some.inj ((findFiring_eq_some hfind).1.symm.trans hget)
              rw [if_pos rfl]
              exact .begin h (by simpa [Preparing, not_or] using hopen) hnew
            · rw [if_neg hne]
              exact .same h (Finset.Subset.refl _)
          · rename_i hold
            obtain rfl : firing = firing' := Option.some.inj (hget.symm.trans hafter)
            by_cases hk : k' = k
            · subst hk
              obtain rfl : found = firing :=
                Option.some.inj ((findFiring_eq_some hfind).1.symm.trans hget)
              rw [if_pos rfl]
              exact .again h (not_not.mp hold)
            · rw [if_neg hk]
              exact .same h (Finset.Subset.refl _)

theorem reject_fenceStep {env : Env} {firingId : String} (h : Tracked firing pending)
    (hget : s.firings.get? k = some firing)
    (hafter : (rejectFiringSubmission ctx firingId attemptId s).stores.firings.get? k =
      some firing') :
    FenceStep firing firing' pending
      (track k s ⟨env, .rejectFiringSubmission ctx firingId attemptId⟩ pending) := by
  have hsub : track k s ⟨env, .rejectFiringSubmission ctx firingId attemptId⟩ pending ⊆ pending := by
    unfold track
    dsimp only
    split
    · exact Finset.erase_subset _ _
    · exact Finset.Subset.refl _
  unfold rejectFiringSubmission at hafter
  split at hafter
  · obtain rfl : firing = firing' := Option.some.inj (hget.symm.trans hafter)
    exact .same h hsub
  · rename_i k' found hfind
    split at hafter
    · rename_i hknown
      rcases storeFiring_get hget hafter with ⟨rfl, rfl⟩ | ⟨hne, rfl⟩
      · obtain rfl : found = firing :=
          Option.some.inj ((findFiring_eq_some hfind).1.symm.trans hget)
        have hcall : track k' s ⟨env, .rejectFiringSubmission ctx firingId attemptId⟩ pending =
            pending.erase attemptId := by
          simp [track, names, hfind, hknown.1]
        rw [hcall]
        exact .drop h hknown.2 hknown.1
      · exact .same h hsub
    · obtain rfl : firing = firing' := Option.some.inj (hget.symm.trans hafter)
      exact .same h hsub

theorem compensated_fenceStep {env : Env} {firingId : String} (h : Tracked firing pending)
    (hspares : SparesLegacy k s ⟨env, .failFiringAfterCompensatedSubmission ctx firingId attemptId⟩)
    (hget : s.firings.get? k = some firing)
    (hafter : (failFiringAfterCompensatedSubmission ctx firingId attemptId s).stores.firings.get? k =
      some firing') :
    FenceStep firing firing' pending
      (track k s ⟨env, .failFiringAfterCompensatedSubmission ctx firingId attemptId⟩ pending) := by
  have hsub : track k s ⟨env, .failFiringAfterCompensatedSubmission ctx firingId attemptId⟩
      pending ⊆ pending := by
    unfold track
    dsimp only
    split
    · exact Finset.erase_subset _ _
    · exact Finset.Subset.refl _
  have hsame : s.firings.get? k = some firing' → FenceStep firing firing' pending
      (track k s ⟨env, .failFiringAfterCompensatedSubmission ctx firingId attemptId⟩ pending) := by
    intro hafter
    obtain rfl : firing = firing' := Option.some.inj (hget.symm.trans hafter)
    exact .same h hsub
  have hcall : ∀ {found : FiringRecord}, findFiring s ctx firingId = some (k, found) →
      (failFiringAfterCompensatedSubmission ctx firingId attemptId s).result.toBool = true →
      attemptId ≠ legacyUntrackedAdmission →
      track k s ⟨env, .failFiringAfterCompensatedSubmission ctx firingId attemptId⟩ pending =
        pending.erase attemptId := by
    intro found hfind hresult hother
    simp [track, names, hfind, hresult, hother]
  unfold failFiringAfterCompensatedSubmission at hafter hcall
  split at hafter
  · exact hsame hafter
  · rename_i k' found hfind
    rw [hfind] at hcall
    dsimp only at hcall
    split at hafter
    · exact hsame hafter
    · rename_i hopen
      rw [if_neg hopen] at hcall
      have hpreparing : Preparing found := by simpa [Preparing, not_or] using hopen
      split at hafter
      · exact hsame hafter
      · rename_i hlisted
        have hmem : attemptId ∈ found.submissionAttemptIds := not_not.mp hlisted
        rw [if_neg hlisted] at hcall
        split at hafter
        · rename_i hothers
          rw [if_pos hothers] at hcall
          rcases storeFiring_get hget hafter with ⟨rfl, rfl⟩ | ⟨hne, rfl⟩
          · obtain rfl : found = firing :=
              Option.some.inj ((findFiring_eq_some hfind).1.symm.trans hget)
            have hother : attemptId ≠ legacyUntrackedAdmission := by
              rintro rfl
              exact hothers (hspares ctx firingId found rfl hfind hpreparing hmem)
            rw [hcall rfl rfl hother]
            exact .drop h hmem hother
          · exact .same h hsub
        · rename_i hlast
          rw [if_neg hlast] at hcall
          split at hafter
          · rcases storeFiring_get hget hafter with ⟨rfl, rfl⟩ | ⟨hne, rfl⟩
            · obtain rfl : firing' = firing :=
                Option.some.inj ((findFiring_eq_some hfind).1.symm.trans hget)
              exact .same h hsub
            · exact .same h hsub
          · rename_i htracked
            rw [if_neg htracked] at hcall
            rcases storeFiring_get hget hafter with ⟨rfl, rfl⟩ | ⟨hne, rfl⟩
            · obtain rfl : found = firing :=
                Option.some.inj ((findFiring_eq_some hfind).1.symm.trans hget)
              have hother : attemptId ≠ legacyUntrackedAdmission := by
                rintro rfl
                exact htracked hmem
              rw [hcall rfl rfl hother]
              exact .fail h hpreparing hmem (not_not.mp hlast) htracked
            · exact .same h hsub

/-- Calls that do not handle attempts leave the pending ones as they are. -/
theorem track_quiet (hquiet : e.handlesAttempts = false) : track k s e pending = pending := by
  unfold Event.handlesAttempts at hquiet
  unfold track
  split <;> first | rfl | simp_all

theorem next_fenceStep (host : ScheduleHost) (e : Event) (hspares : SparesLegacy k s e)
    (h : Tracked firing pending) (hget : s.firings.get? k = some firing)
    (hafter : (next host s e).firings.get? k = some firing') :
    FenceStep firing firing' pending (track k s e pending) := by
  cases hcalls : e.handlesAttempts with
  | true =>
      obtain ⟨env, call⟩ := e
      cases call with
      | beginFiringSubmission ctx firingId ownerId fencingToken attemptId =>
          exact begin_fenceStep h hget hafter
      | rejectFiringSubmission ctx firingId attemptId => exact reject_fenceStep h hget hafter
      | failFiringAfterCompensatedSubmission ctx firingId attemptId =>
          exact compensated_fenceStep h hspares hget hafter
      | _ => cases hcalls
  | false =>
      rw [track_quiet hcalls]
      rcases next_writes host s e with hsame | hwrite
      · rw [hsame] at hafter
        obtain rfl : firing = firing' := Option.some.inj (hget.symm.trans hafter)
        exact .same h (Finset.Subset.refl _)
      · generalize next host s e = t at hafter hwrite
        cases hwrite with
        | @claim ctx request record logical nominal status submissionId durable schedules hcall hkey
            hrecord hfence hnew hoccurrence hstatus hadmits hschedules =>
            rcases Dict.get?_set_eq_some.mp hafter with ⟨rfl, -⟩ | ⟨-, hold⟩
            · rw [hnew] at hget
              cases hget
            · obtain rfl : firing = firing' := Option.some.inj (hget.symm.trans hold)
              exact .same h (Finset.Subset.refl _)
        | @firing k' old new hold hmove =>
            rcases Dict.get?_set_eq_some.mp hafter with ⟨rfl, rfl⟩ | ⟨-, hkept⟩
            · obtain rfl : old = firing := Option.some.inj (hold.symm.trans hget)
              exact .of_move h hmove hcalls
            · obtain rfl : firing = firing' := Option.some.inj (hget.symm.trans hkept)
              exact .same h (Finset.Subset.refl _)
        | _ =>
            obtain rfl : firing = firing' := Option.some.inj (hget.symm.trans hafter)
            exact .same h (Finset.Subset.refl _)

/-! ## Runs -/

/-- The stores of the joint run are those of the run. -/
theorem fenceNext_run_fst (host : ScheduleHost) (k : Key) (es : List Event) :
    ∀ (s : Stores) (pending : Finset String),
      (Runs.run (fenceNext host k) (s, pending) es).1 = run host s es := by
  induction es with
  | nil => exact fun _ _ => rfl
  | cons e es ih => exact fun s pending => ih (next host s e) (track k s e pending)

theorem run_tracked {es : List Event} (hspares : Runs.Guarded (next host) (SparesLegacy k) s es)
    (h : Tracked firing pending) (hget : s.firings.get? k = some firing) :
    ∃ later, (run host s es).firings.get? k = some later ∧
      Tracked later (Runs.run (fenceNext host k) (s, pending) es).2 := by
  induction es generalizing s firing pending with
  | nil => exact ⟨firing, hget, h⟩
  | cons e es ih =>
      obtain ⟨middle, hmiddle, -⟩ := next_firing_kept host e hget
      exact ih hspares.2 (next_fenceStep host e hspares.1 h hget hmiddle).tracked hmiddle

/-- The row of a firing records every attempt it starts from. -/
theorem tracked_start (firing : FiringRecord) :
    Tracked firing (outstandingAttempts firing).toFinset :=
  fun _ _ ha => List.mem_toFinset.mp ha

section Sample

/-- A row of an older release: its submission was started and no attempt recorded. -/
def startedWithoutRecord : Stores :=
  let s := reached sampleScheduleHost none
    [sampleCreated (sampleSpec .fireOnce .skip),
      ⟨sampleScheduleEnv 'b', .claimFiring Durable.sampleContext
        (sampleClaim 1 (some (sampleStamp 2)))⟩]
  match s.firings.get? (sampleFiringKey 1) with
  | none => s
  | some firing => { s with
      firings := s.firings.set (sampleFiringKey 1)
        { firing with submissionStarted := true, attemptsStarted := fun _ => rfl } }

def sampleFiringId : String := (sampleScheduleEnv 'b').generatedId "fire-" 16 0

/-- A new attempt under the preparation lease. -/
def newAttempt : List Event :=
  [⟨sampleScheduleEnv 'c', .acquireFiringPreparation Durable.sampleContext sampleFiringId
      "worker" 300⟩,
    ⟨sampleScheduleEnv 'd', .beginFiringSubmission Durable.sampleContext sampleFiringId "worker"
      1 (some "new")⟩]

def compensate (attemptId : String) : Event :=
  ⟨sampleScheduleEnv 'e',
    .failFiringAfterCompensatedSubmission Durable.sampleContext sampleFiringId attemptId⟩

/-- The attempts on record after some calls. -/
def recordedAfter (es : List Event) : Option (List String × FiringStatus) :=
  ((run sampleScheduleHost startedWithoutRecord es).firings.get? (sampleFiringKey 1)).map
    fun firing => (firing.submissionAttemptIds, firing.status)

/-- Compensating the untracked admission removes it, and the firing fails while that
admission may still commit. -/
theorem untracked_admission_dropped :
    recordedAfter newAttempt = some ([legacyUntrackedAdmission, "new"], .accepted) ∧
    recordedAfter (newAttempt ++ [compensate legacyUntrackedAdmission]) =
      some (["new"], .accepted) ∧
    recordedAfter (newAttempt ++ [compensate legacyUntrackedAdmission, compensate "new"]) =
      some ([], .failedPreparation) ∧
    (startedWithoutRecord.firings.get? (sampleFiringKey 1)).any (fun firing =>
      legacyUntrackedAdmission ∈ pendingAttempts sampleScheduleHost (sampleFiringKey 1)
        startedWithoutRecord firing
        (newAttempt ++ [compensate legacyUntrackedAdmission, compensate "new"])) = true := by
  decide +kernel

end Sample

/-- In a run that never compensates the untracked admission of a firing next to
another recorded attempt, the firing is given up only when every attempt begun on it
has been rejected or compensated, and the untracked admission stays on record as long
as the firing is not linked. -/
theorem admission_fence (host : ScheduleHost) (k : Key) (s : Stores) (firing : FiringRecord)
    (es : List Event) (hget : s.firings.get? k = some firing)
    (hspares : Runs.Guarded (next host) (SparesLegacy k) s es)
    (before : List Event) (e : Event) (after : List Event) (hes : es = before ++ e :: after)
    (old new : FiringRecord) (hold : (run host s before).firings.get? k = some old)
    (hnew : (run host s (before ++ [e])).firings.get? k = some new) :
    (old.status ≠ .failedPreparation → new.status = .failedPreparation →
      pendingAttempts host k s firing (before ++ [e]) = ∅) ∧
    (legacyUntrackedAdmission ∈ old.submissionAttemptIds → new.submissionId = none →
      legacyUntrackedAdmission ∈ new.submissionAttemptIds) := by
  subst hes
  obtain ⟨later, hlater, htracked⟩ :=
    run_tracked hspares.left (tracked_start firing) hget
  obtain rfl : later = old := Option.some.inj (hlater.symm.trans hold)
  have hlast : run host s (before ++ [e]) = next host (run host s before) e :=
    Runs.run_append_singleton s before e
  rw [hlast] at hnew
  have hstep := next_fenceStep host e hspares.right.1 htracked hlater hnew
  refine ⟨fun hlive hfailed => ?_, hstep.legacy⟩
  have hempty := hstep.failed hlive hfailed
  unfold pendingAttempts
  rw [Runs.run_append_singleton]
  show track k (Runs.run (fenceNext host k) (s, (outstandingAttempts firing).toFinset) before).1 e
    (Runs.run (fenceNext host k) (s, (outstandingAttempts firing).toFinset) before).2 = ∅
  rw [fenceNext_run_fst]
  exact hempty

section Sample

/-- A compensated new attempt leaves the untracked admission on record. -/
theorem admission_fence_new_attempt : ∃ firing,
    (run sampleScheduleHost startedWithoutRecord (newAttempt ++ [compensate "new"])).firings.get?
      (sampleFiringKey 1) = some firing ∧
      legacyUntrackedAdmission ∈ firing.submissionAttemptIds := by
  have hstart : (startedWithoutRecord.firings.get? (sampleFiringKey 1)).isSome = true := by
    decide +kernel
  have hbegun : ((run sampleScheduleHost startedWithoutRecord newAttempt).firings.get?
      (sampleFiringKey 1)).map FiringRecord.submissionAttemptIds =
      some [legacyUntrackedAdmission, "new"] := by decide +kernel
  have hover : ((run sampleScheduleHost startedWithoutRecord
      (newAttempt ++ [compensate "new"])).firings.get? (sampleFiringKey 1)).map
        FiringRecord.submissionId = some none := by decide +kernel
  obtain ⟨firing, hget⟩ := Option.isSome_iff_exists.mp hstart
  obtain ⟨old, hold, hrecorded⟩ := Option.map_eq_some_iff.mp hbegun
  obtain ⟨new, hnew, hunlinked⟩ := Option.map_eq_some_iff.mp hover
  have hspares : Runs.Guarded (next sampleScheduleHost) (SparesLegacy (sampleFiringKey 1))
      startedWithoutRecord (newAttempt ++ [compensate "new"]) := by
    refine ⟨?_, ?_, ?_, trivial⟩
    · rintro ctx firingId firing ⟨⟩
    · rintro ctx firingId firing ⟨⟩
    · intro ctx firingId firing hcall
      have hid := (Call.failFiringAfterCompensatedSubmission.inj hcall).2.2
      exact absurd hid (by decide)
  refine ⟨new, hnew, (admission_fence sampleScheduleHost (sampleFiringKey 1) startedWithoutRecord
    firing (newAttempt ++ [compensate "new"]) hget hspares newAttempt (compensate "new") [] rfl
    old new hold hnew).2 ?_ hunlinked⟩
  rw [hrecorded]
  exact List.mem_cons_self

end Sample

end Etlantic.ControlPlane.Schedule
