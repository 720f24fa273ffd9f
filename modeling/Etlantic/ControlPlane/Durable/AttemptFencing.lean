import Etlantic.ControlPlane.Durable.Fencing

/-!
# The fence of an attempt

An attempt carries the owner and the token of the lease it was started under,
and the lease of its submission only moves on from there (`AttemptsFenced`).

Four operations publish the outcome of an attempt.  Two of them compare the
attempt's fence with the caller's.  `finish_attempt` compares the caller with the
lease only, and `compare_and_swap_checkpoint` the owner of the attempt and the
token of the caller: both miss a running attempt that an older lease left behind.
-/

namespace Etlantic.ControlPlane.Durable

/-- Every attempt was started under the current lease of its submission, or under
an older token. -/
def AttemptsFenced (s : Store) : Prop :=
  s.attempts.All fun _ attempt =>
    ∃ lease, s.leases.get? ⟨attempt.scope, attempt.submissionId⟩ = some lease ∧
      (attempt.fencingToken < lease.fencingToken ∨
        attempt.fencingToken = lease.fencingToken ∧ attempt.ownerId = lease.ownerId)

/-- The attempt was started under the current lease of its submission. -/
def Store.UnderLease (s : Store) (attempt : AttemptRecord) : Prop :=
  ∃ lease, s.leases.get? ⟨attempt.scope, attempt.submissionId⟩ = some lease ∧
    attempt.ownerId = lease.ownerId ∧ attempt.fencingToken = lease.fencingToken

/-- The attempt that the call names was started under the current lease of its
submission; `finish_attempt` publishes nothing once the attempt is over. -/
def Call.PublishesFenced (s : Store) : Call → Prop
  | .finishAttempt ctx attemptId _ _ _ =>
      ∃ attempt, s.attempts.get? (key ctx attemptId) = some attempt ∧
        (attempt.status = .running → s.UnderLease attempt)
  | .compareAndSwapCheckpoint ctx swap =>
      ∃ attempt, s.attempts.get? (key ctx swap.attemptId) = some attempt ∧ s.UnderLease attempt
  | .recordAttemptEffect ctx _ claim =>
      ∃ attempt, s.attempts.get? (key ctx claim.attemptId) = some attempt ∧ s.UnderLease attempt
  | .recordResultPublication ctx record _ _ =>
      ∃ attempt, s.attempts.get? (key ctx record.attemptId) = some attempt ∧ s.UnderLease attempt
  | _ => True

/-- What `finish_attempt` checks before it looks at the attempt's status. -/
structure FinishAllowed (env : Env) (ctx : ControlPlaneContext) (attemptId ownerId : String)
    (fencingToken : Int) (status : String) (s : Store) (attempt : AttemptRecord)
    (submission : SubmissionRecord) : Prop where
  terminal : (AttemptStatus.ofTerminalText? status).isSome = true
  found : s.attempts.get? (key ctx attemptId) = some attempt
  submitted : s.submissions.get? (key ctx attempt.submissionId) = some submission
  fence : finishFence s submission (key ctx attempt.submissionId) ownerId fencingToken
    (env.now [0]) = .ok ()

/-- What `compare_and_swap_checkpoint` checks. -/
structure SwapAllowed (env : Env) (ctx : ControlPlaneContext) (swap : CheckpointSwap) (s : Store)
    (attempt : AttemptRecord) (submission : SubmissionRecord) (lease : LeaseRecord) : Prop where
  namespaced : isNamespaced swap.checkpointId = true
  version : (s.checkpoints.get? (key ctx swap.checkpointId)).map CheckpointRecord.version =
    swap.expectedVersion
  found : s.attempts.get? (key ctx swap.attemptId) = some attempt
  running : attempt.status = .running
  submitted : s.submissions.get? (key ctx attempt.submissionId) = some submission
  eligible : submission.status.isIneligible = false
  fence : s.requireLease (key ctx attempt.submissionId) attempt.ownerId swap.fencingToken
    (env.now [0]) = .ok lease
  owned : (s.checkpoints.get? (key ctx swap.checkpointId)).any (fun row =>
    row.submissionId ≠ none && row.submissionId ≠ some attempt.submissionId) = false

/-- The call is allowed to publish for a running attempt that was started under a
token other than the caller's. -/
def Event.PublishesStale (e : Event) (s : Store) : Prop :=
  match e.call with
  | .finishAttempt ctx attemptId ownerId fencingToken status =>
      ∃ attempt submission,
        FinishAllowed e.env ctx attemptId ownerId fencingToken status s attempt submission ∧
          attempt.status = .running ∧ attempt.fencingToken ≠ fencingToken
  | .compareAndSwapCheckpoint ctx swap =>
      ∃ attempt submission lease,
        SwapAllowed e.env ctx swap s attempt submission lease ∧
          attempt.fencingToken ≠ swap.fencingToken
  | _ => False

variable {host : Host} {e : Event} {s₀ s t : Store} {ctx : ControlPlaneContext}

/-! ## Attempts keep their fence -/

theorem attemptsFenced_init (limit : Option Int) : AttemptsFenced (Store.init limit) :=
  Dict.all_empty _

/-- Growing leases keep every attempt behind them. -/
theorem AttemptsFenced.grow (h : AttemptsFenced s) (hgrow : FencesGrow s t)
    (hattempts : t.attempts = s.attempts) : AttemptsFenced t := by
  unfold AttemptsFenced
  rw [hattempts]
  refine h.mono fun _ attempt hfence => ?_
  obtain ⟨lease, hlease, hbehind⟩ := hfence
  obtain ⟨later, hlater, hgrown⟩ := hgrow _ lease hlease
  refine ⟨later, hlater, ?_⟩
  rcases hbehind with hlt | ⟨htoken, howner⟩ <;> rcases hgrown with hlt' | ⟨htoken', howner'⟩
  · exact .inl (hlt.trans hlt')
  · exact .inl (htoken' ▸ hlt)
  · exact .inl (htoken ▸ hlt')
  · exact .inr ⟨htoken.trans htoken', howner.trans howner'⟩

/-- A new outcome of an attempt keeps its fence. -/
theorem AttemptsFenced.finish (h : AttemptsFenced s) {k : Key} {attempt : AttemptRecord}
    (hget : s.attempts.get? k = some attempt) (status : AttemptStatus) (at_ : Instant) :
    AttemptsFenced { s with attempts := s.attempts.set k (attempt.finish status at_) } :=
  Dict.All.set h (h k attempt hget)

theorem Write.attemptsFenced (hs : AttemptsFenced s) (h : Write host e s₀ s t) :
    AttemptsFenced t := by
  have hgrow := h.fencesGrow
  cases h with
  | loseAttempt hget hrunning => exact hs.finish hget _ _
  | startAttempt ctx attempt hget heligible hlease howner htoken halone hscope hrunning =>
      refine Dict.All.set hs ⟨_, ?_, .inr ⟨htoken, howner⟩⟩
      rw [hscope]
      exact hlease
  | finishAttempt hcall hstatus hk hattempt hrunning hget hfence => exact hs.finish hattempt _ _
  | _ => exact hs.grow hgrow rfl

theorem reached_attemptsFenced (host : Host) (limit : Option Int) (es : List Event) :
    AttemptsFenced (reached host limit es) :=
  (run_invariant (I := AttemptsFenced) (fun _ _ _ _ _ _ _ _ hI hw => hw.attemptsFenced hI)
    (linked_init limit) (attemptsFenced_init limit) (Runs.guarded_true _ es)).2

/-- Below the lease of the caller an attempt is the lease's own exactly when the
tokens agree. -/
theorem AttemptsFenced.underLease_iff (h : AttemptsFenced s) {k : Key} {attempt : AttemptRecord}
    {lease : LeaseRecord} (hget : s.attempts.get? k = some attempt)
    (hlease : s.leases.get? ⟨attempt.scope, attempt.submissionId⟩ = some lease) :
    s.UnderLease attempt ↔ attempt.fencingToken = lease.fencingToken := by
  obtain ⟨behind, hbehind, hfence⟩ := h k attempt hget
  obtain rfl : lease = behind := Option.some.inj (hlease.symm.trans hbehind)
  constructor
  · rintro ⟨current, hcurrent, -, htoken⟩
    obtain rfl : lease = current := Option.some.inj (hlease.symm.trans hcurrent)
    exact htoken
  · intro htoken
    rcases hfence with hlt | ⟨-, howner⟩
    · omega
    · exact ⟨lease, hlease, howner, htoken⟩

/-! ## What the four operations check -/

theorem finishFence_ok {submission : SubmissionRecord} {k : Key} {ownerId : String}
    {fencingToken : Int} {now : Instant}
    (h : finishFence s submission k ownerId fencingToken now = .ok ()) :
    ∃ lease, s.leases.get? k = some lease ∧ lease.fencingToken = fencingToken := by
  unfold finishFence at h
  split at h
  · split at h
    · rename_i hheld
      obtain ⟨lease, hlease, hsame⟩ := (Option.any_eq_true _ _).mp hheld
      rw [Bool.and_eq_true, decide_eq_true_eq, decide_eq_true_eq] at hsame
      exact ⟨lease, hlease, hsame.2⟩
    · cases h
  · cases hrequire : s.requireLease k ownerId fencingToken now with
    | error error =>
        rw [hrequire] at h
        cases h
    | ok lease =>
        obtain ⟨hlease, -, htoken, -⟩ := Store.requireLease_eq_ok.mp hrequire
        exact ⟨lease, hlease, htoken⟩

theorem finishAttempt_succeeded_iff {env : Env} {attemptId ownerId status : String}
    {fencingToken : Int} :
    (finishAttempt env ctx attemptId ownerId fencingToken status s).succeeded = true ↔
      ∃ attempt submission,
        FinishAllowed env ctx attemptId ownerId fencingToken status s attempt submission := by
  constructor
  · unfold finishAttempt
    split
    · intro h
      cases h
    · rename_i terminal hterminal
      split
      · intro h
        cases h
      · rename_i attempt hattempt
        dsimp only
        split
        · intro h
          cases h
        · rename_i submission hsubmission
          split
          · intro h
            cases h
          · rename_i hfence
            intro _
            exact ⟨attempt, submission, by simp [hterminal], hattempt, hsubmission, hfence⟩
  · rintro ⟨attempt, submission, hallowed⟩
    obtain ⟨terminal, hterminal⟩ := Option.isSome_iff_exists.mp hallowed.terminal
    unfold finishAttempt
    rw [hterminal]
    dsimp only
    rw [hallowed.found]
    dsimp only
    rw [hallowed.submitted]
    dsimp only
    rw [hallowed.fence]
    dsimp only
    split
    · rfl
    · rfl

theorem compareAndSwapCheckpoint_succeeded_iff {env : Env} {swap : CheckpointSwap} :
    (compareAndSwapCheckpoint env ctx swap s).succeeded = true ↔
      ∃ attempt submission lease, SwapAllowed env ctx swap s attempt submission lease := by
  constructor
  · unfold compareAndSwapCheckpoint
    dsimp only
    split
    · intro h
      cases h
    · rename_i hnamespaced
      split
      · intro h
        cases h
      · rename_i hversion
        split
        · intro h
          cases h
        · rename_i attempt hattempt
          obtain ⟨hfound, hrunning⟩ := Option.filter_eq_some_iff.mp hattempt
          split
          · intro h
            cases h
          · rename_i heligible
            split
            · intro h
              cases h
            · rename_i lease hfence
              split
              · intro h
                cases h
              · rename_i howned
                intro _
                rw [Bool.not_eq_true, Option.all_eq_false] at heligible
                obtain ⟨submission, hsubmission, heligible⟩ := heligible
                rw [Bool.not_eq_false] at hnamespaced
                rw [ne_eq, not_not] at hversion
                rw [Bool.not_eq_true] at howned
                exact ⟨attempt, submission, lease, hnamespaced, hversion, hfound,
                  of_decide_eq_true hrunning, hsubmission, by simpa using heligible, hfence, howned⟩
  · rintro ⟨attempt, submission, lease, hallowed⟩
    unfold compareAndSwapCheckpoint
    dsimp only
    rw [if_neg (by simp [hallowed.namespaced]), if_neg (not_not.mpr hallowed.version),
      hallowed.found, Option.filter_some, if_pos (by simp [hallowed.running])]
    dsimp only
    rw [hallowed.submitted, Option.all_some, if_neg (by simp [hallowed.eligible]), hallowed.fence]
    dsimp only
    rw [if_neg (by simp only [hallowed.owned]; exact Bool.false_ne_true)]
    rfl

theorem checkLeaseClaim_ok {claim : LeaseClaim} {submissionId : String}
    {submission : SubmissionRecord} {now : Instant} (hs : Linked s)
    (h : checkLeaseClaim ctx claim submissionId submission now s = .ok ()) :
    ∃ attempt, s.attempts.get? (key ctx claim.attemptId) = some attempt ∧
      s.UnderLease attempt := by
  unfold checkLeaseClaim at h
  split at h
  · cases h
  · rename_i hclaim
    rw [not_or, Bool.not_eq_false, Option.any_eq_true] at hclaim
    obtain ⟨⟨attempt, hattempt, hsame⟩, -⟩ := hclaim
    simp only [Bool.and_eq_true, decide_eq_true_eq] at hsame
    obtain ⟨⟨⟨hsubmission, -⟩, howner⟩, htoken⟩ := hsame
    cases hrequire : s.requireLease (key ctx submissionId) claim.ownerId claim.fencingToken now with
    | error error =>
        rw [hrequire] at h
        cases h
    | ok lease =>
        obtain ⟨hlease, howner', htoken', -⟩ := Store.requireLease_eq_ok.mp hrequire
        refine ⟨attempt, hattempt, lease, ?_, howner.trans howner'.symm, htoken.trans htoken'.symm⟩
        rw [(hs.attempt _ _ hattempt).1, hsubmission]
        exact hlease

theorem recordAttemptEffect_fenced {env : Env} {effect : EffectRecord} {claim : LeaseClaim}
    (hs : Linked s)
    (h : (recordAttemptEffect host env ctx effect claim s).succeeded = true) :
    ∃ attempt, s.attempts.get? (key ctx claim.attemptId) = some attempt ∧
      s.UnderLease attempt := by
  revert h
  unfold recordAttemptEffect recordEffectWith
  dsimp only
  split
  · intro h
    cases h
  · split
    · intro h
      cases h
    · split
      · intro h
        cases h
      · rename_i hclaim
        intro _
        exact checkLeaseClaim_ok hs hclaim

theorem recordResultPublication_fenced {env : Env} {record : ResultPublicationRecord}
    {ownerId : String} {fencingToken : Int} (hs : Linked s)
    (h : (recordResultPublication host env ctx record ownerId fencingToken s).succeeded = true) :
    ∃ attempt, s.attempts.get? (key ctx record.attemptId) = some attempt ∧
      s.UnderLease attempt := by
  revert h
  unfold recordResultPublication
  dsimp only
  split
  · intro h
    cases h
  · split
    · intro h
      cases h
    · rename_i lease hrequire
      split
      · intro h
        cases h
      · rename_i hmatch
        intro _
        rw [Bool.not_eq_false, Option.any_eq_true] at hmatch
        obtain ⟨attempt, hattempt, hsame⟩ := hmatch
        simp only [Bool.and_eq_true, decide_eq_true_eq] at hsame
        obtain ⟨⟨hsubmission, howner⟩, htoken⟩ := hsame
        obtain ⟨hlease, howner', htoken', -⟩ := Store.requireLease_eq_ok.mp hrequire
        refine ⟨attempt, hattempt, lease, ?_, howner.trans howner'.symm, htoken.trans htoken'.symm⟩
        rw [(hs.attempt _ _ hattempt).1, hsubmission]
        exact hlease

/-! ## The calls that miss a stale attempt -/

/-- An attempt named in the scope of the caller lies on the lease of that scope. -/
theorem Linked.attempt_lease (hs : Linked s) {attemptId : String} {attempt : AttemptRecord}
    {lease : LeaseRecord} (hget : s.attempts.get? (key ctx attemptId) = some attempt)
    (hlease : s.leases.get? (key ctx attempt.submissionId) = some lease) :
    s.leases.get? ⟨attempt.scope, attempt.submissionId⟩ = some lease := by
  rw [(hs.attempt _ _ hget).1]
  exact hlease

theorem finishAttempt_fenced_iff {env : Env} {attemptId ownerId status : String}
    {fencingToken : Int} (hs : Linked s) (hfenced : AttemptsFenced s) :
    ((finishAttempt env ctx attemptId ownerId fencingToken status s).succeeded = true →
      ∃ attempt, s.attempts.get? (key ctx attemptId) = some attempt ∧
        (attempt.status = .running → s.UnderLease attempt)) ↔
    ¬ ∃ attempt submission,
      FinishAllowed env ctx attemptId ownerId fencingToken status s attempt submission ∧
        attempt.status = .running ∧ attempt.fencingToken ≠ fencingToken := by
  rw [finishAttempt_succeeded_iff]
  constructor
  · rintro hpublishes ⟨attempt, submission, hallowed, hrunning, hstale⟩
    obtain ⟨named, hnamed, hunder⟩ := hpublishes ⟨attempt, submission, hallowed⟩
    obtain rfl : attempt = named := Option.some.inj (hallowed.found.symm.trans hnamed)
    obtain ⟨lease, hlease, htoken⟩ := finishFence_ok hallowed.fence
    have hcurrent := (hfenced.underLease_iff hnamed (hs.attempt_lease hnamed hlease)).mp
      (hunder hrunning)
    exact hstale (hcurrent.trans htoken)
  · rintro hfresh ⟨attempt, submission, hallowed⟩
    refine ⟨attempt, hallowed.found, fun hrunning => ?_⟩
    obtain ⟨lease, hlease, htoken⟩ := finishFence_ok hallowed.fence
    refine (hfenced.underLease_iff hallowed.found (hs.attempt_lease hallowed.found hlease)).mpr ?_
    by_contra hstale
    exact hfresh ⟨attempt, submission, hallowed, hrunning, htoken ▸ hstale⟩

theorem compareAndSwapCheckpoint_fenced_iff {env : Env} {swap : CheckpointSwap} (hs : Linked s)
    (hfenced : AttemptsFenced s) :
    ((compareAndSwapCheckpoint env ctx swap s).succeeded = true →
      ∃ attempt, s.attempts.get? (key ctx swap.attemptId) = some attempt ∧
        s.UnderLease attempt) ↔
    ¬ ∃ attempt submission lease, SwapAllowed env ctx swap s attempt submission lease ∧
      attempt.fencingToken ≠ swap.fencingToken := by
  rw [compareAndSwapCheckpoint_succeeded_iff]
  constructor
  · rintro hpublishes ⟨attempt, submission, lease, hallowed, hstale⟩
    obtain ⟨named, hnamed, hunder⟩ := hpublishes ⟨attempt, submission, lease, hallowed⟩
    obtain rfl : attempt = named := Option.some.inj (hallowed.found.symm.trans hnamed)
    obtain ⟨hlease, -, htoken, -⟩ := Store.requireLease_eq_ok.mp hallowed.fence
    have hcurrent := (hfenced.underLease_iff hnamed (hs.attempt_lease hnamed hlease)).mp hunder
    exact hstale (hcurrent.trans htoken)
  · rintro hfresh ⟨attempt, submission, lease, hallowed⟩
    refine ⟨attempt, hallowed.found, ?_⟩
    obtain ⟨hlease, -, htoken, -⟩ := Store.requireLease_eq_ok.mp hallowed.fence
    refine (hfenced.underLease_iff hallowed.found (hs.attempt_lease hallowed.found hlease)).mpr ?_
    by_contra hstale
    exact hfresh ⟨attempt, submission, lease, hallowed, htoken ▸ hstale⟩

/-- In every reachable store, a call that publishes the outcome of an attempt does
so under the attempt's own fence, unless it is allowed to publish for a running
attempt that was started under another token than the caller's. -/
theorem published_under_fence (host : Host) (limit : Option Int) (es : List Event) (e : Event) :
    ((e.outcome host (reached host limit es)).succeeded = true →
      e.call.PublishesFenced (reached host limit es)) ↔
    ¬ e.PublishesStale (reached host limit es) := by
  have hs : Linked (reached host limit es) := reached_linked host limit es
  have hfenced : AttemptsFenced (reached host limit es) := reached_attemptsFenced host limit es
  unfold Event.outcome Event.PublishesStale
  cases e.call with
  | finishAttempt ctx attemptId ownerId fencingToken status =>
      simp only [Call.exec, Outcome.void_succeeded, Call.PublishesFenced]
      exact finishAttempt_fenced_iff hs hfenced
  | compareAndSwapCheckpoint ctx swap =>
      simp only [Call.exec, Outcome.void_succeeded, Call.PublishesFenced]
      exact compareAndSwapCheckpoint_fenced_iff hs hfenced
  | recordAttemptEffect ctx effect claim =>
      simp only [Call.exec, Outcome.void_succeeded, Call.PublishesFenced, not_false_eq_true, iff_true]
      exact recordAttemptEffect_fenced hs
  | recordResultPublication ctx record ownerId fencingToken =>
      simp only [Call.exec, Outcome.void_succeeded, Call.PublishesFenced, not_false_eq_true, iff_true]
      exact recordResultPublication_fenced hs
  | _ => exact ⟨fun _ => not_false, fun _ _ => trivial⟩

section Sample

/-- A worker starts an attempt and loses its lease to another one. -/
def abandonedAttempt : List Event :=
  [⟨sampleEnv 'a' 0, .accept sampleContext (sampleAccept "a" "local" none)⟩,
    ⟨sampleEnv 'b' 1, .acquireLease sampleContext "a" "one" 60⟩,
    ⟨sampleEnv 'c' 2, .startAttempt sampleContext "a" "one" 1 []⟩,
    ⟨sampleEnv 'd' 100, .acquireLease sampleContext "a" "two" 60⟩]

/-- The new holder completes the attempt of the old one. -/
def strangerFinishes : Event :=
  ⟨sampleEnv 'e' 101, .finishAttempt sampleContext "att-0ccccccccccc4ccc" "two" 2 "completed"⟩

theorem finish_under_another_fence :
    ¬ ((strangerFinishes.outcome sampleHost (reached sampleHost none abandonedAttempt)).succeeded =
        true →
      strangerFinishes.call.PublishesFenced (reached sampleHost none abandonedAttempt)) := by
  intro hclaim
  obtain ⟨attempt, hattempt, hunder⟩ := hclaim (by decide)
  have hnamed : ((reached sampleHost none abandonedAttempt).attempts.get?
      (key sampleContext "att-0ccccccccccc4ccc")).map
        (fun attempt => (attempt.status, attempt.fencingToken, attempt.scope,
          attempt.submissionId)) =
      some (.running, 1, ⟨"acme", "main"⟩, "a") := by decide
  have hcurrent : ((reached sampleHost none abandonedAttempt).leases.get?
      ⟨⟨"acme", "main"⟩, "a"⟩).map LeaseRecord.fencingToken = some 2 := by decide
  simp only [hattempt, Option.map_some, Option.some.injEq, Prod.mk.injEq] at hnamed
  obtain ⟨hrunning, htoken, hscope, hsubmission⟩ := hnamed
  obtain ⟨lease, hlease, -, hsame⟩ := hunder hrunning
  rw [hscope, hsubmission] at hlease
  simp only [hlease, Option.map_some, Option.some.injEq] at hcurrent
  omega

end Sample

end Etlantic.ControlPlane.Durable
