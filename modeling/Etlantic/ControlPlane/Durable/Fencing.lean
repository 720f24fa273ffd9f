import Etlantic.Base.Evolves
import Etlantic.ControlPlane.Durable.Invariants

/-!
# Fencing

The fencing token of a submission only grows, and it never changes hands
(`FencesGrow`).  A worker that presents an older token is therefore refused by
every operation that takes one, whatever ran in between.

An attempt carries the fence it was started under.  Two of the operations that
publish the outcome of an attempt compare that fence with the caller's; the
other two do not, and the last section says exactly when this matters.
-/

namespace Etlantic.ControlPlane.Durable

/-- The token of every lease grows or stays with its owner. -/
def FencesGrow (s t : Store) : Prop :=
  ∀ k lease, s.leases.get? k = some lease → ∃ later, t.leases.get? k = some later ∧
    (lease.fencingToken < later.fencingToken ∨
      lease.fencingToken = later.fencingToken ∧ lease.ownerId = later.ownerId)

theorem FencesGrow.refl (s : Store) : FencesGrow s s := Dict.Evolves.refl Fences.refl s.leases

theorem FencesGrow.trans {s t u : Store} (h : FencesGrow s t) (h' : FencesGrow t u) :
    FencesGrow s u :=
  Dict.Evolves.trans Fences.trans h h'

/-- A grant keeps the token of a live lease of the same owner, and increments it
otherwise. -/
theorem nextToken_grows (old : LeaseRecord) (ownerId : String) (now : Instant) :
    old.fencingToken < nextToken (some old) ownerId now ∨
      old.fencingToken = nextToken (some old) ownerId now ∧ old.ownerId = ownerId := by
  unfold nextToken
  dsimp only
  split
  · rename_i hsame
    exact .inr ⟨rfl, hsame.1⟩
  · exact .inl (by omega)

variable {host : Host} {e : Event} {s₀ s t : Store} {ctx : ControlPlaneContext}

theorem Write.fencesGrow (h : Write host e s₀ s t) : FencesGrow s t := by
  cases h with
  | grantLease hscope hget heligible hscopeOf hidOf htoken hother =>
      refine Dict.Evolves.set Fences.refl fun old hold => ?_
      rw [htoken, hold]
      exact nextToken_grows old _ _
  | touchLease hget howner htoken hscopeOf hidOf =>
      exact Dict.Evolves.replace Fences.refl hget (.inr ⟨htoken.symm, howner.symm⟩)
  | _ => exact .refl _

theorem run_fencesGrow (host : Host) (es : List Event) (hs : Linked s) : FencesGrow s (run host s es) :=
  run_related (I := fun _ => True) FencesGrow.refl FencesGrow.trans
    (fun _ _ _ _ _ _ _ _ _ _ => trivial) (fun _ _ _ _ _ _ _ _ _ hw => hw.fencesGrow) hs trivial
    (Runs.guarded_true s es)

/-! ## Stale tokens -/

/-- The submission and the token that a worker call presents. -/
def Call.fence? (s : Store) : Call → Option (Key × Int)
  | .heartbeat ctx submissionId _ fencingToken _ => some (key ctx submissionId, fencingToken)
  | .releaseLease ctx submissionId _ fencingToken => some (key ctx submissionId, fencingToken)
  | .startAttempt ctx submissionId _ fencingToken _ => some (key ctx submissionId, fencingToken)
  | .finishAttempt ctx attemptId _ fencingToken _ =>
      (s.attempts.get? (key ctx attemptId)).map
        (fun attempt => (key ctx attempt.submissionId, fencingToken))
  | .recordAttemptEffect ctx effect claim =>
      some (key ctx effect.submissionId, claim.fencingToken)
  | .recordResultPublication ctx record _ fencingToken =>
      some (key ctx record.submissionId, fencingToken)
  | .compareAndSwapCheckpoint ctx swap =>
      (s.attempts.get? (key ctx swap.attemptId)).map
        (fun attempt => (key ctx attempt.submissionId, swap.fencingToken))
  | _ => none

theorem requireLease_stale {k : Key} {lease : LeaseRecord} {token : Int} (ownerId : String)
    (now : Instant) (hlease : s.leases.get? k = some lease) (hstale : token < lease.fencingToken) :
    s.requireLease k ownerId token now =
      .error (conflict "Stale or invalid execution lease") := by
  unfold Store.requireLease
  rw [hlease]
  exact if_pos (.inr (.inl (by omega)))

theorem finishFence_stale {k : Key} {lease : LeaseRecord} {token : Int} (ownerId : String)
    (submission : SubmissionRecord) (now : Instant) (hlease : s.leases.get? k = some lease)
    (hstale : token < lease.fencingToken) :
    finishFence s submission k ownerId token now =
      .error (conflict "Stale or invalid execution lease") := by
  unfold finishFence
  split
  · rw [hlease]
    refine if_neg ?_
    simp only [Option.any_some, Bool.and_eq_true, decide_eq_true_eq, not_and]
    intro _
    omega
  · rw [requireLease_stale ownerId now hlease hstale]
    rfl

/-- A call under a token older than the lease raises and changes nothing. -/
theorem stale_refused {k : Key} {lease : LeaseRecord} {token : Int}
    (hlease : s.leases.get? k = some lease) (hstale : token < lease.fencingToken)
    (hfence : e.call.fence? s = some (k, token)) : (e.outcome host s).Refused s := by
  have hvoid : ∀ {α : Type} {o : Outcome α}, o.Refused s → o.void.Refused s := fun h =>
    ⟨(Outcome.void_succeeded _).trans h.1, h.2⟩
  unfold Event.outcome
  cases hcall : e.call <;> rw [hcall] at hfence <;>
    simp only [Call.fence?, Option.map_eq_some_iff, Option.some.injEq, Prod.mk.injEq,
      reduceCtorEq] at hfence
  case heartbeat ctx submissionId ownerId fencingToken ttl =>
    obtain ⟨rfl, rfl⟩ := hfence
    refine hvoid ?_
    unfold heartbeat
    dsimp only
    rw [requireLease_stale ownerId _ hlease hstale]
    split
    · exact refused_raise _ s
    · split
      · exact refused_raise _ s
      · split
        · exact refused_raise _ s
        · exact refused_raise _ s
  case releaseLease ctx submissionId ownerId fencingToken =>
    obtain ⟨rfl, rfl⟩ := hfence
    unfold Call.exec releaseLease
    dsimp only
    rw [requireLease_stale ownerId _ hlease hstale]
    exact refused_raise _ s
  case startAttempt ctx submissionId ownerId fencingToken context =>
    obtain ⟨rfl, rfl⟩ := hfence
    refine hvoid ?_
    unfold startAttempt
    dsimp only
    rw [requireLease_stale ownerId _ hlease hstale]
    exact refused_raise _ s
  case finishAttempt ctx attemptId ownerId fencingToken status =>
    obtain ⟨attempt, hattempt, rfl, rfl⟩ := hfence
    refine hvoid ?_
    unfold finishAttempt
    rw [hattempt]
    dsimp only
    split
    · exact refused_raise _ s
    · split
      · exact refused_raise _ s
      · rename_i submission _
        rw [finishFence_stale ownerId submission _ hlease hstale]
        exact refused_raise _ s
  case recordAttemptEffect ctx effect claim =>
    obtain ⟨rfl, rfl⟩ := hfence
    refine hvoid ?_
    unfold recordAttemptEffect recordEffectWith
    dsimp only
    split
    · exact refused_raise _ s
    · split
      · exact refused_raise _ s
      · rename_i submission _
        have hclaim : ∃ error, checkLeaseClaim ctx claim (safeEffect host effect).submissionId
            submission (e.env.now [0]) s = .error error := by
          unfold checkLeaseClaim
          split
          · exact ⟨_, rfl⟩
          · exact ⟨_, congrArg (Except.map _) (requireLease_stale claim.ownerId _ hlease hstale)⟩
        obtain ⟨error, herror⟩ := hclaim
        simp only [Option.elim_some, herror]
        exact refused_raise _ s
  case recordResultPublication ctx record ownerId fencingToken =>
    obtain ⟨rfl, rfl⟩ := hfence
    refine hvoid ?_
    unfold recordResultPublication
    dsimp only
    rw [requireLease_stale ownerId _ hlease hstale]
    split
    · exact refused_raise _ s
    · exact refused_raise _ s
  case compareAndSwapCheckpoint ctx swap =>
    obtain ⟨attempt, hattempt, rfl, rfl⟩ := hfence
    refine hvoid ?_
    unfold compareAndSwapCheckpoint
    dsimp only
    rw [hattempt]
    split
    · exact refused_raise _ s
    · split
      · exact refused_raise _ s
      · split
        · exact refused_raise _ s
        · rename_i running hrunning
          have hsame : running = attempt := by
            have := (Option.filter_eq_some_iff.mp hrunning).1
            exact (Option.some.inj this).symm
          subst hsame
          split
          · exact refused_raise _ s
          · rw [requireLease_stale running.ownerId _ hlease hstale]
            exact refused_raise _ s

/-- What `acquire_lease` returns is the lease it leaves. -/
theorem acquireLease_ok {env : Env} {submissionId ownerId : String} {ttlSeconds : Int}
    {lease : LeaseRecord}
    (h : (acquireLease env ctx submissionId ownerId ttlSeconds s).result = .ok lease) :
    lease.ownerId = ownerId ∧
      (acquireLease env ctx submissionId ownerId ttlSeconds s).store.leases.get?
        (key ctx submissionId) = some lease := by
  revert h
  unfold acquireLease
  dsimp only
  split
  · intro h
    cases h
  · split
    · intro h
      cases h
    · split
      · intro h
        cases h
      · split
        · intro h
          cases h
        · intro h
          cases h
          exact ⟨rfl, Dict.get?_set_self _ _ _⟩

/-- Once a token is granted, every older one is refused for good, and the token is
never granted to another owner. -/
theorem granted_token_fences (host : Host) (limit : Option Int) (before after : List Event)
    (ctx : ControlPlaneContext) (submissionId ownerId : String) (ttlSeconds : Int) (env : Env)
    (lease : LeaseRecord)
    (hgrant : (acquireLease env ctx submissionId ownerId ttlSeconds
      (reached host limit before)).result = .ok lease) :
    (∀ (e : Event) (token : Int), token < lease.fencingToken →
      e.call.fence? (reached host limit
        (before ++ ⟨env, .acquireLease ctx submissionId ownerId ttlSeconds⟩ :: after)) =
          some (key ctx submissionId, token) →
      (e.outcome host (reached host limit
        (before ++ ⟨env, .acquireLease ctx submissionId ownerId ttlSeconds⟩ :: after))).Refused
          (reached host limit
            (before ++ ⟨env, .acquireLease ctx submissionId ownerId ttlSeconds⟩ :: after))) ∧
    (∀ (ctx' : ControlPlaneContext) (submissionId' ownerId' : String) (ttlSeconds' : Int)
      (env' : Env) (lease' : LeaseRecord), key ctx' submissionId' = key ctx submissionId →
      (acquireLease env' ctx' submissionId' ownerId' ttlSeconds' (reached host limit
        (before ++ ⟨env, .acquireLease ctx submissionId ownerId ttlSeconds⟩ :: after))).result =
          .ok lease' →
      lease'.fencingToken = lease.fencingToken → ownerId' = ownerId) := by
  obtain ⟨howner, hstored⟩ := acquireLease_ok hgrant
  have hlinked : Linked (reached host limit before) := reached_linked host limit before
  have hlinked' : Linked (acquireLease env ctx submissionId ownerId ttlSeconds
      (reached host limit before)).store := next_linked host ⟨env, .acquireLease ctx submissionId
        ownerId ttlSeconds⟩ hlinked
  have hsplit : reached host limit
      (before ++ ⟨env, .acquireLease ctx submissionId ownerId ttlSeconds⟩ :: after) =
      run host (acquireLease env ctx submissionId ownerId ttlSeconds
        (reached host limit before)).store after :=
    reached_append host limit before _
  rw [hsplit]
  obtain ⟨later, hlater, hgrown⟩ := run_fencesGrow host after hlinked'
    (key ctx submissionId) lease hstored
  refine ⟨fun e token hstale hfence => stale_refused hlater ?_ hfence, ?_⟩
  · rcases hgrown with hlt | ⟨heq, -⟩
    · exact hstale.trans hlt
    · exact heq ▸ hstale
  · intro ctx' submissionId' ownerId' ttlSeconds' env' lease' hkey hgrant' htoken
    -- the second grant is one more step of the same run
    obtain ⟨howner', hstored'⟩ := acquireLease_ok hgrant'
    obtain ⟨last, hlast, hgrown'⟩ := run_fencesGrow host
      (after ++ [⟨env', .acquireLease ctx' submissionId' ownerId' ttlSeconds'⟩]) hlinked'
      (key ctx submissionId) lease hstored
    rw [run, Runs.run_append_singleton] at hlast
    rw [hkey] at hstored'
    have hsame : last = lease' := Option.some.inj (hlast.symm.trans hstored')
    subst hsame
    rcases hgrown' with hlt | ⟨-, hsameOwner⟩
    · omega
    · rw [← howner', ← howner, hsameOwner]

section Sample

/-- One worker holds a lease that expires. -/
def expiredLease : List Event :=
  [⟨sampleEnv 'a' 0, .accept sampleContext (sampleAccept "a" "local" none)⟩,
    ⟨sampleEnv 'b' 1, .acquireLease sampleContext "a" "one" 60⟩]

def takeover : Event := ⟨sampleEnv 'c' 100, .acquireLease sampleContext "a" "two" 60⟩

def lateHeartbeat : Event := ⟨sampleEnv 'd' 101, .heartbeat sampleContext "a" "one" 1 60⟩

/-- The heartbeat under the expired lease is refused once another worker took over. -/
theorem granted_token_fences_takeover :
    (lateHeartbeat.outcome sampleHost
      (reached sampleHost none (expiredLease ++ takeover :: []))).Refused
        (reached sampleHost none (expiredLease ++ takeover :: [])) :=
  (granted_token_fences sampleHost none expiredLease [] sampleContext "a" "two" 60
    (sampleEnv 'c' 100) ⟨"a", ⟨"acme", "main"⟩, "two", 2, seconds 100, seconds 160, seconds 100⟩
    (Outcome.result_eq_ok (by decide +kernel))).1 lateHeartbeat 1 (by decide) rfl

end Sample

end Etlantic.ControlPlane.Durable
