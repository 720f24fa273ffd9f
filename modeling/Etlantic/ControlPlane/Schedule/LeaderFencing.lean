import Etlantic.Base.Evolves
import Etlantic.ControlPlane.Schedule.Calls

/-!
# Leader leases

Schedulers compete for the leader lease of a scope.  Whatever they and all other callers
do, a token never has two leaders, and a leader that was replaced is refused.
-/

namespace Etlantic.ControlPlane.Schedule

open Durable (Env)

/-- The scope and the token that a leader presents. -/
def Call.leaderFence? : Call → Option (Scope × Int)
  | .heartbeatLeader ctx _ fencingToken _ => some (ctx.scopeKey, fencingToken)
  | .releaseLeader ctx _ fencingToken => some (ctx.scopeKey, fencingToken)
  | .claimFiring ctx request =>
      if request.requireLeaderLease then some (ctx.scopeKey, request.fencingToken) else none
  | _ => none

/-- No leader has the token of the scope: the leader check raises, and a call that presents
the token changes nothing. -/
def Refuses (host : ScheduleHost) (s : Stores) (scope : Scope) (token : Int) : Prop :=
  (∀ owner now, s.requireLeader scope owner token now =
    .error (conflict "Stale or invalid scheduler leader lease")) ∧
  ∀ e : Event, e.call.leaderFence? = some (scope, token) → next host s e = s

/-- What holds between an earlier and a later state of a run. -/
structure LeaderFenced (host : ScheduleHost) (s t : Stores) : Prop where
  one_leader : ∀ scope owner owner' token now now' lease lease',
    s.requireLeader scope owner token now = .ok lease →
      t.requireLeader scope owner' token now' = .ok lease' → owner = owner'
  refused : ∀ scope lease (token : Int), s.leaders.get? scope = some lease →
    token < lease.fencingToken → Refuses host t scope token

variable {host : ScheduleHost} {env : Env} {s t : Stores} {scope : Scope} {ownerId : String}
  {token : Int} {now : Instant} {lease : SchedulerLeaderLease}

theorem requireLeader_eq_ok (h : s.requireLeader scope ownerId token now = .ok lease) :
    s.leaders.get? scope = some lease ∧ lease.ownerId = ownerId ∧ lease.fencingToken = token := by
  unfold Stores.requireLeader at h
  split at h
  · cases h
  · split at h
    · cases h
    · rename_i hget hvalid
      obtain rfl := Except.ok.inj h
      push Not at hvalid
      exact ⟨hget, hvalid.1, hvalid.2.1⟩

/-- The leader leases only grow in their tokens. -/
abbrev LeadersGrow (s t : Stores) : Prop :=
  s.leaders.Evolves (Fences SchedulerLeaderLease.fencingToken SchedulerLeaderLease.ownerId) t.leaders

theorem exec_grows (call : Call) : LeadersGrow s (call.exec host env s) := by
  cases call with
  | acquireLeaderLease =>
      simp only [Call.exec, acquireLeaderLease]
      split
      · rename_i hnone
        exact .add Fences.refl hnone
      · rename_i current hget
        split
        · exact .replace Fences.refl hget (.inl (Nat.lt_succ_self _))
        · split
          · exact .refl Fences.refl _
          · exact .replace Fences.refl hget (.inr ⟨rfl, rfl⟩)
  | heartbeatLeader =>
      simp only [Call.exec, heartbeatLeader]
      split
      · exact .refl Fences.refl _
      · rename_i hleads
        exact .replace Fences.refl (requireLeader_eq_ok hleads).1 (.inr ⟨rfl, rfl⟩)
  | releaseLeader =>
      simp only [Call.exec, releaseLeader]
      split
      · exact .refl Fences.refl _
      · rename_i hleads
        exact .replace Fences.refl (requireLeader_eq_ok hleads).1 (.inr ⟨rfl, rfl⟩)
  | _ =>
      -- No other call touches the leases.
      simp only [Call.exec, create, pause, resume, delete, setStatus, amend, transferTimerOwner,
        claimFiring, claimNew, storeClaim, acquireFiringPreparation, updateFiringMetadata,
        releaseFiringPreparation, beginFiringSubmission, rejectFiringSubmission,
        failFiringAfterCompensatedSubmission, failFiringPreparation, linkFiringSubmission,
        storeFiring]
      repeat' split
      all_goals exact .refl Fences.refl _

theorem run_grows (host : ScheduleHost) (s : Stores) (es : List Event) :
    LeadersGrow s (run host s es) :=
  Runs.related (I := fun _ => True) (R := LeadersGrow) (fun _ => .refl Fences.refl _)
    (.trans Fences.trans) (fun _ _ _ _ => trivial)
    (fun _ (e : Event) _ _ => exec_grows e.call) trivial (Runs.guarded_true s es)

/-- A token other than that of the lease is refused. -/
theorem refuses_of_ne (hget : s.leaders.get? scope = some lease)
    (hstale : lease.fencingToken ≠ token) : Refuses host s scope token := by
  have hrefused : ∀ owner now, s.requireLeader scope owner token now =
      .error (conflict "Stale or invalid scheduler leader lease") := by
    intro owner now
    unfold Stores.requireLeader
    rw [hget]
    exact if_pos (.inr (.inl hstale))
  refine ⟨hrefused, ?_⟩
  rintro ⟨env, call⟩ hfence
  cases call with
  | heartbeatLeader =>
      obtain ⟨rfl, rfl⟩ := Prod.mk.inj (Option.some.inj hfence)
      simp only [next, Call.exec, heartbeatLeader, hrefused, raise]
  | releaseLeader =>
      obtain ⟨rfl, rfl⟩ := Prod.mk.inj (Option.some.inj hfence)
      simp only [next, Call.exec, releaseLeader, hrefused, raise]
  | claimFiring ctx request =>
      simp only [Call.leaderFence?] at hfence
      split at hfence
      · rename_i hrequired
        obtain ⟨rfl, rfl⟩ := Prod.mk.inj (Option.some.inj hfence)
        simp only [next, Call.exec, claimFiring, leaderError, hrequired, hrefused]
        split <;> rfl
      · cases hfence
  | _ => cases hfence

/-- Over every run, from any state and with any callers, a token of a scope has one leader,
and it is refused once a larger one was granted. -/
theorem leader_fenced (host : ScheduleHost) (s : Stores) (es : List Event) :
    LeaderFenced host s (run host s es) where
  one_leader := by
    intro scope owner owner' token now now' lease lease' h h'
    obtain ⟨hget, rfl, htoken⟩ := requireLeader_eq_ok h
    obtain ⟨hget', rfl, htoken'⟩ := requireLeader_eq_ok h'
    obtain ⟨later, hlater, hgrows⟩ := run_grows host s es scope lease hget
    obtain rfl := Option.some.inj (hlater.symm.trans hget')
    exact hgrows.elim (fun hlt => by omega) And.right
  refused := by
    intro scope lease token hget hlt
    obtain ⟨later, hlater, hgrows⟩ := run_grows host s es scope lease hget
    have hle : lease.fencingToken ≤ later.fencingToken := hgrows.elim le_of_lt fun h => h.1.le
    exact refuses_of_ne hlater (by omega)

end Etlantic.ControlPlane.Schedule
