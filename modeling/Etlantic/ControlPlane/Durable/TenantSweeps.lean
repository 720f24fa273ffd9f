import Etlantic.ControlPlane.Durable.ActionJobs
import Etlantic.ControlPlane.Durable.TenantWrites

/-!
# Sweeps, in the rows of one tenant

The loops of the store.  A loop over a whole table passes over the rows of other
scopes, so it does on the rows of one tenant what it does on all of them; a loop
over the rows of a scope sees the same rows in both.
-/

namespace Etlantic.ControlPlane.Durable

variable {tenantId : String} {s t t' : Store} {host : Host} {env : Env}
  {ctx : ControlPlaneContext}

theorem isOf_scope {scope : Scope} (hscope : scope.tenantId = tenantId) {k : Key}
    (hk : k.scope = scope) : isOf tenantId k = true :=
  decide_eq_true ((congrArg Scope.tenantId hk).trans hscope)

theorem scopeKey_tenantId : ctx.scopeKey.tenantId = ctx.tenant.tenantId := rfl

/-! ## Outbox rows -/

theorem ackRows_moved {at_ : Nat → Instant} {scope : Scope} {submissionId : String}
    (hscope : scope.tenantId = tenantId) (rows : List (Key × OutboxRecord)) (n : Nat)
    (h : Moved tenantId s t t') :
    Moved tenantId s (ackRows at_ scope submissionId n rows t)
      (ackRows at_ scope submissionId n (rows.filter fun e => isOf tenantId e.1) t') := by
  induction rows generalizing n t t' with
  | nil => exact h
  | cons e rest ih =>
      obtain ⟨k, row⟩ := e
      by_cases hrow : k.scope = scope ∧ row.submissionId = submissionId ∧ row.publishedAt = none
      · have hk : isOf tenantId k = true := isOf_scope hscope hrow.1
        rw [List.filter_cons_of_pos (by exact hk)]
        simp only [ackRows, if_pos hrow]
        exact ih _ (h.outbox hk)
      · by_cases hk : isOf tenantId k = true
        · rw [List.filter_cons_of_pos (by exact hk)]
          simp only [ackRows, if_neg hrow]
          exact ih n h
        · rw [List.filter_cons_of_neg (by exact hk)]
          simp only [ackRows, if_neg hrow]
          exact ih n h

theorem ackSubmissionOutbox_moved {at_ : Nat → Instant} {scope : Scope} {submissionId : String}
    (hscope : scope.tenantId = tenantId) (h : Moved tenantId s t t') :
    Moved tenantId s (ackSubmissionOutbox at_ scope submissionId t)
      (ackSubmissionOutbox at_ scope submissionId t') := by
  have hloop : Moved tenantId s (ackRows at_ scope submissionId 0 t.outbox.entries t)
      (ackRows at_ scope submissionId 0
        (t.outbox.entries.filter fun e => isOf tenantId e.1) t') :=
    ackRows_moved hscope t.outbox.entries 0 h
  rw [h.store] at hloop ⊢
  exact hloop

theorem unpublishedRows_ofTenant {scope : Scope} (hscope : scope.tenantId = tenantId) :
    unpublishedRows (s.ofTenant tenantId) scope = unpublishedRows s scope := by
  unfold unpublishedRows
  congr 1
  refine filter_tenantRows fun e he => ?_
  have hboth : e.1.scope = scope ∧ e.2.publishedAt = none := by simpa using he
  exact isOf_scope hscope hboth.1

/-- The outcome of a loop that collects rows. -/
structure SweptAlike {α : Type} (tenantId : String) (s : Store) (done done' : α × Store) :
    Prop where
  value : done'.1 = done.1
  moved : Moved tenantId s done.2 done'.2

theorem reconcileTerminalRows_alike {scope : Scope} {limit : Int}
    (hscope : scope.tenantId = tenantId) (rows : List (Key × OutboxRecord))
    (hrows : ∀ e ∈ rows, isOf tenantId e.1 = true) (reconciled : List OutboxRecord)
    (h : Moved tenantId s t t') :
    SweptAlike tenantId s (reconcileTerminalRows env scope limit rows reconciled t)
      (reconcileTerminalRows env scope limit rows reconciled t') := by
  induction rows generalizing reconciled t t' with
  | nil => exact ⟨rfl, h⟩
  | cons e rest ih =>
      obtain ⟨k, row⟩ := e
      have hrest : ∀ e ∈ rest, isOf tenantId e.1 = true := fun e he =>
        hrows e (List.mem_cons_of_mem _ he)
      have hget : t'.submissions.get? ⟨scope, row.submissionId⟩ =
          t.submissions.get? ⟨scope, row.submissionId⟩ := by
        rw [h.store]
        exact get?_tenantRows (isOf_scope hscope rfl)
      simp only [reconcileTerminalRows, hget]
      split
      · exact ⟨rfl, h⟩
      split
      · exact ih hrest _ h
      split
      · exact ih hrest _ h
      · exact ih hrest _ (h.outbox (hrows _ List.mem_cons_self))

theorem reconcileTerminalOutbox_mirrored (limit : Int) :
    Mirrored ctx.tenant.tenantId (reconcileTerminalOutbox env ctx limit) s := by
  have hrows : ∀ e ∈ unpublishedRows s ctx.scopeKey, isOf ctx.tenant.tenantId e.1 = true := by
    intro e he
    obtain ⟨-, hselected⟩ := List.mem_filter.mp (List.mem_insertionSort _ |>.mp he)
    have hboth : e.1.scope = ctx.scopeKey ∧ e.2.publishedAt = none := by simpa using hselected
    exact isOf_scopeKey hboth.1
  have hloop : SweptAlike ctx.tenant.tenantId s
      (reconcileTerminalRows env ctx.scopeKey limit (unpublishedRows s ctx.scopeKey) [] s)
      (reconcileTerminalRows env ctx.scopeKey limit (unpublishedRows s ctx.scopeKey) []
        (s.ofTenant ctx.tenant.tenantId)) :=
    reconcileTerminalRows_alike scopeKey_tenantId _ hrows [] .refl
  simp only [Mirrored, reconcileTerminalOutbox, unpublishedRows_ofTenant scopeKey_tenantId]
  exact ⟨congrArg Except.ok hloop.value, hloop.moved⟩

/-! ## Attempts -/

theorem isOf_running {k attemptKey : Key} {attempt : AttemptRecord} (hk : isOf tenantId k = true)
    (h : isRunningAttemptOf k attemptKey attempt = true) : isOf tenantId attemptKey = true := by
  have hscope : attemptKey.scope = k.scope := by
    simp only [isRunningAttemptOf, Bool.and_eq_true, decide_eq_true_eq] at h
    exact h.1.1
  exact isOf_scope (of_decide_eq_true hk) hscope

theorem loseOlderAttempts_mirrors {at_ : Nat → Instant} {k : Key} {fencingToken : Int}
    (hk : isOf tenantId k = true) (rows : List (Key × AttemptRecord)) (n : Nat)
    (h : Moved tenantId s t t') :
    Mirrors tenantId s (loseOlderAttempts at_ k fencingToken n rows t)
      (loseOlderAttempts at_ k fencingToken n (rows.filter fun e => isOf tenantId e.1) t') := by
  induction rows generalizing n t t' with
  | nil => exact .ret h
  | cons e rest ih =>
      obtain ⟨attemptKey, attempt⟩ := e
      by_cases hrow : isRunningAttemptOf k attemptKey attempt = true
      · have hown : isOf tenantId attemptKey = true := isOf_running hk hrow
        rw [List.filter_cons_of_pos (by exact hown)]
        simp only [loseOlderAttempts, if_pos hrow]
        split
        · exact .raise _ h
        · exact ih _ (h.attempts hown)
      · by_cases hown : isOf tenantId attemptKey = true
        · rw [List.filter_cons_of_pos (by exact hown)]
          simp only [loseOlderAttempts, if_neg hrow]
          exact ih n h
        · rw [List.filter_cons_of_neg (by exact hown)]
          simp only [loseOlderAttempts, if_neg hrow]
          exact ih n h

theorem startAttempt_mirrored (submissionId ownerId : String) (fencingToken : Int)
    (context : List (String × Json)) :
    Mirrored ctx.tenant.tenantId
      (startAttempt host env ctx submissionId ownerId fencingToken context) s := by
  have hloop : Mirrors ctx.tenant.tenantId s
      (loseOlderAttempts (fun n => env.now [1, n]) (key ctx submissionId) fencingToken 0
        s.attempts.entries s)
      (loseOlderAttempts (fun n => env.now [1, n]) (key ctx submissionId) fencingToken 0
        (tenantRows ctx.tenant.tenantId s.attempts).entries (s.ofTenant ctx.tenant.tenantId)) :=
    loseOlderAttempts_mirrors (isOf_scopeKey rfl) _ 0 .refl
  simp only [Mirrored, startAttempt, ofTenant_submissions, ofTenant_attempts, get?_key,
    requireLease_ofTenant, hloop.result]
  split
  · exact .raise _ .refl
  split
  · exact .raise _ .refl
  split
  · exact .raise _ .refl
  split
  · exact .raise _ .refl
  split
  · exact .raise _ hloop.moved
  · exact .ret (hloop.moved.attempts (isOf_scopeKey rfl))

theorem loseRunningAttempts_moved {now : Instant} {k : Key} (hk : isOf tenantId k = true)
    (rows : List (Key × AttemptRecord)) (h : Moved tenantId s t t') :
    Moved tenantId s (loseRunningAttempts now k rows t)
      (loseRunningAttempts now k (rows.filter fun e => isOf tenantId e.1) t') := by
  induction rows generalizing t t' with
  | nil => exact h
  | cons e rest ih =>
      obtain ⟨attemptKey, attempt⟩ := e
      by_cases hrow : isRunningAttemptOf k attemptKey attempt = true
      · have hown : isOf tenantId attemptKey = true := isOf_running hk hrow
        rw [List.filter_cons_of_pos (by exact hown)]
        simp only [loseRunningAttempts, if_pos hrow]
        exact ih (h.attempts hown)
      · by_cases hown : isOf tenantId attemptKey = true
        · rw [List.filter_cons_of_pos (by exact hown)]
          simp only [loseRunningAttempts, if_neg hrow]
          exact ih h
        · rw [List.filter_cons_of_neg (by exact hown)]
          simp only [loseRunningAttempts, if_neg hrow]
          exact ih h

/-! ## Cancelled submissions -/

theorem recordUnknownEffect_moved {scope : Scope} {submissionId : String} {now : Instant}
    (hscope : scope.tenantId = tenantId) (h : Moved tenantId s t t') :
    Moved tenantId s (recordUnknownEffect scope submissionId now t)
      (recordUnknownEffect scope submissionId now t') := by
  have hk : isOf tenantId (⟨scope, executionEffectId submissionId⟩ : Key) = true :=
    isOf_scope hscope rfl
  have hget : t'.effects.get? ⟨scope, executionEffectId submissionId⟩ =
      t.effects.get? ⟨scope, executionEffectId submissionId⟩ := by
    rw [h.store]
    exact get?_tenantRows hk
  simp only [recordUnknownEffect, hget]
  split
  · exact h
  · exact h.effects hk

theorem cancelDispatch_moved {k : Key} {now : Instant} (hk : isOf tenantId k = true)
    (h : Moved tenantId s t t') :
    Moved tenantId s (cancelDispatch k now t) (cancelDispatch k now t') := by
  have hget : t'.dispatches.get? k = t.dispatches.get? k := by
    rw [h.store]
    exact get?_tenantRows hk
  simp only [cancelDispatch, hget]
  split
  · exact h
  split
  · exact h.dispatches hk
  · exact h

theorem finalizeCancellation_moved {row : Nat} {now : Instant} {acknowledgeOutbox : Bool}
    {k : Key} {submission : SubmissionRecord} (hk : isOf tenantId k = true)
    (h : Moved tenantId s t t') :
    Moved tenantId s (finalizeCancellation env row now acknowledgeOutbox k submission t)
      (finalizeCancellation env row now acknowledgeOutbox k submission t') := by
  have hscope : k.scope.tenantId = tenantId := of_decide_eq_true hk
  have hown : isOf tenantId (⟨k.scope, submission.submissionId⟩ : Key) = true := hk
  have hrunning : t'.hasRunningAttempt ⟨k.scope, submission.submissionId⟩ =
      t.hasRunningAttempt ⟨k.scope, submission.submissionId⟩ := by
    rw [h.store]
    exact hasRunningAttempt_ofTenant hown
  have hlost : Moved tenantId s
      (loseRunningAttempts now ⟨k.scope, submission.submissionId⟩ t.attempts.entries t)
      (loseRunningAttempts now ⟨k.scope, submission.submissionId⟩ t'.attempts.entries t') := by
    have hloop : Moved tenantId s
        (loseRunningAttempts now ⟨k.scope, submission.submissionId⟩ t.attempts.entries t)
        (loseRunningAttempts now ⟨k.scope, submission.submissionId⟩
          (t.attempts.entries.filter fun e => isOf tenantId e.1) t') :=
      loseRunningAttempts_moved hown t.attempts.entries h
    rw [h.store] at hloop ⊢
    exact hloop
  simp only [finalizeCancellation, hrunning]
  have heffect : Moved tenantId s
      (recordUnknownEffect k.scope submission.submissionId (env.now [1, row])
        (loseRunningAttempts now ⟨k.scope, submission.submissionId⟩ t.attempts.entries t))
      (recordUnknownEffect k.scope submission.submissionId (env.now [1, row])
        (loseRunningAttempts now ⟨k.scope, submission.submissionId⟩ t'.attempts.entries t')) :=
    recordUnknownEffect_moved hscope hlost
  split <;> split
  · exact ackSubmissionOutbox_moved hscope (cancelDispatch_moved hk (heffect.submissions hk))
  · exact ackSubmissionOutbox_moved hscope (cancelDispatch_moved hk (hlost.submissions hk))
  · exact cancelDispatch_moved hk (heffect.submissions hk)
  · exact cancelDispatch_moved hk (hlost.submissions hk)

theorem reconcileCancelledRows_alike {now : Instant} {limit : Int} {acknowledgeOutbox : Bool}
    (rows : List (Key × SubmissionRecord)) (hrows : ∀ e ∈ rows, isOf tenantId e.1 = true)
    (reconciled : List SubmissionRecord) (h : Moved tenantId s t t') :
    SweptAlike tenantId s
      (reconcileCancelledRows env now limit acknowledgeOutbox rows reconciled t)
      (reconcileCancelledRows env now limit acknowledgeOutbox rows reconciled t') := by
  induction rows generalizing reconciled t t' with
  | nil => exact ⟨rfl, h⟩
  | cons e rest ih =>
      obtain ⟨k, submission⟩ := e
      have hk : isOf tenantId k = true := hrows _ List.mem_cons_self
      have hrest : ∀ e ∈ rest, isOf tenantId e.1 = true := fun e he =>
        hrows e (List.mem_cons_of_mem _ he)
      have hwaits : cancellationWaits t' k now = cancellationWaits t k now := by
        rw [h.store]
        simp only [cancellationWaits, leaseLive_ofTenant hk, ofTenant_dispatches,
          get?_tenantRows hk]
      simp only [reconcileCancelledRows, hwaits]
      split
      · exact ⟨rfl, h⟩
      split
      · exact ih hrest _ h
      · exact ih hrest _ (finalizeCancellation_moved hk h)

/-- A candidate lies in the scope of the sweep. -/
theorem mem_cancellationCandidates {scope : Scope} {sweep : CancellationSweep}
    {e : Key × SubmissionRecord} (h : e ∈ cancellationCandidates s scope sweep) :
    e.1.scope = scope := by
  obtain ⟨-, hselected⟩ := List.mem_filter.mp ((List.mem_insertionSort _).mp h)
  simp only [Bool.and_eq_true, decide_eq_true_eq] at hselected
  exact hselected.1.1.1

theorem cancellationCandidates_ofTenant {scope : Scope} {sweep : CancellationSweep}
    (hscope : scope.tenantId = tenantId) :
    cancellationCandidates (s.ofTenant tenantId) scope sweep =
      cancellationCandidates s scope sweep := by
  unfold cancellationCandidates
  congr 1
  refine filter_tenantRows fun e he => ?_
  simp only [Bool.and_eq_true, decide_eq_true_eq] at he
  exact isOf_scope hscope he.1.1.1

theorem reconcileCancelledSubmissions_mirrored (sweep : CancellationSweep) :
    Mirrored ctx.tenant.tenantId (reconcileCancelledSubmissions env ctx sweep) s := by
  have hrows : ∀ e ∈ cancellationCandidates s ctx.scopeKey sweep,
      isOf ctx.tenant.tenantId e.1 = true := fun e he =>
    isOf_scopeKey (mem_cancellationCandidates he)
  have hloop : SweptAlike ctx.tenant.tenantId s
      (reconcileCancelledRows env (env.now [0]) sweep.limit sweep.acknowledgeOutbox
        (cancellationCandidates s ctx.scopeKey sweep) [] s)
      (reconcileCancelledRows env (env.now [0]) sweep.limit sweep.acknowledgeOutbox
        (cancellationCandidates s ctx.scopeKey sweep) [] (s.ofTenant ctx.tenant.tenantId)) :=
    reconcileCancelledRows_alike _ hrows [] .refl
  simp only [Mirrored, reconcileCancelledSubmissions,
    cancellationCandidates_ofTenant scopeKey_tenantId]
  split
  · exact .raise _ .refl
  split
  · exact .raise _ .refl
  · exact ⟨congrArg Except.ok hloop.value, hloop.moved⟩

/-! ## Previews -/

theorem cleanupPreviewRows_mirrors {now : Instant} {scope : Scope}
    (hscope : scope.tenantId = tenantId) (rows : List (Key × PreviewWorkspace))
    (cleaned : List PreviewWorkspace) (h : Moved tenantId s t t') :
    Mirrors tenantId s (cleanupPreviewRows host now scope rows cleaned t)
      (cleanupPreviewRows host now scope (rows.filter fun e => isOf tenantId e.1) cleaned t') := by
  induction rows generalizing cleaned t t' with
  | nil => exact .ret h
  | cons e rest ih =>
      obtain ⟨k, preview⟩ := e
      by_cases hrow : k.scope = scope ∧ preview.cleanedAt = none
      · have hk : isOf tenantId k = true := isOf_scope hscope hrow.1
        rw [List.filter_cons_of_pos (by exact hk)]
        simp only [cleanupPreviewRows, if_pos hrow]
        split
        · exact .raise _ h
        · exact ih _ h
        · exact ih _ (h.previews hk)
      · by_cases hk : isOf tenantId k = true
        · rw [List.filter_cons_of_pos (by exact hk)]
          simp only [cleanupPreviewRows, if_neg hrow]
          exact ih _ h
        · rw [List.filter_cons_of_neg (by exact hk)]
          simp only [cleanupPreviewRows, if_neg hrow]
          exact ih _ h

theorem cleanupExpiredPreviews_mirrored :
    Mirrored ctx.tenant.tenantId (cleanupExpiredPreviews host env ctx) s :=
  cleanupPreviewRows_mirrors scopeKey_tenantId s.previews.entries [] .refl

/-! ## Action jobs -/

theorem sweepActions_mirrors {current : Instant} {scope : Scope}
    (hscope : scope.tenantId = tenantId) (rows : List (Key × ActionJobRecord))
    (h : Moved tenantId s t t') :
    Mirrors tenantId s (sweepActions host current scope rows t)
      (sweepActions host current scope (rows.filter fun e => isOf tenantId e.1) t') := by
  induction rows generalizing t t' with
  | nil => exact .ret h
  | cons e rest ih =>
      obtain ⟨k, row⟩ := e
      by_cases hrow : k.scope = scope ∧ isLiveAction row = true
      · have hk : isOf tenantId k = true := isOf_scope hscope hrow.1
        rw [List.filter_cons_of_pos (by exact hk)]
        simp only [sweepActions, if_pos hrow]
        split
        · exact ih (h.actionJobs hk)
        split
        · exact .raise _ h
        · exact ih h
        · exact ih (h.actionJobs hk)
      · by_cases hk : isOf tenantId k = true
        · rw [List.filter_cons_of_pos (by exact hk)]
          simp only [sweepActions, if_neg hrow]
          exact ih h
        · rw [List.filter_cons_of_neg (by exact hk)]
          simp only [sweepActions, if_neg hrow]
          exact ih h

theorem claimableActions_ofTenant {current : Instant} {scope : Scope}
    (hscope : scope.tenantId = tenantId) :
    claimableActions host current scope (s.ofTenant tenantId) =
      claimableActions host current scope s := by
  unfold claimableActions
  congr 2
  refine filter_tenantRows fun e he => ?_
  simp only [Bool.and_eq_true, decide_eq_true_eq] at he
  exact isOf_scope hscope he.1

theorem claimActionJob_mirrored (workerId : String) (leaseSeconds : Int) (now : Option Instant) :
    Mirrored ctx.tenant.tenantId (claimActionJob host env ctx workerId leaseSeconds now) s := by
  have hloop : Mirrors ctx.tenant.tenantId s
      (sweepActions host (now.getD (env.now [0])) ctx.scopeKey s.actionJobs.entries s)
      (sweepActions host (now.getD (env.now [0])) ctx.scopeKey
        (tenantRows ctx.tenant.tenantId s.actionJobs).entries (s.ofTenant ctx.tenant.tenantId)) :=
    sweepActions_mirrors scopeKey_tenantId _ .refl
  have hclaimable : ∀ current, claimableActions host current ctx.scopeKey
      (sweepActions host (now.getD (env.now [0])) ctx.scopeKey
        (tenantRows ctx.tenant.tenantId s.actionJobs).entries
        (s.ofTenant ctx.tenant.tenantId)).store =
      claimableActions host current ctx.scopeKey
        (sweepActions host (now.getD (env.now [0])) ctx.scopeKey s.actionJobs.entries s).store := by
    intro current
    rw [hloop.moved.store]
    exact claimableActions_ofTenant scopeKey_tenantId
  simp only [Mirrored, claimActionJob, ofTenant_actionJobs, hloop.result, hclaimable]
  split
  · exact .raise _ .refl
  split
  · exact .raise _ hloop.moved
  split
  · exact .raise _ hloop.moved
  · exact .ret hloop.moved
  · rename_i rows hrows
    have hscope := (claimableActions_mem hrows List.mem_cons_self).1
    exact .ret (hloop.moved.actionJobs (isOf_scopeKey hscope))

/-- Jobs of the tenant lose their results. -/
theorem clearResults_moved (rows : List (Key × ActionJobRecord))
    (hrows : ∀ e ∈ rows, isOf tenantId e.1 = true) (h : Moved tenantId s t t') :
    Moved tenantId s
      { t with
        actionJobs := rows.foldl
          (fun jobs e => jobs.set e.1 { e.2 with resultJson := none }) t.actionJobs }
      { t' with
        actionJobs := rows.foldl
          (fun jobs e => jobs.set e.1 { e.2 with resultJson := none }) t'.actionJobs } := by
  induction rows generalizing t t' with
  | nil => exact h
  | cons e rest ih =>
      exact ih (fun e he => hrows e (List.mem_cons_of_mem _ he))
        (h.actionJobs (hrows e List.mem_cons_self))

theorem cleanupExpiredActionResults_mirrored (limit : Int) (now : Option Instant) :
    Mirrored ctx.tenant.tenantId (cleanupExpiredActionResults env ctx limit now) s := by
  have hexpired : ∀ e : Key × ActionJobRecord,
      (decide (e.1.scope = ctx.scopeKey) && decide (e.2.resultJson ≠ none) &&
        hasPassed e.2.resultExpiresAt (now.getD (env.now [0]))) = true →
      isOf ctx.tenant.tenantId e.1 = true := by
    intro e he
    simp only [Bool.and_eq_true, decide_eq_true_eq] at he
    exact isOf_scopeKey he.1.1
  simp only [Mirrored, cleanupExpiredActionResults, ofTenant_actionJobs,
    filter_tenantRows hexpired]
  split
  · exact .raise _ .refl
  · refine .ret (clearResults_moved _ (fun e he => ?_) .refl)
    obtain ⟨-, hselected⟩ :=
      List.mem_filter.mp ((List.mem_insertionSort _).mp (List.mem_of_mem_take he))
    exact hexpired e hselected

end Etlantic.ControlPlane.Durable
