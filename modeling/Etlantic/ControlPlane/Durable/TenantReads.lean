import Etlantic.ControlPlane.Durable.TenantSweeps

/-!
# Readers, in the rows of one tenant

A reader finds the same in the rows of its caller's tenant as in the whole
store, and writes nothing.
-/

namespace Etlantic.ControlPlane.Durable

variable {s : Store} {host : Host} {env : Env} {ctx : ControlPlaneContext}

theorem found_mirrors {α : Type} {tenantId : String} (record : Option α) (detail : String) :
    Mirrors tenantId s (found record detail s) (found record detail (s.ofTenant tenantId)) := by
  unfold found
  split
  · exact .raise _ .refl
  · exact .ret .refl

theorem scopedRows_tenantRows {ν : Type} {table : Dict Key ν} :
    scopedRows (tenantRows ctx.tenant.tenantId table) ctx.scopeKey =
      scopedRows table ctx.scopeKey :=
  filter_tenantRows fun _ he => isOf_scopeKey (of_decide_eq_true he)

/-! ## Submissions and attempts -/

theorem getSubmission_mirrored (submissionId : String) :
    Mirrored ctx.tenant.tenantId (getSubmission ctx submissionId) s := by
  simp only [Mirrored, getSubmission, ofTenant_submissions, get?_key]
  exact found_mirrors _ _

theorem submissionStatus_mirrored (submissionId : String) :
    Mirrored ctx.tenant.tenantId (submissionStatus ctx submissionId) s := by
  simp only [Mirrored, submissionStatus, ofTenant_submissions, get?_key]
  exact .ret .refl

theorem getSubmissionByIdempotency_mirrored (idempotencyKey operation : String) :
    Mirrored ctx.tenant.tenantId (getSubmissionByIdempotency ctx idempotencyKey operation) s := by
  simp only [Mirrored, getSubmissionByIdempotency, ofTenant_submissions, ofTenant_idempotency,
    get?_idempotencyTuple, get?_key]
  exact .ret .refl

theorem listExecutionScopes_mirrored (afterSubmissionId throughSubmissionId : Option String)
    (limit : Int) :
    Mirrored ctx.tenant.tenantId
      (listExecutionScopes ctx afterSubmissionId throughSubmissionId limit) s := by
  simp only [Mirrored, listExecutionScopes, ofTenant_submissions, scopedRows_tenantRows]
  split
  · exact .raise _ .refl
  · exact .ret .refl

theorem listAttempts_mirrored (submissionId : String) :
    Mirrored ctx.tenant.tenantId (listAttempts ctx submissionId) s := by
  simp only [Mirrored, listAttempts, ofTenant_submissions, ofTenant_attempts, contains_key,
    scopedRows_tenantRows]
  split
  · exact .raise _ .refl
  · exact .ret .refl

/-! ## The outbox and dispatches -/

theorem pendingOutbox_mirrored (query : OutboxQuery) :
    Mirrored ctx.tenant.tenantId (pendingOutbox ctx query) s := by
  have hpending : isPendingOutbox (s.ofTenant ctx.tenant.tenantId) ctx.scopeKey query =
      isPendingOutbox s ctx.scopeKey query := by
    funext row
    simp only [isPendingOutbox, ofTenant_submissions, get?_scopeKey]
  simp only [Mirrored, pendingOutbox, ofTenant_outbox, scopedRows_tenantRows, hpending]
  split
  · exact .raise _ .refl
  · exact .ret .refl

theorem getDispatch_mirrored (submissionId : String) :
    Mirrored ctx.tenant.tenantId (getDispatch ctx submissionId) s := by
  simp only [Mirrored, getDispatch, ofTenant_dispatches, get?_key]
  exact found_mirrors _ _

theorem dispatchedForReconciliation_mirrored (route : String) (limit : Int)
    (afterSubmissionId : Option String) :
    Mirrored ctx.tenant.tenantId
      (dispatchedForReconciliation ctx route limit afterSubmissionId) s := by
  have hrows : (scopedRows s.dispatches ctx.scopeKey).filter
        (isReconcilable (s.ofTenant ctx.tenant.tenantId) route afterSubmissionId) =
      (scopedRows s.dispatches ctx.scopeKey).filter
        (isReconcilable s route afterSubmissionId) := by
    refine List.filter_congr fun e he => ?_
    have hscope : e.1.scope = ctx.scopeKey := of_decide_eq_true (List.mem_filter.mp he).2
    simp only [isReconcilable, ofTenant_submissions, get?_tenantRows (isOf_scopeKey hscope)]
  simp only [Mirrored, dispatchedForReconciliation, ofTenant_dispatches, scopedRows_tenantRows,
    hrows]
  split
  · exact .raise _ .refl
  split
  · exact .raise _ .refl
  split
  · exact .raise _ .refl
  · exact .ret .refl

theorem pendingDispatches_mirrored (route : String) (limit : Int) :
    Mirrored ctx.tenant.tenantId (pendingDispatches env ctx route limit) s := by
  have hpending : isPendingDispatch (s.ofTenant ctx.tenant.tenantId) ctx.scopeKey route
      (env.now [0]) = isPendingDispatch s ctx.scopeKey route (env.now [0]) := by
    funext row
    simp only [isPendingDispatch, ofTenant_submissions, ofTenant_dispatches, get?_scopeKey]
  simp only [Mirrored, pendingDispatches, unpublishedRows_ofTenant scopeKey_tenantId, hpending]
  split
  · exact .raise _ .refl
  split
  · exact .raise _ .refl
  split
  · exact .raise _ .refl
  · exact .ret .refl

theorem getExecutionRouteState_mirrored (route : String) :
    Mirrored ctx.tenant.tenantId (getExecutionRouteState route) s := by
  simp only [Mirrored, getExecutionRouteState, readPrefectRoute, routeState_ofTenant]
  split
  · exact .raise _ .refl
  split
  · exact .raise _ .refl
  · exact .ret .refl

/-! ## Result publications -/

theorem getLatestResultPublication_mirrored (submissionId : String) :
    Mirrored ctx.tenant.tenantId (getLatestResultPublication host ctx submissionId) s := by
  have hown : ∀ e : PublicationKey × ResultPublicationRecord,
      (decide (e.1.scope = ctx.scopeKey) && decide (e.1.submissionId = submissionId)) = true →
      isOf ctx.tenant.tenantId e.1 = true := by
    intro e he
    simp only [Bool.and_eq_true, decide_eq_true_eq] at he
    exact decide_eq_true (congrArg Scope.tenantId he.1)
  simp only [Mirrored, getLatestResultPublication, ofTenant_resultPublications,
    filter_tenantRows hown]
  split
  · exact .raise _ .refl
  · exact .ret .refl

theorem pendingResultPublications_mirrored (limit : Int) :
    Mirrored ctx.tenant.tenantId (pendingResultPublications ctx limit) s := by
  have hown : ∀ e : PublicationKey × ResultPublicationRecord,
      (decide (e.1.scope = ctx.scopeKey) && decide (e.2.publishedAt = none)) = true →
      isOf ctx.tenant.tenantId e.1 = true := by
    intro e he
    simp only [Bool.and_eq_true, decide_eq_true_eq] at he
    exact decide_eq_true (congrArg Scope.tenantId he.1)
  simp only [Mirrored, pendingResultPublications, ofTenant_resultPublications,
    filter_tenantRows hown]
  split
  · exact .raise _ .refl
  · exact .ret .refl

/-! ## Checkpoints, effects and plans -/

theorem explainTransition_mirrored (checkpointId : String) (expectedVersion : Option Int)
    (valueFingerprint : String) :
    Mirrored ctx.tenant.tenantId
      (explainTransition env ctx checkpointId expectedVersion valueFingerprint) s := by
  simp only [Mirrored, explainTransition, ofTenant_checkpoints, get?_key]
  split
  · exact .raise _ .refl
  · exact .ret .refl

theorem getEffect_mirrored (effectId : String) :
    Mirrored ctx.tenant.tenantId (getEffect ctx effectId) s := by
  simp only [Mirrored, getEffect, ofTenant_effects, get?_key]
  exact found_mirrors _ _

theorem checkpointDiffers_ofTenant {source : SubmissionRecord} {submissionId : String}
    {checkpointId : Option String} {mismatch : PyError} :
    checkpointDiffers ctx source submissionId checkpointId mismatch
        (s.ofTenant ctx.tenant.tenantId) =
      checkpointDiffers ctx source submissionId checkpointId mismatch s := by
  simp only [checkpointDiffers, ofTenant_checkpoints, get?_key]

theorem replay_mirrored (submissionId : String) (checkpointId : Option String) :
    Mirrored ctx.tenant.tenantId (replay env ctx submissionId checkpointId) s := by
  simp only [Mirrored, replay, ofTenant_submissions, get?_key, checkpointDiffers_ofTenant]
  split
  · exact .raise _ .refl
  split
  · exact .raise _ .refl
  · exact .ret .refl

theorem repairPlan_mirrored (submissionId : String) (request : RepairRequest) :
    Mirrored ctx.tenant.tenantId (repairPlan env ctx submissionId request) s := by
  simp only [Mirrored, repairPlan, ofTenant_submissions, get?_key, checkpointDiffers_ofTenant]
  split
  · exact .raise _ .refl
  split
  · exact .raise _ .refl
  · exact .ret .refl

theorem planBackfill_mirrored (submissionId : String) (partitionIds : List String)
    (checkpointId : Option String) :
    Mirrored ctx.tenant.tenantId (planBackfill env ctx submissionId partitionIds checkpointId)
      s := by
  simp only [Mirrored, planBackfill]
  split
  · exact .raise _ .refl
  · exact repairPlan_mirrored _ _

/-! ## Action jobs -/

theorem getActionJob_mirrored (actionId : String) :
    Mirrored ctx.tenant.tenantId (getActionJob host ctx actionId) s := by
  simp only [Mirrored, getActionJob, ofTenant_actionJobs, get?_key]
  exact found_mirrors _ _

theorem getActionJobByIdempotency_mirrored (action idempotencyKey : String) :
    Mirrored ctx.tenant.tenantId (getActionJobByIdempotency host ctx action idempotencyKey) s := by
  simp only [Mirrored, getActionJobByIdempotency, actionOfTuple, actionIdem,
    ofTenant_actionIdempotency, ofTenant_actionJobs, get?_actionIdempotencyTuple, get?_key]
  exact .ret .refl

theorem listActionJobs_mirrored (after : Option (String × String)) (limit : Int) :
    Mirrored ctx.tenant.tenantId (listActionJobs host ctx after limit) s := by
  simp only [Mirrored, listActionJobs, ofTenant_actionJobs, scopedRows_tenantRows]
  split
  · exact .raise _ .refl
  · exact .ret .refl

end Etlantic.ControlPlane.Durable
