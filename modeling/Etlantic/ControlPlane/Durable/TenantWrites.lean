import Etlantic.ControlPlane.Durable.TenantRows

/-!
# Operations on single rows, in the rows of one tenant

Each operation finds the rows it reads under keys of its caller, and writes
under such keys.
-/

namespace Etlantic.ControlPlane.Durable

variable {s : Store} {host : Host} {env : Env} {ctx : ControlPlaneContext}

/-! ## Shared readings -/

section Readings

variable {tenantId : String} {k : Key}

theorem inFlight_ofTenant : (s.ofTenant tenantId).inFlight tenantId = s.inFlight tenantId := by
  refine Dict.count_restrict fun k row h => ?_
  have hboth : k.scope.tenantId = tenantId ∧ row.status.isNonTerminal = true := by simpa using h
  exact decide_eq_true hboth.1

theorem requireLease_ofTenant {id ownerId : String} {token : Int} {now : Instant} :
    (s.ofTenant ctx.tenant.tenantId).requireLease (key ctx id) ownerId token now =
      s.requireLease (key ctx id) ownerId token now := by
  simp only [Store.requireLease, ofTenant_leases, get?_key]

theorem leaseLive_ofTenant (hk : isOf tenantId k = true) {now : Instant} :
    (s.ofTenant tenantId).leaseLive k now = s.leaseLive k now := by
  simp only [Store.leaseLive, ofTenant_leases, get?_tenantRows hk]

theorem hasRunningAttempt_ofTenant (hk : isOf tenantId k = true) :
    (s.ofTenant tenantId).hasRunningAttempt k = s.hasRunningAttempt k := by
  refine Dict.any_restrict fun attemptKey attempt _ h => ?_
  have hscope : attemptKey.scope = k.scope := by
    simp only [Bool.and_eq_true, decide_eq_true_eq] at h
    exact h.1.1
  exact decide_eq_true ((congrArg Scope.tenantId hscope).trans (of_decide_eq_true hk))

/-- The records of a submission lie under the scope they name. -/
theorem executionBegan_ofTenant (hs : Linked s) (hk : isOf tenantId k = true) :
    (s.ofTenant tenantId).executionBegan k = s.executionBegan k := by
  have hown : ∀ {κ : Type} [Scoped κ] (k' : κ) (scope : Scope), scope = Scoped.scope k' →
      scope = k.scope → isOf tenantId k' = true := by
    intro κ _ k' scope hfiled hnamed
    exact decide_eq_true ((congrArg Scope.tenantId (hfiled.symm.trans hnamed)).trans
      (of_decide_eq_true hk))
  unfold Store.executionBegan
  congr 1
  · congr 1
    · refine Dict.any_restrict fun k' row hmem h => ?_
      have hboth : row.submissionId = k.id ∧ row.scope = k.scope := by simpa using h
      exact hown k' row.scope (hs.attempt k' row (Dict.mem_entries_iff.mp hmem)).1 hboth.2
    · refine Dict.any_restrict fun k' row hmem h => ?_
      have hboth : row.submissionId = k.id ∧ row.scope = k.scope := by simpa using h
      exact hown k' row.scope (hs.effect k' row (Dict.mem_entries_iff.mp hmem)).2.1 hboth.2
  · refine Dict.any_restrict fun k' row hmem h => ?_
    have hboth : row.submissionId = k.id ∧ row.scope = k.scope := by simpa using h
    exact hown k' row.scope (hs.publication k' row (Dict.mem_entries_iff.mp hmem)).2.1 hboth.2

end Readings

/-! ## Acceptance and cancellation requests -/

theorem insertAcceptance_mirrored (request : AcceptRequest) (submissionId : String) :
    Mirrored ctx.tenant.tenantId (insertAcceptance host env ctx request submissionId) s := by
  simp only [Mirrored, insertAcceptance]
  exact .ret (((Moved.refl.submissions (isOf_scopeKey rfl)).outbox
    (isOf_scopeKey rfl)).idempotency (decide_eq_true rfl))

theorem accept_mirrored (request : AcceptRequest) :
    Mirrored ctx.tenant.tenantId (accept host env ctx request) s := by
  simp only [Mirrored, accept, ofTenant_idempotency, ofTenant_submissions, ofTenant_admissionLimit,
    get?_idempotencyTuple, get?_key, contains_key, routeState_ofTenant, inFlight_ofTenant]
  split
  · exact .raise _ .refl
  split
  · -- A repeated call of a known tuple writes nothing.
    split
    · exact .raise _ .refl
    simp only [replayAccept]
    split_ifs
    · exact .raise _ .refl
    · exact .raise _ .refl
    · exact .raise _ .refl
    · exact .ret .refl
  · split
    · exact .raise _ .refl
    split
    · exact .raise _ .refl
    split
    · exact insertAcceptance_mirrored _ _
    split
    · exact .raise _ .refl
    · exact insertAcceptance_mirrored _ _

theorem markPublished_mirrored (outboxId : String) :
    Mirrored ctx.tenant.tenantId (markPublished env ctx outboxId) s := by
  simp only [Mirrored, markPublished, ofTenant_outbox, ofTenant_submissions, get?_key]
  split
  · exact .raise _ .refl
  split
  · exact .ret .refl
  split
  · exact .raise _ (Moved.refl.outbox (isOf_scopeKey rfl))
  split
  · exact .ret ((Moved.refl.outbox (isOf_scopeKey rfl)).submissions (isOf_scopeKey rfl))
  · exact .ret (Moved.refl.outbox (isOf_scopeKey rfl))

theorem requestCancellation_moved {k : Key} (hk : isOf ctx.tenant.tenantId k = true)
    (submission : SubmissionRecord) :
    Moved ctx.tenant.tenantId s (requestCancellation k submission s)
      (requestCancellation k submission (s.ofTenant ctx.tenant.tenantId)) := by
  simp only [requestCancellation]
  split
  · exact .refl
  · exact Moved.refl.submissions hk

theorem cancelSubmission_mirrored (submissionId : String) :
    Mirrored ctx.tenant.tenantId (cancelSubmission env ctx submissionId) s := by
  simp only [Mirrored, cancelSubmission, ofTenant_submissions, get?_key]
  split
  · exact .raise _ .refl
  rename_i submission hget
  split
  · exact .raise _ .refl
  have hmoved := requestCancellation_moved (s := s) (k := key ctx submissionId)
    (isOf_scopeKey rfl) submission
  simp only [hmoved.store, ofTenant_leases, get?_key,
    hasRunningAttempt_ofTenant (isOf_scopeKey (k := key ctx submissionId) rfl)]
  rw [hmoved.store] at hmoved
  split
  · exact .ret hmoved
  split
  · exact .ret (hmoved.leases (isOf_scopeKey rfl))
  · exact .ret hmoved

/-! ## Remote dispatch -/

theorem prepareDispatch_mirrored (submissionId : String) :
    Mirrored ctx.tenant.tenantId (prepareDispatch host env ctx submissionId) s := by
  simp only [Mirrored, prepareDispatch, ofTenant_submissions, ofTenant_dispatches, get?_key]
  split
  · exact .raise _ .refl
  split
  · split
    · split
      · exact .raise _ .refl
      split
      · exact .raise _ .refl
      split
      · exact .raise _ .refl
      split
      · split
        · exact .raise _ .refl
        · exact .ret .refl
      · exact .ret (Moved.refl.dispatches (isOf_scopeKey rfl))
    · exact .raise _ .refl
  · exact .raise _ .refl

theorem claimDispatch_mirrored (submissionId ownerId : String) (leaseSeconds : Int)
    (now : Option Instant) :
    Mirrored ctx.tenant.tenantId (claimDispatch env ctx submissionId ownerId leaseSeconds now)
      s := by
  simp only [Mirrored, claimDispatch, ofTenant_submissions, ofTenant_dispatches, get?_key]
  split
  · exact .raise _ .refl
  split
  · exact .raise _ .refl
  split
  · split
    · exact .ret .refl
    · exact .ret (Moved.refl.dispatches (isOf_scopeKey rfl))
  · exact .raise _ .refl

theorem linkDispatch_mirrored (submissionId ownerId : String) (fencingToken : Int)
    (remoteRunId prefectFlowRunId : Option String) (now : Option Instant) :
    Mirrored ctx.tenant.tenantId (linkDispatch env ctx submissionId ownerId fencingToken
      remoteRunId prefectFlowRunId now) s := by
  simp only [Mirrored, linkDispatch, ofTenant_dispatches, get?_key]
  split
  · exact .raise _ .refl
  split
  · exact .raise _ .refl
  split
  · split
    · exact .ret .refl
    · exact .raise _ .refl
  · split
    · exact .ret (Moved.refl.dispatches (isOf_scopeKey rfl))
    · exact .raise _ .refl

theorem releaseDispatch_mirrored (submissionId ownerId : String) (fencingToken : Int)
    (outcomeUncertain cancelled : Bool) (errorCode : Option String) (now : Option Instant) :
    Mirrored ctx.tenant.tenantId (releaseDispatch host env ctx submissionId ownerId fencingToken
      outcomeUncertain cancelled errorCode now) s := by
  simp only [Mirrored, releaseDispatch, ofTenant_dispatches, get?_key]
  split
  · exact .raise _ .refl
  split
  · exact .raise _ .refl
  split
  · exact .ret .refl
  split
  · exact .ret (Moved.refl.dispatches (isOf_scopeKey rfl))
  · exact .raise _ .refl

theorem rearmDispatchIfUnclaimed_mirrored (hs : Linked s) (submissionId : String)
    (expectedRemoteRunId : RemoteRunId) (reasonCode : String) (minimumAgeSeconds : Int)
    (now : Option Instant) :
    Mirrored ctx.tenant.tenantId (rearmDispatchIfUnclaimed host env ctx submissionId
      expectedRemoteRunId reasonCode minimumAgeSeconds now) s := by
  have hk : isOf ctx.tenant.tenantId (key ctx submissionId) = true := isOf_scopeKey rfl
  simp only [Mirrored, rearmDispatchIfUnclaimed, ofTenant_submissions, ofTenant_dispatches,
    get?_key, leaseLive_ofTenant hk, executionBegan_ofTenant hs hk]
  split
  · split
    · exact .ret .refl
    split
    · exact .ret (Moved.refl.dispatches hk)
    · exact .ret (Moved.refl.dispatches hk)
  · exact .ret .refl

theorem rearmDispatchAfterRemoteFailure_mirrored (hs : Linked s) (submissionId : String)
    (expectedRemoteRunId expectedFlowRunId : Option String) (now : Option Instant) :
    Mirrored ctx.tenant.tenantId (rearmDispatchAfterRemoteFailure host env ctx submissionId
      expectedRemoteRunId expectedFlowRunId now) s := by
  simp only [Mirrored, rearmDispatchAfterRemoteFailure]
  split
  · exact .raise _ .refl
  · exact rearmDispatchIfUnclaimed_mirrored hs _ _ _ _ _

theorem rearmDispatchAfterRemoteMissing_mirrored (hs : Linked s) (submissionId : String)
    (expectedRemoteRunId expectedFlowRunId : Option String) (minimumAgeSeconds : Int)
    (now : Option Instant) :
    Mirrored ctx.tenant.tenantId (rearmDispatchAfterRemoteMissing host env ctx submissionId
      expectedRemoteRunId expectedFlowRunId minimumAgeSeconds now) s := by
  simp only [Mirrored, rearmDispatchAfterRemoteMissing]
  split
  · exact .raise _ .refl
  split
  · exact .raise _ .refl
  · exact rearmDispatchIfUnclaimed_mirrored hs _ _ _ _ _

theorem rearmReconciliationRequiredDispatch_mirrored (hs : Linked s) (submissionId : String)
    (expectedGeneration : Int) (expectedRemoteRunId expectedFlowRunId : Option String)
    (evidenceSha256 : String) (now : Option Instant) :
    Mirrored ctx.tenant.tenantId (rearmReconciliationRequiredDispatch host env ctx submissionId
      expectedGeneration expectedRemoteRunId expectedFlowRunId evidenceSha256 now) s := by
  have hk : isOf ctx.tenant.tenantId (key ctx submissionId) = true := isOf_scopeKey rfl
  simp only [Mirrored, rearmReconciliationRequiredDispatch, ofTenant_submissions,
    ofTenant_dispatches, get?_key, routeState_ofTenant, leaseLive_ofTenant hk,
    executionBegan_ofTenant hs hk]
  split
  · exact .raise _ .refl
  split
  · exact .raise _ .refl
  split
  · exact .raise _ .refl
  split
  · split_ifs
    · exact .raise _ .refl
    · exact .raise _ .refl
    · exact .raise _ .refl
    · exact .raise _ .refl
    · exact .ret (Moved.refl.dispatches hk)
  · exact .raise _ .refl

/-! ## Leases and attempts -/

theorem acquireLease_mirrored (submissionId ownerId : String) (ttlSeconds : Int) :
    Mirrored ctx.tenant.tenantId (acquireLease env ctx submissionId ownerId ttlSeconds) s := by
  simp only [Mirrored, acquireLease, ofTenant_submissions, ofTenant_leases, get?_key]
  split
  · exact .raise _ .refl
  split
  · exact .raise _ .refl
  split
  · exact .raise _ .refl
  split
  · exact .raise _ .refl
  · exact .ret (Moved.refl.leases (isOf_scopeKey rfl))

theorem heartbeat_mirrored (submissionId ownerId : String) (fencingToken ttlSeconds : Int) :
    Mirrored ctx.tenant.tenantId
      (heartbeat env ctx submissionId ownerId fencingToken ttlSeconds) s := by
  simp only [Mirrored, heartbeat, ofTenant_submissions, ofTenant_leases, get?_key,
    requireLease_ofTenant]
  split
  · exact .raise _ .refl
  split
  · exact .raise _ .refl
  split
  · exact .raise _ .refl
  split
  · exact .raise _ .refl
  · exact .ret (Moved.refl.leases (isOf_scopeKey rfl))

theorem releaseLease_mirrored (submissionId ownerId : String) (fencingToken : Int) :
    Mirrored ctx.tenant.tenantId (releaseLease env ctx submissionId ownerId fencingToken) s := by
  simp only [Mirrored, releaseLease, ofTenant_leases, requireLease_ofTenant]
  split
  · exact .raise _ .refl
  · exact .ret (Moved.refl.leases (isOf_scopeKey rfl))

theorem finishFence_ofTenant {submission : SubmissionRecord} {id ownerId : String}
    {fencingToken : Int} {now : Instant} :
    finishFence (s.ofTenant ctx.tenant.tenantId) submission (key ctx id) ownerId fencingToken
      now = finishFence s submission (key ctx id) ownerId fencingToken now := by
  simp only [finishFence, ofTenant_leases, get?_key, requireLease_ofTenant]

theorem finishAttempt_mirrored (attemptId ownerId : String) (fencingToken : Int)
    (status : String) :
    Mirrored ctx.tenant.tenantId (finishAttempt env ctx attemptId ownerId fencingToken status)
      s := by
  simp only [Mirrored, finishAttempt, ofTenant_attempts, ofTenant_submissions, get?_key,
    finishFence_ofTenant]
  split
  · exact .raise _ .refl
  split
  · exact .raise _ .refl
  split
  · exact .raise _ .refl
  split
  · exact .raise _ .refl
  split
  · exact .ret .refl
  · exact .ret ((Moved.refl.attempts (isOf_scopeKey rfl)).submissions (isOf_scopeKey rfl))

/-! ## Result publications and checkpoints -/

theorem recordResultPublication_mirrored (record : ResultPublicationRecord) (ownerId : String)
    (fencingToken : Int) :
    Mirrored ctx.tenant.tenantId (recordResultPublication host env ctx record ownerId fencingToken)
      s := by
  simp only [Mirrored, recordResultPublication, ofTenant_attempts, ofTenant_resultPublications,
    get?_key, get?_publicationKey, requireLease_ofTenant]
  split
  · exact .raise _ .refl
  split
  · exact .raise _ .refl
  split
  · exact .raise _ .refl
  split
  · exact .raise _ .refl
  · exact .ret (Moved.refl.resultPublications (decide_eq_true rfl))

theorem markResultPublicationPublished_mirrored (submissionId attemptId reportSha256 : String) :
    Mirrored ctx.tenant.tenantId
      (markResultPublicationPublished env ctx submissionId attemptId reportSha256) s := by
  simp only [Mirrored, markResultPublicationPublished, ofTenant_resultPublications,
    get?_publicationKey]
  split
  · exact .raise _ .refl
  split
  · exact .raise _ .refl
  split
  · exact .ret .refl
  · exact .ret (Moved.refl.resultPublications (decide_eq_true rfl))

theorem compareAndSwapCheckpoint_mirrored (swap : CheckpointSwap) :
    Mirrored ctx.tenant.tenantId (compareAndSwapCheckpoint env ctx swap) s := by
  simp only [Mirrored, compareAndSwapCheckpoint, ofTenant_checkpoints, ofTenant_attempts,
    ofTenant_submissions, get?_key, requireLease_ofTenant]
  split
  · exact .raise _ .refl
  split
  · exact .raise _ .refl
  split
  · exact .raise _ .refl
  split
  · exact .raise _ .refl
  split
  · exact .raise _ .refl
  split
  · exact .raise _ .refl
  · exact .ret (Moved.refl.checkpoints (isOf_scopeKey rfl))

theorem diagnoseCheckpoint_mirrored (checkpointId kind detail : String) :
    Mirrored ctx.tenant.tenantId (diagnoseCheckpoint host env ctx checkpointId kind detail) s := by
  simp only [Mirrored, diagnoseCheckpoint, ofTenant_checkpoints, get?_key]
  split
  · exact .raise _ .refl
  split
  · exact .raise _ .refl
  split
  · exact .raise _ .refl
  · exact .ret (Moved.refl.diagnostics rfl)

theorem acknowledgeBaseline_mirrored (schemaBaselineId observationFingerprint : String)
    (expectedVersion : Option Int) (submissionId : Option String) :
    Mirrored ctx.tenant.tenantId (acknowledgeBaseline env ctx schemaBaselineId
      observationFingerprint expectedVersion submissionId) s := by
  simp only [Mirrored, acknowledgeBaseline, ofTenant_baselines, ofTenant_submissions, get?_key,
    contains_key]
  split
  · exact .raise _ .refl
  split
  · exact .raise _ .refl
  split
  · exact .raise _ .refl
  split
  · exact .raise _ .refl
  · exact .ret (Moved.refl.baselines (isOf_scopeKey rfl))

/-! ## Effects -/

theorem checkLeaseClaim_ofTenant {claim : LeaseClaim} {submissionId : String}
    {submission : SubmissionRecord} {now : Instant} :
    checkLeaseClaim ctx claim submissionId submission now (s.ofTenant ctx.tenant.tenantId) =
      checkLeaseClaim ctx claim submissionId submission now s := by
  simp only [checkLeaseClaim, ofTenant_attempts, get?_key, requireLease_ofTenant]

theorem recordEffectWith_mirrored (effect : EffectRecord) (leaseClaim : Option LeaseClaim) :
    Mirrored ctx.tenant.tenantId (recordEffectWith host env ctx effect leaseClaim) s := by
  simp only [Mirrored, recordEffectWith, ofTenant_submissions, ofTenant_effects, get?_key,
    checkLeaseClaim_ofTenant]
  split
  · exact .raise _ .refl
  split
  · exact .raise _ .refl
  split
  · exact .raise _ .refl
  split
  · exact .raise _ .refl
  · exact .ret (Moved.refl.effects (isOf_scopeKey rfl))

theorem recordEffect_mirrored (effect : EffectRecord) :
    Mirrored ctx.tenant.tenantId (recordEffect host env ctx effect) s := by
  have h : Mirrored ctx.tenant.tenantId (recordEffectWith host env ctx effect none) s :=
    recordEffectWith_mirrored effect none
  exact h

theorem recordAttemptEffect_mirrored (effect : EffectRecord) (claim : LeaseClaim) :
    Mirrored ctx.tenant.tenantId (recordAttemptEffect host env ctx effect claim) s := by
  have h : Mirrored ctx.tenant.tenantId (recordEffectWith host env ctx effect (some claim)) s :=
    recordEffectWith_mirrored effect (some claim)
  exact h

/-! ## Previews -/

theorem createPreview_mirrored (preview : PreviewWorkspace) :
    Mirrored ctx.tenant.tenantId (createPreview host env ctx preview) s := by
  have hactive : (tenantRows ctx.tenant.tenantId s.previews).count
      (fun k row => k.scope = ctx.scopeKey && row.cleanedAt = none) =
        s.previews.count (fun k row => k.scope = ctx.scopeKey && row.cleanedAt = none) := by
    refine Dict.count_restrict fun k row h => ?_
    have hboth : k.scope = ctx.scopeKey ∧ row.cleanedAt = none := by simpa using h
    exact isOf_scopeKey hboth.1
  simp only [Mirrored, createPreview, ofTenant_previews, get?_key, hactive]
  split
  · exact .raise _ .refl
  split
  · exact .raise _ .refl
  split
  · exact .raise _ .refl
  · exact .raise _ .refl
  split
  · split
    · exact .ret .refl
    · exact .raise _ .refl
  · split
    · exact .raise _ .refl
    · exact .ret (Moved.refl.previews (isOf_scopeKey rfl))

theorem markPreviewStale_mirrored (previewId : String) (given : PreviewFingerprints) :
    Mirrored ctx.tenant.tenantId (markPreviewStale ctx previewId given) s := by
  simp only [Mirrored, markPreviewStale, ofTenant_previews, get?_key]
  split
  · exact .raise _ .refl
  split
  · exact .ret .refl
  · exact .ret (Moved.refl.previews (isOf_scopeKey rfl))

theorem recordPreviewDiff_mirrored (diff : DiffRecord) :
    Mirrored ctx.tenant.tenantId (recordPreviewDiff ctx diff) s := by
  simp only [Mirrored, recordPreviewDiff, ofTenant_previews, ofTenant_diffs, contains_key]
  split
  · exact .raise _ .refl
  split
  · exact .raise _ .refl
  · exact .ret (Moved.refl.diffs (isOf_scopeKey rfl))

theorem shadowEffectRefusal_ofTenant (effectIds : List String) :
    shadowEffectRefusal (s.ofTenant ctx.tenant.tenantId) ctx.scopeKey effectIds =
      shadowEffectRefusal s ctx.scopeKey effectIds := by
  induction effectIds with
  | nil => rfl
  | cons effectId rest ih =>
      simp only [shadowEffectRefusal, ofTenant_effects, get?_scopeKey, ih]

theorem authorizeShadowRun_mirrored (shadow : ShadowRunRecord) :
    Mirrored ctx.tenant.tenantId (authorizeShadowRun ctx shadow) s := by
  simp only [Mirrored, authorizeShadowRun, ofTenant_previews, ofTenant_submissions,
    ofTenant_shadows, get?_key, contains_key, shadowEffectRefusal_ofTenant]
  split
  · exact .raise _ .refl
  split
  · exact .raise _ .refl
  split
  · exact .raise _ .refl
  split
  · exact .raise _ .refl
  split
  · exact .raise _ .refl
  split
  · exact .raise _ .refl
  split
  · exact .raise _ .refl
  · exact .ret (Moved.refl.shadows (isOf_scopeKey rfl))

/-! ## Action jobs -/

theorem priorAction_ofTenant {request : ActionRequest} :
    priorAction host ctx request (s.ofTenant ctx.tenant.tenantId) =
      priorAction host ctx request s := by
  simp only [priorAction, actionIdem, ofTenant_actionIdempotency, ofTenant_actionJobs,
    get?_actionIdempotencyTuple, get?_key]

theorem acceptActionJob_mirrored (request : ActionRequest) :
    Mirrored ctx.tenant.tenantId (acceptActionJob host env ctx request) s := by
  simp only [Mirrored, acceptActionJob, ofTenant_actionJobs, ofTenant_actionIdempotency, get?_key,
    priorAction_ofTenant]
  split
  · exact .raise _ .refl
  split
  · exact .raise _ .refl
  · exact .raise _ .refl
  split
  · exact .raise _ .refl
  split
  · exact .raise _ .refl
  split
  · split
    · exact .raise _ .refl
    split
    · exact .raise _ .refl
    split
    · exact .ret (Moved.refl.actionJobs (isOf_scopeKey rfl))
    · exact .ret .refl
  · exact .ret ((Moved.refl.actionJobs (isOf_scopeKey rfl)).actionIdempotency
      (decide_eq_true rfl))

theorem cancelActionJob_mirrored (actionId : String) :
    Mirrored ctx.tenant.tenantId (cancelActionJob host env ctx actionId) s := by
  simp only [Mirrored, cancelActionJob, ofTenant_actionJobs, get?_key]
  split
  · exact .raise _ .refl
  split
  · exact .raise _ .refl
  split
  · exact .ret (Moved.refl.actionJobs (isOf_scopeKey rfl))
  split
  · exact .ret (Moved.refl.actionJobs (isOf_scopeKey rfl))
  split
  · exact .ret .refl
  · exact .raise _ .refl

theorem heartbeatActionJob_mirrored (actionId workerId : String)
    (fencingToken leaseSeconds : Int) (now : Option Instant) :
    Mirrored ctx.tenant.tenantId
      (heartbeatActionJob env ctx actionId workerId fencingToken leaseSeconds now) s := by
  simp only [Mirrored, heartbeatActionJob, ofTenant_actionJobs, get?_key]
  split
  · exact .raise _ .refl
  split
  · exact .raise _ .refl
  split
  · exact .ret (Moved.refl.actionJobs (isOf_scopeKey rfl))
  · exact .raise _ .refl

theorem markActionJobAccepting_mirrored (actionId workerId : String) (fencingToken : Int)
    (now : Option Instant) :
    Mirrored ctx.tenant.tenantId
      (markActionJobAccepting env ctx actionId workerId fencingToken now) s := by
  simp only [Mirrored, markActionJobAccepting, ofTenant_actionJobs, get?_key]
  split
  · exact .raise _ .refl
  split
  · exact .raise _ .refl
  split
  · exact .raise _ .refl
  split
  · exact .ret .refl
  · exact .ret (Moved.refl.actionJobs (isOf_scopeKey rfl))

theorem finishActionJob_mirrored (actionId : String) (completion : ActionCompletion)
    (now : Option Instant) :
    Mirrored ctx.tenant.tenantId (finishActionJob host env ctx actionId completion now) s := by
  simp only [Mirrored, finishActionJob, ofTenant_actionJobs, get?_key]
  split
  · exact .raise _ .refl
  split
  · exact .raise _ .refl
  split
  · exact .raise _ .refl
  split
  · -- The receipt of a mutation that outlived its deadline.
    rename_i hreceipt
    simp only [if_pos hreceipt.2.2.2]
    split
    · exact .raise _ .refl
    · exact .ret (Moved.refl.actionJobs (isOf_scopeKey rfl))
  split
  · exact .raise _ .refl
  split
  · exact .raise _ .refl
  · exact .ret (Moved.refl.actionJobs (isOf_scopeKey rfl))

/-! ## Route references -/

theorem reserveExecutionRouteReference_mirrored (route referenceId : String) :
    Mirrored ctx.tenant.tenantId (reserveExecutionRouteReference route referenceId) s := by
  simp only [Mirrored, reserveExecutionRouteReference]
  split
  · exact .raise _ .refl
  split
  · exact .raise _ .refl
  split
  · exact .raise _ .refl
  by_cases hactive : (s.routeState route).status = .active
  · have hshared : ((s.ofTenant ctx.tenant.tenantId).routeState route).status = .active := hactive
    rw [if_neg (not_not.mpr hactive), if_neg (not_not.mpr hshared)]
    exact .ret Moved.refl.executionRouteReferences
  · have hshared : ((s.ofTenant ctx.tenant.tenantId).routeState route).status ≠ .active := hactive
    rw [if_pos hactive, if_pos hshared]
    exact .raise _ .refl

theorem releaseExecutionRouteReference_mirrored (route referenceId : String) :
    Mirrored ctx.tenant.tenantId (releaseExecutionRouteReference route referenceId) s := by
  simp only [Mirrored, releaseExecutionRouteReference, ofTenant_executionRouteReferences]
  split
  · exact .raise _ .refl
  split
  · exact .raise _ .refl
  split
  · exact .raise _ .refl
  split
  · exact .ret .refl
  · exact .ret Moved.refl.executionRouteReferences

theorem releaseExecutionRouteReferenceId_mirrored (referenceId : String) :
    Mirrored ctx.tenant.tenantId (releaseExecutionRouteReferenceId referenceId) s := by
  simp only [Mirrored, releaseExecutionRouteReferenceId]
  split
  · exact .raise _ .refl
  · exact .ret Moved.refl.executionRouteReferences

end Etlantic.ControlPlane.Durable
