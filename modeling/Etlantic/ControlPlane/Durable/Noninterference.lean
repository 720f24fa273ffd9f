import Etlantic.ControlPlane.Durable.TenantReads

/-!
# Tenant noninterference

The operations a caller can run under its context, apart from the store-wide
lifecycle of routes.  What an operation gives back and what it writes depends
only on the rows of the caller's tenant and on the shared routes, and it writes
no row of another tenant.
-/

namespace Etlantic.ControlPlane.Durable

/-- An operation under a caller's context, with its other arguments. -/
inductive Operation : Type → Type where
  | accept (request : AcceptRequest) : Operation (SubmissionRecord × Bool)
  | getExecutionRouteState (route : String) : Operation ExecutionRouteRecord
  | reserveExecutionRouteReference (route referenceId : String) : Operation Unit
  | releaseExecutionRouteReference (route referenceId : String) : Operation Unit
  | releaseExecutionRouteReferenceId (referenceId : String) : Operation Unit
  | listExecutionScopes (afterSubmissionId throughSubmissionId : Option String) (limit : Int) :
      Operation ExecutionScopePage
  | pendingOutbox (query : OutboxQuery) : Operation (List OutboxRecord)
  | pendingDispatches (route : String) (limit : Int) : Operation (List OutboxRecord)
  | dispatchedForReconciliation (route : String) (limit : Int)
      (afterSubmissionId : Option String) : Operation (List DispatchRecord)
  | prepareDispatch (submissionId : String) : Operation DispatchRecord
  | getDispatch (submissionId : String) : Operation DispatchRecord
  | claimDispatch (submissionId ownerId : String) (leaseSeconds : Int) (now : Option Instant) :
      Operation (Option DispatchRecord)
  | linkDispatch (submissionId ownerId : String) (fencingToken : Int)
      (remoteRunId prefectFlowRunId : Option String) (now : Option Instant) :
      Operation DispatchRecord
  | releaseDispatch (submissionId ownerId : String) (fencingToken : Int)
      (outcomeUncertain cancelled : Bool) (errorCode : Option String) (now : Option Instant) :
      Operation DispatchRecord
  | rearmDispatchAfterRemoteFailure (submissionId : String)
      (expectedRemoteRunId expectedFlowRunId : Option String) (now : Option Instant) :
      Operation (Option DispatchRecord)
  | rearmDispatchAfterRemoteMissing (submissionId : String)
      (expectedRemoteRunId expectedFlowRunId : Option String) (minimumAgeSeconds : Int)
      (now : Option Instant) : Operation (Option DispatchRecord)
  | rearmReconciliationRequiredDispatch (submissionId : String) (expectedGeneration : Int)
      (expectedRemoteRunId expectedFlowRunId : Option String) (evidenceSha256 : String)
      (now : Option Instant) : Operation DispatchRecord
  | reconcileTerminalOutbox (limit : Int) : Operation (List OutboxRecord)
  | reconcileCancelledSubmissions (sweep : CancellationSweep) : Operation (List SubmissionRecord)
  | getSubmission (submissionId : String) : Operation SubmissionRecord
  | getSubmissionByIdempotency (idempotencyKey operation : String) :
      Operation (Option SubmissionRecord)
  | acceptActionJob (request : ActionRequest) : Operation ActionJobRecord
  | getActionJob (actionId : String) : Operation ActionJobRecord
  | getActionJobByIdempotency (action idempotencyKey : String) :
      Operation (Option ActionJobRecord)
  | cancelActionJob (actionId : String) : Operation ActionJobRecord
  | listActionJobs (after : Option (String × String)) (limit : Int) :
      Operation (List ActionJobRecord)
  | claimActionJob (workerId : String) (leaseSeconds : Int) (now : Option Instant) :
      Operation (Option ActionJobRecord)
  | heartbeatActionJob (actionId workerId : String) (fencingToken leaseSeconds : Int)
      (now : Option Instant) : Operation ActionJobRecord
  | markActionJobAccepting (actionId workerId : String) (fencingToken : Int)
      (now : Option Instant) : Operation ActionJobRecord
  | finishActionJob (actionId : String) (completion : ActionCompletion) (now : Option Instant) :
      Operation ActionJobRecord
  | cleanupExpiredActionResults (limit : Int) (now : Option Instant) : Operation Nat
  | listAttempts (submissionId : String) : Operation (List AttemptRecord)
  | markPublished (outboxId : String) : Operation OutboxRecord
  | cancelSubmission (submissionId : String) : Operation SubmissionRecord
  | acquireLease (submissionId ownerId : String) (ttlSeconds : Int) : Operation LeaseRecord
  | heartbeat (submissionId ownerId : String) (fencingToken ttlSeconds : Int) :
      Operation LeaseRecord
  | releaseLease (submissionId ownerId : String) (fencingToken : Int) : Operation Unit
  | startAttempt (submissionId ownerId : String) (fencingToken : Int)
      (context : List (String × Json)) : Operation AttemptRecord
  | finishAttempt (attemptId ownerId : String) (fencingToken : Int) (status : String) :
      Operation AttemptRecord
  | recordResultPublication (record : ResultPublicationRecord) (ownerId : String)
      (fencingToken : Int) : Operation ResultPublicationRecord
  | getLatestResultPublication (submissionId : String) :
      Operation (Option ResultPublicationRecord)
  | pendingResultPublications (limit : Int) : Operation (List ResultPublicationRecord)
  | markResultPublicationPublished (submissionId attemptId reportSha256 : String) :
      Operation ResultPublicationRecord
  | compareAndSwapCheckpoint (swap : CheckpointSwap) : Operation CheckpointRecord
  | explainTransition (checkpointId : String) (expectedVersion : Option Int)
      (valueFingerprint : String) : Operation StateTransitionExplanation
  | diagnoseCheckpoint (checkpointId kind detail : String) : Operation StateDiagnostic
  | acknowledgeBaseline (schemaBaselineId observationFingerprint : String)
      (expectedVersion : Option Int) (submissionId : Option String) :
      Operation BaselineAcknowledgement
  | recordEffect (effect : EffectRecord) : Operation EffectRecord
  | recordAttemptEffect (effect : EffectRecord) (claim : LeaseClaim) : Operation EffectRecord
  | getEffect (effectId : String) : Operation EffectRecord
  | replay (submissionId : String) (checkpointId : Option String) : Operation ReplayRecord
  | planResume (submissionId : String) (checkpointId : Option String) : Operation RepairPlan
  | planRepair (submissionId : String) (checkpointId : Option String)
      (invalidated reusable : List String) : Operation RepairPlan
  | planBackfill (submissionId : String) (partitionIds : List String)
      (checkpointId : Option String) : Operation RepairPlan
  | createPreview (preview : PreviewWorkspace) : Operation PreviewWorkspace
  | markPreviewStale (previewId : String) (given : PreviewFingerprints) :
      Operation PreviewWorkspace
  | recordPreviewDiff (diff : DiffRecord) : Operation DiffRecord
  | authorizeShadowRun (shadow : ShadowRunRecord) : Operation ShadowRunRecord
  | cleanupExpiredPreviews : Operation (List PreviewWorkspace)
  | submissionStatus (submissionId : String) : Operation (Option SubmissionStatus)

/-- Run an operation under a context. -/
def Operation.exec (host : Host) (env : Env) (ctx : ControlPlaneContext) :
    {α : Type} → Operation α → Store → Outcome α
  | _, accept request => Durable.accept host env ctx request
  | _, getExecutionRouteState route => Durable.getExecutionRouteState route
  | _, reserveExecutionRouteReference route referenceId =>
      Durable.reserveExecutionRouteReference route referenceId
  | _, releaseExecutionRouteReference route referenceId =>
      Durable.releaseExecutionRouteReference route referenceId
  | _, releaseExecutionRouteReferenceId referenceId =>
      Durable.releaseExecutionRouteReferenceId referenceId
  | _, listExecutionScopes afterSubmissionId throughSubmissionId limit =>
      Durable.listExecutionScopes ctx afterSubmissionId throughSubmissionId limit
  | _, pendingOutbox query => Durable.pendingOutbox ctx query
  | _, pendingDispatches route limit => Durable.pendingDispatches env ctx route limit
  | _, dispatchedForReconciliation route limit afterSubmissionId =>
      Durable.dispatchedForReconciliation ctx route limit afterSubmissionId
  | _, prepareDispatch submissionId => Durable.prepareDispatch host env ctx submissionId
  | _, getDispatch submissionId => Durable.getDispatch ctx submissionId
  | _, claimDispatch submissionId ownerId leaseSeconds now =>
      Durable.claimDispatch env ctx submissionId ownerId leaseSeconds now
  | _, linkDispatch submissionId ownerId fencingToken remoteRunId prefectFlowRunId now =>
      Durable.linkDispatch env ctx submissionId ownerId fencingToken remoteRunId
        prefectFlowRunId now
  | _, releaseDispatch submissionId ownerId fencingToken outcomeUncertain cancelled errorCode
      now =>
      Durable.releaseDispatch host env ctx submissionId ownerId fencingToken outcomeUncertain
        cancelled errorCode now
  | _, rearmDispatchAfterRemoteFailure submissionId expectedRemoteRunId expectedFlowRunId now =>
      Durable.rearmDispatchAfterRemoteFailure host env ctx submissionId expectedRemoteRunId
        expectedFlowRunId now
  | _, rearmDispatchAfterRemoteMissing submissionId expectedRemoteRunId expectedFlowRunId
      minimumAgeSeconds now =>
      Durable.rearmDispatchAfterRemoteMissing host env ctx submissionId expectedRemoteRunId
        expectedFlowRunId minimumAgeSeconds now
  | _, rearmReconciliationRequiredDispatch submissionId expectedGeneration expectedRemoteRunId
      expectedFlowRunId evidenceSha256 now =>
      Durable.rearmReconciliationRequiredDispatch host env ctx submissionId expectedGeneration
        expectedRemoteRunId expectedFlowRunId evidenceSha256 now
  | _, reconcileTerminalOutbox limit => Durable.reconcileTerminalOutbox env ctx limit
  | _, reconcileCancelledSubmissions sweep => Durable.reconcileCancelledSubmissions env ctx sweep
  | _, getSubmission submissionId => Durable.getSubmission ctx submissionId
  | _, getSubmissionByIdempotency idempotencyKey operation =>
      Durable.getSubmissionByIdempotency ctx idempotencyKey operation
  | _, acceptActionJob request => Durable.acceptActionJob host env ctx request
  | _, getActionJob actionId => Durable.getActionJob host ctx actionId
  | _, getActionJobByIdempotency action idempotencyKey =>
      Durable.getActionJobByIdempotency host ctx action idempotencyKey
  | _, cancelActionJob actionId => Durable.cancelActionJob host env ctx actionId
  | _, listActionJobs after limit => Durable.listActionJobs host ctx after limit
  | _, claimActionJob workerId leaseSeconds now =>
      Durable.claimActionJob host env ctx workerId leaseSeconds now
  | _, heartbeatActionJob actionId workerId fencingToken leaseSeconds now =>
      Durable.heartbeatActionJob env ctx actionId workerId fencingToken leaseSeconds now
  | _, markActionJobAccepting actionId workerId fencingToken now =>
      Durable.markActionJobAccepting env ctx actionId workerId fencingToken now
  | _, finishActionJob actionId completion now =>
      Durable.finishActionJob host env ctx actionId completion now
  | _, cleanupExpiredActionResults limit now =>
      Durable.cleanupExpiredActionResults env ctx limit now
  | _, listAttempts submissionId => Durable.listAttempts ctx submissionId
  | _, markPublished outboxId => Durable.markPublished env ctx outboxId
  | _, cancelSubmission submissionId => Durable.cancelSubmission env ctx submissionId
  | _, acquireLease submissionId ownerId ttlSeconds =>
      Durable.acquireLease env ctx submissionId ownerId ttlSeconds
  | _, heartbeat submissionId ownerId fencingToken ttlSeconds =>
      Durable.heartbeat env ctx submissionId ownerId fencingToken ttlSeconds
  | _, releaseLease submissionId ownerId fencingToken =>
      Durable.releaseLease env ctx submissionId ownerId fencingToken
  | _, startAttempt submissionId ownerId fencingToken context =>
      Durable.startAttempt host env ctx submissionId ownerId fencingToken context
  | _, finishAttempt attemptId ownerId fencingToken status =>
      Durable.finishAttempt env ctx attemptId ownerId fencingToken status
  | _, recordResultPublication record ownerId fencingToken =>
      Durable.recordResultPublication host env ctx record ownerId fencingToken
  | _, getLatestResultPublication submissionId =>
      Durable.getLatestResultPublication host ctx submissionId
  | _, pendingResultPublications limit => Durable.pendingResultPublications ctx limit
  | _, markResultPublicationPublished submissionId attemptId reportSha256 =>
      Durable.markResultPublicationPublished env ctx submissionId attemptId reportSha256
  | _, compareAndSwapCheckpoint swap => Durable.compareAndSwapCheckpoint env ctx swap
  | _, explainTransition checkpointId expectedVersion valueFingerprint =>
      Durable.explainTransition env ctx checkpointId expectedVersion valueFingerprint
  | _, diagnoseCheckpoint checkpointId kind detail =>
      Durable.diagnoseCheckpoint host env ctx checkpointId kind detail
  | _, acknowledgeBaseline schemaBaselineId observationFingerprint expectedVersion submissionId =>
      Durable.acknowledgeBaseline env ctx schemaBaselineId observationFingerprint
        expectedVersion submissionId
  | _, recordEffect effect => Durable.recordEffect host env ctx effect
  | _, recordAttemptEffect effect claim => Durable.recordAttemptEffect host env ctx effect claim
  | _, getEffect effectId => Durable.getEffect ctx effectId
  | _, replay submissionId checkpointId => Durable.replay env ctx submissionId checkpointId
  | _, planResume submissionId checkpointId =>
      Durable.planResume env ctx submissionId checkpointId
  | _, planRepair submissionId checkpointId invalidated reusable =>
      Durable.planRepair env ctx submissionId checkpointId invalidated reusable
  | _, planBackfill submissionId partitionIds checkpointId =>
      Durable.planBackfill env ctx submissionId partitionIds checkpointId
  | _, createPreview preview => Durable.createPreview host env ctx preview
  | _, markPreviewStale previewId given => Durable.markPreviewStale ctx previewId given
  | _, recordPreviewDiff diff => Durable.recordPreviewDiff ctx diff
  | _, authorizeShadowRun shadow => Durable.authorizeShadowRun ctx shadow
  | _, cleanupExpiredPreviews => Durable.cleanupExpiredPreviews host env ctx
  | _, submissionStatus submissionId => Durable.submissionStatus ctx submissionId

variable {α : Type} {host : Host} {env : Env} {ctx : ControlPlaneContext} {s t : Store}

theorem operation_mirrored (hs : Linked s) (op : Operation α) :
    Mirrored ctx.tenant.tenantId (op.exec host env ctx) s := by
  cases op with
  | accept => exact accept_mirrored _
  | getExecutionRouteState => exact getExecutionRouteState_mirrored _
  | reserveExecutionRouteReference => exact reserveExecutionRouteReference_mirrored _ _
  | releaseExecutionRouteReference => exact releaseExecutionRouteReference_mirrored _ _
  | releaseExecutionRouteReferenceId => exact releaseExecutionRouteReferenceId_mirrored _
  | listExecutionScopes => exact listExecutionScopes_mirrored _ _ _
  | pendingOutbox => exact pendingOutbox_mirrored _
  | pendingDispatches => exact pendingDispatches_mirrored _ _
  | dispatchedForReconciliation => exact dispatchedForReconciliation_mirrored _ _ _
  | prepareDispatch => exact prepareDispatch_mirrored _
  | getDispatch => exact getDispatch_mirrored _
  | claimDispatch => exact claimDispatch_mirrored _ _ _ _
  | linkDispatch => exact linkDispatch_mirrored _ _ _ _ _ _
  | releaseDispatch => exact releaseDispatch_mirrored _ _ _ _ _ _ _
  | rearmDispatchAfterRemoteFailure => exact rearmDispatchAfterRemoteFailure_mirrored hs _ _ _ _
  | rearmDispatchAfterRemoteMissing =>
      exact rearmDispatchAfterRemoteMissing_mirrored hs _ _ _ _ _
  | rearmReconciliationRequiredDispatch =>
      exact rearmReconciliationRequiredDispatch_mirrored hs _ _ _ _ _ _
  | reconcileTerminalOutbox => exact reconcileTerminalOutbox_mirrored _
  | reconcileCancelledSubmissions => exact reconcileCancelledSubmissions_mirrored _
  | getSubmission => exact getSubmission_mirrored _
  | getSubmissionByIdempotency => exact getSubmissionByIdempotency_mirrored _ _
  | acceptActionJob => exact acceptActionJob_mirrored _
  | getActionJob => exact getActionJob_mirrored _
  | getActionJobByIdempotency => exact getActionJobByIdempotency_mirrored _ _
  | cancelActionJob => exact cancelActionJob_mirrored _
  | listActionJobs => exact listActionJobs_mirrored _ _
  | claimActionJob => exact claimActionJob_mirrored _ _ _
  | heartbeatActionJob => exact heartbeatActionJob_mirrored _ _ _ _ _
  | markActionJobAccepting => exact markActionJobAccepting_mirrored _ _ _ _
  | finishActionJob => exact finishActionJob_mirrored _ _ _
  | cleanupExpiredActionResults => exact cleanupExpiredActionResults_mirrored _ _
  | listAttempts => exact listAttempts_mirrored _
  | markPublished => exact markPublished_mirrored _
  | cancelSubmission => exact cancelSubmission_mirrored _
  | acquireLease => exact acquireLease_mirrored _ _ _
  | heartbeat => exact heartbeat_mirrored _ _ _ _
  | releaseLease => exact releaseLease_mirrored _ _ _
  | startAttempt => exact startAttempt_mirrored _ _ _ _
  | finishAttempt => exact finishAttempt_mirrored _ _ _ _
  | recordResultPublication => exact recordResultPublication_mirrored _ _ _
  | getLatestResultPublication => exact getLatestResultPublication_mirrored _
  | pendingResultPublications => exact pendingResultPublications_mirrored _
  | markResultPublicationPublished => exact markResultPublicationPublished_mirrored _ _ _
  | compareAndSwapCheckpoint => exact compareAndSwapCheckpoint_mirrored _
  | explainTransition => exact explainTransition_mirrored _ _ _
  | diagnoseCheckpoint => exact diagnoseCheckpoint_mirrored _ _ _
  | acknowledgeBaseline => exact acknowledgeBaseline_mirrored _ _ _ _
  | recordEffect => exact recordEffect_mirrored _
  | recordAttemptEffect => exact recordAttemptEffect_mirrored _ _
  | getEffect => exact getEffect_mirrored _
  | replay => exact replay_mirrored _ _
  | planResume => exact repairPlan_mirrored _ _
  | planRepair => exact repairPlan_mirrored _ _
  | planBackfill => exact planBackfill_mirrored _ _ _
  | createPreview => exact createPreview_mirrored _
  | markPreviewStale => exact markPreviewStale_mirrored _ _
  | recordPreviewDiff => exact recordPreviewDiff_mirrored _
  | authorizeShadowRun => exact authorizeShadowRun_mirrored _
  | cleanupExpiredPreviews => exact cleanupExpiredPreviews_mirrored
  | submissionStatus => exact submissionStatus_mirrored _

/-! ## Two stores -/

/-- One operation on two stores that agree on the tenant of its caller. -/
structure SameForTenant (tenantId : String) (s t : Store) (o o' : Outcome α) : Prop where
  result : o.result = o'.result
  rows : o.store.rows tenantId = o'.store.rows tenantId
  others : ∀ other ≠ tenantId, o.store.rows other = s.rows other
  others' : ∀ other ≠ tenantId, o'.store.rows other = t.rows other

theorem sameForTenant_of_agree (hs : Linked s) (ht : Linked t)
    (hlimit : s.admissionLimit = t.admissionLimit) (h : Agree ctx.tenant.tenantId s t)
    (op : Operation α) :
    SameForTenant ctx.tenant.tenantId s t (op.exec host env ctx s) (op.exec host env ctx t) := by
  have hs' : Mirrored ctx.tenant.tenantId (op.exec host env ctx) s := operation_mirrored hs op
  have ht' : Mirrored ctx.tenant.tenantId (op.exec host env ctx) t := operation_mirrored ht op
  have hsame : s.ofTenant ctx.tenant.tenantId = t.ofTenant ctx.tenant.tenantId :=
    h.ofTenant_eq hlimit
  constructor
  · rw [← hs'.result, ← ht'.result, hsame]
  · rw [← Store.rows_ofTenant, ← hs'.moved.store, hsame, ht'.moved.store, Store.rows_ofTenant]
  · exact hs'.moved.others
  · exact ht'.moved.others

theorem admissionLimit_reached (limit : Option Int) (es : List Event) :
    (reached host limit es).admissionLimit = limit := by
  have hwrite : ∀ e s₀ s t, Write host e s₀ s t → s.admissionLimit = t.admissionLimit := by
    intro e s₀ s t hw
    cases hw <;> rfl
  exact (run_related (I := fun _ => True) (R := fun s t => s.admissionLimit = t.admissionLimit)
    (fun _ => rfl) Eq.trans (fun _ _ _ _ _ _ _ _ _ _ => trivial)
    (fun e s₀ s t _ _ _ _ _ hw => hwrite e s₀ s t hw) (linked_init limit) trivial
    (Runs.guarded_true _ es)).symm

/-- An operation depends on no row of another tenant and changes none. -/
theorem operation_noninterference (host : Host) (limit : Option Int) (es es' : List Event)
    (env : Env) (ctx : ControlPlaneContext) (op : Operation α)
    (h : Agree ctx.tenant.tenantId (reached host limit es) (reached host limit es')) :
    SameForTenant ctx.tenant.tenantId (reached host limit es) (reached host limit es')
      (op.exec host env ctx (reached host limit es))
      (op.exec host env ctx (reached host limit es')) := by
  have hlimit : (reached host limit es).admissionLimit = (reached host limit es').admissionLimit :=
    (admissionLimit_reached limit es).trans (admissionLimit_reached limit es').symm
  exact sameForTenant_of_agree (reached_linked host limit es) (reached_linked host limit es')
    hlimit h op

/-- A caller of another tenant. -/
def otherContext : ControlPlaneContext where
  principal := ⟨"bob", none, .human⟩
  tenant := ⟨"globex"⟩
  workspace := ⟨"globex", "main"⟩
  environment := ⟨"prod"⟩
  securityDomain := ⟨"corp"⟩
  resourceOwnerId := none
  workspaceTenant := workspace_ofTenant "globex" "main"
  ownerNonEmpty := sampleContext.ownerNonEmpty

/-- The other tenant has used up its admissions. -/
def otherRun : List Event :=
  [⟨sampleEnv 'a' 0, .accept otherContext (sampleAccept "a" "local" none)⟩]

theorem agree_otherRun : Agree sampleContext.tenant.tenantId (reached sampleHost (some 1) [])
    (reached sampleHost (some 1) otherRun) := by
  constructor
  · rfl
  · rfl
  · rfl

def sampleOperation : Operation (SubmissionRecord × Bool) :=
  .accept (sampleAccept "b" "local" none)

/-- The caller is admitted next to a tenant that has reached the limit. -/
theorem operation_noninterference_sample :
    ((reached sampleHost (some 1) otherRun).inFlight otherContext.tenant.tenantId = 1 ∧
      (sampleOperation.exec sampleHost (sampleEnv 'b' 1) sampleContext
        (reached sampleHost (some 1) otherRun)).succeeded = true) ∧
    SameForTenant sampleContext.tenant.tenantId (reached sampleHost (some 1) [])
      (reached sampleHost (some 1) otherRun)
      (sampleOperation.exec sampleHost (sampleEnv 'b' 1) sampleContext
        (reached sampleHost (some 1) []))
      (sampleOperation.exec sampleHost (sampleEnv 'b' 1) sampleContext
        (reached sampleHost (some 1) otherRun)) :=
  ⟨by decide, operation_noninterference sampleHost (some 1) [] otherRun (sampleEnv 'b' 1)
    sampleContext sampleOperation agree_otherRun⟩

end Etlantic.ControlPlane.Durable
