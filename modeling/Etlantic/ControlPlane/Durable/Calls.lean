import Etlantic.ControlPlane.Durable.Actions
import Etlantic.Base.Runs

/-!
# Runs of the store

A run is a list of events: the calls of the store's writing operations, in any
order and by any callers, each with the clock readings and the generated
identifiers it sees.  The readers of the store leave it as it is and do not
appear in runs.
-/

namespace Etlantic.ControlPlane.Durable

/-- A call of a writing operation. -/
inductive Call where
  | accept (ctx : ControlPlaneContext) (request : AcceptRequest)
  | reserveExecutionRouteReference (route referenceId : String)
  | releaseExecutionRouteReference (route referenceId : String)
  | releaseExecutionRouteReferenceId (referenceId : String)
  | transitionExecutionRouteState (ctx : ControlPlaneContext) (route : String)
      (expectedRevision : Int) (status : String) (now : Option Instant)
  | prepareDispatch (ctx : ControlPlaneContext) (submissionId : String)
  | claimDispatch (ctx : ControlPlaneContext) (submissionId ownerId : String)
      (leaseSeconds : Int) (now : Option Instant)
  | linkDispatch (ctx : ControlPlaneContext) (submissionId ownerId : String) (fencingToken : Int)
      (remoteRunId prefectFlowRunId : Option String) (now : Option Instant)
  | releaseDispatch (ctx : ControlPlaneContext) (submissionId ownerId : String)
      (fencingToken : Int) (outcomeUncertain cancelled : Bool) (errorCode : Option String)
      (now : Option Instant)
  | rearmDispatchAfterRemoteFailure (ctx : ControlPlaneContext) (submissionId : String)
      (expectedRemoteRunId expectedFlowRunId : Option String) (now : Option Instant)
  | rearmDispatchAfterRemoteMissing (ctx : ControlPlaneContext) (submissionId : String)
      (expectedRemoteRunId expectedFlowRunId : Option String) (minimumAgeSeconds : Int)
      (now : Option Instant)
  | rearmReconciliationRequiredDispatch (ctx : ControlPlaneContext) (submissionId : String)
      (expectedGeneration : Int) (expectedRemoteRunId expectedFlowRunId : Option String)
      (evidenceSha256 : String) (now : Option Instant)
  | reconcileTerminalOutbox (ctx : ControlPlaneContext) (limit : Int)
  | reconcileCancelledSubmissions (ctx : ControlPlaneContext) (sweep : CancellationSweep)
  | markPublished (ctx : ControlPlaneContext) (outboxId : String)
  | cancelSubmission (ctx : ControlPlaneContext) (submissionId : String)
  | acquireLease (ctx : ControlPlaneContext) (submissionId ownerId : String) (ttlSeconds : Int)
  | heartbeat (ctx : ControlPlaneContext) (submissionId ownerId : String)
      (fencingToken ttlSeconds : Int)
  | releaseLease (ctx : ControlPlaneContext) (submissionId ownerId : String) (fencingToken : Int)
  | startAttempt (ctx : ControlPlaneContext) (submissionId ownerId : String) (fencingToken : Int)
      (context : List (String × Json))
  | finishAttempt (ctx : ControlPlaneContext) (attemptId ownerId : String) (fencingToken : Int)
      (status : String)
  | recordResultPublication (ctx : ControlPlaneContext) (record : ResultPublicationRecord)
      (ownerId : String) (fencingToken : Int)
  | markResultPublicationPublished (ctx : ControlPlaneContext)
      (submissionId attemptId reportSha256 : String)
  | compareAndSwapCheckpoint (ctx : ControlPlaneContext) (swap : CheckpointSwap)
  | diagnoseCheckpoint (ctx : ControlPlaneContext) (checkpointId kind detail : String)
  | acknowledgeBaseline (ctx : ControlPlaneContext)
      (schemaBaselineId observationFingerprint : String) (expectedVersion : Option Int)
      (submissionId : Option String)
  | recordEffect (ctx : ControlPlaneContext) (effect : EffectRecord)
  | recordAttemptEffect (ctx : ControlPlaneContext) (effect : EffectRecord) (claim : LeaseClaim)
  | createPreview (ctx : ControlPlaneContext) (preview : PreviewWorkspace)
  | markPreviewStale (ctx : ControlPlaneContext) (previewId : String) (given : PreviewFingerprints)
  | recordPreviewDiff (ctx : ControlPlaneContext) (diff : DiffRecord)
  | authorizeShadowRun (ctx : ControlPlaneContext) (shadow : ShadowRunRecord)
  | cleanupExpiredPreviews (ctx : ControlPlaneContext)
  | acceptActionJob (ctx : ControlPlaneContext) (request : ActionRequest)
  | cancelActionJob (ctx : ControlPlaneContext) (actionId : String)
  | claimActionJob (ctx : ControlPlaneContext) (workerId : String) (leaseSeconds : Int)
      (now : Option Instant)
  | heartbeatActionJob (ctx : ControlPlaneContext) (actionId workerId : String)
      (fencingToken leaseSeconds : Int) (now : Option Instant)
  | markActionJobAccepting (ctx : ControlPlaneContext) (actionId workerId : String)
      (fencingToken : Int) (now : Option Instant)
  | finishActionJob (ctx : ControlPlaneContext) (actionId : String)
      (completion : ActionCompletion) (now : Option Instant)
  | cleanupExpiredActionResults (ctx : ControlPlaneContext) (limit : Int) (now : Option Instant)

/-- Run a call; the value it returns is dropped. -/
def Call.exec (host : Host) (env : Env) : Call → Store → Outcome Unit
  | accept ctx request, s => (Durable.accept host env ctx request s).void
  | reserveExecutionRouteReference route referenceId, s =>
      Durable.reserveExecutionRouteReference route referenceId s
  | releaseExecutionRouteReference route referenceId, s =>
      Durable.releaseExecutionRouteReference route referenceId s
  | releaseExecutionRouteReferenceId referenceId, s =>
      Durable.releaseExecutionRouteReferenceId referenceId s
  | transitionExecutionRouteState ctx route expectedRevision status now, s =>
      (Durable.transitionExecutionRouteState env ctx route expectedRevision status now s).void
  | prepareDispatch ctx submissionId, s =>
      (Durable.prepareDispatch host env ctx submissionId s).void
  | claimDispatch ctx submissionId ownerId leaseSeconds now, s =>
      (Durable.claimDispatch env ctx submissionId ownerId leaseSeconds now s).void
  | linkDispatch ctx submissionId ownerId fencingToken remoteRunId prefectFlowRunId now, s =>
      (Durable.linkDispatch env ctx submissionId ownerId fencingToken remoteRunId
        prefectFlowRunId now s).void
  | releaseDispatch ctx submissionId ownerId fencingToken outcomeUncertain cancelled errorCode
      now, s =>
      (Durable.releaseDispatch host env ctx submissionId ownerId fencingToken outcomeUncertain
        cancelled errorCode now s).void
  | rearmDispatchAfterRemoteFailure ctx submissionId expectedRemoteRunId expectedFlowRunId now,
      s =>
      (Durable.rearmDispatchAfterRemoteFailure host env ctx submissionId expectedRemoteRunId
        expectedFlowRunId now s).void
  | rearmDispatchAfterRemoteMissing ctx submissionId expectedRemoteRunId expectedFlowRunId
      minimumAgeSeconds now, s =>
      (Durable.rearmDispatchAfterRemoteMissing host env ctx submissionId expectedRemoteRunId
        expectedFlowRunId minimumAgeSeconds now s).void
  | rearmReconciliationRequiredDispatch ctx submissionId expectedGeneration expectedRemoteRunId
      expectedFlowRunId evidenceSha256 now, s =>
      (Durable.rearmReconciliationRequiredDispatch host env ctx submissionId expectedGeneration
        expectedRemoteRunId expectedFlowRunId evidenceSha256 now s).void
  | reconcileTerminalOutbox ctx limit, s =>
      (Durable.reconcileTerminalOutbox env ctx limit s).void
  | reconcileCancelledSubmissions ctx sweep, s =>
      (Durable.reconcileCancelledSubmissions env ctx sweep s).void
  | markPublished ctx outboxId, s => (Durable.markPublished env ctx outboxId s).void
  | cancelSubmission ctx submissionId, s => (Durable.cancelSubmission env ctx submissionId s).void
  | acquireLease ctx submissionId ownerId ttlSeconds, s =>
      (Durable.acquireLease env ctx submissionId ownerId ttlSeconds s).void
  | heartbeat ctx submissionId ownerId fencingToken ttlSeconds, s =>
      (Durable.heartbeat env ctx submissionId ownerId fencingToken ttlSeconds s).void
  | releaseLease ctx submissionId ownerId fencingToken, s =>
      Durable.releaseLease env ctx submissionId ownerId fencingToken s
  | startAttempt ctx submissionId ownerId fencingToken context, s =>
      (Durable.startAttempt host env ctx submissionId ownerId fencingToken context s).void
  | finishAttempt ctx attemptId ownerId fencingToken status, s =>
      (Durable.finishAttempt env ctx attemptId ownerId fencingToken status s).void
  | recordResultPublication ctx record ownerId fencingToken, s =>
      (Durable.recordResultPublication host env ctx record ownerId fencingToken s).void
  | markResultPublicationPublished ctx submissionId attemptId reportSha256, s =>
      (Durable.markResultPublicationPublished env ctx submissionId attemptId reportSha256 s).void
  | compareAndSwapCheckpoint ctx swap, s => (Durable.compareAndSwapCheckpoint env ctx swap s).void
  | diagnoseCheckpoint ctx checkpointId kind detail, s =>
      (Durable.diagnoseCheckpoint host env ctx checkpointId kind detail s).void
  | acknowledgeBaseline ctx schemaBaselineId observationFingerprint expectedVersion submissionId,
      s =>
      (Durable.acknowledgeBaseline env ctx schemaBaselineId observationFingerprint expectedVersion
        submissionId s).void
  | recordEffect ctx effect, s => (Durable.recordEffect host env ctx effect s).void
  | recordAttemptEffect ctx effect claim, s =>
      (Durable.recordAttemptEffect host env ctx effect claim s).void
  | createPreview ctx preview, s => (Durable.createPreview host env ctx preview s).void
  | markPreviewStale ctx previewId given, s => (Durable.markPreviewStale ctx previewId given s).void
  | recordPreviewDiff ctx diff, s => (Durable.recordPreviewDiff ctx diff s).void
  | authorizeShadowRun ctx shadow, s => (Durable.authorizeShadowRun ctx shadow s).void
  | cleanupExpiredPreviews ctx, s => (Durable.cleanupExpiredPreviews host env ctx s).void
  | acceptActionJob ctx request, s => (Durable.acceptActionJob host env ctx request s).void
  | cancelActionJob ctx actionId, s => (Durable.cancelActionJob host env ctx actionId s).void
  | claimActionJob ctx workerId leaseSeconds now, s =>
      (Durable.claimActionJob host env ctx workerId leaseSeconds now s).void
  | heartbeatActionJob ctx actionId workerId fencingToken leaseSeconds now, s =>
      (Durable.heartbeatActionJob env ctx actionId workerId fencingToken leaseSeconds now s).void
  | markActionJobAccepting ctx actionId workerId fencingToken now, s =>
      (Durable.markActionJobAccepting env ctx actionId workerId fencingToken now s).void
  | finishActionJob ctx actionId completion now, s =>
      (Durable.finishActionJob host env ctx actionId completion now s).void
  | cleanupExpiredActionResults ctx limit now, s =>
      (Durable.cleanupExpiredActionResults env ctx limit now s).void

/-- One call with what it reads from its surroundings. -/
structure Event where
  env : Env
  call : Call

/-- What the call gives back and the store it leaves. -/
def Event.outcome (host : Host) (e : Event) (s : Store) : Outcome Unit := e.call.exec host e.env s

def next (host : Host) (s : Store) (e : Event) : Store := (e.outcome host s).store

/-- The store after a run. -/
abbrev run (host : Host) (s : Store) (es : List Event) : Store := Runs.run (next host) s es

/-- The identifiers a call generates are not in use yet, as `uuid4` promises. -/
def Event.isFresh (s : Store) (e : Event) : Bool :=
  match e.call with
  | .accept ctx request =>
      (request.submissionId.isSome ||
        !s.submissions.contains (key ctx (e.env.generatedId "sub-" 16 0))) &&
        !s.outbox.contains (key ctx (e.env.generatedId "out-" 16 1))
  | .startAttempt ctx _ _ _ _ => !s.attempts.contains (key ctx (e.env.generatedId "att-" 16 0))
  | .acceptActionJob ctx _ => !s.actionJobs.contains (key ctx (e.env.generatedId "act-" 24 0))
  | _ => true

def Event.Fresh (s : Store) (e : Event) : Prop := e.isFresh s = true

instance (s : Store) (e : Event) : Decidable (e.Fresh s) :=
  inferInstanceAs (Decidable (e.isFresh s = true))

/-- A run from the empty store of the given admission limit. -/
abbrev reached (host : Host) (limit : Option Int) (es : List Event) : Store :=
  run host (Store.init limit) es

theorem reached_append (host : Host) (limit : Option Int) (es es' : List Event) :
    reached host limit (es ++ es') = run host (reached host limit es) es' :=
  Runs.run_append _ es es'

/-- Every event of the run sees fresh identifiers. -/
abbrev FreshRun (host : Host) (s : Store) (es : List Event) : Prop :=
  Runs.Guarded (next host) Event.Fresh s es

/-! ## A sample deployment

Concrete surroundings, on which the witnesses of the results below are run: an
empty pipeline with its envelope, and the digests of the texts these runs use. -/

section Sample

def samplePipelineSha256 : String :=
  "04f172ef5ee66a6e1b7d02c01ea17e36dcd7adbde17ace9b6b87c37976583b8a"

def samplePlanSha256 : String :=
  "e26d6383f6452e291c07b2d896b5dbd36ed0614f4a9cc6becd95644e811b6b0d"

/-- `RunRequest().to_dict()`. -/
def sampleRunRequest : Json :=
  .obj [("asset_overrides", .obj []),
    ("cancellation", .obj [("abandon_after_seconds", .null), ("cooperative", .bool true)]),
    ("explicit_settings", .arr []), ("extensions", .obj []),
    ("implementation_overrides", .obj []), ("intent", .str "standard"),
    ("invalidation", .str "none"), ("materialization", .str "default"), ("metadata", .obj []),
    ("no_write", .bool false), ("parameter_overrides", .obj []),
    ("retry", .obj [("backoff_seconds", .float "0.0"), ("max_attempts", .int 1),
      ("retry_on", .arr [])]),
    ("selection", .obj [("end", .null), ("kind", .str "all"), ("nodes", .arr []),
      ("start", .null), ("tags", .arr [])]),
    ("timeout", .obj [("run_seconds", .null), ("step_seconds", .null)])]

def sampleProvenance : Json :=
  .obj (["asset_overrides", "cancellation", "extensions", "implementation_overrides", "intent",
    "invalidation", "materialization", "metadata", "no_write", "parameter_overrides",
    "retry.backoff_seconds", "retry.max_attempts", "retry.retry_on", "selection",
    "timeout.run_seconds", "timeout.step_seconds"].map
      fun name => ("request." ++ name, .str "runtime.default"))

/-- The canonical envelope of a pipeline without nodes. -/
def sampleEnvelope : String :=
  (Json.obj [
    ("definition_document", .obj [("fingerprint", .str samplePipelineSha256),
      ("pipeline_id", .str "orders"), ("pipeline_name", .str "orders"),
      ("schema", .str "etlantic.pipeline/1")]),
    ("definition_fingerprint", .str samplePipelineSha256), ("definition_id", .str "orders"),
    ("effective_request", sampleRunRequest), ("effective_settings", .obj []),
    ("evidence_refs", .obj []),
    ("plan_document", .obj [("fingerprint", .str samplePlanSha256),
      ("logical_graph", .obj [("pipeline_id", .str "orders"), ("pipeline_name", .str "orders")]),
      ("pipeline_id", .str "orders"), ("pipeline_name", .str "orders"),
      ("plan_id", .str "orders"), ("profile_name", .str "dev"),
      ("schema", .str "etlantic.plan/1")]),
    ("plan_fingerprint", .str samplePlanSha256), ("plugin_fingerprint", .null),
    ("policy_fingerprint", .null), ("profile_name", .str "dev"), ("resource_versions", .obj []),
    ("revision_id", .null), ("revision_selector", .str "latest"),
    ("run_request", sampleRunRequest), ("schema", .str "etlantic.execution_envelope/2"),
    ("setting_provenance", sampleProvenance)]).dumps Json.escapeUnicode

def sampleBinding : String :=
  "abababababababababababababababababababababababababababababababab"

def sampleRoute : String :=
  "prefect:abababababababababababababababababababababababababababababababab"

def sampleContext : ControlPlaneContext where
  principal := ⟨"alice", none, .human⟩
  tenant := ⟨"acme"⟩
  workspace := ⟨"acme", "main"⟩
  environment := ⟨"prod"⟩
  securityDomain := ⟨"corp"⟩
  resourceOwnerId := none
  workspaceTenant := workspace_ofTenant "acme" "main"
  ownerNonEmpty := none_ownerNonEmpty

/-- An accept of the sample plan under the id `submissionId`. -/
def sampleAccept (submissionId route : String) (snapshot : Option String) : AcceptRequest where
  idempotencyKey := submissionId
  operation := "run"
  planFingerprint := samplePlanSha256
  revisionId := none
  pluginFingerprint := none
  policyFingerprint := none
  inputSnapshot := snapshot
  schemaObservationFingerprint := none
  schemaBaselineId := none
  submissionId := some submissionId
  runId := none
  executionRoute := route

def sampleEffect (effectId submissionId : String) (status : EffectStatus) : EffectRecord where
  effectId := effectId
  submissionId := submissionId
  scope := sampleContext.scopeKey
  status := status
  recordedAt := .iso 0
  idempotencyEvidence := none
  reconciliationEvidence := none
  publicationEvidence := none
  compensationEvidence := none
  authoritative := true
  metadata := []

/-- `sha256` on the texts of the sample runs. -/
def sampleDigests : List (String × String) :=
  [(samplePlanSha256 ++ "|||||||prod|corp||local",
      "7a85bc2aeb45efba6f26ae9879c9a608c19740f40928212e29e7602216aa9bcf"),
    (samplePlanSha256 ++ "|||||||prod|corp||" ++ sampleRoute,
      "71598cd326fa44a7e12c4a36456b66a91b417c6e1e0cf31fa2b5a7b37ea19456"),
    (samplePlanSha256 ++ "||||" ++ sampleEnvelope ++ "|||prod|corp||" ++ sampleRoute,
      "8a4ef629f6423a35c6455d2195ff559ea3c82d0bd575579bdd9f3795668bf4b1"),
    (sampleEnvelope, "137c228096b5242a4ca3170f24f39f39d2d01870509b6a3204304fa96c554c45"),
    (creationIdentity ⟨⟨"acme", "main"⟩, "a"⟩ sampleBinding 1,
      "71bb043139af17c42d95446c2371a4f40915478864042edc21318db493a6cc25"),
    (creationIdentity ⟨⟨"acme", "main"⟩, "a"⟩ sampleBinding 2,
      "15a5df8da9064bb0a493dc8fedee74281aa30d92974b6e9a22cf453f13fdeec7")]

/-- Texts outside the table get values that are no digests of any other text. -/
def sampleSha256 (text : String) : String :=
  match sampleDigests.find? (fun d => d.1 = text) with
  | some d => d.2
  | none => "~" ++ text

/-- A host that accepts one envelope. -/
def hostAccepting (envelope plan : String) : Host where
  sha256 := sampleSha256
  unicode := ⟨Char.isAlphanum, Char.isLower, Char.isDigit⟩
  executionEnvelope text :=
    if text = envelope then .ok ⟨plan, some planSchemaTag, envelope⟩
    else .error (.valueError "Unsupported execution-envelope schema")
  loads _ := none
  parse _ := none

def sampleHost : Host := hostAccepting sampleEnvelope samplePlanSha256

/-- One second of the sample clock; `digit` tells its generated identifiers apart. -/
def sampleEnv (digit : Char) (second : Int) : Env where
  now _ := seconds second
  uuid n := String.ofList (Nat.digitChar n :: List.replicate 11 digit ++ '4' ::
    List.replicate 3 digit ++ '8' :: List.replicate 15 digit)

end Sample

end Etlantic.ControlPlane.Durable
