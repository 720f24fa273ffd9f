import Etlantic.Base.Runs
import Etlantic.Base.Dict
import Etlantic.Base.IsoText
import Etlantic.ControlPlane.Models

/-!
# Attestations

`MemoryAttestationStore`: signed statements under their ids, an index from
subject to id, and one set of revoked ids for all tenants.  A signature covers
the joined fields of a statement, without its id.
-/

namespace Etlantic.ControlPlane.Governance

open IsoText

/-! ## Records -/

inductive AttestationKind where
  | plan
  | revision
  | plugin
  | policyBundle
  | sbom
  | schemaObservation
deriving DecidableEq

def AttestationKind.text : AttestationKind → String
  | plan => "plan"
  | revision => "revision"
  | plugin => "plugin"
  | policyBundle => "policy_bundle"
  | sbom => "sbom"
  | schemaObservation => "schema_observation"

structure Attestation where
  attestationId : String
  kind : AttestationKind
  subjectFingerprint : String
  signature : String
  signerId : String
  tenantId : Option String
  workspaceId : Option String
  environment : Option String
  sbomDigest : Option String
  /-- `created_at.astimezone(UTC)`. -/
  createdAt : Datetime
deriving DecidableEq

def attestationSchema : String := "etlantic.control_plane.attestation/2"

/-- The parts that `signing_payload` joins. -/
def Attestation.signingParts (a : Attestation) : List String :=
  [attestationSchema, a.kind.text, a.subjectFingerprint, a.signerId, a.tenantId.getD "",
    a.workspaceId.getD "", a.environment.getD "", a.sbomDigest.getD "", a.createdAt.text "+00:00"]

structure SignedSchemaObservation where
  tenantId : String
  workspaceId : String
  environment : String
  schemaFingerprint : String
  signerId : String
deriving DecidableEq

def SignedSchemaObservation.signingParts (o : SignedSchemaObservation) : List String :=
  [o.tenantId, o.workspaceId, o.environment, o.schemaFingerprint, o.signerId]

/-- What the holder of the signing secret signs. -/
inductive Statement where
  | attestation (a : Attestation)
  | observation (o : SignedSchemaObservation)

def Statement.signingParts : Statement → List String
  | attestation a => a.signingParts
  | observation o => o.signingParts

/-- `signing_payload()` of either kind of statement. -/
def signingPayload (parts : List String) : String := "|".intercalate parts

/-- `sign_payload(self.signing_secret, ·)`: the HMAC under the secret of the store. -/
structure Signer where
  sign : String → String

def Signer.verifySignature (signer : Signer) (payload signature : String) : Bool :=
  signer.sign payload = signature

structure VerificationResult where
  ok : Bool
  reasons : List String
  attestationId : Option String
deriving DecidableEq

/-! ## The store -/

structure MemoryAttestationStore where
  attestations : Dict (Scope × String) Attestation
  bySubject : Dict (Scope × AttestationKind × String) String
  revoked : List String

namespace MemoryAttestationStore

def init : MemoryAttestationStore := ⟨.empty, .empty, []⟩

/-- The arguments of `put`. -/
structure Put where
  ctx : ControlPlaneContext
  attestation : Attestation

/-- The attestation with the scope of the caller where it has none. -/
def Put.scoped (call : Put) : Attestation :=
  if call.attestation.tenantId = none then
    { call.attestation with
      tenantId := some call.ctx.tenant.tenantId
      workspaceId := some call.ctx.workspace.workspaceId
      environment := some call.ctx.environment.name }
  else call.attestation

def Put.inScope (call : Put) : Bool :=
  call.scoped.tenantId = some call.ctx.tenant.tenantId &&
    call.scoped.workspaceId = some call.ctx.workspace.workspaceId

/-- The signature of the scoped attestation verifies. -/
def Put.verifies (signer : Signer) (call : Put) : Bool :=
  signer.verifySignature (signingPayload call.scoped.signingParts) call.scoped.signature

def put (signer : Signer) (s : MemoryAttestationStore) (call : Put) :
    Reply MemoryAttestationStore Attestation :=
  if !call.inScope then ⟨.error (forbidden "attestation scope mismatch"), s⟩
  else if !call.verifies signer then
    ⟨.error (forbidden "invalid attestation signature"), s⟩
  else
    ⟨.ok call.scoped,
      { s with
        attestations :=
          s.attestations.set (call.ctx.scopeKey, call.scoped.attestationId) call.scoped
        bySubject := s.bySubject.set
          (call.ctx.scopeKey, call.scoped.kind, call.scoped.subjectFingerprint)
          call.scoped.attestationId }⟩

structure Revoke where
  ctx : ControlPlaneContext
  attestationId : String

def revoke (s : MemoryAttestationStore) (call : Revoke) : Reply MemoryAttestationStore Unit :=
  ⟨.ok (), { s with revoked := call.attestationId :: s.revoked }⟩

/-- The arguments of `verify_plan` and its readings of the clock, one for each check. -/
structure Verify where
  ctx : ControlPlaneContext
  planFingerprint : String
  revisionId : String
  policyFingerprint : String
  pluginFingerprints : List String
  sbomDigest : Option String
  maxAgeSeconds : Int
  now : Nat → Datetime

def Verify.checks (call : Verify) : List (AttestationKind × String) :=
  [(.plan, call.planFingerprint), (.revision, call.revisionId),
    (.policyBundle, call.policyFingerprint)] ++
    call.pluginFingerprints.map (fun plugin => (.plugin, plugin)) ++
    (call.sbomDigest.map fun digest => (.sbom, digest)).toList

/-- `now - created_at` in microseconds. -/
def age (now : Datetime) (a : Attestation) : Int := now.stamp.micros - a.createdAt.stamp.micros

/-- Not future-dated by more than five minutes and not older than the bound. -/
def Fresh (now : Datetime) (maxAgeSeconds : Int) (a : Attestation) : Prop :=
  -300 * 1000000 ≤ age now a ∧ age now a ≤ maxAgeSeconds * 1000000

/-- One turn of the loop of `verify_plan`. The timestamp of an `Attestation` has a zone by its
`__post_init__`. -/
def verifyOne (signer : Signer) (s : MemoryAttestationStore) (scope : Scope) (maxAgeSeconds : Int)
    (now : Datetime) (check : AttestationKind × String) : VerificationResult :=
  match s.bySubject.get? (scope, check.1, check.2) with
  | none => ⟨false, ["missing " ++ check.1.text ++ " attestation"], none⟩
  | some aid =>
      if aid ∈ s.revoked then
        ⟨false, ["revoked " ++ check.1.text ++ " attestation"], some aid⟩
      else
        match s.attestations.get? (scope, aid) with
        | none => ⟨false, ["tampered " ++ check.1.text ++ " attestation"], some aid⟩
        | some att =>
            if !signer.verifySignature (signingPayload att.signingParts) att.signature then
              ⟨false, ["tampered " ++ check.1.text ++ " attestation"], some aid⟩
            else if age now att < -300 * 1000000 then
              ⟨false, ["future-dated " ++ check.1.text ++ " attestation"], some aid⟩
            else if maxAgeSeconds * 1000000 < age now att then
              ⟨false, ["stale " ++ check.1.text ++ " attestation"], some aid⟩
            else ⟨true, [], some aid⟩

/-- The attestation that a positive check rests on. -/
def found (s : MemoryAttestationStore) (scope : Scope) (check : AttestationKind × String) :
    Option Attestation :=
  (s.bySubject.get? (scope, check.1, check.2)).bind fun aid => s.attestations.get? (scope, aid)

def verifyPlan (signer : Signer) (s : MemoryAttestationStore) (call : Verify) :
    Except PyError (List VerificationResult) :=
  if call.maxAgeSeconds < 1 then
    .error (.controlPlane ⟨"attestation freshness bound must be a positive integer", "PMCP400", 400,
      "etlantic.control_plane/bad_request", "Bad Request", []⟩)
  else
    .ok (call.checks.mapIdx fun i check =>
      verifyOne signer s call.ctx.scopeKey call.maxAgeSeconds (call.now i) check)

/-! ## Runs -/

/-- What happens to a store and to its signing secret. -/
inductive Event where
  | sign (statement : Statement)
  | put (call : Put)
  | revoke (call : Revoke)
  | verifyPlan (call : Verify)

def next (signer : Signer) (s : MemoryAttestationStore) : Event → MemoryAttestationStore
  | .sign _ => s
  | .put call => (s.put signer call).state
  | .revoke call => (s.revoke call).state
  | .verifyPlan _ => s

end MemoryAttestationStore

end Etlantic.ControlPlane.Governance
