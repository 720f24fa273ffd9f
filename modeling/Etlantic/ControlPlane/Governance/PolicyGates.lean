import Etlantic.ControlPlane.Governance.Approval
import Etlantic.ControlPlane.Governance.Attestation

/-!
# Policy gates

`evaluate_policy`, `enforce_policy_decision` and the three gates.  The policy
provider, the attestation store, the quota provider and the audit store are
protocols: a gate is given what they answer.
-/

namespace Etlantic.ControlPlane.Governance

inductive PolicyEffect where
  | allow
  | deny
  | requireApproval
deriving DecidableEq

structure PolicyDecision where
  decisionId : String
  hook : String
  effect : PolicyEffect
  policyFingerprint : String
  reasons : List String
  planFingerprint : Option String
  revisionId : Option String
deriving DecidableEq

def decisionAllows (decision : PolicyDecision) : Bool := decision.effect = .allow

def decisionRequiresApproval (decision : PolicyDecision) : Bool :=
  decision.effect = .requireApproval

/-- The question a gate asks a policy provider. -/
structure PolicyQuestion where
  hook : String
  planFingerprint : Option String
  revisionId : Option String
  resource : Option String

structure PolicyProvider where
  requireAvailable : ControlPlaneContext → Except PyError Unit
  decide : ControlPlaneContext → PolicyQuestion → Except PyError PolicyDecision

/-- The arguments of `verify_plan`. -/
structure VerifyPlan where
  planFingerprint : String
  revisionId : String
  policyFingerprint : String
  pluginFingerprints : List String
  sbomDigest : Option String
  maxAgeSeconds : Int

/-- What `admit` answers: whether the effect is `allow`, its text, the reason and `to_dict()`. -/
structure QuotaAnswer where
  allowed : Bool
  effect : String
  reason : String
  payload : List (String × Json)

/-- An entry that a gate appends to the audit store. -/
structure AuditEntry where
  action : String
  resource : String
  decisionRefs : List String
  metadata : List (String × Option String)

/-- The optional collaborators of a gate. -/
structure Collaborators where
  policy : Option PolicyProvider
  audit : Option (ControlPlaneContext → AuditEntry → Except PyError Unit)
  attestations : Option (ControlPlaneContext → VerifyPlan → Except PyError (List VerificationResult))
  quotas : Option (ControlPlaneContext → Except PyError QuotaAnswer)

def unavailable (detail : String) : PyError :=
  .controlPlane ⟨detail, "PMCP503", 503, "etlantic.control_plane/unavailable", "Unavailable", []⟩

def forbiddenWith (detail : String) (extensions : List (String × Json)) : PyError :=
  .controlPlane { ControlPlaneError.forbidden detail with extensions := extensions }

def evaluatePolicy (provider : Option PolicyProvider) (ctx : ControlPlaneContext)
    (question : PolicyQuestion) (required : Bool) : Except PyError (Option PolicyDecision) :=
  match provider with
  | none =>
      if required then .error (unavailable "policy provider required for protected operation")
      else .ok none
  | some provider => do
      provider.requireAvailable ctx
      let decision ← provider.decide ctx question
      return some decision

/-- The call of `is_satisfied` for a decision. -/
def approvalQuestion (decision : PolicyDecision) (ctx : ControlPlaneContext) (now : Readings) :
    MemoryApprovalStore.IsSatisfied where
  ctx := ctx
  planFingerprint := decision.planFingerprint.getD ""
  policyFingerprint := decision.policyFingerprint
  revisionId := decision.revisionId
  hook := decision.hook
  now := now

def enforcePolicyDecision (decision : Option PolicyDecision)
    (approvals : Option MemoryApprovalStore) (ctx : Option ControlPlaneContext) (now : Readings) :
    Reply (Option MemoryApprovalStore) (Option PolicyDecision) :=
  match decision with
  | none => ⟨.ok none, approvals⟩
  | some decision =>
      if decision.effect = .deny then
        let joined := "; ".intercalate decision.reasons
        ⟨.error (forbiddenWith (if joined = "" then "policy denied" else joined)
          [("policy_fingerprint", .str decision.policyFingerprint), ("hook", .str decision.hook)]),
          approvals⟩
      else if decisionRequiresApproval decision then
        match approvals, ctx with
        | some store, some ctx =>
            let reply := store.isSatisfied (approvalQuestion decision ctx now)
            match reply.result with
            | .error raised => ⟨.error raised, some reply.state⟩
            | .ok true => ⟨.ok (some decision), some reply.state⟩
            | .ok false =>
                ⟨.error (forbiddenWith "approval required and not satisfied"
                  [("hook", .str decision.hook),
                    ("policy_fingerprint", .str decision.policyFingerprint)]), some reply.state⟩
        | approvals, _ =>
            ⟨.error (forbiddenWith "approval required but approval store not configured"
              [("hook", .str decision.hook)]), approvals⟩
      else ⟨.ok (some decision), approvals⟩

/-- The decision is enforced, then the rest of the gate runs. -/
def enforcedThen {α : Type} (decision : Option PolicyDecision)
    (approvals : Option MemoryApprovalStore) (ctx : ControlPlaneContext) (now : Readings)
    (rest : Except PyError α) : Reply (Option MemoryApprovalStore) α :=
  let reply := enforcePolicyDecision decision approvals (some ctx) now
  match reply.result with
  | .error raised => ⟨.error raised, reply.state⟩
  | .ok _ => ⟨rest, reply.state⟩

def requireVerified (results : List VerificationResult) : Except PyError Unit :=
  let bad := results.filter (!·.ok)
  if bad.isEmpty then .ok ()
  else .error (forbiddenWith "attestation verification failed"
    [("reasons", .arr ((bad.flatMap (·.reasons)).map Json.str))])

/-- `audit.append(...)`, where there is an audit store. -/
def appendAudit (with_ : Collaborators) (ctx : ControlPlaneContext) (entry : AuditEntry) :
    Except PyError Unit :=
  match with_.audit with
  | none => .ok ()
  | some append => append ctx entry

def decisionRefs (decision : Option PolicyDecision) : List String :=
  (decision.map (·.decisionId)).toList

/-! ## `gate_pre_submit` -/

structure PreSubmit where
  ctx : ControlPlaneContext
  planFingerprint : String
  effectiveFingerprint : Option String
  revisionId : Option String
  pluginFingerprints : Option (List String)
  sbomDigest : Option String
  requirePolicy : Bool
  requireAttestations : Bool
  auditBeforeQuota : Bool
  attestationMaxAgeSeconds : Int
  now : Readings

/-- `effective_fingerprint or plan_fingerprint`. -/
def PreSubmit.approvalFingerprint (call : PreSubmit) : String :=
  match call.effectiveFingerprint with
  | some given => if given = "" then call.planFingerprint else given
  | none => call.planFingerprint

def PreSubmit.entry (call : PreSubmit) (decision : Option PolicyDecision)
    (quotaEffect : Option String) : AuditEntry where
  action := "pre_submit"
  resource := call.approvalFingerprint
  decisionRefs := decisionRefs decision
  metadata := [("policy_fingerprint", decision.map (·.policyFingerprint)),
    ("plan_fingerprint", some call.planFingerprint),
    ("effective_fingerprint", some call.approvalFingerprint), ("quota_effect", quotaEffect)]

def PreSubmit.verifyAttestations (call : PreSubmit) (with_ : Collaborators)
    (decision : Option PolicyDecision) : Except PyError Unit :=
  if !call.requireAttestations then .ok ()
  else
    match with_.attestations with
    | none => .error (unavailable "attestation store required")
    | some verify => do
        let results ← verify call.ctx
          { planFingerprint := call.approvalFingerprint
            revisionId := match call.revisionId with
              | some given => if given = "" then call.planFingerprint else given
              | none => call.planFingerprint
            policyFingerprint := (decision.map (·.policyFingerprint)).getD "unsigned"
            pluginFingerprints := call.pluginFingerprints.getD []
            sbomDigest := call.sbomDigest
            maxAgeSeconds := call.attestationMaxAgeSeconds }
        requireVerified results

def PreSubmit.admitQuota (call : PreSubmit) (with_ : Collaborators) :
    Except PyError (Option QuotaAnswer) :=
  match with_.quotas with
  | none => .ok none
  | some quotas => do
      let answer ← quotas call.ctx
      if !answer.allowed then
        .error (conflictWith ("quota " ++ answer.effect ++ ": " ++ answer.reason) answer.payload)
      else return some answer

/-- What `gate_pre_submit` does once the decision is enforced. -/
def PreSubmit.rest (call : PreSubmit) (with_ : Collaborators) (decision : Option PolicyDecision) :
    Except PyError (Option PolicyDecision × Option QuotaAnswer) := do
  call.verifyAttestations with_ decision
  if call.auditBeforeQuota then
    appendAudit with_ call.ctx (call.entry decision (with_.quotas.map fun _ => "pending"))
  let quota ← call.admitQuota with_
  if !call.auditBeforeQuota then
    appendAudit with_ call.ctx (call.entry decision (quota.map (·.effect)))
  return (decision, quota)

def gatePreSubmit (with_ : Collaborators) (approvals : Option MemoryApprovalStore)
    (call : PreSubmit) :
    Reply (Option MemoryApprovalStore) (Option PolicyDecision × Option QuotaAnswer) :=
  match evaluatePolicy with_.policy call.ctx
      ⟨"pre_submit", some call.approvalFingerprint, call.revisionId, none⟩ call.requirePolicy with
  | .error raised => ⟨.error raised, approvals⟩
  | .ok decision => enforcedThen decision approvals call.ctx call.now (call.rest with_ decision)

/-! ## `gate_pre_execution` -/

structure PreExecution where
  ctx : ControlPlaneContext
  planFingerprint : String
  revisionId : Option String
  resource : String
  required : Bool
  now : Readings

def PolicyEffect.text : PolicyEffect → String
  | allow => "allow"
  | deny => "deny"
  | requireApproval => "require_approval"

def PreExecution.entry (call : PreExecution) (decision : Option PolicyDecision) : AuditEntry where
  action := "pre_execution"
  resource := call.resource
  decisionRefs := decisionRefs decision
  metadata := [("policy_fingerprint", decision.map (·.policyFingerprint)),
    ("plan_fingerprint", some call.planFingerprint), ("revision_id", call.revisionId),
    ("outcome", some ((decision.map (·.effect.text)).getD "allow"))]

def gatePreExecution (with_ : Collaborators) (approvals : Option MemoryApprovalStore)
    (call : PreExecution) : Reply (Option MemoryApprovalStore) (Option PolicyDecision) :=
  match evaluatePolicy with_.policy call.ctx
      ⟨"pre_execution", some call.planFingerprint, call.revisionId, some call.resource⟩
      call.required with
  | .error raised => ⟨.error raised, approvals⟩
  | .ok decision =>
      -- The evidence is written before the decision is enforced.
      match appendAudit with_ call.ctx (call.entry decision) with
      | .error raised => ⟨.error raised, approvals⟩
      | .ok () => enforcedThen decision approvals call.ctx call.now (.ok decision)

/-! ## `gate_pre_promote` -/

structure PrePromote where
  ctx : ControlPlaneContext
  planFingerprint : String
  revisionId : String
  requirePolicy : Bool
  now : Readings

def PrePromote.entry (call : PrePromote) (decision : PolicyDecision)
    (metadata : List (String × Option String)) : AuditEntry where
  action := "pre_promote"
  resource := call.revisionId
  decisionRefs := [decision.decisionId]
  metadata := metadata

def gatePrePromote (with_ : Collaborators) (approvals : Option MemoryApprovalStore)
    (call : PrePromote) : Reply (Option MemoryApprovalStore) PolicyDecision :=
  match evaluatePolicy with_.policy call.ctx
      ⟨"pre_promote", some call.planFingerprint, some call.revisionId, none⟩
      call.requirePolicy with
  | .error raised => ⟨.error raised, approvals⟩
  -- `assert decision is not None`
  | .ok none => ⟨.error (.valueError "assert"), approvals⟩
  | .ok (some decision) =>
      if decisionAllows decision then
        ⟨(appendAudit with_ call.ctx (call.entry decision [])).map fun _ => decision, approvals⟩
      else
        enforcedThen (some decision) approvals call.ctx call.now
          ((appendAudit with_ call.ctx (call.entry decision [("via", some "approval")])).map
            fun _ => decision)

end Etlantic.ControlPlane.Governance
