import Etlantic.Base.Runs
import Etlantic.Base.Dict
import Etlantic.ControlPlane.Models

/-!
# Approvals

`MemoryApprovalStore` with separation of duties.  An approval is found by its
scope and its id, which the caller may choose; every read first expires it by
the clock of the call.
-/

namespace Etlantic.ControlPlane.Governance

/-! ## Records -/

inductive ApprovalStatus where
  | pending
  | approved
  | denied
  | expired
  | revoked
  | stale
deriving DecidableEq

def ApprovalStatus.text : ApprovalStatus → String
  | pending => "pending"
  | approved => "approved"
  | denied => "denied"
  | expired => "expired"
  | revoked => "revoked"
  | stale => "stale"

inductive ApprovalEffect where
  | approved
  | denied
deriving DecidableEq

structure ApprovalDecisionRecord where
  decisionId : String
  approvalId : String
  effect : ApprovalEffect
  actorSubject : String
  actorIssuer : Option String
  reason : Option String
deriving DecidableEq

structure ApprovalRequest where
  approvalId : String
  tenantId : String
  workspaceId : String
  hook : String
  planFingerprint : String
  policyFingerprint : String
  revisionId : Option String
  requesterSubject : String
  requesterIssuer : Option String
  status : ApprovalStatus
  expiresAt : Option Int
  decisions : List ApprovalDecisionRecord
deriving DecidableEq

def ApprovalRequest.key (record : ApprovalRequest) : Scope × String :=
  (⟨record.tenantId, record.workspaceId⟩, record.approvalId)

/-- The statuses that can still change. -/
def ApprovalStatus.Open (status : ApprovalStatus) : Prop :=
  status = .pending ∨ status = .approved

instance (status : ApprovalStatus) : Decidable status.Open :=
  inferInstanceAs (Decidable (_ ∨ _))

/-! ## The store -/

abbrev MemoryApprovalStore := Dict (Scope × String) ApprovalRequest

/-- The readings of the clock in one call, one for each refreshed record. -/
abbrev Readings := Nat → Int

namespace MemoryApprovalStore

/-- The arguments of `create` and the fresh id. -/
structure Create where
  ctx : ControlPlaneContext
  hook : String
  planFingerprint : String
  policyFingerprint : String
  revisionId : Option String
  expiresAt : Option Int
  approvalId : Option String
  freshId : String

/-- `approval_id or str(uuid.uuid4())`. -/
def Create.aid (call : Create) : String :=
  match call.approvalId with
  | some given => if given = "" then call.freshId else given
  | none => call.freshId

def Create.key (call : Create) : Scope × String := (call.ctx.scopeKey, call.aid)

def Create.request (call : Create) : ApprovalRequest where
  approvalId := call.aid
  tenantId := call.ctx.tenant.tenantId
  workspaceId := call.ctx.workspace.workspaceId
  hook := call.hook
  planFingerprint := call.planFingerprint
  policyFingerprint := call.policyFingerprint
  revisionId := call.revisionId
  requesterSubject := call.ctx.principal.subject
  requesterIssuer := call.ctx.principal.issuer
  status := .pending
  expiresAt := call.expiresAt
  decisions := []

def create (s : MemoryApprovalStore) (call : Create) : Reply MemoryApprovalStore ApprovalRequest :=
  ⟨.ok call.request, s.set call.key call.request⟩

/-- `_refresh`. -/
def refresh (s : MemoryApprovalStore) (record : ApprovalRequest) (now : Int) :
    ApprovalRequest × MemoryApprovalStore :=
  if record.status.Open ∧ record.expiresAt.any (· ≤ now) = true then
    let expired := { record with status := .expired }
    (expired, s.set record.key expired)
  else (record, s)

/-- The arguments of `get`. -/
structure Get where
  ctx : ControlPlaneContext
  approvalId : String
  now : Readings

def Get.key (call : Get) : Scope × String := (call.ctx.scopeKey, call.approvalId)

def get (s : MemoryApprovalStore) (call : Get) : Reply MemoryApprovalStore ApprovalRequest :=
  match s.get? call.key with
  | none => ⟨.error (notFound "approval not found"), s⟩
  | some record =>
      let (record, s) := refresh s record (call.now 0)
      ⟨.ok record, s⟩

/-- The arguments of `decide` and the fresh id of the decision. -/
structure Decide where
  ctx : ControlPlaneContext
  approvalId : String
  approve : Bool
  reason : Option String
  planFingerprint : Option String
  policyFingerprint : Option String
  now : Readings
  freshId : String

def Decide.key (call : Decide) : Scope × String := (call.ctx.scopeKey, call.approvalId)

def Decide.decision (call : Decide) : ApprovalDecisionRecord where
  decisionId := call.freshId
  approvalId := call.approvalId
  effect := if call.approve then .approved else .denied
  actorSubject := call.ctx.principal.subject
  actorIssuer := call.ctx.principal.issuer
  reason := call.reason

/-- A fingerprint is given and is not the one of the request. -/
def Decide.drifted (call : Decide) (record : ApprovalRequest) : Bool :=
  call.planFingerprint.any (· ≠ record.planFingerprint) ||
    call.policyFingerprint.any (· ≠ record.policyFingerprint)

def decide (s : MemoryApprovalStore) (call : Decide) : Reply MemoryApprovalStore ApprovalRequest :=
  match s.get? call.key with
  | none => ⟨.error (notFound "approval not found"), s⟩
  | some record =>
      let (record, s) := refresh s record (call.now 0)
      if record.status ≠ .pending then
        ⟨.error (conflictWith ("approval is " ++ record.status.text)
          [("approval_id", .str call.approvalId)]), s⟩
      else if record.requesterSubject = call.ctx.principal.subject then
        ⟨.error (.controlPlane { ControlPlaneError.forbidden
          "separation of duties: requester cannot decide" with
            extensions := [("approval_id", .str call.approvalId)] }), s⟩
      else if call.drifted record then
        ⟨.error (conflictWith "approval is stale relative to plan or policy fingerprint"
            [("approval_id", .str call.approvalId), ("status", .str "stale")]),
          s.set call.key { record with status := .stale }⟩
      else
        let updated := { record with
          status := if call.approve then .approved else .denied
          decisions := record.decisions ++ [call.decision] }
        ⟨.ok updated, s.set call.key updated⟩

/-- The arguments of `revoke` that the status depends on. -/
structure Revoke where
  ctx : ControlPlaneContext
  approvalId : String
  now : Readings

def Revoke.key (call : Revoke) : Scope × String := (call.ctx.scopeKey, call.approvalId)

def revoke (s : MemoryApprovalStore) (call : Revoke) : Reply MemoryApprovalStore ApprovalRequest :=
  match s.get? call.key with
  | none => ⟨.error (notFound "approval not found"), s⟩
  | some record =>
      let (record, s) := refresh s record (call.now 0)
      if ¬ record.status.Open then
        ⟨.error (conflict ("cannot revoke approval in status " ++ record.status.text)), s⟩
      else
        let updated := { record with status := .revoked }
        ⟨.ok updated, s.set call.key updated⟩

/-- One turn of the loops of `list_pending` and `is_satisfied`. -/
def sweepOne (s : MemoryApprovalStore) (scope : Scope) (record : ApprovalRequest) (now : Int) :
    ApprovalRequest × MemoryApprovalStore :=
  let (refreshed, s) := refresh s record now
  (refreshed, s.set (scope, refreshed.approvalId) refreshed)

/-- The arguments of `list_pending`. -/
structure ListPending where
  ctx : ControlPlaneContext
  limit : Int
  now : Readings

def listFrom (call : ListPending) : List ((Scope × String) × ApprovalRequest) → Nat →
    List ApprovalRequest → MemoryApprovalStore → List ApprovalRequest × MemoryApprovalStore
  | [], _, items, s => (items, s)
  | (key, record) :: rest, i, items, s =>
      if key.1 ≠ call.ctx.scopeKey then listFrom call rest i items s
      else
        let (refreshed, s) := sweepOne s key.1 record (call.now i)
        let items := if refreshed.status = .pending then items ++ [refreshed] else items
        if call.limit ≤ items.length then (items, s) else listFrom call rest (i + 1) items s

def listPending (s : MemoryApprovalStore) (call : ListPending) :
    Reply MemoryApprovalStore (List ApprovalRequest) :=
  let (items, s) := listFrom call s.entries 0 [] s
  ⟨.ok items, s⟩

/-- The arguments of `is_satisfied`. -/
structure IsSatisfied where
  ctx : ControlPlaneContext
  planFingerprint : String
  policyFingerprint : String
  revisionId : Option String
  hook : String
  now : Readings

/-- The request answers the question: the same hook and fingerprints, and the revision when one is
given. -/
def IsSatisfied.Asks (call : IsSatisfied) (hook planFingerprint policyFingerprint : String)
    (revisionId : Option String) : Prop :=
  hook = call.hook ∧ planFingerprint = call.planFingerprint ∧
    policyFingerprint = call.policyFingerprint ∧
    (call.revisionId.isSome = true → revisionId = call.revisionId)

instance (call : IsSatisfied) (hook planFingerprint policyFingerprint : String)
    (revisionId : Option String) :
    Decidable (call.Asks hook planFingerprint policyFingerprint revisionId) :=
  inferInstanceAs (Decidable (_ ∧ _ ∧ _ ∧ (_ → _)))

def satisfiedFrom (call : IsSatisfied) : List ((Scope × String) × ApprovalRequest) → Nat →
    MemoryApprovalStore → Bool × MemoryApprovalStore
  | [], _, s => (false, s)
  | (key, record) :: rest, i, s =>
      if key.1 ≠ call.ctx.scopeKey then satisfiedFrom call rest i s
      else
        let (refreshed, s) := sweepOne s key.1 record (call.now i)
        if refreshed.status = .approved ∧ call.Asks refreshed.hook refreshed.planFingerprint
            refreshed.policyFingerprint refreshed.revisionId then (true, s)
        else satisfiedFrom call rest (i + 1) s

def isSatisfied (s : MemoryApprovalStore) (call : IsSatisfied) : Reply MemoryApprovalStore Bool :=
  let (found, s) := satisfiedFrom call s.entries 0 s
  ⟨.ok found, s⟩

/-! ## Runs -/

inductive Event where
  | create (call : Create)
  | get (call : Get)
  | decide (call : Decide)
  | revoke (call : Revoke)
  | listPending (call : ListPending)
  | isSatisfied (call : IsSatisfied)

def next (s : MemoryApprovalStore) : Event → MemoryApprovalStore
  | .create call => (create s call).state
  | .get call => (get s call).state
  | .decide call => (decide s call).state
  | .revoke call => (revoke s call).state
  | .listPending call => (listPending s call).state
  | .isSatisfied call => (isSatisfied s call).state

def init : MemoryApprovalStore := .empty

/-- The stored status of an approval. -/
def status (s : MemoryApprovalStore) (key : Scope × String) : Option ApprovalStatus :=
  (s.get? key).map (·.status)

end MemoryApprovalStore

end Etlantic.ControlPlane.Governance
