import Etlantic.Base.HashChain
import Etlantic.Base.JsonCanonical
import Etlantic.Base.Runs
import Etlantic.Base.Dict
import Etlantic.ControlPlane.Models

/-!
# Audit evidence

`MemoryAuditEvidenceStore` keeps one hash chain for each scope.  The hash of a
record covers its predecessor, the actor's subject, the action, the resource,
the decision references, the time and the redacted metadata; the chain commits
to these and to nothing else.
-/

namespace Etlantic.ControlPlane.Governance

open HashChain

/-! ## Records -/

/-- `hashlib.sha256(text.encode("utf-8")).hexdigest()` and the Unicode classes of redaction. -/
structure AuditHost where
  sha256 : String → String
  unicode : Unicode

/-- A JSON object that can be written: its keys are unique. -/
structure Metadata where
  fields : List (String × Json)
  wellFormed : (Json.obj fields).WellFormed

structure AuditRecord where
  recordId : String
  tenantId : String
  workspaceId : String
  actorSubject : String
  actorIssuer : Option String
  action : String
  resource : String
  prevHash : String
  recordHash : String
  decisionRefs : List String
  /-- `created_at.isoformat()`. -/
  createdAt : String
  metadata : Metadata

def genesisHash : String := String.ofList (List.replicate 64 '0')

mutual

theorem wellFormed_redactValue (u : Unicode) : ∀ {value : Json}, value.WellFormed →
    (redactValue u value).WellFormed
  | .null, h | .bool _, h | .int _, h | .float _, h => h
  | .str _, _ => trivial
  | .arr _, h => itemsWellFormed_redactItems u h
  | .obj fields, h => by
      refine ⟨?_, fieldsWellFormed_redactFields u h.2⟩
      rw [keys_redactFields]
      exact h.1

theorem itemsWellFormed_redactItems (u : Unicode) : ∀ {items : List Json},
    Json.ItemsWellFormed items → Json.ItemsWellFormed (redactItems u items)
  | [], h => h
  | _ :: _, h => ⟨wellFormed_redactValue u h.1, itemsWellFormed_redactItems u h.2⟩

theorem fieldsWellFormed_redactFields (u : Unicode) : ∀ {fields : List (String × Json)},
    Json.FieldsWellFormed fields → Json.FieldsWellFormed (redactFields u fields)
  | [], h => h
  | (key, _) :: _, h => by
      refine ⟨?_, fieldsWellFormed_redactFields u h.2⟩
      split
      · exact trivial
      · exact wellFormed_redactValue u h.1

theorem keys_redactFields (u : Unicode) : ∀ fields : List (String × Json),
    (redactFields u fields).map Prod.fst = fields.map Prod.fst
  | [] => rfl
  | (key, _) :: rest => by
      rw [redactFields, List.map_cons, List.map_cons, keys_redactFields u rest]

end

/-- `redact_control_plane_payload(dict(metadata))`. -/
def Metadata.redacted (host : AuditHost) (metadata : Metadata) : Metadata where
  fields := redactControlPlanePayload host.unicode metadata.fields
  wellFormed := wellFormed_redactValue host.unicode metadata.wellFormed

def AuditRecord.payload (host : AuditHost) (prevHash : String) (record : AuditRecord) :
    List (String × Json) :=
  [("prev_hash", .str prevHash), ("actor_subject", .str record.actorSubject),
    ("action", .str record.action), ("resource", .str record.resource),
    ("decision_refs", .arr (record.decisionRefs.map .str)), ("created_at", .str record.createdAt),
    ("metadata", .obj (record.metadata.redacted host).fields)]

/-- `compute_record_hash` on the fields of the record. -/
def computeRecordHash (host : AuditHost) (prevHash : String) (record : AuditRecord) : String :=
  host.sha256 ((Json.obj (record.payload host prevHash)).dumps Json.escapeAscii)

/-! ## The store -/

structure AuditExport where
  tenantId : String
  workspaceId : String
  records : List AuditRecord
  tipHash : String

abbrev MemoryAuditEvidenceStore := Dict Scope (List AuditRecord)

namespace MemoryAuditEvidenceStore

def chain (s : MemoryAuditEvidenceStore) (ctx : ControlPlaneContext) : List AuditRecord :=
  (s.get? ctx.scopeKey).getD []

/-- `chain[-1].record_hash if chain else GENESIS_HASH`. -/
def tipHash : List AuditRecord → String
  | [] => genesisHash
  | [record] => record.recordHash
  | _ :: record :: rest => tipHash (record :: rest)

/-- The arguments of `append`, with the clock and the fresh id. -/
structure Append where
  ctx : ControlPlaneContext
  action : String
  resource : String
  decisionRefs : List String
  metadata : Metadata
  recordId : Option String
  freshId : String
  now : String

/-- `record_id or str(uuid.uuid4())`. -/
def Append.id (call : Append) : String :=
  match call.recordId with
  | some given => if given = "" then call.freshId else given
  | none => call.freshId

/-- The record that `append` adds after a chain. -/
def newRecord (host : AuditHost) (records : List AuditRecord) (call : Append) : AuditRecord :=
  let record : AuditRecord :=
    { recordId := call.id
      tenantId := call.ctx.tenant.tenantId
      workspaceId := call.ctx.workspace.workspaceId
      actorSubject := call.ctx.principal.subject
      actorIssuer := call.ctx.principal.issuer
      action := call.action
      resource := call.resource
      prevHash := tipHash records
      recordHash := ""
      decisionRefs := call.decisionRefs
      createdAt := call.now
      metadata := call.metadata.redacted host }
  { record with recordHash := computeRecordHash host record.prevHash record }

def append (host : AuditHost) (s : MemoryAuditEvidenceStore) (call : Append) :
    MemoryAuditEvidenceStore :=
  s.set call.ctx.scopeKey (s.chain call.ctx ++ [newRecord host (s.chain call.ctx) call])

/-- The loop of `verify_chain`, after a record with the hash `prev`. -/
def verifyFrom (host : AuditHost) : String → List AuditRecord → Bool
  | _, [] => true
  | prev, record :: rest =>
      let expected := computeRecordHash host prev record
      if record.prevHash ≠ prev || record.recordHash ≠ expected then false
      else verifyFrom host record.recordHash rest

def verifyChain (host : AuditHost) (s : MemoryAuditEvidenceStore) (ctx : ControlPlaneContext) :
    Bool :=
  verifyFrom host genesisHash (s.chain ctx)

def restore (host : AuditHost) (s : MemoryAuditEvidenceStore) (ctx : ControlPlaneContext)
    (exported : AuditExport) : Reply MemoryAuditEvidenceStore Nat :=
  if exported.tenantId ≠ ctx.tenant.tenantId || exported.workspaceId ≠ ctx.workspace.workspaceId then
    ⟨.error (forbidden "audit export scope mismatch"), s⟩
  else if !(s.chain ctx).isEmpty then
    ⟨.error (conflict "cannot restore onto non-empty chain"), s⟩
  else if tipHash exported.records ≠ exported.tipHash then
    ⟨.error (conflict "audit export tip mismatch"), s⟩
  else if !verifyFrom host genesisHash exported.records then
    ⟨.error (conflict "audit export chain invalid"), s⟩
  else ⟨.ok exported.records.length, s.set ctx.scopeKey exported.records⟩

end MemoryAuditEvidenceStore

end Etlantic.ControlPlane.Governance
