import Etlantic.ControlPlane.Governance.Audit

/-!
# What the audit chain commits to

An edited chain that keeps the stored hashes passes the check exactly when its
evidence, that is everything the hashes cover, is a prefix of the original's.
The id, the scope and the issuer of a record are not covered.
-/

namespace Etlantic.ControlPlane.Governance

open HashChain MemoryAuditEvidenceStore

/-! ## The hashing of records -/

/-- SHA-256 has no collisions, and nothing hashes to the genesis hash. -/
structure CollisionFree (host : AuditHost) : Prop where
  injective : ∀ {a b}, host.sha256 a = host.sha256 b → a = b
  ne_genesis : ∀ text, host.sha256 text ≠ genesisHash

/-- What the hash covers besides the predecessor; of the metadata, what redaction leaves. -/
structure Covered where
  actorSubject : String
  action : String
  resource : String
  decisionRefs : List String
  createdAt : String
  metadata : Json

def AuditRecord.covered (host : AuditHost) (record : AuditRecord) : Covered where
  actorSubject := record.actorSubject
  action := record.action
  resource := record.resource
  decisionRefs := record.decisionRefs
  createdAt := record.createdAt
  metadata := (Json.obj (record.metadata.redacted host).fields).sorted

theorem wellFormed_payload (host : AuditHost) (prev : String) (record : AuditRecord) :
    (Json.obj (record.payload host prev)).WellFormed := by
  refine ⟨by simp [AuditRecord.payload], trivial, trivial, trivial, trivial, ?_, trivial,
    (record.metadata.redacted host).wellFormed, trivial⟩
  refine Json.itemsWellFormed_iff.mpr ?_
  intro item hitem
  obtain ⟨ref, -, rfl⟩ := List.mem_map.mp hitem
  trivial

theorem sorted_refs (refs : List String) :
    (Json.arr (refs.map .str)).sorted = .arr (refs.map .str) := by
  rw [Json.sorted, Json.sortedItems_eq_map, List.map_map]
  rfl

theorem field?_payload (host : AuditHost) (prev : String) (record : AuditRecord) (key : String) :
    ((Json.obj (record.payload host prev)).sorted).field? key =
      ((Json.obj (record.payload host prev)).field? key).map Json.sorted :=
  Json.field?_sorted (wellFormed_payload host prev record).1 key

/-- The sorted payload determines what is covered. -/
theorem sorted_payload_iff {host : AuditHost} {prev prev' : String} {record record' : AuditRecord} :
    (Json.obj (record.payload host prev)).sorted =
        (Json.obj (record'.payload host prev')).sorted ↔
      prev = prev' ∧ record.covered host = record'.covered host := by
  constructor
  · intro heq
    have hfield : ∀ key, ((Json.obj (record.payload host prev)).field? key).map Json.sorted =
        ((Json.obj (record'.payload host prev')).field? key).map Json.sorted := by
      intro key
      rw [← field?_payload, ← field?_payload, heq]
    have hprev := Json.str.inj (Option.some.inj (hfield "prev_hash"))
    have hsubject := Json.str.inj (Option.some.inj (hfield "actor_subject"))
    have haction := Json.str.inj (Option.some.inj (hfield "action"))
    have hresource := Json.str.inj (Option.some.inj (hfield "resource"))
    have hcreated := Json.str.inj (Option.some.inj (hfield "created_at"))
    have hmetadata := Option.some.inj (hfield "metadata")
    have hrefs : record.decisionRefs = record'.decisionRefs := by
      have hsorted := Option.some.inj (hfield "decision_refs")
      rw [sorted_refs, sorted_refs] at hsorted
      exact List.map_injective_iff.mpr (fun _ _ h => Json.str.inj h) (Json.arr.inj hsorted)
    refine ⟨hprev, ?_⟩
    unfold AuditRecord.covered
    rw [hsubject, haction, hresource, hrefs, hcreated, hmetadata]
  · rintro ⟨rfl, hcovered⟩
    have hmetadata : (Json.obj (record.metadata.redacted host).fields).sorted =
        (Json.obj (record'.metadata.redacted host).fields).sorted :=
      congrArg Covered.metadata hcovered
    have hsubject := congrArg Covered.actorSubject hcovered
    have haction := congrArg Covered.action hcovered
    have hresource := congrArg Covered.resource hcovered
    have hrefs := congrArg Covered.decisionRefs hcovered
    have hcreated := congrArg Covered.createdAt hcovered
    simp only [AuditRecord.covered] at hsubject haction hresource hrefs hcreated
    have hfields : Json.sortedFields (record.payload host prev) =
        Json.sortedFields (record'.payload host prev) := by
      simp only [AuditRecord.payload, Json.sortedFields, hmetadata, hsubject, haction, hresource,
        hrefs, hcreated]
    rw [Json.sorted, Json.sorted, hfields]

theorem computeRecordHash_eq_iff {host : AuditHost} (hfree : CollisionFree host)
    {prev prev' : String} {record record' : AuditRecord} :
    computeRecordHash host prev record = computeRecordHash host prev' record' ↔
      prev = prev' ∧ record.covered host = record'.covered host := by
  rw [← sorted_payload_iff, ← Json.dumps_eq_iff Json.escapeAscii_readable
    (wellFormed_payload host prev record) (wellFormed_payload host prev' record')]
  constructor
  · intro heq
    exact hfree.injective heq
  · intro heq
    unfold computeRecordHash
    rw [heq]

def auditHashing (host : AuditHost) (hfree : CollisionFree host) :
    Hashing AuditRecord Covered String where
  prev := AuditRecord.prevHash
  digest := AuditRecord.recordHash
  body := AuditRecord.covered host
  recompute := computeRecordHash host
  start := genesisHash
  recompute_eq_iff := computeRecordHash_eq_iff hfree
  recompute_ne_start := hfree.ne_genesis _

/-! ## The checks follow the chain -/

section

variable {host : AuditHost} (hfree : CollisionFree host)

include hfree

theorem verifyFrom_iff : ∀ {prev : String} {records : List AuditRecord},
    verifyFrom host prev records = true ↔ Chained (auditHashing host hfree) prev records
  | _, [] => by simp [verifyFrom, Chained]
  | prev, record :: rest => by
      rw [verifyFrom, Chained, ← verifyFrom_iff]
      show _ ↔ record.prevHash = prev ∧ record.recordHash = computeRecordHash host prev record ∧
        verifyFrom host record.recordHash rest = true
      by_cases hprev : record.prevHash = prev
      · by_cases hhash : record.recordHash = computeRecordHash host prev record
        · simp [hprev, ← hhash]
        · simp [hhash]
      · simp [hprev]

theorem tipHash_eq_tip : ∀ {records : List AuditRecord} {prev : String}, records ≠ [] →
    tipHash records = tip (auditHashing host hfree) prev records
  | [], _, h => absurd rfl h
  | [_], _, _ => rfl
  | _ :: record :: rest, _, _ => by
      rw [tipHash, tip]
      exact tipHash_eq_tip (List.cons_ne_nil record rest)

theorem tipHash_eq_tip_genesis (records : List AuditRecord) :
    tipHash records = tip (auditHashing host hfree) genesisHash records := by
  cases records with
  | nil => rfl
  | cons record rest => exact tipHash_eq_tip hfree (List.cons_ne_nil record rest)

omit hfree in
theorem newRecord_recordHash (records : List AuditRecord) (call : Append) :
    (newRecord host records call).recordHash =
      computeRecordHash host (tipHash records) (newRecord host records call) := rfl

/-- Every chain of the store is linked from the genesis hash. -/
def Linked (s : MemoryAuditEvidenceStore) : Prop :=
  ∀ scope records, s.get? scope = some records →
    Chained (auditHashing host hfree) genesisHash records

theorem Linked.append {s : MemoryAuditEvidenceStore} (hs : Linked hfree s) (call : Append) :
    Linked hfree (append host s call) := by
  have hchain : Chained (auditHashing host hfree) genesisHash (s.chain call.ctx) := by
    unfold MemoryAuditEvidenceStore.chain
    cases hget : s.get? call.ctx.scopeKey with
    | none => exact trivial
    | some records => exact hs call.ctx.scopeKey records hget
  intro scope records hget
  rcases Dict.get?_set_eq_some.mp hget with ⟨-, rfl⟩ | ⟨-, hold⟩
  · refine chained_append.mpr ⟨hchain, ?_⟩
    rw [← tipHash_eq_tip_genesis hfree (s.chain call.ctx)]
    exact ⟨rfl, newRecord_recordHash (s.chain call.ctx) call, trivial⟩
  · exact hs scope records hold

theorem linked_run (calls : List Append) :
    Linked hfree (Runs.run (append host) Dict.empty calls) := by
  refine Runs.invariant (I := Linked hfree) ?_ ?_
    (Runs.guarded_true _ _)
  · intro s call hs _
    exact hs.append hfree call
  · intro scope records hget
    cases hget

end

/-! ## Edits -/

/-- What verification looks at in a record. -/
def evidenceOf (host : AuditHost) (record : AuditRecord) : String × String × Covered :=
  (record.prevHash, record.recordHash, record.covered host)

/-- The store of an auditor who finds these records in the scope. -/
def withChain (s : MemoryAuditEvidenceStore) (ctx : ControlPlaneContext)
    (records : List AuditRecord) : MemoryAuditEvidenceStore :=
  s.set ctx.scopeKey records

theorem chain_withChain (s : MemoryAuditEvidenceStore) (ctx : ControlPlaneContext)
    (records : List AuditRecord) : (withChain s ctx records).chain ctx = records := by
  unfold withChain MemoryAuditEvidenceStore.chain
  rw [Dict.get?_set_self]
  rfl

/-- The edit is found out: the check fails, and a restore under the original tip raises and
changes nothing. -/
def Detected (host : AuditHost) (s : MemoryAuditEvidenceStore) (ctx : ControlPlaneContext)
    (edited : List AuditRecord) : Prop :=
  verifyChain host (withChain s ctx edited) ctx = false ∧
    ∀ target restorer exported, exported.records = edited →
      exported.tipHash = tipHash (s.chain ctx) →
      (∃ error, (restore host target restorer exported).result = .error error) ∧
        (restore host target restorer exported).state = target

theorem restore_of_not_verified {host : AuditHost} {s : MemoryAuditEvidenceStore}
    {ctx : ControlPlaneContext} {exported : AuditExport}
    (h : verifyFrom host genesisHash exported.records = false) :
    (∃ error, (restore host s ctx exported).result = .error error) ∧
      (restore host s ctx exported).state = s := by
  unfold restore
  split
  · exact ⟨⟨_, rfl⟩, rfl⟩
  · split
    · exact ⟨⟨_, rfl⟩, rfl⟩
    · split
      · exact ⟨⟨_, rfl⟩, rfl⟩
      · rw [h]
        exact ⟨⟨_, rfl⟩, rfl⟩

theorem restore_eq_ok {host : AuditHost} {s : MemoryAuditEvidenceStore} {ctx : ControlPlaneContext}
    {exported : AuditExport} {count : Nat} (hok : (restore host s ctx exported).result = .ok count) :
    tipHash exported.records = exported.tipHash ∧
      verifyFrom host genesisHash exported.records = true ∧
      (restore host s ctx exported).state = withChain s ctx exported.records := by
  unfold restore at hok ⊢
  split at hok
  · cases hok
  · rename_i hscope
    split at hok
    · cases hok
    · rename_i hempty
      split at hok
      · cases hok
      · rename_i hsame
        split at hok
        · cases hok
        · rename_i hverified
          rw [if_neg hscope, if_neg hempty, if_neg hsame, if_neg hverified]
          exact ⟨not_not.mp hsame, by simpa using hverified, rfl⟩

/-- A restore under the original tip brings back the original evidence, whatever was
edited. -/
theorem restore_commits {host : AuditHost} (hfree : CollisionFree host) (calls : List Append)
    (ctx : ControlPlaneContext) {target : MemoryAuditEvidenceStore} {restorer : ControlPlaneContext}
    {exported : AuditExport} {count : Nat}
    (htip : exported.tipHash = tipHash ((Runs.run (append host) Dict.empty calls).chain ctx))
    (hok : (restore host target restorer exported).result = .ok count) :
    ((restore host target restorer exported).state.chain restorer).map (evidenceOf host) =
      ((Runs.run (append host) Dict.empty calls).chain ctx).map (evidenceOf host) := by
  have hlinked := linked_run hfree calls
  generalize Runs.run (append host) Dict.empty calls = s at hlinked htip ⊢
  have hchain : Chained (auditHashing host hfree) genesisHash (s.chain ctx) := by
    unfold MemoryAuditEvidenceStore.chain
    cases hget : s.get? ctx.scopeKey with
    | none => exact trivial
    | some records => exact hlinked ctx.scopeKey records hget
  obtain ⟨hsame, hverified, hstate⟩ := restore_eq_ok hok
  rw [hstate, chain_withChain]
  refine hchain.eq_of_tip ((verifyFrom_iff hfree).mp hverified) ?_
  have htips := hsame.trans htip
  rwa [tipHash_eq_tip_genesis hfree, tipHash_eq_tip_genesis hfree] at htips

/-! ## A changed issuer and a changed action -/

def auditor : ControlPlaneContext where
  principal := ⟨"alice", none, .human⟩
  tenant := ⟨"acme"⟩
  workspace := ⟨"acme", "main"⟩
  environment := ⟨"prod"⟩
  securityDomain := ⟨"corp"⟩
  resourceOwnerId := none
  workspaceTenant := workspace_ofTenant "acme" "main"
  ownerNonEmpty := none_ownerNonEmpty

def promotion : Append where
  ctx := auditor
  action := "promote"
  resource := "rev-1"
  decisionRefs := []
  metadata := ⟨[], List.nodup_nil, trivial⟩
  recordId := some "a-1"
  freshId := "a-2"
  now := "2024-01-01T00:00:00+00:00"

def promotionText : String :=
  "\x7b\"action\":\"promote\",\"actor_subject\":\"alice\",\"created_at\":\"2024-01-01T00:00:00+00:00\"," ++
  "\"decision_refs\":[],\"metadata\":\x7b\x7d,\"prev_hash\":\"" ++ genesisHash ++
  "\",\"resource\":\"rev-1\"\x7d"

/-- The digest of the promotion's payload; any other text keeps its own digest. -/
def promotionHost : AuditHost where
  sha256 text :=
    if text = promotionText then "7d347c5affdbee8f5bd2ea07892473be694bd5f94f65bf899d0bf41c9bc7fd62"
    else "h" ++ text
  unicode := ⟨Char.isAlphanum, Char.isLower, Char.isDigit⟩

theorem toList_genesisHash : genesisHash.toList = List.replicate 64 '0' := by
  unfold genesisHash
  exact String.toList_ofList

theorem head?_genesisHash : genesisHash.toList.head? = some '0' := by
  rw [toList_genesisHash]
  simp

theorem head?_digest :
    "7d347c5affdbee8f5bd2ea07892473be694bd5f94f65bf899d0bf41c9bc7fd62".toList.head? = some '7' := rfl

theorem head?_kept (text : String) : ("h" ++ text).toList.head? = some 'h' := by
  rw [String.toList_append]
  rfl

theorem ne_of_head? {a b : String} {c d : Char} (ha : a.toList.head? = some c)
    (hb : b.toList.head? = some d) (hne : c ≠ d) : a ≠ b := by
  rintro rfl
  exact hne (Option.some.inj (ha.symm.trans hb))

theorem promotionHost_collisionFree : CollisionFree promotionHost where
  injective {a b} h := by
    by_cases ha : a = promotionText
    · by_cases hb : b = promotionText
      · rw [ha, hb]
      · simp only [promotionHost, if_pos ha, if_neg hb] at h
        exact absurd h (ne_of_head? head?_digest (head?_kept b) (by decide))
    · by_cases hb : b = promotionText
      · simp only [promotionHost, if_neg ha, if_pos hb] at h
        exact absurd h.symm (ne_of_head? head?_digest (head?_kept a) (by decide))
      · simp only [promotionHost, if_neg ha, if_neg hb] at h
        have hlist := congrArg String.toList h
        rw [String.toList_append, String.toList_append] at hlist
        exact String.toList_inj.mp (List.append_cancel_left hlist)
  ne_genesis text := by
    by_cases htext : text = promotionText
    · simp only [promotionHost, if_pos htext]
      exact ne_of_head? head?_digest head?_genesisHash (by decide)
    · simp only [promotionHost, if_neg htext]
      exact ne_of_head? (head?_kept text) head?_genesisHash (by decide)

theorem evidence_withIssuer {host : AuditHost} (hfree : CollisionFree host) (record : AuditRecord)
    (issuer : Option String) :
    evidence (auditHashing host hfree) { record with actorIssuer := issuer } =
      evidence (auditHashing host hfree) record := rfl

theorem recordHash_withAction (record : AuditRecord) (action : String) :
    { record with action := action }.recordHash = record.recordHash := rfl

def promoted : AuditRecord := newRecord promotionHost [] promotion

theorem promoted_store : Runs.run (append promotionHost) Dict.empty [promotion] =
    Dict.empty.set auditor.scopeKey [promoted] := rfl

theorem promoted_chain :
    (Runs.run (append promotionHost) Dict.empty [promotion]).chain auditor = [promoted] := by
  rw [promoted_store, MemoryAuditEvidenceStore.chain, Dict.get?_set_self]
  rfl

/-- The untouched export is restored. -/
theorem promoted_restored :
    ((restore promotionHost Dict.empty auditor
        ⟨"acme", "main", [promoted], tipHash [promoted]⟩).state.chain auditor).map
          (evidenceOf promotionHost) =
      ((Runs.run (append promotionHost) Dict.empty [promotion]).chain auditor).map
        (evidenceOf promotionHost) := by
  have hverified : verifyFrom promotionHost genesisHash [promoted] = true := by decide +kernel
  have hok : (restore promotionHost Dict.empty auditor
      ⟨"acme", "main", [promoted], tipHash [promoted]⟩).result = .ok 1 := by
    simp [restore, hverified, auditor, MemoryAuditEvidenceStore.chain]
  exact restore_commits promotionHost_collisionFree [promotion] auditor (by rw [promoted_chain]) hok

example : computeRecordHash promotionHost genesisHash promoted =
    "7d347c5affdbee8f5bd2ea07892473be694bd5f94f65bf899d0bf41c9bc7fd62" := by decide +kernel

end Etlantic.ControlPlane.Governance
