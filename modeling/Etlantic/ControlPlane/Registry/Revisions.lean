import Etlantic.ControlPlane.Durable.Store

/-!
# The in-memory revision registry

`MemoryRevisionRegistry`: logical identities, append-only revisions, aliases and
promotions.  A call holds the lock of the registry, so a call is one step; what the
tenant and workspace directories say about the scope is part of the call.

The head of a logical identity is recomputed in three places as the revision that
`revision_order_key` puts last, and a new revision gets a timestamp after it.
-/

namespace Etlantic.ControlPlane.Registry

open Durable (Key Env)

/-- What the registry uses besides its own code. -/
structure RegistryHost where
  sha256 : String → String
  unicode : Unicode
  casefold : String → String
  /-- `str(value)` of a JSON value. -/
  str : Json → String
  /-- `datetime.fromisoformat(text.replace("Z", "+00:00"))` with a time that has no zone
  read in UTC, `none` where it raises. -/
  fromisoformat : String → Option Instant
  /-- `t.astimezone(UTC).isoformat().replace("+00:00", "Z")`, `none` where it raises. -/
  isoformat : Instant → Option String
  roundTrip : ∀ t text, isoformat t = some text → fromisoformat text = some t

structure LogicalIdentity where
  logicalId : String
  tenantId : String
  workspaceId : String
  kind : String
  createdAt : Option String
  metadata : List (String × Json)

structure RegistryRevision where
  logicalId : String
  revisionId : String
  tenantId : String
  workspaceId : String
  contentFingerprint : String
  content : List (String × Json)
  createdAt : Option String
  kind : Option String
  signaturePlaceholder : Option String
  provenancePlaceholder : Option (List (String × Json))

structure AliasRecord where
  tenantId : String
  workspaceId : String
  aliasName : String
  logicalId : String
  revisionId : String
  createdAt : Option String
  metadata : List (String × Json)

structure PromotionRecord where
  promotionId : String
  tenantId : String
  workspaceId : String
  logicalId : String
  fromRevisionId : String
  toRevisionId : String
  fromEnvironment : String
  toEnvironment : String
  createdAt : Option String
  metadata : List (String × Json)

structure MemoryRevisionRegistry where
  logical : Dict Key LogicalIdentity
  revisions : Dict Key RegistryRevision
  aliases : Dict Key AliasRecord
  promotions : Dict Key PromotionRecord

def MemoryRevisionRegistry.init : MemoryRevisionRegistry := ⟨.empty, .empty, .empty, .empty⟩

/-! ## Content -/

/-- `content_fingerprint`. -/
def contentFingerprint (host : RegistryHost) (content : List (String × Json)) : String :=
  host.sha256 ((Json.obj content).dumps Json.escapeAscii)

/-- `normalized`: the key in one case, with `_` for `-`. -/
def normalizedKey (host : RegistryHost) (key : String) : String :=
  String.ofList ((host.casefold key).toList.map fun c => if c = '-' then '_' else c)

/-- Whether redaction hides a harmless value under the key. -/
def hidesProbe (host : RegistryHost) (key : String) : Bool :=
  match (Json.obj (redactControlPlanePayload host.unicode
      [(key, .str "etlantic-safe-probe")])).field? key with
  | some (.str text) => text = "***"
  | _ => false

/-- The value kept under `secret_ref`. -/
def safeSecretRef (host : RegistryHost) : Json → Json
  | .obj fields =>
      match (Json.obj fields).field? "provider", (Json.obj fields).field? "name" with
      | some provider, some name =>
          if fields.length = 2 then
            .obj [("provider", .str (redactControlPlaneText host.unicode (host.str provider))),
              ("name", .str (redactControlPlaneText host.unicode (host.str name)))]
          else .str "***"
      | _, _ => .str "***"
  | _ => .str "***"

mutual

/-- `_safe_registry_value`. -/
def safeRegistryValue (host : RegistryHost) : Json → Json
  | .obj fields => .obj (safeRegistryFields host fields)
  | .arr items => .arr (safeRegistryItems host items)
  | .str text => .str (redactControlPlaneText host.unicode text)
  | value => value

def safeRegistryItems (host : RegistryHost) : List Json → List Json
  | [] => []
  | item :: rest => safeRegistryValue host item :: safeRegistryItems host rest

def safeRegistryFields (host : RegistryHost) : List (String × Json) → List (String × Json)
  | [] => []
  | (key, child) :: rest =>
      (key,
        if normalizedKey host key = "secret_ref" then safeSecretRef host child
        else if normalizedKey host key ∈ ["has_secret_ref", "secret_provider"] then
          safeRegistryValue host child
        else if hidesProbe host key then .str "***"
        else safeRegistryValue host child) ::
      safeRegistryFields host rest

end

/-- `safe_registry_content`. -/
def safeRegistryContent (host : RegistryHost) (content : List (String × Json)) :
    List (String × Json) := safeRegistryFields host content

/-- `_safe_metadata`. -/
def safeMetadata (host : RegistryHost) (metadata : List (String × Json)) :
    List (String × Json) := redactControlPlanePayload host.unicode metadata

/-! ## Timestamps and the head -/

def invalidTimestamp : PyError := conflict "Definition revision has an invalid timestamp"

def outOfRange : PyError := .overflowError "date value out of range"

/-- `_utcnow_iso`. -/
def utcnowIso (host : RegistryHost) (now : Instant) : String := (host.isoformat now).getD ""

/-- `value or default` for a timestamp. -/
def orNow (host : RegistryHost) (now : Instant) : Option String → String
  | some text => if text = "" then utcnowIso host now else text
  | none => utcnowIso host now

/-- `_timestamp_after_current`. -/
def timestampAfterCurrent (host : RegistryHost) (now : Instant) (current candidate : Option String) :
    Except PyError String :=
  match host.fromisoformat (orNow host now candidate) with
  | none => .error invalidTimestamp
  | some timestamp =>
      match current with
      | none => (host.isoformat timestamp).elim (.error outOfRange) .ok
      | some text =>
          match host.fromisoformat text with
          | none => .error invalidTimestamp
          | some currentTimestamp =>
              let later := if timestamp ≤ currentTimestamp then currentTimestamp + 1 else timestamp
              (host.isoformat later).elim (.error outOfRange) .ok

/-- `datetime.min`, as an instant of UTC. -/
def datetimeMin : Instant := seconds (-62135596800)

/-- `revision_order_key`. -/
def revisionOrderKey (host : RegistryHost) (createdAt : Option String) (revisionId : String) :
    Except PyError (Instant × String) :=
  match createdAt with
  | none => .ok (datetimeMin, revisionId)
  | some text =>
      match host.fromisoformat text with
      | none => .error invalidTimestamp
      | some timestamp => .ok (timestamp, revisionId)

def ofLogical (scope : Scope) (logicalId : String) (r : RegistryRevision) : Bool :=
  r.tenantId = scope.tenantId && r.workspaceId = scope.workspaceId && r.logicalId = logicalId

/-- The revisions of a logical identity, in the order in which they were stored. -/
def revisionsOf (s : MemoryRevisionRegistry) (scope : Scope) (logicalId : String) :
    List RegistryRevision :=
  (s.revisions.entries.map Prod.snd).filter (ofLogical scope logicalId)

/-- `a < b` on order keys. -/
def keyBefore (a b : Instant × String) : Bool :=
  decide (a.1 < b.1) || (decide (a.1 = b.1) && decide (a.2 < b.2))

/-- `max(items, key=...)` with the best item and its key so far. -/
def laterRevision (host : RegistryHost) :
    Option (RegistryRevision × (Instant × String)) → List RegistryRevision →
      Except PyError (Option RegistryRevision)
  | best, [] => .ok (best.map Prod.fst)
  | best, item :: rest =>
      match revisionOrderKey host item.createdAt item.revisionId with
      | .error error => .error error
      | .ok key =>
          match best with
          | none => laterRevision host (some (item, key)) rest
          | some (held, heldKey) =>
              laterRevision host (some (if keyBefore heldKey key then (item, key)
                else (held, heldKey))) rest

/-- `current`: the head that `put_revision`, `put_revision_if_current` and `promote`
recompute. -/
def currentRevision (host : RegistryHost) (s : MemoryRevisionRegistry) (scope : Scope)
    (logicalId : String) : Except PyError (Option RegistryRevision) :=
  laterRevision host none (revisionsOf s scope logicalId)

/-! ## The calls -/

section Calls

variable (host : RegistryHost) (env : Env) (ctx : ControlPlaneContext)
  (s : MemoryRevisionRegistry)

abbrev Answer (α : Type) := Reply MemoryRevisionRegistry α

def raise {α : Type} (error : PyError) : Answer α := ⟨.error error, s⟩

def missing (detail field id : String) : PyError :=
  .controlPlane { ControlPlaneError.notFound detail with extensions := [(field, .str id)] }

def putLogical (identity : LogicalIdentity) (inactive : Option PyError) : Answer Unit :=
  if identity.tenantId ≠ ctx.tenant.tenantId ∨
      identity.workspaceId ≠ ctx.workspace.workspaceId then
    raise s (missing "Logical identity not found" "logical_id" identity.logicalId)
  else
    match inactive with
    | some error => raise s error
    | none =>
        let key := Key.mk ctx.scopeKey identity.logicalId
        if s.logical.contains key then
          raise s (conflictWith "Logical identity already exists"
            [("logical_id", .str identity.logicalId)])
        else ⟨.ok (), { s with logical := s.logical.set key { identity with
          createdAt := some (orNow host (env.now []) identity.createdAt)
          metadata := safeMetadata host identity.metadata } }⟩

/-- The row a revision is stored as. -/
def storedRevision (revision : RegistryRevision) (createdAt : String) : RegistryRevision :=
  { revision with
    content := safeRegistryContent host revision.content
    contentFingerprint := contentFingerprint host (safeRegistryContent host revision.content)
    createdAt := some createdAt
    signaturePlaceholder :=
      revision.signaturePlaceholder.map (redactControlPlaneText host.unicode)
    provenancePlaceholder := revision.provenancePlaceholder.map (safeMetadata host) }

/-- The last part of `put_revision`: the timestamp and the write. -/
def appendRevision (revision : RegistryRevision) : Answer Unit :=
  match currentRevision host s ctx.scopeKey revision.logicalId with
  | .error error => raise s error
  | .ok current =>
      match timestampAfterCurrent host (env.now []) (current.bind RegistryRevision.createdAt)
          revision.createdAt with
      | .error error => raise s error
      | .ok createdAt =>
          ⟨.ok (), { s with
            revisions := s.revisions.set ⟨ctx.scopeKey, revision.revisionId⟩
              (storedRevision host revision createdAt) }⟩

def foreign (revision : RegistryRevision) : Bool :=
  revision.tenantId ≠ ctx.tenant.tenantId || revision.workspaceId ≠ ctx.workspace.workspaceId

/-- The identity a first revision creates for its logical id. -/
def implicitLogical (revision : RegistryRevision) : LogicalIdentity where
  logicalId := revision.logicalId
  tenantId := revision.tenantId
  workspaceId := revision.workspaceId
  kind := match revision.kind with
    | some kind => if kind = "" then "artifact" else kind
    | none => "artifact"
  createdAt := some (orNow host (env.now []) revision.createdAt)
  metadata := []

def putRevision (revision : RegistryRevision) (inactive : Option PyError) : Answer Unit :=
  if foreign ctx revision then
    raise s (missing "Revision not found" "revision_id" revision.revisionId)
  else
    match inactive with
    | some error => raise s error
    | none =>
        if s.revisions.contains ⟨ctx.scopeKey, revision.revisionId⟩ then
          raise s (conflictWith "Revision is immutable; cannot overwrite"
            [("revision_id", .str revision.revisionId)])
        else if revision.contentFingerprint ≠ contentFingerprint host revision.content then
          raise s (conflictWith "Revision content fingerprint mismatch"
            [("revision_id", .str revision.revisionId),
              ("expected", .str (contentFingerprint host revision.content)),
              ("recorded", .str revision.contentFingerprint)])
        else
          match s.logical.get? ⟨ctx.scopeKey, revision.logicalId⟩ with
          | none =>
              -- The identity stays when the timestamp is refused afterwards.
              appendRevision host env ctx { s with
                logical := s.logical.set ⟨ctx.scopeKey, revision.logicalId⟩
                  (implicitLogical host env revision) } revision
          | some logical =>
              if revision.kind.any (fun kind => logical.kind ≠ kind) then
                raise s (conflictWith "Revision kind does not match its logical identity"
                  [("logical_id", .str revision.logicalId), ("logical_kind", .str logical.kind),
                    ("revision_kind", .str (revision.kind.getD ""))])
              else appendRevision host env ctx s revision

def putRevisionIfCurrent (revision : RegistryRevision) (expectedCurrentFingerprint : String)
    (inactive : Option PyError) : Answer Unit :=
  if foreign ctx revision then
    raise s (missing "Revision not found" "revision_id" revision.revisionId)
  else
    match inactive with
    | some error => raise s error
    | none =>
        match currentRevision host s ctx.scopeKey revision.logicalId with
        | .error error => raise s error
        | .ok current =>
            if current.all fun head =>
                head.contentFingerprint ≠ expectedCurrentFingerprint then
              raise s (conflict "Definition changed since the edit was prepared")
            else putRevision host env ctx s revision inactive

def putAlias (record : AliasRecord) (inactive : Option PyError) : Answer AliasRecord :=
  if record.tenantId ≠ ctx.tenant.tenantId ∨
      record.workspaceId ≠ ctx.workspace.workspaceId then
    raise s (missing "Alias not found" "alias" record.aliasName)
  else
    match inactive with
    | some error => raise s error
    | none =>
        match s.revisions.get? ⟨ctx.scopeKey, record.revisionId⟩ with
        | none => raise s (missing "Revision not found" "revision_id" record.revisionId)
        | some revision =>
            if revision.logicalId ≠ record.logicalId then
              raise s (conflictWith "Alias logical_id does not match target revision"
                [("alias", .str record.aliasName), ("logical_id", .str record.logicalId),
                  ("revision_id", .str record.revisionId)])
            else
              let stored := { record with
                createdAt := some (orNow host (env.now []) record.createdAt)
                metadata := safeMetadata host record.metadata }
              ⟨.ok stored, { s with
                aliases := s.aliases.set ⟨ctx.scopeKey, record.aliasName⟩ stored }⟩

/-- The arguments of `promote`. -/
structure PromoteRequest where
  logicalId : String
  fromRevisionId : String
  fromEnvironment : String
  toEnvironment : String
  content : Option (List (String × Json))
  metadata : List (String × Json)

def newRevisionId : String := env.generatedId "rev-" 16 0

def promotedRevision (source : RegistryRevision) (request : PromoteRequest) (createdAt : String) :
    RegistryRevision :=
  let body := safeRegistryContent host (request.content.getD source.content)
  { logicalId := request.logicalId
    revisionId := newRevisionId env
    tenantId := ctx.tenant.tenantId
    workspaceId := ctx.workspace.workspaceId
    contentFingerprint := contentFingerprint host body
    content := body
    createdAt := some createdAt
    kind := source.kind
    signaturePlaceholder := source.signaturePlaceholder
    provenancePlaceholder := some [("promoted_from", .str request.fromRevisionId),
      ("from_environment", .str request.fromEnvironment),
      ("to_environment", .str request.toEnvironment)] }

def promotionOf (request : PromoteRequest) : PromotionRecord where
  promotionId := env.generatedId "promo-" 16 1
  tenantId := ctx.tenant.tenantId
  workspaceId := ctx.workspace.workspaceId
  logicalId := request.logicalId
  fromRevisionId := request.fromRevisionId
  toRevisionId := newRevisionId env
  fromEnvironment := request.fromEnvironment
  toEnvironment := request.toEnvironment
  createdAt := some (utcnowIso host (env.now []))
  metadata := safeMetadata host request.metadata

def promote (request : PromoteRequest) (inactive : Option PyError) : Answer PromotionRecord :=
  match inactive with
  | some error => raise s error
  | none =>
      match s.revisions.get? ⟨ctx.scopeKey, request.fromRevisionId⟩ with
      | none => raise s (missing "Revision not found" "revision_id" request.fromRevisionId)
      | some source =>
          if source.logicalId ≠ request.logicalId then
            raise s (missing "Revision not found" "revision_id" request.fromRevisionId)
          else
            match currentRevision host s ctx.scopeKey request.logicalId with
            | .error error => raise s error
            | .ok current =>
                match timestampAfterCurrent host (env.now [])
                    (current.bind RegistryRevision.createdAt)
                    (some (utcnowIso host (env.now []))) with
                | .error error => raise s error
                | .ok createdAt =>
                    let written := { s with
                      revisions := s.revisions.set ⟨ctx.scopeKey, newRevisionId env⟩
                        (promotedRevision host env ctx source request createdAt) }
                    -- The guard on the prior revision: only a new id that is its own differs.
                    if newRevisionId env = request.fromRevisionId then
                      raise written (conflictWith "Promotion attempted to mutate prior revision"
                        [("revision_id", .str request.fromRevisionId)])
                    else
                      ⟨.ok (promotionOf host env ctx request), { written with
                        promotions := s.promotions.set
                          ⟨ctx.scopeKey, env.generatedId "promo-" 16 1⟩
                          (promotionOf host env ctx request) }⟩

end Calls

/-! ## Runs -/

inductive Call where
  | putLogical (identity : LogicalIdentity)
  | putRevision (revision : RegistryRevision)
  | putRevisionIfCurrent (revision : RegistryRevision) (expectedCurrentFingerprint : String)
  | putAlias (record : AliasRecord)
  | promote (request : PromoteRequest)

/-- A call with its clock and identifiers, and what `_assert_scope_active` raises, if
anything. -/
structure Event where
  env : Env
  ctx : ControlPlaneContext
  inactive : Option PyError
  call : Call

/-- The result of a call without its value, and the registry it leaves. -/
def Event.exec (host : RegistryHost) (s : MemoryRevisionRegistry) (e : Event) : Answer Unit :=
  match e.call with
  | .putLogical identity => putLogical host e.env e.ctx s identity e.inactive
  | .putRevision revision => putRevision host e.env e.ctx s revision e.inactive
  | .putRevisionIfCurrent revision expected =>
      putRevisionIfCurrent host e.env e.ctx s revision expected e.inactive
  | .putAlias record =>
      let reply := putAlias host e.env e.ctx s record e.inactive
      ⟨reply.result.map fun _ => (), reply.state⟩
  | .promote request =>
      let reply := promote host e.env e.ctx s request e.inactive
      ⟨reply.result.map fun _ => (), reply.state⟩

def next (host : RegistryHost) (s : MemoryRevisionRegistry) (e : Event) :
    MemoryRevisionRegistry := (e.exec host s).state

/-- The identifiers that a promotion generates are not in use. -/
def Event.isNew (s : MemoryRevisionRegistry) (e : Event) : Bool :=
  !s.revisions.contains ⟨e.ctx.scopeKey, newRevisionId e.env⟩ &&
    !s.promotions.contains ⟨e.ctx.scopeKey, e.env.generatedId "promo-" 16 1⟩

end Etlantic.ControlPlane.Registry
