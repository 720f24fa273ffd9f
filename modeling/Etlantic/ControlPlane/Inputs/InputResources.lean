import Etlantic.Base.Runs
import Etlantic.Base.Dict
import Etlantic.Base.IsoText
import Etlantic.ControlPlane.Models

/-!
# Input resources

`MemoryInputResourceStore`: uploads, their finalized references, and retention
leases.  An expiry is kept as the text of `_iso`; leases are pruned by the clock
of whoever looks at them.
-/

namespace Etlantic.ControlPlane.Inputs

open IsoText

/-! ## Times as texts -/

/-- A text written by `_iso`, with the instant that `_parse_time` reads from it. -/
structure IsoStamp where
  text : String
  time : Datetime
  written : time.text "Z" = text
deriving DecidableEq

/-- `_iso`. -/
def iso (t : Datetime) : IsoStamp := ⟨t.text "Z", t, rfl⟩

@[simp] theorem time_iso (t : Datetime) : (iso t).time = t := rfl

/-- `max(prior, encoded)`, a comparison of texts. -/
def IsoStamp.max (prior encoded : IsoStamp) : IsoStamp :=
  if prior.text < encoded.text then encoded else prior

/-! ## Records -/

/-- What the store computes with digests and numerals. -/
structure InputHost where
  /-- `hashlib.sha256(content).hexdigest()`. -/
  sha256 : List UInt8 → String
  /-- The digest inside `identity_key`. -/
  textSha256 : String → String
  /-- `int(value, 16)` does not raise. -/
  isHexNumeral : String → Bool
  /-- `value.lower()`. -/
  lower : String → String

structure InputResourceReference where
  resourceId : String
  version : String
  sha256 : String
  byteLength : Int
  tenantId : String
  workspaceId : String
  ownerId : String
  mediaType : String
  format : String
  finalizedAt : String
deriving DecidableEq

structure Upload where
  uploadId : String
  tenantId : String
  workspaceId : String
  ownerId : String
  content : List UInt8
  mediaType : String
  format : String
  expiresAt : IsoStamp
  reference : Option InputResourceReference
deriving DecidableEq

def Upload.scope (u : Upload) : Scope := ⟨u.tenantId, u.workspaceId⟩

abbrev LeaseKey := Scope × String

def Upload.key (u : Upload) : LeaseKey := (u.scope, u.uploadId)

structure InputUploadReceipt where
  uploadId : String
  status : String
  byteLength : Nat
  expiresAt : String

structure CleanupResult where
  deletedUploadIds : List String
  remainingCandidates : Nat

structure MemoryInputResourceStore where
  maxUploadBytes : Nat
  uploads : Dict String Upload
  leases : Dict LeaseKey (Dict String IsoStamp)

/-! ## Errors -/

def resourceError (detail code : String) (status : Nat) (title type : String) : PyError :=
  .controlPlane ⟨detail, code, status, "etlantic.control_plane/" ++ type, title, []⟩

def ownerRequired : PyError :=
  resourceError "Authenticated resource owner is required" "PMRES403" 403 "Forbidden" "forbidden"

def checksumError : PyError := conflict "Input upload checksum or length verification failed"

def expiredInput : PyError :=
  resourceError "Input resource retention has expired" "PMRES410" 410 "Gone" "input_expired"

def expiredUpload : PyError :=
  resourceError "Staged input upload has expired" "PMRES410" 410 "Gone" "input_expired"

namespace MemoryInputResourceStore

/-- `_owner`. -/
def owner (host : InputHost) (ctx : ControlPlaneContext) : Except PyError String :=
  if ctx.resourceOwnerId = none ∧ isBlank ctx.principal.subject = true then .error ownerRequired
  else
    let identity := ctx.principal.identityKey host.textSha256
    let owner := match ctx.resourceOwnerId with
      | some given => if given = "" then identity else given
      | none => identity
    if isBlank owner then .error ownerRequired else .ok owner

/-- `_get_upload`. -/
def getUpload (host : InputHost) (s : MemoryInputResourceStore) (ctx : ControlPlaneContext)
    (uploadId : String) : Except PyError Upload :=
  match s.uploads.get? uploadId with
  | none => .error (notFound "Input resource not found")
  | some upload =>
      if upload.scope ≠ ctx.scopeKey then .error (notFound "Input resource not found")
      else
        match owner host ctx with
        | .error raised => .error raised
        | .ok owner =>
            if upload.ownerId ≠ owner then .error (notFound "Input resource not found")
            else .ok upload

/-- `_verify_reference`. -/
def verifyOwned (host : InputHost) (ctx : ControlPlaneContext) (upload : Upload)
    (reference : InputResourceReference) (allowDifferentOwner : Bool) : Except PyError Unit :=
  match if allowDifferentOwner then .ok reference.ownerId else owner host ctx with
  | .error raised => .error raised
  | .ok expected =>
      if upload.reference = some reference ∧ reference.tenantId = ctx.tenant.tenantId ∧
          reference.workspaceId = ctx.workspace.workspaceId ∧ reference.ownerId = expected ∧
          upload.ownerId = expected then .ok ()
      else .error (conflict
        "Input resource reference does not match its finalized owner-bound version")

/-- `self._leases.get(key, {})`. -/
def leasesOf (s : MemoryInputResourceStore) (key : LeaseKey) : Dict String IsoStamp :=
  (s.leases.get? key).getD .empty

/-- The leases of a table that outlast the time. -/
def live (table : Dict String IsoStamp) (current : Datetime) : Dict String IsoStamp :=
  ⟨table.entries.filter fun entry => current < entry.2.time,
    table.nodup.sublist (List.filter_sublist.map _)⟩

/-- `_has_live_lease`, which also drops the leases that have run out. -/
def hasLiveLease (s : MemoryInputResourceStore) (upload : Upload) (current : Datetime) :
    Bool × MemoryInputResourceStore :=
  let table := live (s.leasesOf upload.key) current
  if table.entries.isEmpty then (false, { s with leases := s.leases.erase upload.key })
  else (true, { s with leases := s.leases.set upload.key table })

/-- The upload has expired and no lease of it is live. -/
def lapsed (s : MemoryInputResourceStore) (upload : Upload) (now now' : Datetime) :
    Bool × MemoryInputResourceStore :=
  if upload.expiresAt.time ≤ now then
    let (alive, s) := hasLiveLease s upload now'
    (!alive, s)
  else (false, s)

/-! ## `stage`, `finalize`, `abort` -/

/-- The arguments of `stage`, with the reading of the clock and the fresh id. -/
structure Stage where
  ctx : ControlPlaneContext
  content : List UInt8
  mediaType : String
  format : String
  expiresAt : Datetime
  now : Datetime
  freshId : String

def supportedMediaTypes : List String := ["text/csv", "application/csv"]

def supportedFormats : List String := ["csv"]

def stage (host : InputHost) (s : MemoryInputResourceStore) (call : Stage) :
    Reply MemoryInputResourceStore InputUploadReceipt :=
  match owner host call.ctx with
  | .error raised => ⟨.error raised, s⟩
  | .ok owner =>
      if s.maxUploadBytes < call.content.length then
        ⟨.error (resourceError "Input upload exceeds the configured byte limit" "PMRES413" 413
          "Payload Too Large" "payload_too_large"), s⟩
      else if call.mediaType ∉ supportedMediaTypes ∨ call.format ∉ supportedFormats then
        ⟨.error (resourceError "Unsupported input resource media type or format" "PMRES415" 415
          "Unsupported Media Type" "unsupported_media_type"), s⟩
      else if call.expiresAt ≤ call.now then
        ⟨.error (conflict "Input upload expiry must be in the future"), s⟩
      else
        let upload : Upload :=
          ⟨call.freshId, call.ctx.tenant.tenantId, call.ctx.workspace.workspaceId, owner,
            call.content, call.mediaType, call.format, iso call.expiresAt, none⟩
        ⟨.ok ⟨call.freshId, "staged", call.content.length, upload.expiresAt.text⟩,
          { s with uploads := s.uploads.set call.freshId upload }⟩

structure Finalize where
  ctx : ControlPlaneContext
  uploadId : String
  expectedSha256 : String
  expectedByteLength : Int
  now : Datetime

/-- `_valid_digest`. -/
def validDigest (host : InputHost) (value : String) : Bool :=
  value.length = 64 && host.isHexNumeral value

/-- `InputResourceReference(...)` for an upload that is being finalized. -/
def newReference (host : InputHost) (upload : Upload) (current : Datetime) :
    Except PyError InputResourceReference :=
  let digest := host.sha256 upload.content
  if upload.tenantId = "" ∨ upload.workspaceId = "" then
    .error (.valueError "input resource scope must be non-empty")
  else
    .ok ⟨upload.uploadId, "sha256:" ++ digest, digest, upload.content.length, upload.tenantId,
      upload.workspaceId, upload.ownerId, upload.mediaType, upload.format, (iso current).text⟩

/-- The caller's digest and length are those of the content. -/
def Finalize.Matches (host : InputHost) (call : Finalize) (content : List UInt8) : Prop :=
  call.expectedByteLength = content.length ∧
    host.sha256 content = host.lower call.expectedSha256

instance (host : InputHost) (call : Finalize) (content : List UInt8) :
    Decidable (call.Matches host content) := inferInstanceAs (Decidable (_ ∧ _))

/-- `upload.reference = reference`. -/
def setReference (s : MemoryInputResourceStore) (uploadId : String) (upload : Upload)
    (reference : InputResourceReference) : MemoryInputResourceStore :=
  { s with uploads := s.uploads.set uploadId { upload with reference := some reference } }

def finalize (host : InputHost) (s : MemoryInputResourceStore) (call : Finalize) :
    Reply MemoryInputResourceStore InputResourceReference :=
  match getUpload host s call.ctx call.uploadId with
  | .error raised => ⟨.error raised, s⟩
  | .ok upload =>
      if !validDigest host call.expectedSha256 then ⟨.error checksumError, s⟩
      else if upload.expiresAt.time ≤ call.now then
        match upload.reference with
        | some reference =>
            if call.expectedByteLength = reference.byteLength ∧
                host.sha256 upload.content = host.lower call.expectedSha256 ∧
                host.sha256 upload.content = reference.sha256 then ⟨.ok reference, s⟩
            else ⟨.error expiredUpload, s⟩
        | none => ⟨.error expiredUpload, s⟩
      else if ¬ call.Matches host upload.content then ⟨.error checksumError, s⟩
      else
        match newReference host upload call.now with
        | .error raised => ⟨.error raised, s⟩
        | .ok reference =>
            match upload.reference with
            | some prior =>
                if prior ≠ reference then
                  if prior.sha256 ≠ host.sha256 upload.content ∨
                      prior.byteLength ≠ upload.content.length then
                    ⟨.error (conflict "Finalized input resource cannot be changed"), s⟩
                  else ⟨.ok prior, s⟩
                else ⟨.ok reference, setReference s call.uploadId upload reference⟩
            | none => ⟨.ok reference, setReference s call.uploadId upload reference⟩

structure Abort where
  ctx : ControlPlaneContext
  uploadId : String

def abort (host : InputHost) (s : MemoryInputResourceStore) (call : Abort) :
    Reply MemoryInputResourceStore Unit :=
  match getUpload host s call.ctx call.uploadId with
  | .error raised => ⟨.error raised, s⟩
  | .ok upload =>
      if upload.reference ≠ none then
        ⟨.error (conflict "Finalized input resources cannot be aborted"), s⟩
      else ⟨.ok (), { s with uploads := s.uploads.erase call.uploadId }⟩

/-! ## Reading -/

/-- The content is what the reference says. -/
def checkedContent (host : InputHost) (upload : Upload) (reference : InputResourceReference) :
    Except PyError (List UInt8) :=
  if (upload.content.length : Int) ≠ reference.byteLength ∨
      host.sha256 upload.content ≠ reference.sha256 then
    .error (conflict "Stored input resource failed integrity verification")
  else .ok upload.content

/-- The arguments of `read` and its two readings of the clock. -/
structure Read where
  ctx : ControlPlaneContext
  reference : InputResourceReference
  now : Datetime
  now' : Datetime

def read (host : InputHost) (s : MemoryInputResourceStore) (call : Read) :
    Reply MemoryInputResourceStore (List UInt8) :=
  match getUpload host s call.ctx call.reference.resourceId with
  | .error raised => ⟨.error raised, s⟩
  | .ok upload =>
      match verifyOwned host call.ctx upload call.reference false with
      | .error raised => ⟨.error raised, s⟩
      | .ok () =>
          match lapsed s upload call.now call.now' with
          | (true, s) => ⟨.error expiredInput, s⟩
          | (false, s) => ⟨checkedContent host upload call.reference, s⟩

structure ReadLeased where
  ctx : ControlPlaneContext
  reference : InputResourceReference
  leaseId : String
  now : Datetime

def readLeased (host : InputHost) (s : MemoryInputResourceStore) (call : ReadLeased) :
    Reply MemoryInputResourceStore (List UInt8) :=
  if isBlank call.leaseId then ⟨.error (.valueError "lease_id must be non-empty"), s⟩
  else
    match s.uploads.get? call.reference.resourceId with
    | none => ⟨.error (notFound "Input resource not found"), s⟩
    | some upload =>
        if upload.scope ≠ call.ctx.scopeKey then
          ⟨.error (notFound "Input resource not found"), s⟩
        else
          match verifyOwned host call.ctx upload call.reference true with
          | .error raised => ⟨.error raised, s⟩
          | .ok () =>
              match (s.leasesOf upload.key).get? call.leaseId with
              | none => ⟨.error expiredInput, (hasLiveLease s upload call.now).2⟩
              | some expiry =>
                  if expiry.time ≤ call.now then
                    ⟨.error expiredInput, (hasLiveLease s upload call.now).2⟩
                  else ⟨checkedContent host upload call.reference, s⟩

/-- The arguments of `verify_reference`. -/
structure VerifyReference where
  ctx : ControlPlaneContext
  reference : InputResourceReference
  now : Datetime

def verifyReference (host : InputHost) (s : MemoryInputResourceStore) (call : VerifyReference) :
    Reply MemoryInputResourceStore Unit :=
  match getUpload host s call.ctx call.reference.resourceId with
  | .error raised => ⟨.error raised, s⟩
  | .ok upload =>
      match verifyOwned host call.ctx upload call.reference false with
      | .error raised => ⟨.error raised, s⟩
      | .ok () =>
          match lapsed s upload call.now call.now with
          | (true, s) => ⟨.error expiredInput, s⟩
          | (false, s) => ⟨.ok (), s⟩

/-! ## Leases -/

/-- The arguments of `acquire_leases` and its two readings of the clock. -/
structure Acquire where
  ctx : ControlPlaneContext
  references : List InputResourceReference
  leaseId : String
  retainUntil : Datetime
  now : Datetime
  now' : Datetime

/-- The keys of the references with the expiry that each lease has so far. -/
def prepare (host : InputHost) (call : Acquire) : List InputResourceReference →
    MemoryInputResourceStore →
      Except PyError (List (LeaseKey × Option IsoStamp)) × MemoryInputResourceStore
  | [], s => (.ok [], s)
  | reference :: rest, s =>
      match getUpload host s call.ctx reference.resourceId with
      | .error raised => (.error raised, s)
      | .ok upload =>
          match verifyOwned host call.ctx upload reference false with
          | .error raised => (.error raised, s)
          | .ok () =>
              match lapsed s upload call.now' call.now' with
              | (true, s) => (.error expiredInput, s)
              | (false, s) =>
                  let prior := (s.leasesOf upload.key).get? call.leaseId
                  let (prepared, s) := prepare host call rest s
                  (prepared.map ((upload.key, prior) :: ·), s)

/-- `max(prior, encoded) if prior is not None else encoded`. -/
def Acquire.expiry (call : Acquire) (prior : Option IsoStamp) : IsoStamp :=
  match prior with
  | some prior => prior.max (iso call.retainUntil)
  | none => iso call.retainUntil

def grant (call : Acquire) (s : MemoryInputResourceStore) (entry : LeaseKey × Option IsoStamp) :
    MemoryInputResourceStore :=
  let table := (s.leasesOf entry.1).set call.leaseId (call.expiry entry.2)
  { s with leases := s.leases.set entry.1 table }

def acquireLeases (host : InputHost) (s : MemoryInputResourceStore) (call : Acquire) :
    Reply MemoryInputResourceStore Unit :=
  if isBlank call.leaseId then ⟨.error (.valueError "lease_id must be non-empty"), s⟩
  else if call.references.isEmpty then ⟨.ok (), s⟩
  else if call.retainUntil ≤ call.now then
    ⟨.error (.valueError "retain_until must be in the future"), s⟩
  else
    match prepare host call call.references s with
    | (.error raised, s) => ⟨.error raised, s⟩
    | (.ok prepared, s) => ⟨.ok (), prepared.foldl (grant call) s⟩

structure Release where
  ctx : ControlPlaneContext
  leaseId : String

/-- The lease is one of the scope, on an upload of the owner. -/
def Release.applies (call : Release) (owner : String) (s : MemoryInputResourceStore)
    (key : LeaseKey) : Bool :=
  key.1 = call.ctx.scopeKey && ((s.leasesOf key).get? call.leaseId).isSome &&
    (s.uploads.get? key.2).any fun upload => upload.ownerId = owner

/-- `self._leases[key].pop(lease_id)`, and the table with it when it is empty. -/
def dropLease (leaseId : String) (s : MemoryInputResourceStore) (key : LeaseKey) :
    MemoryInputResourceStore :=
  let table := (s.leasesOf key).erase leaseId
  if table.entries.isEmpty then { s with leases := s.leases.erase key }
  else { s with leases := s.leases.set key table }

def releaseLease (host : InputHost) (s : MemoryInputResourceStore) (call : Release) :
    Reply MemoryInputResourceStore Unit :=
  match owner host call.ctx with
  | .error raised => ⟨.error raised, s⟩
  | .ok owner =>
      ⟨.ok (), ((s.leases.entries.map Prod.fst).filter (call.applies owner s)).foldl
        (dropLease call.leaseId) s⟩

/-! ## `cleanup` -/

structure Cleanup where
  ctx : ControlPlaneContext
  now : Datetime
  limit : Int

/-- The uploads of the owner that have lapsed. -/
def candidates (host : InputHost) (call : Cleanup) : List Upload → MemoryInputResourceStore →
    Except PyError (List Upload) × MemoryInputResourceStore
  | [], s => (.ok [], s)
  | upload :: rest, s =>
      if upload.scope ≠ call.ctx.scopeKey then candidates host call rest s
      else
        match owner host call.ctx with
        | .error raised => (.error raised, s)
        | .ok owner =>
            if upload.ownerId ≠ owner then candidates host call rest s
            else
              let (gone, s) := lapsed s upload call.now call.now
              let (found, s) := candidates host call rest s
              (found.map fun found => if gone then upload :: found else found, s)

/-- `(item.expires_at, item.upload_id)` in the order of tuples. -/
def sortsBefore (a b : Upload) : Bool :=
  a.expiresAt.text < b.expiresAt.text ||
    (a.expiresAt.text = b.expiresAt.text && a.uploadId ≤ b.uploadId)

def deleteUpload (s : MemoryInputResourceStore) (upload : Upload) : MemoryInputResourceStore :=
  { s with uploads := s.uploads.erase upload.uploadId, leases := s.leases.erase upload.key }

def cleanup (host : InputHost) (s : MemoryInputResourceStore) (call : Cleanup) :
    Reply MemoryInputResourceStore CleanupResult :=
  if call.limit < 1 ∨ 10000 < call.limit then
    ⟨.error (.valueError "cleanup limit must be between 1 and 10000"), s⟩
  else
    match candidates host call (s.uploads.entries.map Prod.snd) s with
    | (.error raised, s) => ⟨.error raised, s⟩
    | (.ok found, s) =>
        let selected := (found.insertionSort fun a b => sortsBefore a b = true).take
          call.limit.toNat
        ⟨.ok ⟨selected.map Upload.uploadId, found.length - selected.length⟩,
          selected.foldl deleteUpload s⟩

/-! ## Events -/

inductive Event where
  | stage (call : Stage)
  | finalize (call : Finalize)
  | abort (call : Abort)
  | read (call : Read)
  | readLeased (call : ReadLeased)
  | verifyReference (call : VerifyReference)
  | acquireLeases (call : Acquire)
  | releaseLease (call : Release)
  | cleanup (call : Cleanup)

def next (host : InputHost) (s : MemoryInputResourceStore) : Event → MemoryInputResourceStore
  | .stage call => (s.stage host call).state
  | .finalize call => (s.finalize host call).state
  | .abort call => (s.abort host call).state
  | .read call => (s.read host call).state
  | .readLeased call => (s.readLeased host call).state
  | .verifyReference call => (s.verifyReference host call).state
  | .acquireLeases call => (s.acquireLeases host call).state
  | .releaseLease call => (s.releaseLease host call).state
  | .cleanup call => (s.cleanup host call).state

/-- The readings of the clock in a call, in order. -/
def Event.readings : Event → List Datetime
  | .stage call => [call.now]
  | .finalize call => [call.now]
  | .abort _ => []
  | .read call => [call.now, call.now']
  | .readLeased call => [call.now]
  | .verifyReference call => [call.now]
  | .acquireLeases call => [call.now, call.now']
  | .releaseLease _ => []
  | .cleanup call => [call.now]

/-- The expiry of a lease. -/
def expiryOf (s : MemoryInputResourceStore) (key : LeaseKey) (leaseId : String) :
    Option IsoStamp :=
  (s.leasesOf key).get? leaseId

def init (maxUploadBytes : Nat) : MemoryInputResourceStore := ⟨maxUploadBytes, .empty, .empty⟩

end MemoryInputResourceStore

end Etlantic.ControlPlane.Inputs
