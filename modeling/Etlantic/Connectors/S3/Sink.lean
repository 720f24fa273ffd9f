import Etlantic.Base.Dict
import Etlantic.Base.PyData
import Etlantic.Base.Repr

/-!
# The S3 sink and its backend

A session collects records, writes them as one data object through a multipart upload and
publishes a commit pointer that names the object.  A pointer is moved in one step; readers
follow it to the object.  The backend is the in-memory one.

Each step of a session is one call without a pause, so an interleaving of sessions is an
order of their calls.
-/

namespace Etlantic.Connectors.S3

/-- A bucket and a key in it. -/
abbrev Location := String × String

abbrev Bytes := List UInt8

inductive S3Error where
  /-- A `KeyError`. -/
  | unknownUpload (uploadId : String)
  | dataObjectMissing (bucket dataKey : String)
  /-- A `RuntimeError`. -/
  | uploadAborted (uploadId : String)
  | uploadCompleted (uploadId : String)
  /-- A `ConnectorWriteError`. -/
  | notOpen (status : String)
  | unknownSession (sessionId : String)
  | notJsonBytes
  | notJsonText
  /-- What `json.dumps` raised. -/
  | raised
deriving DecidableEq

section Messages

variable (printable : Char → Bool)

def quoted (s : String) : String := String.ofList (Repr.text printable s)

def S3Error.message : S3Error → String
  | .unknownUpload uploadId => "unknown multipart upload_id=" ++ quoted printable uploadId
  | .dataObjectMissing bucket dataKey => "data object missing: s3://" ++ bucket ++ "/" ++ dataKey
  | .uploadAborted uploadId => "multipart upload aborted: " ++ uploadId
  | .uploadCompleted uploadId => "multipart upload already completed: " ++ uploadId
  | .notOpen status => "s3 session not open: " ++ status
  | .unknownSession sessionId => "unknown s3 write session " ++ quoted printable sessionId
  | .notJsonBytes => "s3 JSON sink expects UTF-8 JSON bytes"
  | .notJsonText => "s3 JSON sink expects JSON text"
  | .raised => ""

end Messages

/-- The code of a `ConnectorWriteError`. -/
def S3Error.code : S3Error → Option String
  | .notOpen _ => some "PMCONN810"
  | .unknownSession _ => some "PMCONN811"
  | .notJsonBytes => some "PMCONN812"
  | .notJsonText => some "PMCONN812"
  | _ => none

/-! ## The backend -/

structure MultipartUpload where
  bucket : String
  key : String
  /-- The parts in the order of their numbers. -/
  parts : List (Int × Bytes)
  aborted : Bool
  completed : Bool

/-- `InMemoryS3Fake`. -/
structure Fake where
  objects : Dict Location Bytes
  multiparts : Dict String MultipartUpload
  commitPointers : Dict Location String

namespace Fake

def createMultipartUpload (fake : Fake) (bucket key uploadId : String) : Fake :=
  { fake with multiparts := fake.multiparts.set uploadId ⟨bucket, key, [], false, false⟩ }

def requireOpenMultipart (fake : Fake) (uploadId : String) : Except S3Error MultipartUpload :=
  match fake.multiparts.get? uploadId with
  | none => .error (.unknownUpload uploadId)
  | some upload =>
      if upload.aborted then .error (.uploadAborted uploadId)
      else if upload.completed then .error (.uploadCompleted uploadId)
      else .ok upload

def uploadPart (fake : Fake) (uploadId : String) (partNumber : Int) (body : Bytes) :
    Except S3Error Fake := do
  let upload ← fake.requireOpenMultipart uploadId
  let upload := { upload with parts := putOrdered partNumber body upload.parts }
  return { fake with multiparts := fake.multiparts.set uploadId upload }

def completeMultipartUpload (fake : Fake) (uploadId : String) : Except S3Error Fake := do
  let upload ← fake.requireOpenMultipart uploadId
  let payload := (upload.parts.map Prod.snd).flatten
  return {
    fake with
    objects := fake.objects.set (upload.bucket, upload.key) payload
    multiparts := fake.multiparts.set uploadId { upload with completed := true } }

def abortMultipartUpload (fake : Fake) (uploadId : String) : Fake :=
  match fake.multiparts.get? uploadId with
  | none => fake
  | some upload =>
      { fake with
        multiparts := fake.multiparts.set uploadId { upload with parts := [], aborted := true } }

/-- What `put_commit_pointer` returns. -/
inductive PointerResult where
  | published
  | preconditionFailed (existing : String)
deriving DecidableEq

/-- Conditionally publish a commit pointer to a data object. -/
def putCommitPointer (fake : Fake) (bucket pointerKey dataKey : String) (ifNoneMatch : Bool) :
    Except S3Error (Fake × PointerResult) :=
  match ifNoneMatch, fake.commitPointers.get? (bucket, pointerKey) with
  | true, some existing => .ok (fake, .preconditionFailed existing)
  | _, _ =>
      if fake.objects.contains (bucket, dataKey) then
        .ok ({
          fake with
          commitPointers := fake.commitPointers.set (bucket, pointerKey) dataKey
          objects := fake.objects.set (bucket, pointerKey) (utf8Bytes dataKey.toList) }, .published)
      else .error (.dataObjectMissing bucket dataKey)

/-- The object that a commit pointer names, with its key. -/
def getCommittedObject (fake : Fake) (bucket pointerKey : String) : Option (String × Bytes) := do
  let dataKey ← fake.commitPointers.get? (bucket, pointerKey)
  let payload ← fake.objects.get? (bucket, dataKey)
  return (dataKey, payload)

def deleteObject (fake : Fake) (bucket key : String) : Fake :=
  { fake with
    objects := fake.objects.erase (bucket, key)
    commitPointers := fake.commitPointers.erase (bucket, key) }

end Fake

/-! ## Sessions -/

inductive SessionStatus where
  | opened
  | unknown
  | committed
  | aborted
deriving DecidableEq

def SessionStatus.text : SessionStatus → String
  | .opened => "open"
  | .unknown => "unknown"
  | .committed => "committed"
  | .aborted => "aborted"

structure SessionState where
  uploadId : String
  bucket : String
  dataKey : String
  pointerKey : String
  writeMode : String
  records : List PyData
  prepared : Bool
  status : SessionStatus

def SessionState.dataLocation (state : SessionState) : Location := (state.bucket, state.dataKey)

def SessionState.pointerLocation (state : SessionState) : Location :=
  (state.bucket, state.pointerKey)

/-- The modes in which a pointer is only created. -/
def SessionState.ifNoneMatch (state : SessionState) : Bool :=
  state.writeMode ∈ ["create", "create_only", "first_write"]

/-- The sink with its backend. -/
structure Sink where
  backend : Fake
  sessions : Dict String SessionState

/-- What `plan_write` plans: a bucket and a pointer key that are not empty. -/
structure SinkPlan where
  bucket : String
  keyPrefix : String
  pointerKey : String
  writeMode : String
  bucket_nonEmpty : bucket ≠ ""
  pointerKey_nonEmpty : pointerKey ≠ ""

/-- What a caller hands to `write_batch`. -/
inductive Batch where
  | data (value : PyData)
  | bytes (raw : Bytes)

/-- The names that `uuid4` gives to a session: its upload, itself, and a run id. -/
structure FreshNames where
  upload : String
  session : String
  runId : String

/-- `value or default` of a text. -/
def orText (value default : String) : String := if value = "" then default else value

def dataKeyOf (plan : SinkPlan) (runId : Option String) (names : FreshNames) : String :=
  orText plan.keyPrefix "dataset" ++ "/data/" ++ orText (runId.getD "") names.runId ++ ".json"

def beginWrite (sink : Sink) (plan : SinkPlan) (runId : Option String) (names : FreshNames) :
    Sink :=
  let dataKey := dataKeyOf plan runId names
  { backend := sink.backend.createMultipartUpload plan.bucket dataKey names.upload
    sessions := sink.sessions.set names.session {
      uploadId := names.upload
      bucket := plan.bucket
      dataKey := dataKey
      pointerKey := plan.pointerKey
      writeMode := orText plan.writeMode "overwrite"
      records := []
      prepared := false
      status := .opened } }

def Sink.requireSession (sink : Sink) (sessionId : String) : Except S3Error SessionState :=
  match sink.sessions.get? sessionId with
  | some state => .ok state
  | none => .error (.unknownSession sessionId)

/-- The records that a parsed text holds. -/
def parsedRecords : Json → List PyData
  | .arr items => items.map PyData.ofJson
  | json => [.ofJson json]

/-- The records of a batch. -/
def batchRecords : Batch → Except S3Error (List PyData)
  | .bytes raw =>
      match utf8Text raw >>= Json.loads with
      | some json => .ok (parsedRecords json)
      | none => .error .notJsonBytes
  | .data (.str text) =>
      match Json.loads text.toList with
      | some json => .ok (parsedRecords json)
      | none => .error .notJsonText
  | .data (.list items) => .ok items
  | .data value => .ok [value]

def writeBatch (sink : Sink) (sessionId : String) (batch : Batch) : Except S3Error Sink := do
  let state ← sink.requireSession sessionId
  if state.status ≠ .opened then
    throw (.notOpen state.status.text)
  let records ← batchRecords batch
  return { sink with
    sessions := sink.sessions.set sessionId { state with records := state.records ++ records } }

section Prepare

variable (str : PyData → String)

mutual

/-- The value with `str` of what JSON has not. -/
def stringified : PyData → PyData
  | .set items => .str (str (.set items))
  | .object => .str (str .object)
  | .list items => .list (stringifiedItems items)
  | .dict entries => .dict (stringifiedEntries entries)
  | value => value

def stringifiedItems : List PyData → List PyData
  | [] => []
  | item :: rest => stringified item :: stringifiedItems rest

def stringifiedEntries : List (DataKey × PyData) → List (DataKey × PyData)
  | [] => []
  | (key, value) :: rest => (key, stringified value) :: stringifiedEntries rest

end

/-- `json.dumps(records, default=str).encode("utf-8")`. -/
def dumps (records : List PyData) : Option Bytes :=
  ((stringified str (.list records)).image false).map fun json =>
    utf8Bytes (json.encode Json.escapeAscii .inline 0)

def prepare (sink : Sink) (sessionId : String) : Except S3Error Sink := do
  let state ← sink.requireSession sessionId
  match dumps str state.records with
  | none => .error .raised
  | some body =>
      let backend ← sink.backend.uploadPart state.uploadId 1 body
      let backend ← backend.completeMultipartUpload state.uploadId
      return {
        backend := backend
        sessions := sink.sessions.set sessionId { state with prepared := true } }

/-! ## Receipts -/

inductive ReceiptStatus where
  | committed
  | unknown
  | rolledBack
deriving DecidableEq

structure CommitReceipt where
  status : ReceiptStatus
  sessionId : String
  publicationId : Option String
  message : String
  metadata : List (String × String)
deriving DecidableEq

/-- The place of a session, as a receipt has it. -/
def SessionState.place (state : SessionState) : List (String × String) :=
  [("bucket", state.bucket), ("pointer_key", state.pointerKey), ("data_key", state.dataKey)]

def unknownReceipt (state : SessionState) (sessionId existing : String) : CommitReceipt where
  status := .unknown
  sessionId := sessionId
  publicationId := none
  message := "conditional commit pointer failed"
  metadata := ("reason", "precondition_failed") :: ("existing", existing) :: state.place

def committedReceipt (state : SessionState) (sessionId : String) : CommitReceipt where
  status := .committed
  sessionId := sessionId
  publicationId := some state.pointerKey
  message := "commit pointer published"
  metadata := state.place

def rolledBackReceipt (state : SessionState) (sessionId : String) : CommitReceipt where
  status := .rolledBack
  sessionId := sessionId
  publicationId := none
  message := "multipart aborted"
  metadata := [("upload_id", state.uploadId)]

/-- The part of `commit` after the preparation. -/
def publish (sink : Sink) (sessionId : String) : Except S3Error (Sink × CommitReceipt) := do
  let state ← sink.requireSession sessionId
  let (backend, result) ← sink.backend.putCommitPointer state.bucket state.pointerKey state.dataKey
    state.ifNoneMatch
  match result with
  | .preconditionFailed existing =>
      return ({
        backend := backend
        sessions := sink.sessions.set sessionId { state with status := .unknown } },
        unknownReceipt state sessionId existing)
  | .published =>
      return ({
        backend := backend
        sessions := sink.sessions.set sessionId { state with status := .committed } },
        committedReceipt state sessionId)

/-- `commit`: the sink after it, also if it raised, and the receipt. -/
def commit (sink : Sink) (sessionId : String) : Sink × Except S3Error CommitReceipt :=
  let ready := do
    let state ← sink.requireSession sessionId
    if state.prepared then return sink else prepare str sink sessionId
  match ready with
  | .error error => (sink, .error error)
  | .ok ready =>
      match publish ready sessionId with
      | .error error => (ready, .error error)
      | .ok (sink', receipt) => (sink', .ok receipt)

def abort (sink : Sink) (sessionId : String) : Except S3Error (Sink × CommitReceipt) := do
  let state ← sink.requireSession sessionId
  let backend := sink.backend.abortMultipartUpload state.uploadId
  -- Orphan cleanup: remove completed-but-unpublished data objects.
  let backend :=
    if state.prepared ∧ state.status ≠ .committed then
      backend.deleteObject state.bucket state.dataKey
    else backend
  return ({
    backend := backend
    sessions := sink.sessions.set sessionId { state with status := .aborted } },
    rolledBackReceipt state sessionId)

end Prepare

/-! ## Reconciliation -/

structure ReconciliationResult where
  status : ReceiptStatus
  publicationId : Option String
  message : String
  metadata : List (String × String)
deriving DecidableEq

/-- `meta.get(key) or ""`. -/
def CommitReceipt.field (receipt : CommitReceipt) (key : String) : String :=
  (receipt.metadata.lookup key).getD ""

def reconcile (sink : Sink) (receipt : CommitReceipt) (contextBucket : Option String) :
    ReconciliationResult :=
  let bucket := orText (receipt.field "bucket") (contextBucket.getD "")
  let pointer := orText (receipt.field "pointer_key") (receipt.publicationId.getD "")
  let dataKey := receipt.field "data_key"
  if bucket = "" ∨ pointer = "" then
    ⟨.unknown, none, "insufficient evidence to reconcile", receipt.metadata⟩
  else
    match sink.backend.getCommittedObject bucket pointer with
    | none => ⟨.rolledBack, none, "no committed pointer", receipt.metadata⟩
    | some (committedKey, _) =>
        if dataKey ≠ "" ∧ committedKey ≠ dataKey then
          ⟨.rolledBack, some pointer, "another writer won the commit pointer",
            receipt.metadata ++ [("committed_data_key", committedKey)]⟩
        else
          ⟨.committed, some pointer, "pointer resolves to this publication",
            receipt.metadata ++ [("committed_data_key", committedKey)]⟩

end Etlantic.Connectors.S3
