import Etlantic.Base.Runs
import Etlantic.Connectors.S3.Sink

/-!
# Sessions in any order

`History` follows the sink through the calls of its sessions in any order, with the
receipts it has issued and, for each pointer, the session whose commit last returned
`committed` on it.  Such a pointer should resolve to the records of that session.

Nothing in the sink keeps two sessions from one data object: its key is made of a prefix
and a run id, and both are the caller's.  A preparation overwrites the object, an abort
deletes it, and a pointer may even be published under the key of an object.  `Harmless`
says of a call that it does none of this to an object that is still named.
-/

namespace Etlantic.Connectors.S3

variable {str : PyData → String}

/-! ## Histories -/

inductive Event where
  | beginWrite (plan : SinkPlan) (runId : Option String) (names : FreshNames)
  | writeBatch (sessionId : String) (batch : Batch)
  | prepare (sessionId : String)
  | commit (sessionId : String)
  | abort (sessionId : String)
  | reconcile (receipt : CommitReceipt) (contextBucket : Option String)

/-- The sink, the receipts it has issued, and who last committed on each pointer. -/
structure History where
  sink : Sink
  receipts : List CommitReceipt
  latest : Dict Location String

/-- A backend that no session has used. -/
def History.init (backend : Fake) : History := ⟨⟨backend, .empty⟩, [], .empty⟩

def History.issue (h : History) (sink : Sink) (receipt : CommitReceipt) : History where
  sink := sink
  receipts := h.receipts ++ [receipt]
  latest :=
    match receipt.status, sink.sessions.get? receipt.sessionId with
    | .committed, some state => h.latest.set state.pointerLocation receipt.sessionId
    | _, _ => h.latest

def next (str : PyData → String) (h : History) : Event → History
  | .beginWrite plan runId names => { h with sink := beginWrite h.sink plan runId names }
  | .writeBatch sessionId batch =>
      match writeBatch h.sink sessionId batch with
      | .ok sink => { h with sink := sink }
      | .error _ => h
  | .prepare sessionId =>
      match prepare str h.sink sessionId with
      | .ok sink => { h with sink := sink }
      | .error _ => h
  | .commit sessionId =>
      match commit str h.sink sessionId with
      | (sink, .ok receipt) => h.issue sink receipt
      | (sink, .error _) => { h with sink := sink }
  | .abort sessionId =>
      match abort h.sink sessionId with
      | .ok (sink, receipt) => h.issue sink receipt
      | .error _ => h
  | .reconcile _ _ => h

/-- The names are fresh, and a receipt is one that was issued. -/
def Allowed (h : History) : Event → Prop
  | .beginWrite _ _ names =>
      h.sink.sessions.get? names.session = none ∧
        h.sink.backend.multiparts.get? names.upload = none
  | .reconcile receipt _ => receipt ∈ h.receipts
  | _ => True

/-- The commit of the session has returned `committed`. -/
def History.Published (h : History) (sessionId : String) : Prop :=
  ∃ receipt ∈ h.receipts, receipt.sessionId = sessionId ∧ receipt.status = .committed

def History.resolve (h : History) (pointer : Location) : Option (String × Bytes) :=
  h.sink.backend.getCommittedObject pointer.1 pointer.2

/-- Every pointer resolves to the records of the session that last committed on it. -/
def Faithful (str : PyData → String) (h : History) : Prop :=
  ∀ pointer sessionId, h.latest.get? pointer = some sessionId →
    ∃ state body, h.sink.sessions.get? sessionId = some state ∧
      dumps str state.records = some body ∧ h.resolve pointer = some (state.dataKey, body)

/-- What the sink promises of a call. -/
structure Keeps (str : PyData → String) (h : History) (e : Event) : Prop where
  faithful : Faithful str (next str h e)
  steady : ∀ sessionId, e = .prepare sessionId ∨ e = .abort sessionId →
    ∀ pointer, h.latest.contains pointer = true → (next str h e).resolve pointer = h.resolve pointer
  reconciled : ∀ receipt contextBucket, e = .reconcile receipt contextBucket →
    (reconcile h.sink receipt contextBucket).status = .rolledBack →
      ¬ h.Published receipt.sessionId

/-! ## Harmless calls -/

/-- The object that a pointer names. -/
def History.target (h : History) (pointer : Location) : Option Location :=
  (h.sink.backend.commitPointers.get? pointer).map (pointer.1, ·)

/-- The pointers on which a session has committed. -/
def History.pointers (h : History) : List Location := h.latest.entries.map Prod.fst

/-- The pointers that name the object, apart from one, find this text there already. -/
def Overwrites (h : History) (object : Location) (body : Option Bytes) (apart : Option Location) :
    Prop :=
  ∀ pointer ∈ h.pointers, some pointer ≠ apart → h.target pointer = some object →
    h.sink.backend.objects.get? object = body

/-- The pointer is not under the key of an object that a pointer names. -/
def Separate (h : History) (state : SessionState) : Prop :=
  state.pointerLocation ≠ state.dataLocation ∧
    ∀ pointer ∈ h.pointers, pointer ≠ state.pointerLocation →
      h.target pointer ≠ some state.pointerLocation

/-- The multipart upload of the session can still be completed. -/
def Writable (h : History) (state : SessionState) : Prop :=
  (h.sink.backend.requireOpenMultipart state.uploadId).isOk = true

/-- The pointer of the session may be put. -/
def Publishable (h : History) (state : SessionState) : Prop :=
  ¬ (state.ifNoneMatch = true ∧
    h.sink.backend.commitPointers.contains state.pointerLocation = true)

/-- The call of a session does not touch what a pointer resolves to. -/
def HarmlessFor (str : PyData → String) (h : History) (state : SessionState) : Event → Prop
  | .prepare _ =>
      Writable h state → Overwrites h state.dataLocation (dumps str state.records) none
  | .commit _ =>
      if state.prepared then
        Publishable h state → h.sink.backend.objects.contains state.dataLocation = true →
          h.sink.backend.objects.get? state.dataLocation = dumps str state.records ∧
            Separate h state
      else
        Writable h state →
          (¬ Publishable h state → Overwrites h state.dataLocation (dumps str state.records) none) ∧
          (Publishable h state →
            Overwrites h state.dataLocation (dumps str state.records)
              (some state.pointerLocation) ∧ Separate h state)
  | .abort _ =>
      state.prepared = true → state.status ≠ .committed →
        ∀ pointer ∈ h.pointers,
          pointer ≠ state.dataLocation ∧ h.target pointer ≠ some state.dataLocation
  | _ => True

/-- A session with another data key has committed last on the pointer of the session. -/
def Superseded (h : History) (state : SessionState) : Prop :=
  ∃ other ∈ (h.latest.get? state.pointerLocation).toList,
    ∃ state' ∈ (h.sink.sessions.get? other).toList, state'.dataKey ≠ state.dataKey

def Event.session? : Event → Option String
  | .writeBatch sessionId _ => some sessionId
  | .prepare sessionId => some sessionId
  | .commit sessionId => some sessionId
  | .abort sessionId => some sessionId
  | _ => none

/-- A receipt is not asked about once its session has published and was superseded. -/
def Unsuperseded (h : History) : Event → Prop
  | .reconcile receipt _ =>
      receipt.status ≠ .rolledBack → h.Published receipt.sessionId →
        ∀ state ∈ (h.sink.sessions.get? receipt.sessionId).toList, ¬ Superseded h state
  | _ => True

/-- The call keeps what the pointers resolve to, and is answered by it. -/
def Harmless (str : PyData → String) (h : History) (e : Event) : Prop :=
  (∀ state ∈ (e.session?.bind h.sink.sessions.get?).toList, HarmlessFor str h state e) ∧
    Unsuperseded h e

section Decidable

variable (h : History) (state : SessionState)

instance decidableAllowed : ∀ e, Decidable (Allowed h e)
  | .beginWrite _ _ names => inferInstanceAs (Decidable
      (h.sink.sessions.get? names.session = none ∧
        h.sink.backend.multiparts.get? names.upload = none))
  | .reconcile receipt _ => inferInstanceAs (Decidable (receipt ∈ h.receipts))
  | .writeBatch _ _ => isTrue trivial
  | .prepare _ => isTrue trivial
  | .commit _ => isTrue trivial
  | .abort _ => isTrue trivial

instance (object : Location) (body : Option Bytes) (apart : Option Location) :
    Decidable (Overwrites h object body apart) :=
  inferInstanceAs (Decidable (∀ pointer ∈ h.pointers, some pointer ≠ apart →
    h.target pointer = some object → h.sink.backend.objects.get? object = body))

instance : Decidable (Separate h state) :=
  inferInstanceAs (Decidable (state.pointerLocation ≠ state.dataLocation ∧
    ∀ pointer ∈ h.pointers, pointer ≠ state.pointerLocation →
      h.target pointer ≠ some state.pointerLocation))

instance : Decidable (Writable h state) :=
  inferInstanceAs (Decidable
    ((h.sink.backend.requireOpenMultipart state.uploadId).isOk = true))

instance : Decidable (Publishable h state) :=
  inferInstanceAs (Decidable (¬ (state.ifNoneMatch = true ∧
    h.sink.backend.commitPointers.contains state.pointerLocation = true)))

instance decidableHarmlessFor : ∀ e, Decidable (HarmlessFor str h state e)
  | .prepare _ => inferInstanceAs (Decidable (Writable h state →
      Overwrites h state.dataLocation (dumps str state.records) none))
  | .commit _ => inferInstanceAs (Decidable (if state.prepared then
        Publishable h state → h.sink.backend.objects.contains state.dataLocation = true →
          h.sink.backend.objects.get? state.dataLocation = dumps str state.records ∧
            Separate h state
      else
        Writable h state →
          (¬ Publishable h state → Overwrites h state.dataLocation (dumps str state.records) none) ∧
          (Publishable h state →
            Overwrites h state.dataLocation (dumps str state.records)
              (some state.pointerLocation) ∧ Separate h state)))
  | .abort _ => inferInstanceAs (Decidable (state.prepared = true → state.status ≠ .committed →
      ∀ pointer ∈ h.pointers,
        pointer ≠ state.dataLocation ∧ h.target pointer ≠ some state.dataLocation))
  | .beginWrite _ _ _ => isTrue trivial
  | .writeBatch _ _ => isTrue trivial
  | .reconcile _ _ => isTrue trivial

instance : Decidable (Superseded h state) :=
  inferInstanceAs (Decidable (∃ other ∈ (h.latest.get? state.pointerLocation).toList,
    ∃ state' ∈ (h.sink.sessions.get? other).toList, state'.dataKey ≠ state.dataKey))

instance (sessionId : String) : Decidable (h.Published sessionId) :=
  inferInstanceAs (Decidable (∃ receipt ∈ h.receipts,
    receipt.sessionId = sessionId ∧ receipt.status = .committed))

instance decidableUnsuperseded : ∀ e, Decidable (Unsuperseded h e)
  | .reconcile receipt _ => inferInstanceAs (Decidable (receipt.status ≠ .rolledBack →
      h.Published receipt.sessionId →
        ∀ state ∈ (h.sink.sessions.get? receipt.sessionId).toList, ¬ Superseded h state))
  | .beginWrite _ _ _ => isTrue trivial
  | .writeBatch _ _ => isTrue trivial
  | .prepare _ => isTrue trivial
  | .commit _ => isTrue trivial
  | .abort _ => isTrue trivial

instance (e : Event) : Decidable (Harmless str h e) :=
  inferInstanceAs (Decidable
    ((∀ state ∈ (e.session?.bind h.sink.sessions.get?).toList, HarmlessFor str h state e) ∧
      Unsuperseded h e))

end Decidable

end Etlantic.Connectors.S3
