import Etlantic.Base.Checked
import Etlantic.Base.Evolves
import Etlantic.Connectors.S3.Histories

/-!
# What a call changes

One lemma for each call says what it returns and what it has changed when it does.  From
these, a session keeps its place for good and its records once it is closed, and an upload
that is still open is empty.
-/

namespace Etlantic.Connectors.S3

open Checked (bind_eq_ok)

variable {str : PyData → String}

section Next

variable (h : History) (sessionId : String)

theorem next_writeBatch (batch : Batch) : next str h (.writeBatch sessionId batch) =
    match writeBatch h.sink sessionId batch with
    | .ok sink => { h with sink := sink }
    | .error _ => h := rfl

theorem next_prepare : next str h (.prepare sessionId) =
    match prepare str h.sink sessionId with
    | .ok sink => { h with sink := sink }
    | .error _ => h := rfl

theorem next_commit : next str h (.commit sessionId) =
    match commit str h.sink sessionId with
    | (sink, .ok receipt) => h.issue sink receipt
    | (sink, .error _) => { h with sink := sink } := rfl

theorem next_abort : next str h (.abort sessionId) =
    match abort h.sink sessionId with
    | .ok (sink, receipt) => h.issue sink receipt
    | .error _ => h := rfl

end Next

theorem requireSession_eq_ok {sink : Sink} {sessionId : String} {state : SessionState} :
    sink.requireSession sessionId = .ok state ↔ sink.sessions.get? sessionId = some state := by
  unfold Sink.requireSession
  cases sink.sessions.get? sessionId with
  | none =>
      refine iff_of_false ?_ ?_
      · intro h
        cases h
      · intro h
        cases h
  | some other => rw [Except.ok.injEq, Option.some.injEq]

theorem open_of_required {fake : Fake} {uploadId : String} {upload : MultipartUpload}
    (h : fake.requireOpenMultipart uploadId = .ok upload) :
    fake.multiparts.get? uploadId = some upload ∧
      upload.aborted = false ∧ upload.completed = false := by
  unfold Fake.requireOpenMultipart at h
  split at h
  · cases h
  · rename_i other hget
    split at h
    · cases h
    · rename_i haborted
      split at h
      · cases h
      · rename_i hcompleted
        obtain rfl := Except.ok.inj h
        exact ⟨hget, Bool.eq_false_of_not_eq_true haborted, Bool.eq_false_of_not_eq_true hcompleted⟩

/-- The key that a pointer names, and what is stored under it. -/
theorem getCommittedObject_eq_some {fake : Fake} {pointer : Location} {key : String}
    {body : Bytes} :
    fake.getCommittedObject pointer.1 pointer.2 = some (key, body) ↔
      fake.commitPointers.get? pointer = some key ∧
        fake.objects.get? (pointer.1, key) = some body := by
  unfold Fake.getCommittedObject
  constructor
  · intro h
    obtain ⟨dataKey, hkey, h⟩ := Option.bind_eq_some_iff.mp h
    obtain ⟨payload, hpayload, h⟩ := Option.bind_eq_some_iff.mp h
    obtain ⟨rfl, rfl⟩ := Prod.mk.inj (Option.some.inj h)
    exact ⟨hkey, hpayload⟩
  · rintro ⟨hkey, hbody⟩
    exact Option.bind_eq_some_iff.mpr ⟨key, hkey, Option.bind_eq_some_iff.mpr ⟨body, hbody, rfl⟩⟩

/-- A session has kept its place and, once it is closed, its records. -/
structure SessionState.Kept (a b : SessionState) : Prop where
  uploadId : b.uploadId = a.uploadId
  bucket : b.bucket = a.bucket
  dataKey : b.dataKey = a.dataKey
  pointerKey : b.pointerKey = a.pointerKey
  closed : a.status ≠ .opened → b.status ≠ .opened ∧ b.records = a.records

theorem SessionState.Kept.refl (a : SessionState) : a.Kept a :=
  ⟨rfl, rfl, rfl, rfl, fun h => ⟨h, rfl⟩⟩

def KeptSessions (a b : Dict String SessionState) : Prop :=
  ∀ sessionId state, a.get? sessionId = some state →
    ∃ state', b.get? sessionId = some state' ∧ state.Kept state'

theorem keptSessions_set {sessions : Dict String SessionState} {sessionId : String}
    {state state' : SessionState} (hget : sessions.get? sessionId = some state)
    (hkept : state.Kept state') : KeptSessions sessions (sessions.set sessionId state') :=
  Dict.Evolves.replace .refl hget hkept

/-- An upload has kept its place; if it is still open, it is as it was. -/
structure MultipartUpload.Kept (a b : MultipartUpload) : Prop where
  bucket : b.bucket = a.bucket
  key : b.key = a.key
  unchanged : b.aborted = false → b.completed = false → b = a

def KeptUploads (a b : Dict String MultipartUpload) : Prop :=
  ∀ uploadId upload, a.get? uploadId = some upload →
    ∃ upload', b.get? uploadId = some upload' ∧ upload.Kept upload'

theorem MultipartUpload.Kept.refl (a : MultipartUpload) : a.Kept a := ⟨rfl, rfl, fun _ _ => rfl⟩

theorem KeptUploads.refl (a : Dict String MultipartUpload) : KeptUploads a a :=
  Dict.Evolves.refl .refl a

/-- A session has a place, and an upload there that is empty while it is open. -/
structure StagedSession (fake : Fake) (state : SessionState) : Prop where
  bucket : state.bucket ≠ ""
  pointerKey : state.pointerKey ≠ ""
  dataKey : state.dataKey ≠ ""
  upload : ∃ upload, fake.multiparts.get? state.uploadId = some upload ∧
    upload.bucket = state.bucket ∧ upload.key = state.dataKey ∧
      (upload.aborted = false → upload.completed = false → upload.parts = [])

def Staged (sink : Sink) : Prop :=
  ∀ sessionId state, sink.sessions.get? sessionId = some state → StagedSession sink.backend state

theorem StagedSession.kept {fake fake' : Fake} {state state' : SessionState}
    (h : StagedSession fake state) (hkept : state.Kept state')
    (huploads : KeptUploads fake.multiparts fake'.multiparts) : StagedSession fake' state' := by
  obtain ⟨upload, hget, hbucket, hkey, hparts⟩ := h.upload
  obtain ⟨upload', hget', hkept'⟩ := huploads _ _ hget
  refine ⟨?_, ?_, ?_, upload', ?_, ?_, ?_, ?_⟩
  · rw [hkept.bucket]
    exact h.bucket
  · rw [hkept.pointerKey]
    exact h.pointerKey
  · rw [hkept.dataKey]
    exact h.dataKey
  · rw [hkept.uploadId]
    exact hget'
  · rw [hkept.bucket, hkept'.bucket, hbucket]
  · rw [hkept.dataKey, hkept'.key, hkey]
  · intro haborted hcompleted
    obtain rfl := hkept'.unchanged haborted hcompleted
    exact hparts haborted hcompleted

/-- A session is changed, and uploads are kept. -/
theorem Staged.set {sink : Sink} (h : Staged sink) {sessionId : String}
    {state state' : SessionState} (hget : sink.sessions.get? sessionId = some state)
    (hkept : state.Kept state') {backend : Fake}
    (huploads : KeptUploads sink.backend.multiparts backend.multiparts) :
    Staged ⟨backend, sink.sessions.set sessionId state'⟩ := by
  intro other found hfound
  rcases Dict.get?_set_eq_some.mp hfound with ⟨rfl, rfl⟩ | ⟨-, hfound⟩
  · exact (h _ _ hget).kept hkept huploads
  · exact (h _ _ hfound).kept (.refl found) huploads

theorem writeBatch_cases {sink sink' : Sink} {sessionId : String} {batch : Batch}
    (h : writeBatch sink sessionId batch = .ok sink') :
    ∃ state records, sink.sessions.get? sessionId = some state ∧ state.status = .opened ∧
      sink' = { sink with
        sessions := sink.sessions.set sessionId { state with records := records } } := by
  unfold writeBatch at h
  obtain ⟨state, hstate, h⟩ := bind_eq_ok.mp h
  by_cases hopened : state.status = .opened
  · rw [if_neg (not_not.mpr hopened)] at h
    obtain ⟨records, -, h⟩ := bind_eq_ok.mp h
    exact ⟨state, _, requireSession_eq_ok.mp hstate, hopened, (Except.ok.inj h).symm⟩
  · rw [if_pos hopened] at h
    cases h

/-- A preparation puts the text of the records at the place of the object. -/
theorem prepare_cases {sink sink' : Sink} {sessionId : String} (hstaged : Staged sink)
    (h : prepare str sink sessionId = .ok sink') :
    ∃ state body, sink.sessions.get? sessionId = some state ∧
      dumps str state.records = some body ∧
      (sink.backend.requireOpenMultipart state.uploadId).isOk = true ∧
      sink'.sessions = sink.sessions.set sessionId { state with prepared := true } ∧
      sink'.backend.objects = sink.backend.objects.set state.dataLocation body ∧
      sink'.backend.commitPointers = sink.backend.commitPointers ∧ Staged sink' := by
  unfold prepare at h
  obtain ⟨state, hstate, h⟩ := bind_eq_ok.mp h
  have hget := requireSession_eq_ok.mp hstate
  cases hdumps : dumps str state.records with
  | none =>
      rw [hdumps] at h
      cases h
  | some body =>
      rw [hdumps] at h
      obtain ⟨loaded, hloaded, h⟩ := bind_eq_ok.mp h
      obtain ⟨completed, hcompleted, h⟩ := bind_eq_ok.mp h
      obtain rfl := Except.ok.inj h
      unfold Fake.uploadPart at hloaded
      obtain ⟨upload, hupload, hloaded⟩ := bind_eq_ok.mp hloaded
      obtain rfl := Except.ok.inj hloaded
      unfold Fake.completeMultipartUpload at hcompleted
      obtain ⟨upload', hupload', hcompleted⟩ := bind_eq_ok.mp hcompleted
      obtain rfl := Except.ok.inj hcompleted
      obtain ⟨hopen, haborted, hpending⟩ := open_of_required hupload
      have hloaded := (open_of_required hupload').1
      rw [Dict.get?_set_self] at hloaded
      obtain rfl := Option.some.inj hloaded
      obtain ⟨staged, hstaged', hbucket, hkey, hparts⟩ := (hstaged _ _ hget).upload
      obtain rfl := Option.some.inj (hopen.symm.trans hstaged')
      have hempty := hparts haborted hpending
      have hplace : (upload.bucket, upload.key) = state.dataLocation := by
        rw [hbucket, hkey]
        rfl
      refine ⟨state, body, hget, hdumps, ?_, rfl, ?_, rfl, ?_⟩
      · rw [hupload]
        rfl
      · show sink.backend.objects.set (upload.bucket, upload.key) _ = _
        rw [hplace, hempty]
        simp [putOrdered]
      · have hkept : state.Kept { state with prepared := true } :=
          ⟨rfl, rfl, rfl, rfl, fun hstatus => ⟨hstatus, rfl⟩⟩
        apply hstaged.set hget hkept
        · intro other found hfound
          by_cases hsame : state.uploadId = other
          · subst hsame
            obtain rfl := Option.some.inj (hopen.symm.trans hfound)
            exact ⟨_, Dict.get?_set_self _ _ _, rfl, rfl, fun _ hdone => by cases hdone⟩
          · refine ⟨found, ?_, rfl, rfl, fun _ _ => rfl⟩
            show ((sink.backend.multiparts.set _ _).set _ _).get? other = _
            rw [Dict.get?_set_ne _ _ hsame, Dict.get?_set_ne _ _ hsame, hfound]

/-- A publication finds the pointer taken, or moves it. -/
theorem publish_cases {sink sink' : Sink} {sessionId : String} {receipt : CommitReceipt}
    (h : publish sink sessionId = .ok (sink', receipt)) :
    ∃ state, sink.sessions.get? sessionId = some state ∧
      ((∃ existing, (state.ifNoneMatch = true ∧
          sink.backend.commitPointers.get? state.pointerLocation = some existing) ∧
        receipt = unknownReceipt state sessionId existing ∧
        sink' = ⟨sink.backend, sink.sessions.set sessionId { state with status := .unknown }⟩) ∨
      (¬ (state.ifNoneMatch = true ∧
          sink.backend.commitPointers.contains state.pointerLocation = true) ∧
        sink.backend.objects.contains state.dataLocation = true ∧
        receipt = committedReceipt state sessionId ∧
        sink' = ⟨{ sink.backend with
            commitPointers := sink.backend.commitPointers.set state.pointerLocation state.dataKey
            objects := sink.backend.objects.set state.pointerLocation
              (utf8Bytes state.dataKey.toList) },
          sink.sessions.set sessionId { state with status := .committed }⟩)) := by
  unfold publish at h
  obtain ⟨state, hstate, h⟩ := bind_eq_ok.mp h
  refine ⟨state, requireSession_eq_ok.mp hstate, ?_⟩
  obtain ⟨⟨backend, result⟩, hput, h⟩ := bind_eq_ok.mp h
  unfold Fake.putCommitPointer at hput
  split at hput
  · rename_i existing hmode hexisting
    obtain ⟨rfl, rfl⟩ := Prod.mk.inj (Except.ok.inj hput)
    obtain ⟨rfl, rfl⟩ := Prod.mk.inj (Except.ok.inj h)
    exact .inl ⟨existing, ⟨hmode, hexisting⟩, rfl, rfl⟩
  · rename_i hfree
    split at hput
    · rename_i hobject
      obtain ⟨rfl, rfl⟩ := Prod.mk.inj (Except.ok.inj hput)
      obtain ⟨rfl, rfl⟩ := Prod.mk.inj (Except.ok.inj h)
      refine .inr ⟨?_, hobject, rfl, rfl⟩
      rintro ⟨hmode, htaken⟩
      obtain ⟨existing, hexisting⟩ := Dict.contains_eq_true.mp htaken
      exact hfree existing hmode hexisting
    · cases hput

/-- What a preparation has put can be published. -/
theorem publish_of_prepared {sink ready : Sink} {sessionId : String} (hstaged : Staged sink)
    (h : prepare str sink sessionId = .ok ready) (error : S3Error) :
    publish ready sessionId ≠ .error error := by
  obtain ⟨state, body, hget, hdumps, hopen, hsessions, hobjects, hpointers, -⟩ :=
    prepare_cases hstaged h
  have hstate : ready.requireSession sessionId = .ok { state with prepared := true } := by
    apply requireSession_eq_ok.mpr
    rw [hsessions, Dict.get?_set_self]
  have hobject : ready.backend.objects.contains (state.bucket, state.dataKey) = true := by
    apply Dict.contains_eq_true.mpr
    refine ⟨body, ?_⟩
    rw [hobjects]
    exact Dict.get?_set_self _ _ _
  unfold publish
  rw [hstate, Checked.ok_bind]
  unfold Fake.putCommitPointer
  simp only [hobject, if_true]
  split
  · intro hfalse
    cases hfalse
  · intro hfalse
    cases hfalse

/-- A commit that raises changes nothing; another one publishes a prepared object. -/
theorem commit_cases (str : PyData → String) {sink : Sink} {sessionId : String}
    (hstaged : Staged sink) :
    (∃ error, commit str sink sessionId = (sink, .error error)) ∨
    ∃ state ready sink' receipt, sink.sessions.get? sessionId = some state ∧
      ((state.prepared = true ∧ ready = sink) ∨
        (state.prepared = false ∧ prepare str sink sessionId = .ok ready)) ∧
      publish ready sessionId = .ok (sink', receipt) ∧
      commit str sink sessionId = (sink', .ok receipt) := by
  cases hstate : sink.sessions.get? sessionId with
  | none =>
      refine .inl ⟨.unknownSession sessionId, ?_⟩
      unfold commit Sink.requireSession
      rw [hstate]
      rfl
  | some state =>
      have hrequired := requireSession_eq_ok.mpr hstate
      cases hprepared : state.prepared with
      | true =>
          cases hpublish : publish sink sessionId with
          | error error =>
              refine .inl ⟨error, ?_⟩
              unfold commit
              simp only [hrequired, Checked.ok_bind, hprepared, if_true, pure, Except.pure,
                hpublish]
          | ok result =>
              refine .inr ⟨state, sink, result.1, result.2, rfl, .inl ⟨hprepared, rfl⟩,
                hpublish, ?_⟩
              unfold commit
              simp only [hrequired, Checked.ok_bind, hprepared, if_true, pure, Except.pure,
                hpublish]
      | false =>
          cases hprepare : prepare str sink sessionId with
          | error error =>
              refine .inl ⟨error, ?_⟩
              unfold commit
              simp only [hrequired, Checked.ok_bind, hprepared, Bool.false_eq_true, if_false,
                hprepare]
          | ok ready =>
              cases hpublish : publish ready sessionId with
              | error error =>
                  exact absurd hpublish (publish_of_prepared hstaged hprepare error)
              | ok result =>
                  refine .inr ⟨state, ready, result.1, result.2, rfl,
                    .inr ⟨hprepared, rfl⟩, hpublish, ?_⟩
                  unfold commit
                  simp only [hrequired, Checked.ok_bind, hprepared, Bool.false_eq_true, if_false,
                    hprepare, hpublish]

theorem abort_cases {sink sink' : Sink} {sessionId : String} {receipt : CommitReceipt}
    (h : abort sink sessionId = .ok (sink', receipt)) :
    ∃ state, sink.sessions.get? sessionId = some state ∧
      receipt = rolledBackReceipt state sessionId ∧
      sink'.sessions = sink.sessions.set sessionId { state with status := .aborted } ∧
      KeptUploads sink.backend.multiparts sink'.backend.multiparts ∧
      ((state.prepared = true ∧ state.status ≠ .committed ∧
        sink'.backend.objects = sink.backend.objects.erase state.dataLocation ∧
        sink'.backend.commitPointers = sink.backend.commitPointers.erase state.dataLocation) ∨
      (sink'.backend.objects = sink.backend.objects ∧
        sink'.backend.commitPointers = sink.backend.commitPointers)) := by
  unfold abort at h
  obtain ⟨state, hstate, h⟩ := bind_eq_ok.mp h
  obtain ⟨rfl, rfl⟩ := Prod.mk.inj (Except.ok.inj h)
  have haborted : KeptUploads sink.backend.multiparts
      (sink.backend.abortMultipartUpload state.uploadId).multiparts := by
    unfold Fake.abortMultipartUpload
    cases hupload : sink.backend.multiparts.get? state.uploadId with
    | none => exact .refl _
    | some upload =>
        exact Dict.Evolves.replace .refl hupload ⟨rfl, rfl, fun hopen => by cases hopen⟩
  have hobjects : (sink.backend.abortMultipartUpload state.uploadId).objects =
      sink.backend.objects := by
    unfold Fake.abortMultipartUpload
    split <;> rfl
  have hpointers : (sink.backend.abortMultipartUpload state.uploadId).commitPointers =
      sink.backend.commitPointers := by
    unfold Fake.abortMultipartUpload
    split <;> rfl
  refine ⟨state, requireSession_eq_ok.mp hstate, rfl, rfl, ?_, ?_⟩
  · show KeptUploads _ (Fake.multiparts (if _ then _ else _))
    split
    · exact haborted
    · exact haborted
  · by_cases hdeletes : state.prepared = true ∧ state.status ≠ .committed
    · left
      refine ⟨hdeletes.1, hdeletes.2, ?_, ?_⟩
      · show Fake.objects (if _ then _ else _) = _
        rw [if_pos hdeletes, ← hobjects]
        rfl
      · show Fake.commitPointers (if _ then _ else _) = _
        rw [if_pos hdeletes, ← hpointers]
        rfl
    · right
      constructor
      · show Fake.objects (if _ then _ else _) = _
        rw [if_neg hdeletes, hobjects]
      · show Fake.commitPointers (if _ then _ else _) = _
        rw [if_neg hdeletes, hpointers]

/-! ## Sessions and receipts -/

theorem beginWrite_staged {sink : Sink} (h : Staged sink) (plan : SinkPlan)
    (runId : Option String) (names : FreshNames)
    (hfresh : sink.backend.multiparts.get? names.upload = none) :
    Staged (beginWrite sink plan runId names) := by
  intro sessionId state hget
  rcases Dict.get?_set_eq_some.mp hget with ⟨-, rfl⟩ | ⟨-, hget⟩
  · refine ⟨plan.bucket_nonEmpty, plan.pointerKey_nonEmpty, ?_, ?_⟩
    · show dataKeyOf plan runId names ≠ ""
      unfold dataKeyOf
      intro hempty
      have hlength := congrArg String.length hempty
      simp only [String.length_append] at hlength
      have hpart : "/data/".length = 6 := by decide
      have hnone : "".length = 0 := by decide
      omega
    · exact ⟨_, Dict.get?_set_self _ _ _, rfl, rfl, fun _ _ => rfl⟩
  · exact (h sessionId state hget).kept (.refl state) (Dict.Evolves.add .refl hfresh)

theorem keptSessions_refl (sessions : Dict String SessionState) :
    KeptSessions sessions sessions :=
  Dict.Evolves.refl .refl sessions

theorem SessionState.Kept.trans {a b c : SessionState} (h : a.Kept b) (h' : b.Kept c) :
    a.Kept c := by
  refine ⟨?_, ?_, ?_, ?_, ?_⟩
  · rw [h'.uploadId, h.uploadId]
  · rw [h'.bucket, h.bucket]
  · rw [h'.dataKey, h.dataKey]
  · rw [h'.pointerKey, h.pointerKey]
  · intro hclosed
    obtain ⟨hmiddle, hrecords⟩ := h.closed hclosed
    obtain ⟨hlast, hrecords'⟩ := h'.closed hmiddle
    exact ⟨hlast, hrecords'.trans hrecords⟩

theorem KeptSessions.trans {a b c : Dict String SessionState} (h : KeptSessions a b)
    (h' : KeptSessions b c) : KeptSessions a c :=
  Dict.Evolves.trans (fun _ _ _ => SessionState.Kept.trans) h h'

/-- A session in another status, but not open again. -/
theorem kept_withStatus (state : SessionState) {status : SessionStatus} (h : status ≠ .opened) :
    state.Kept { state with status := status } :=
  ⟨rfl, rfl, rfl, rfl, fun _ => ⟨h, rfl⟩⟩

theorem prepare_kept {sink ready : Sink} {sessionId : String} (hstaged : Staged sink)
    (h : prepare str sink sessionId = .ok ready) : KeptSessions sink.sessions ready.sessions := by
  obtain ⟨state, body, hget, -, -, hsessions, -⟩ := prepare_cases hstaged h
  rw [hsessions]
  exact keptSessions_set hget ⟨rfl, rfl, rfl, rfl, fun hclosed => ⟨hclosed, rfl⟩⟩

/-- A publication keeps the sessions, and their uploads. -/
theorem publish_kept {sink sink' : Sink} {sessionId : String} {receipt : CommitReceipt}
    (hstaged : Staged sink) (h : publish sink sessionId = .ok (sink', receipt)) :
    KeptSessions sink.sessions sink'.sessions ∧ Staged sink' := by
  obtain ⟨state, hget, ⟨existing, -, -, rfl⟩ | ⟨-, -, -, rfl⟩⟩ := publish_cases h
  · have hkept := kept_withStatus state (show SessionStatus.unknown ≠ .opened by decide)
    exact ⟨keptSessions_set hget hkept, hstaged.set hget hkept (.refl _)⟩
  · have hkept := kept_withStatus state (show SessionStatus.committed ≠ .opened by decide)
    exact ⟨keptSessions_set hget hkept, hstaged.set hget hkept (.refl _)⟩

theorem ready_kept {sink ready : Sink} {sessionId : String} {state : SessionState}
    (hstaged : Staged sink)
    (h : (state.prepared = true ∧ ready = sink) ∨
      (state.prepared = false ∧ prepare str sink sessionId = .ok ready)) :
    KeptSessions sink.sessions ready.sessions ∧ Staged ready := by
  rcases h with ⟨-, rfl⟩ | ⟨-, hprepare⟩
  · exact ⟨keptSessions_refl _, hstaged⟩
  · obtain ⟨-, -, -, -, -, -, -, -, hready⟩ := prepare_cases hstaged hprepare
    exact ⟨prepare_kept hstaged hprepare, hready⟩

/-- Every call keeps the sessions, and what they have staged. -/
theorem next_kept (str : PyData → String) {h : History} {e : Event} (hstaged : Staged h.sink)
    (hallowed : Allowed h e) :
    KeptSessions h.sink.sessions (next str h e).sink.sessions ∧ Staged (next str h e).sink := by
  cases e with
  | beginWrite plan runId names =>
      refine ⟨?_, beginWrite_staged hstaged plan runId names hallowed.2⟩
      intro sessionId state hget
      exact ⟨state, Dict.get?_set_fresh hallowed.1 hget, .refl state⟩
  | writeBatch sessionId batch =>
      rw [next_writeBatch]
      cases hwrite : writeBatch h.sink sessionId batch with
      | error error => exact ⟨keptSessions_refl _, hstaged⟩
      | ok sink =>
          obtain ⟨state, records, hget, hopened, rfl⟩ := writeBatch_cases hwrite
          have hkept : state.Kept { state with records := records } :=
            ⟨rfl, rfl, rfl, rfl, fun hclosed => absurd hopened hclosed⟩
          exact ⟨keptSessions_set hget hkept, hstaged.set hget hkept (.refl _)⟩
  | prepare sessionId =>
      rw [next_prepare]
      cases hprepare : prepare str h.sink sessionId with
      | error error => exact ⟨keptSessions_refl _, hstaged⟩
      | ok ready =>
          obtain ⟨-, -, -, -, -, -, -, -, hready⟩ := prepare_cases hstaged hprepare
          exact ⟨prepare_kept hstaged hprepare, hready⟩
  | commit sessionId =>
      rw [next_commit]
      rcases commit_cases str hstaged with ⟨error, hcommit⟩ |
        ⟨state, ready, sink', receipt, -, hready, hpublish, hcommit⟩
      · rw [hcommit]
        exact ⟨keptSessions_refl _, hstaged⟩
      · rw [hcommit]
        obtain ⟨hkept, hready⟩ := ready_kept hstaged hready
        obtain ⟨hkept', hstaged'⟩ := publish_kept hready hpublish
        exact ⟨hkept.trans hkept', hstaged'⟩
  | abort sessionId =>
      rw [next_abort]
      cases habort : abort h.sink sessionId with
      | error error => exact ⟨keptSessions_refl _, hstaged⟩
      | ok result =>
          obtain ⟨sink', receipt⟩ := result
          obtain ⟨state, hget, -, hsessions, huploads, -⟩ := abort_cases habort
          have hkept := kept_withStatus state (show SessionStatus.aborted ≠ .opened by decide)
          have hset := hstaged.set hget hkept huploads
          rw [← hsessions] at hset
          refine ⟨?_, hset⟩
          show KeptSessions _ sink'.sessions
          rw [hsessions]
          exact keptSessions_set hget hkept
  | reconcile receipt contextBucket => exact ⟨keptSessions_refl _, hstaged⟩

end Etlantic.Connectors.S3
