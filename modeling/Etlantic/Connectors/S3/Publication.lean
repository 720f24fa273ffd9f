import Etlantic.Connectors.S3.Calls

/-!
# What a commit pointer resolves to

A harmless call leaves what the pointers name, apart from a commit that moves its own, and
that one finds the text of its records.  So in a run of harmless calls every pointer
resolves to the records of the session that last committed on it.
-/

namespace Etlantic.Connectors.S3

variable {str : PyData → String}

/-! ## Pointers -/

/-- The session is closed on the pointer, which resolves to its records. -/
def Resolved (str : PyData → String) (sink : Sink) (pointer : Location) (sessionId : String) :
    Prop :=
  ∃ state body, sink.sessions.get? sessionId = some state ∧ state.status ≠ .opened ∧
    state.pointerLocation = pointer ∧ dumps str state.records = some body ∧
    sink.backend.commitPointers.get? pointer = some state.dataKey ∧
    sink.backend.objects.get? state.dataLocation = some body

/-- The pointer names the same object, with the same text. -/
def SameTarget (a b : Fake) (pointer : Location) : Prop :=
  b.commitPointers.get? pointer = a.commitPointers.get? pointer ∧
    ∀ key, a.commitPointers.get? pointer = some key →
      b.objects.get? (pointer.1, key) = a.objects.get? (pointer.1, key)

theorem SameTarget.refl (a : Fake) (pointer : Location) : SameTarget a a pointer :=
  ⟨rfl, fun _ _ => rfl⟩

theorem SameTarget.trans {a b c : Fake} {pointer : Location} (h : SameTarget a b pointer)
    (h' : SameTarget b c pointer) : SameTarget a c pointer := by
  refine ⟨h'.1.trans h.1, ?_⟩
  intro key hkey
  rw [h'.2 key (h.1.trans hkey), h.2 key hkey]

theorem SameTarget.resolve {a b : Fake} {pointer : Location} (h : SameTarget a b pointer) :
    b.getCommittedObject pointer.1 pointer.2 = a.getCommittedObject pointer.1 pointer.2 := by
  have hpointer : b.commitPointers.get? (pointer.1, pointer.2) =
      a.commitPointers.get? (pointer.1, pointer.2) := h.1
  unfold Fake.getCommittedObject
  rw [hpointer]
  cases hkey : a.commitPointers.get? (pointer.1, pointer.2) with
  | none => rfl
  | some key =>
      simp only [Option.bind_eq_bind, Option.bind_some]
      rw [h.2 key hkey]

theorem Resolved.same {sink sink' : Sink} {pointer : Location} {sessionId : String}
    (h : Resolved str sink pointer sessionId) (hkept : KeptSessions sink.sessions sink'.sessions)
    (hsame : SameTarget sink.backend sink'.backend pointer) :
    Resolved str sink' pointer sessionId := by
  obtain ⟨state, body, hget, hclosed, hplace, hbody, hkey, hobject⟩ := h
  obtain ⟨state', hget', hstate⟩ := hkept sessionId state hget
  obtain ⟨hclosed', hrecords⟩ := hstate.closed hclosed
  have hlocation : state.dataLocation = (pointer.1, state.dataKey) := by
    rw [← hplace]
    rfl
  refine ⟨state', body, hget', hclosed', ?_, ?_, ?_, ?_⟩
  · rw [← hplace]
    unfold SessionState.pointerLocation
    rw [hstate.bucket, hstate.pointerKey]
  · rw [hrecords, hbody]
  · rw [hsame.1, hkey, hstate.dataKey]
  · have hplace' : state'.dataLocation = state.dataLocation := by
      unfold SessionState.dataLocation
      rw [hstate.bucket, hstate.dataKey]
    rw [hplace', hlocation, hsame.2 state.dataKey hkey, ← hlocation, hobject]

theorem mem_pointers {h : History} {pointer : Location} :
    pointer ∈ h.pointers ↔ ∃ sessionId, h.latest.get? pointer = some sessionId := by
  unfold History.pointers
  constructor
  · intro hmem
    obtain ⟨⟨found, sessionId⟩, hentry, rfl⟩ := List.mem_map.mp hmem
    exact ⟨sessionId, Dict.mem_entries_iff.mp hentry⟩
  · rintro ⟨sessionId, hget⟩
    exact List.mem_map.mpr ⟨(pointer, sessionId), Dict.mem_entries_iff.mpr hget, rfl⟩

theorem target_of_key {h : History} {pointer : Location} {key : String}
    (hkey : h.sink.backend.commitPointers.get? pointer = some key) :
    h.target pointer = some (pointer.1, key) := by
  unfold History.target
  rw [hkey]
  rfl

/-- What a preparation overwrites with the same text stays the same. -/
theorem sameTarget_prepared {h : History} {ready : Sink} {sessionId : String}
    {state : SessionState} {apart : Option Location} (hstaged : Staged h.sink)
    (hprepare : prepare str h.sink sessionId = .ok ready)
    (hget : h.sink.sessions.get? sessionId = some state)
    (hover : Overwrites h state.dataLocation (dumps str state.records) apart)
    {pointer : Location} (hmem : pointer ∈ h.pointers) (hapart : some pointer ≠ apart) :
    SameTarget h.sink.backend ready.backend pointer := by
  obtain ⟨state', body, hget', hbody, -, -, hobjects, hpointers, -⟩ :=
    prepare_cases hstaged hprepare
  obtain rfl := Option.some.inj (hget.symm.trans hget')
  rw [hbody] at hover
  refine ⟨by rw [hpointers], ?_⟩
  intro key hkey
  rw [hobjects, Dict.get?_set]
  split
  · rename_i hlocation
    rw [← hlocation]
    refine (hover pointer hmem hapart ?_).symm
    rw [target_of_key hkey, hlocation]
  · rfl

/-- A marker that is not under the key of the object leaves the object as it is. -/
theorem sameTarget_published {a : Fake} {state : SessionState} {pointer : Location}
    (hpointer : pointer ≠ state.pointerLocation)
    (hobject : ∀ key, a.commitPointers.get? pointer = some key →
      (pointer.1, key) ≠ state.pointerLocation) (marker : Bytes) :
    SameTarget a { a with
      commitPointers := a.commitPointers.set state.pointerLocation state.dataKey
      objects := a.objects.set state.pointerLocation marker } pointer := by
  refine ⟨Dict.get?_set_ne _ _ hpointer.symm, ?_⟩
  intro key hkey
  exact Dict.get?_set_ne _ _ (hobject key hkey).symm

theorem Harmless.session {h : History} {e : Event} (hharmless : Harmless str h e)
    {sessionId : String} {state : SessionState} (he : e.session? = some sessionId)
    (hget : h.sink.sessions.get? sessionId = some state) : HarmlessFor str h state e := by
  apply hharmless.1
  rw [he, Option.bind_some, hget]
  exact List.mem_singleton.mpr rfl

/-- What the sink is before the publication of a commit. -/
theorem ready_cases {sink ready : Sink} {sessionId : String} {state : SessionState}
    (hstaged : Staged sink) (hget : sink.sessions.get? sessionId = some state)
    (h : (state.prepared = true ∧ ready = sink) ∨
      (state.prepared = false ∧ prepare str sink sessionId = .ok ready)) :
    ready.sessions.get? sessionId = some { state with prepared := true } ∧
      ready.backend.commitPointers = sink.backend.commitPointers := by
  rcases h with ⟨hprepared, rfl⟩ | ⟨-, hprepare⟩
  · refine ⟨?_, rfl⟩
    rw [hget, ← hprepared]
  · obtain ⟨state', body, hget', -, -, hsessions, -, hpointers, -⟩ := prepare_cases hstaged hprepare
    obtain rfl := Option.some.inj (hget.symm.trans hget')
    refine ⟨?_, hpointers⟩
    rw [hsessions, Dict.get?_set_self]

section Commit

variable {h : History} {ready : Sink} {sessionId : String} {state : SessionState}

/-- A commit that finds its pointer taken leaves what the pointers name. -/
theorem sameTarget_blocked (hstaged : Staged h.sink)
    (hget : h.sink.sessions.get? sessionId = some state)
    (hready : (state.prepared = true ∧ ready = h.sink) ∨
      (state.prepared = false ∧ prepare str h.sink sessionId = .ok ready))
    (hharmless : HarmlessFor str h state (.commit sessionId)) (hblocked : ¬ Publishable h state)
    {pointer : Location} (hmem : pointer ∈ h.pointers) :
    SameTarget h.sink.backend ready.backend pointer := by
  rcases hready with ⟨-, rfl⟩ | ⟨hprepared, hprepare⟩
  · exact .refl _ _
  · obtain ⟨state', body, hget', -, hwritable, -⟩ := prepare_cases hstaged hprepare
    obtain rfl := Option.some.inj (hget.symm.trans hget')
    unfold HarmlessFor at hharmless
    simp only [hprepared, Bool.false_eq_true, if_false] at hharmless
    exact sameTarget_prepared hstaged hprepare hget ((hharmless hwritable).1 hblocked) hmem
      (by simp)

/-- A commit that moves its pointer finds the text of its records, and apart from its own
pointer every pointer names what it named. -/
theorem ready_to_publish (hstaged : Staged h.sink)
    (hget : h.sink.sessions.get? sessionId = some state)
    (hready : (state.prepared = true ∧ ready = h.sink) ∨
      (state.prepared = false ∧ prepare str h.sink sessionId = .ok ready))
    (hharmless : HarmlessFor str h state (.commit sessionId)) (hfree : Publishable h state)
    (hobject : ready.backend.objects.contains state.dataLocation = true) :
    ∃ body, dumps str state.records = some body ∧
      ready.backend.objects.get? state.dataLocation = some body ∧ Separate h state ∧
      ∀ pointer ∈ h.pointers, pointer ≠ state.pointerLocation →
        SameTarget h.sink.backend ready.backend pointer := by
  unfold HarmlessFor at hharmless
  rcases hready with ⟨hprepared, rfl⟩ | ⟨hprepared, hprepare⟩
  · simp only [hprepared, if_true] at hharmless
    obtain ⟨hsame, hseparate⟩ := hharmless hfree hobject
    obtain ⟨body, hbody⟩ := Dict.contains_eq_true.mp hobject
    exact ⟨body, hsame.symm.trans hbody, hbody, hseparate, fun _ _ _ => .refl _ _⟩
  · obtain ⟨state', body, hget', hbody, hwritable, -, hobjects, -, -⟩ :=
      prepare_cases hstaged hprepare
    obtain rfl := Option.some.inj (hget.symm.trans hget')
    simp only [hprepared, Bool.false_eq_true, if_false] at hharmless
    obtain ⟨hover, hseparate⟩ := (hharmless hwritable).2 hfree
    refine ⟨body, hbody, ?_, hseparate, ?_⟩
    · rw [hobjects, Dict.get?_set_self]
    · intro pointer hmem hne
      apply sameTarget_prepared hstaged hprepare hget hover hmem
      intro hsame
      exact hne (Option.some.inj hsame)

end Commit

/-- Every pointer on which a session has committed resolves to its records. -/
def AllResolved (str : PyData → String) (h : History) : Prop :=
  ∀ pointer sessionId, h.latest.get? pointer = some sessionId →
    Resolved str h.sink pointer sessionId

theorem resolved_commit {h : History} {sessionId : String} (hstaged : Staged h.sink)
    (hresolved : AllResolved str h) (hharmless : Harmless str h (.commit sessionId)) :
    AllResolved str (next str h (.commit sessionId)) := by
  have hkept := (next_kept str hstaged (show Allowed h (.commit sessionId) from trivial)).1
  intro pointer other hlatest
  rw [next_commit] at hlatest hkept ⊢
  rcases commit_cases str hstaged with ⟨error, hcommit⟩ |
    ⟨state, ready, sink', receipt, hget, hready, hpublish, hcommit⟩
  · rw [hcommit] at hlatest ⊢
    exact hresolved pointer other hlatest
  · rw [hcommit] at hlatest hkept ⊢
    have hsession := hharmless.session rfl hget
    obtain ⟨hgetReady, hpointers⟩ := ready_cases hstaged hget hready
    obtain ⟨state', hget', hcases⟩ := publish_cases hpublish
    obtain rfl := Option.some.inj (hgetReady.symm.trans hget')
    rcases hcases with ⟨existing, ⟨hmode, htaken⟩, rfl, rfl⟩ | ⟨hfree, hobject, rfl, rfl⟩
    · have hblocked : ¬ Publishable h state := by
        rw [hpointers] at htaken
        intro hfree
        exact hfree ⟨hmode, Dict.contains_eq_true.mpr ⟨existing, htaken⟩⟩
      have hold := hresolved pointer other hlatest
      exact hold.same hkept (sameTarget_blocked hstaged hget hready hsession hblocked
        (mem_pointers.mpr ⟨other, hlatest⟩))
    · rw [hpointers] at hfree
      obtain ⟨body, hbody, hplaced, hseparate, hsame⟩ :=
        ready_to_publish hstaged hget hready hsession hfree hobject
      simp only [History.issue, committedReceipt, Dict.get?_set_self] at hlatest
      rcases Dict.get?_set_eq_some.mp hlatest with ⟨rfl, rfl⟩ | ⟨hne, hlatest⟩
      · refine ⟨_, body, Dict.get?_set_self _ _ _, ?_, rfl, hbody, Dict.get?_set_self _ _ _, ?_⟩
        · show SessionStatus.committed ≠ .opened
          decide
        · exact (Dict.get?_set_ne _ _ hseparate.1).trans hplaced
      · have hmem := mem_pointers.mpr ⟨other, hlatest⟩
        apply (hresolved pointer other hlatest).same hkept
        apply (hsame pointer hmem hne.symm).trans
        apply sameTarget_published hne.symm
        intro key hkey
        rw [hpointers] at hkey
        intro hlocation
        apply hseparate.2 pointer hmem hne.symm
        rw [target_of_key hkey, hlocation]
        rfl

/-- A preparation or an abort that is harmless leaves what the pointers name. -/
theorem sameTarget_next {h : History} {e : Event} {sessionId : String} (hstaged : Staged h.sink)
    (he : e = .prepare sessionId ∨ e = .abort sessionId) (hharmless : Harmless str h e)
    {pointer : Location} (hmem : pointer ∈ h.pointers) :
    SameTarget h.sink.backend (next str h e).sink.backend pointer := by
  rcases he with rfl | rfl
  · rw [next_prepare]
    cases hprepare : prepare str h.sink sessionId with
    | error error => exact .refl _ _
    | ok ready =>
        obtain ⟨state, body, hget, -, hwritable, -⟩ := prepare_cases hstaged hprepare
        have hover := hharmless.session rfl hget hwritable
        exact sameTarget_prepared hstaged hprepare hget hover hmem (by simp)
  · rw [next_abort]
    cases habort : abort h.sink sessionId with
    | error error => exact .refl _ _
    | ok result =>
        obtain ⟨sink', receipt⟩ := result
        obtain ⟨state, hget, -, -, -, hcases⟩ := abort_cases habort
        rcases hcases with ⟨hprepared, hstatus, hobjects, hpointers⟩ | ⟨hobjects, hpointers⟩
        · obtain ⟨hown, htarget⟩ := hharmless.session rfl hget hprepared hstatus pointer hmem
          refine ⟨?_, ?_⟩
          · show sink'.backend.commitPointers.get? pointer = _
            rw [hpointers, Dict.get?_erase, if_neg hown.symm]
          · intro key hkey
            show sink'.backend.objects.get? _ = _
            rw [hobjects, Dict.get?_erase, if_neg]
            rintro hlocation
            apply htarget
            rw [target_of_key hkey, hlocation]
        · refine ⟨?_, ?_⟩
          · show sink'.backend.commitPointers.get? pointer = _
            rw [hpointers]
          · intro key hkey
            show sink'.backend.objects.get? _ = _
            rw [hobjects]

theorem resolved_next {h : History} {e : Event} (hstaged : Staged h.sink)
    (hresolved : AllResolved str h) (hallowed : Allowed h e) (hharmless : Harmless str h e) :
    AllResolved str (next str h e) := by
  have hkept := (next_kept str hstaged hallowed).1
  have hsteady : (next str h e).latest = h.latest →
      (∀ pointer ∈ h.pointers, SameTarget h.sink.backend (next str h e).sink.backend pointer) →
        AllResolved str (next str h e) := by
    intro hlatest hsame pointer other hget
    rw [hlatest] at hget
    exact (hresolved pointer other hget).same hkept (hsame pointer (mem_pointers.mpr ⟨other, hget⟩))
  cases e with
  | beginWrite plan runId names => exact hsteady rfl fun pointer _ => ⟨rfl, fun _ _ => rfl⟩
  | writeBatch sessionId batch =>
      rw [next_writeBatch] at hsteady ⊢
      cases hwrite : writeBatch h.sink sessionId batch with
      | error error => exact hresolved
      | ok sink =>
          obtain ⟨state, records, -, -, rfl⟩ := writeBatch_cases hwrite
          rw [hwrite] at hsteady
          exact hsteady rfl fun pointer _ => .refl _ _
  | prepare sessionId =>
      apply hsteady
      · rw [next_prepare]
        cases prepare str h.sink sessionId with
        | error error => rfl
        | ok ready => rfl
      · intro pointer hmem
        exact sameTarget_next hstaged (.inl rfl) hharmless hmem
  | commit sessionId => exact resolved_commit hstaged hresolved hharmless
  | abort sessionId =>
      apply hsteady
      · rw [next_abort]
        cases habort : abort h.sink sessionId with
        | error error => rfl
        | ok result =>
            obtain ⟨sink', receipt⟩ := result
            obtain ⟨state, -, rfl, -⟩ := abort_cases habort
            rfl
      · intro pointer hmem
        exact sameTarget_next hstaged (.inr rfl) hharmless hmem
  | reconcile receipt contextBucket => exact hresolved

/-- A receipt that was issued is of a session, and has its place unless it was aborted. -/
def Issued (h : History) (receipt : CommitReceipt) : Prop :=
  ∃ state, h.sink.sessions.get? receipt.sessionId = some state ∧
    ((receipt.status = .rolledBack ∧ receipt.field "pointer_key" = "" ∧
        receipt.publicationId = none) ∨
      (receipt.status ≠ .rolledBack ∧ receipt.field "bucket" = state.bucket ∧
        receipt.field "pointer_key" = state.pointerKey ∧
        receipt.field "data_key" = state.dataKey)) ∧
    (receipt.status = .committed → h.latest.contains state.pointerLocation = true)

theorem Issued.kept {h h' : History} {receipt : CommitReceipt} (hissued : Issued h receipt)
    (hkept : KeptSessions h.sink.sessions h'.sink.sessions)
    (hlatest : ∀ pointer, h.latest.contains pointer = true → h'.latest.contains pointer = true) :
    Issued h' receipt := by
  obtain ⟨state, hget, hplace, hcommitted⟩ := hissued
  obtain ⟨state', hget', hstate⟩ := hkept _ _ hget
  refine ⟨state', hget', ?_, ?_⟩
  · rw [hstate.bucket, hstate.pointerKey, hstate.dataKey]
    exact hplace
  · intro hstatus
    have hlocation : state'.pointerLocation = state.pointerLocation := by
      unfold SessionState.pointerLocation
      rw [hstate.bucket, hstate.pointerKey]
    rw [hlocation]
    exact hlatest _ (hcommitted hstatus)

theorem contains_latest_issue (h : History) (sink : Sink) (receipt : CommitReceipt)
    {pointer : Location} (hget : h.latest.contains pointer = true) :
    (h.issue sink receipt).latest.contains pointer = true := by
  unfold History.issue
  simp only
  split
  · rw [Dict.contains_set, hget, Bool.or_true]
  · exact hget

/-- The receipt of a publication has the place of its session. -/
theorem issued_publish {h : History} {ready sink' : Sink} {sessionId : String}
    {receipt : CommitReceipt} (h' : publish ready sessionId = .ok (sink', receipt)) :
    Issued (h.issue sink' receipt) receipt := by
  obtain ⟨state, hget, ⟨existing, -, rfl, rfl⟩ | ⟨-, -, rfl, rfl⟩⟩ := publish_cases h'
  · refine ⟨_, Dict.get?_set_self _ _ _, .inr ⟨?_, rfl, rfl, rfl⟩, ?_⟩
    · show ReceiptStatus.unknown ≠ .rolledBack
      decide
    · intro hstatus
      cases hstatus
  · refine ⟨_, Dict.get?_set_self _ _ _, .inr ⟨?_, rfl, rfl, rfl⟩, ?_⟩
    · show ReceiptStatus.committed ≠ .rolledBack
      decide
    · intro _
      simp only [History.issue, committedReceipt, Dict.get?_set_self]
      exact Dict.contains_eq_true.mpr ⟨_, Dict.get?_set_self _ _ _⟩

theorem issued_next {h : History} {e : Event} (hstaged : Staged h.sink)
    (hissued : ∀ receipt ∈ h.receipts, Issued h receipt) (hallowed : Allowed h e) :
    ∀ receipt ∈ (next str h e).receipts, Issued (next str h e) receipt := by
  have hkept := (next_kept str hstaged hallowed).1
  have hsame : (next str h e).receipts = h.receipts → (next str h e).latest = h.latest →
      ∀ receipt ∈ (next str h e).receipts, Issued (next str h e) receipt := by
    intro hreceipts hlatest receipt hmem
    rw [hreceipts] at hmem
    apply (hissued receipt hmem).kept hkept
    intro pointer hget
    rw [hlatest]
    exact hget
  cases e with
  | beginWrite plan runId names => exact hsame rfl rfl
  | writeBatch sessionId batch =>
      rw [next_writeBatch] at hsame ⊢
      cases hwrite : writeBatch h.sink sessionId batch with
      | error error => exact hissued
      | ok sink =>
          rw [hwrite] at hsame
          exact hsame rfl rfl
  | prepare sessionId =>
      rw [next_prepare] at hsame ⊢
      cases hprepare : prepare str h.sink sessionId with
      | error error => exact hissued
      | ok sink =>
          rw [hprepare] at hsame
          exact hsame rfl rfl
  | commit sessionId =>
      rw [next_commit] at hkept ⊢
      rcases commit_cases str hstaged with ⟨error, hcommit⟩ |
        ⟨state, ready, sink', receipt, hget, hready, hpublish, hcommit⟩
      · rw [hcommit]
        exact hissued
      · rw [hcommit] at hkept ⊢
        intro found hmem
        rcases List.mem_append.mp hmem with hold | hnew
        · exact (hissued found hold).kept hkept fun pointer => contains_latest_issue h sink' receipt
        · obtain rfl := List.mem_singleton.mp hnew
          exact issued_publish hpublish
  | abort sessionId =>
      rw [next_abort] at hkept ⊢
      cases habort : abort h.sink sessionId with
      | error error => exact hissued
      | ok result =>
          obtain ⟨sink', receipt⟩ := result
          rw [habort] at hkept
          intro found hmem
          rcases List.mem_append.mp hmem with hold | hnew
          · exact (hissued found hold).kept hkept
              fun pointer => contains_latest_issue h sink' receipt
          · obtain rfl := List.mem_singleton.mp hnew
            obtain ⟨state, hget, rfl, hsessions, -⟩ := abort_cases habort
            refine ⟨{ state with status := .aborted }, ?_, .inl ⟨rfl, rfl, rfl⟩, ?_⟩
            · show sink'.sessions.get? sessionId = _
              rw [hsessions, Dict.get?_set_self]
            · intro hstatus
              cases hstatus
  | reconcile receipt contextBucket => exact hissued

/-! ## Runs -/

structure Sound (str : PyData → String) (h : History) : Prop where
  staged : Staged h.sink
  resolved : AllResolved str h
  issued : ∀ receipt ∈ h.receipts, Issued h receipt

theorem sound_init (backend : Fake) : Sound str (.init backend) where
  staged := by
    intro sessionId state hget
    cases hget
  resolved := by
    intro pointer sessionId hget
    cases hget
  issued := by
    intro receipt hmem
    cases hmem

theorem sound_next (h : History) (e : Event) (hsound : Sound str h)
    (hguard : Allowed h e ∧ Harmless str h e) : Sound str (next str h e) where
  staged := (next_kept str hsound.staged hguard.1).2
  resolved := resolved_next hsound.staged hsound.resolved hguard.1 hguard.2
  issued := issued_next hsound.staged hsound.issued hguard.1

theorem AllResolved.faithful {h : History} (hresolved : AllResolved str h) : Faithful str h := by
  intro pointer sessionId hlatest
  obtain ⟨state, body, hget, -, hplace, hbody, hkey, hobject⟩ := hresolved pointer sessionId hlatest
  refine ⟨state, body, hget, hbody, ?_⟩
  apply getCommittedObject_eq_some.mpr
  refine ⟨hkey, ?_⟩
  have hlocation : (pointer.1, state.dataKey) = state.dataLocation := by
    rw [← hplace]
    rfl
  rw [hlocation]
  exact hobject

/-- A receipt of a session that has published and was not superseded is not rolled back. -/
theorem reconcile_published {h : History} (hsound : Sound str h) {receipt : CommitReceipt}
    {contextBucket : Option String} (hmem : receipt ∈ h.receipts)
    (hharmless : Harmless str h (.reconcile receipt contextBucket))
    (hpublished : h.Published receipt.sessionId) :
    (reconcile h.sink receipt contextBucket).status ≠ .rolledBack := by
  obtain ⟨state, hget, hplace, -⟩ := hsound.issued receipt hmem
  rcases hplace with ⟨-, hpointer, hpublication⟩ | ⟨hstatus, hbucket, hpointer, hdata⟩
  · unfold reconcile
    rw [hpointer, hpublication]
    have hempty : orText "" ((none : Option String).getD "") = "" := rfl
    simp only [hempty, or_true, if_true]
    decide
  · obtain ⟨first, hfirst, hsession, hcommitted⟩ := hpublished
    obtain ⟨state', hget', -, hcontains⟩ := hsound.issued first hfirst
    rw [hsession] at hget'
    obtain rfl := Option.some.inj (hget.symm.trans hget')
    obtain ⟨other, hlatest⟩ := Dict.contains_eq_true.mp (hcontains hcommitted)
    obtain ⟨winner, body, hwinner, -, hsame, -, hkey, hobject⟩ :=
      hsound.resolved state.pointerLocation other hlatest
    have hsuperseded := hharmless.2 hstatus ⟨first, hfirst, hsession, hcommitted⟩ state
      (by rw [hget]; exact List.mem_singleton.mpr rfl)
    have hkeys : winner.dataKey = state.dataKey := by
      by_contra hne
      apply hsuperseded
      exact ⟨other, by rw [hlatest]; exact List.mem_singleton.mpr rfl, winner,
        by rw [hwinner]; exact List.mem_singleton.mpr rfl, hne⟩
    have hstaged := hsound.staged _ _ hget
    have hlocation : winner.dataLocation = (state.bucket, winner.dataKey) := by
      have hbuckets : winner.bucket = state.bucket := congrArg Prod.fst hsame
      unfold SessionState.dataLocation
      rw [hbuckets]
    have hresolve : h.sink.backend.getCommittedObject state.bucket state.pointerKey =
        some (winner.dataKey, body) := by
      rw [hlocation] at hobject
      exact getCommittedObject_eq_some.mpr ⟨hkey, hobject⟩
    unfold reconcile
    simp only [hbucket, hpointer, hdata, orText, hstaged.bucket, hstaged.pointerKey, if_false,
      hresolve, hkeys]
    simp

/-- Every harmless call keeps what the sink promises. -/
theorem keeps_next (h : History) (e : Event) (hsound : Sound str h)
    (hguard : Allowed h e ∧ Harmless str h e) : Keeps str h e where
  faithful := (sound_next h e hsound hguard).resolved.faithful
  steady := by
    intro sessionId he pointer hget
    obtain ⟨latest, hlatest⟩ := Dict.contains_eq_true.mp hget
    exact (sameTarget_next hsound.staged he hguard.2 (mem_pointers.mpr ⟨latest, hlatest⟩)).resolve
  reconciled := by
    rintro receipt contextBucket rfl hrolledBack hpublished
    exact reconcile_published hsound hguard.1 hguard.2 hpublished hrolledBack

/-- In every run over any backend whose calls are harmless, a pointer resolves to the
records of the session that last committed on it, no preparation or abort changes that, and
a receipt is found rolled back only if its session was never published. -/
theorem publication_holds (backend : Fake) (es : List Event)
    (hallowed : Runs.Guarded (next str) Allowed (.init backend) es)
    (hharmless : Runs.Guarded (next str) (Harmless str) (.init backend) es) :
    Runs.Guarded (next str) (Keeps str) (.init backend) es :=
  Runs.Guarded.along sound_next keeps_next (sound_init backend) (hallowed.and hharmless)

section Sample

def samplePlan : SinkPlan where
  bucket := "lake"
  keyPrefix := "orders"
  pointerKey := "orders.commit"
  writeMode := "overwrite"
  bucket_nonEmpty := by decide
  pointerKey_nonEmpty := by decide

def sampleBackend : Fake := ⟨.empty, .empty, .empty⟩

/-- A session that writes one record and commits. -/
def sampleCommit : List Event :=
  [.beginWrite samplePlan (some "r1") ⟨"u1", "s1", "f1"⟩,
    .writeBatch "s1" (.data (.list [.int 1])), .commit "s1"]

def sampleReceipt : CommitReceipt where
  status := .committed
  sessionId := "s1"
  publicationId := some "orders.commit"
  message := "commit pointer published"
  metadata := [("bucket", "lake"), ("pointer_key", "orders.commit"),
    ("data_key", "orders/data/r1.json")]

/-- A second run of another name publishes behind the first. -/
def samplePublications : List Event :=
  sampleCommit ++ [.reconcile sampleReceipt none,
    .beginWrite samplePlan (some "r2") ⟨"u2", "s2", "f2"⟩, .writeBatch "s2" (.data (.int 2)),
    .prepare "s2", .commit "s2", .abort "s2"]

theorem publication_holds_sample :
    Runs.Guarded (next fun _ => "") (Keeps fun _ => "") (.init sampleBackend)
      samplePublications :=
  publication_holds sampleBackend samplePublications (by decide +kernel) (by decide +kernel)

theorem Faithful.text {h : History} (hfaithful : Faithful str h) (pointer : Location)
    (sessionId : String) (hlatest : h.latest.get? pointer = some sessionId) :
    (h.resolve pointer).map Prod.snd =
      (h.sink.sessions.get? sessionId).bind fun state => dumps str state.records := by
  obtain ⟨state, body, hget, hbody, hresolve⟩ := hfaithful pointer sessionId hlatest
  rw [hget, hresolve, Option.bind_some, hbody]
  rfl

/-- A second run of the same name prepares, and the published object is overwritten. -/
def sampleRepeat : List Event :=
  [.beginWrite samplePlan (some "r1") ⟨"u2", "s2", "f2"⟩, .prepare "s2"]

theorem not_publication_holds : ¬ ∀ (str : PyData → String) (backend : Fake) (es : List Event),
    Runs.Guarded (next str) Allowed (.init backend) es →
      Runs.Guarded (next str) (Keeps str) (.init backend) es := by
  intro hclaim
  have hallowed : Runs.Guarded (next fun _ => "") Allowed (.init sampleBackend)
      (sampleCommit ++ sampleRepeat) := by decide +kernel
  have hkeeps := hclaim _ sampleBackend _ hallowed
  have hlast : Keeps (fun _ => "") _ (.prepare "s2") := hkeeps.right.2.1
  have htext := hlast.faithful.text ("lake", "orders.commit") "s1" rfl
  revert htext
  decide +kernel

end Sample

end Etlantic.Connectors.S3
