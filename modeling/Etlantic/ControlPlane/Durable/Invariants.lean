import Etlantic.ControlPlane.Durable.Refinement

/-!
# Keys and references

Every record of a reachable store is filed under its own identity, and every
record that names a submission names one that was accepted.  Submissions are
never removed, so such a reference stays valid.

The section on runs carries facts about one write to every run of the store.
-/

namespace Etlantic.ControlPlane.Durable

/-- The submission was accepted. -/
def Store.Known (s : Store) (k : Key) : Prop := s.submissions.contains k = true

theorem Store.known_of_get? {s : Store} {k : Key} {row : SubmissionRecord}
    (h : s.submissions.get? k = some row) : s.Known k :=
  Dict.contains_eq_true.mpr ⟨row, h⟩

theorem Store.Known.get {s : Store} {k : Key} (h : s.Known k) :
    ∃ row, s.submissions.get? k = some row :=
  Dict.contains_eq_true.mp h

/-- Records are filed under their identity and name accepted submissions. -/
structure Linked (s : Store) : Prop where
  submission : s.submissions.All fun k row =>
    row.submissionId = k.id ∧ row.scope = k.scope ∧ isExecutionRoute row.executionRoute = true
  outbox : s.outbox.All fun k row =>
    row.outboxId = k.id ∧ s.Known ⟨k.scope, row.submissionId⟩
  dispatch : s.dispatches.All fun k row =>
    row.submissionId = k.id ∧ row.scope = k.scope ∧ s.Known k
  lease : s.leases.All fun k _ => s.Known k
  attempt : s.attempts.All fun k row =>
    row.scope = k.scope ∧ s.Known ⟨k.scope, row.submissionId⟩
  effect : s.effects.All fun k row =>
    row.effectId = k.id ∧ row.scope = k.scope ∧ s.Known ⟨k.scope, row.submissionId⟩
  publication : s.resultPublications.All fun k row =>
    row.submissionId = k.submissionId ∧ row.scope = k.scope ∧
      s.Known ⟨k.scope, k.submissionId⟩

theorem Linked.keyed {s : Store} (h : Linked s) : SubmissionsKeyed s :=
  fun k row hget => (h.submission k row hget).1

theorem linked_init (limit : Option Int) : Linked (Store.init limit) where
  submission := Dict.all_empty _
  outbox := Dict.all_empty _
  dispatch := Dict.all_empty _
  lease := Dict.all_empty _
  attempt := Dict.all_empty _
  effect := Dict.all_empty _
  publication := Dict.all_empty _

theorem Store.Known.set {s : Store} {k k' : Key} {row : SubmissionRecord} (h : s.Known k) :
    Store.Known { s with submissions := s.submissions.set k' row } k := by
  have h : s.submissions.contains k = true := h
  unfold Store.Known
  rw [Dict.contains_set, h, Bool.or_true]

/-- Filing a submission under its identity keeps every reference. -/
theorem Linked.setSubmission {s : Store} (h : Linked s) {k : Key} {row : SubmissionRecord}
    (hid : row.submissionId = k.id) (hscope : row.scope = k.scope)
    (hroute : isExecutionRoute row.executionRoute = true) :
    Linked { s with submissions := s.submissions.set k row } where
  submission := h.submission.set ⟨hid, hscope, hroute⟩
  outbox := h.outbox.mono fun _ _ hrow => ⟨hrow.1, hrow.2.set⟩
  dispatch := h.dispatch.mono fun _ _ hrow => ⟨hrow.1, hrow.2.1, hrow.2.2.set⟩
  lease := h.lease.mono fun _ _ hrow => hrow.set
  attempt := h.attempt.mono fun _ _ hrow => ⟨hrow.1, hrow.2.set⟩
  effect := h.effect.mono fun _ _ hrow => ⟨hrow.1, hrow.2.1, hrow.2.2.set⟩
  publication := h.publication.mono fun _ _ hrow => ⟨hrow.1, hrow.2.1, hrow.2.2.set⟩

theorem Linked.setStatus {s : Store} (h : Linked s) {k : Key} {row : SubmissionRecord}
    (hget : s.submissions.get? k = some row) (status : SubmissionStatus) :
    Linked { s with submissions := s.submissions.set k (row.withStatus status) } :=
  have hrow := h.submission k row hget
  h.setSubmission hrow.1 hrow.2.1 hrow.2.2

theorem Linked.setDispatch {s : Store} (h : Linked s) {k : Key} {row row' : DispatchRecord}
    (hget : s.dispatches.get? k = some row) (hid : row'.submissionId = row.submissionId)
    (hscope : row'.scope = row.scope) :
    Linked { s with dispatches := s.dispatches.set k row' } :=
  have hrow := h.dispatch k row hget
  { h with dispatch := h.dispatch.set ⟨hid.trans hrow.1, hscope.trans hrow.2.1, hrow.2.2⟩ }

variable {host : Host} {e : Event} {s₀ s t : Store}

theorem Write.linked (hs : Linked s) (h : Write host e s₀ s t) : Linked t := by
  cases h with
  | accept hcall hid hnew hidem hvalid hroute hlimit =>
      rename_i ctx request submissionId
      have hnext : Linked { s₀ with
          submissions := s₀.submissions.set (key ctx submissionId) (acceptedSubmission ctx request
            (requestedInputs host ctx request) submissionId (e.env.now [0])) } :=
        hs.setSubmission rfl rfl hvalid
      exact { hnext with outbox := hnext.outbox.set ⟨rfl, Store.known_of_get? (Dict.get?_set_self _ _ _)⟩ }
  | publish hcall hscope hrow hunpublished hget haccepted =>
      have hnext := hs.setStatus hget .dispatched
      have hlinked := hnext.outbox _ _ hrow
      exact { hnext with outbox := hnext.outbox.set hlinked }
  | acknowledge at_ hrow hunpublished why =>
      have hlinked := hs.outbox _ _ hrow
      exact { hs with outbox := hs.outbox.set hlinked }
  | requestCancel hcall hscope hget hlive => exact hs.setStatus hget _
  | grantLease hscope hget heligible hscopeOf hidOf htoken hother =>
      exact { hs with lease := hs.lease.set (Store.known_of_get? hget) }
  | touchLease hget howner htoken hscopeOf hidOf =>
      exact { hs with lease := hs.lease.set (hs.lease _ _ hget) }
  | loseAttempt hget hrunning =>
      have hlinked := hs.attempt _ _ hget
      exact { hs with attempt := hs.attempt.set hlinked }
  | startAttempt ctx attempt hget heligible hlease howner htoken halone hscope hrunning =>
      exact { hs with attempt := hs.attempt.set ⟨hscope, Store.known_of_get? hget⟩ }
  | finishAttempt hcall hstatus hk hattempt hrunning hget hfence =>
      rename_i status k attempt submission at_
      have hnext := hs.setStatus hget (finishStatuses status submission).2
      have hlinked := hnext.attempt _ _ hattempt
      exact { hnext with attempt := hnext.attempt.set hlinked }
  | recordUnknownEffect hsweep hran hget hsame hopen =>
      exact { hs with effect := hs.effect.set ⟨rfl, rfl, Store.known_of_get? hget⟩ }
  | cancelSubmission hget hrequested hidle hready => exact hs.setStatus hget _
  | cancelDispatch hget hopen => exact hs.setDispatch hget rfl rfl
  | recordEffect hcall hvalid hget hallowed =>
      refine { hs with effect := hs.effect.set ⟨rfl, ?_, Store.known_of_get? hget⟩ }
      exact invalidEffect_scope hvalid
  | recordPublication hcall hscope hsubmission hlease =>
      exact { hs with
        publication := hs.publication.set ⟨hsubmission, hscope, hs.lease _ _ hlease⟩ }
  | publishPublication hget =>
      have hlinked := hs.publication _ _ hget
      exact { hs with publication := hs.publication.set hlinked }
  | prepareDispatch hcall hget hnew =>
      exact { hs with dispatch := hs.dispatch.set ⟨rfl, rfl, Store.known_of_get? hget⟩ }
  | claimDispatch hcall hscope hrecord hget hclaimable howner hseconds => exact hs.setDispatch hrecord rfl rfl
  | linkDispatch hcall hscope hrecord hleased => exact hs.setDispatch hrecord rfl rfl
  | releaseDispatch hcall hscope hrecord hleased => exact hs.setDispatch hrecord rfl rfl
  | rearmDispatch hcall hrecord hget hdispatched haccepted hunbegun hbound =>
      exact hs.setDispatch hrecord rfl rfl
  | exhaustDispatch hrecord hget hdispatched haccepted => exact hs.setDispatch hrecord rfl rfl
  | rearmReconciled hcall hscope hsucceeded hrecord hget hrequired haccepted hactive hunbegun =>
      exact hs.setDispatch hrecord rfl rfl
  | reserveReference hprefect hroute => exact { hs with }
  | releaseReferences hsub => exact { hs with }
  | transitionRoute hcall hstatus hprefect hchanged hallowed hrefusal hsucceeded =>
      exact { hs with }
  | authorizeShadow hscope heffects => exact { hs with }
  | peripheral => exact { hs with }

/-! ## Runs -/

theorem next_writes (hs : Linked s) : Writes host e s s (next host s e) :=
  outcome_writes hs.keyed

theorem next_linked (host : Host) (e : Event) (hs : Linked s) : Linked (next host s e) :=
  Runs.writes_invariant (fun _ _ ha hw => hw.linked ha) (next_writes hs) hs

/-- An invariant that every write keeps holds after every run. -/
theorem run_invariant {I : Store → Prop} {guard : Store → Event → Prop}
    (hwrite : ∀ e s₀ s t, guard s₀ e → Linked s₀ → I s₀ → Linked s → I s →
      Write host e s₀ s t → I t)
    {es : List Event} (hs : Linked s) (hI : I s) (hrun : Runs.Guarded (next host) guard s es) :
    Linked (run host s es) ∧ I (run host s es) := by
  refine Runs.invariant (I := fun s => Linked s ∧ I s) (fun s e h hguard => ?_) ⟨hs, hI⟩ hrun
  exact Runs.writes_invariant (I := fun s => Linked s ∧ I s)
    (fun a b hab hw => ⟨hw.linked hab.1, hwrite e s a b hguard h.1 h.2 hab.1 hab.2 hw⟩)
    (next_writes h.1) h

/-- A preorder that every write respects relates the ends of every run. -/
theorem run_related {I : Store → Prop} {R : Store → Store → Prop}
    {guard : Store → Event → Prop} (refl : ∀ s, R s s)
    (trans : ∀ {a b c}, R a b → R b c → R a c)
    (hwrite : ∀ e s₀ s t, guard s₀ e → Linked s₀ → I s₀ → Linked s → I s →
      Write host e s₀ s t → I t)
    (hrel : ∀ e s₀ s t, guard s₀ e → Linked s₀ → I s₀ → Linked s → I s →
      Write host e s₀ s t → R s t)
    {es : List Event} (hs : Linked s) (hI : I s) (hrun : Runs.Guarded (next host) guard s es) :
    R s (run host s es) := by
  have hnext : ∀ s e, Linked s ∧ I s → guard s e →
      (Linked (next host s e) ∧ I (next host s e)) ∧ R s (next host s e) := by
    intro s e h hguard
    have hkeep := fun a b (hab : Linked a ∧ I a) (hw : Write host e s a b) =>
      And.intro (hw.linked hab.1) (hwrite e s a b hguard h.1 h.2 hab.1 hab.2 hw)
    exact ⟨Runs.writes_invariant hkeep (next_writes h.1) h,
      Runs.writes_related refl trans hkeep
        (fun a b hab hw => hrel e s a b hguard h.1 h.2 hab.1 hab.2 hw) (next_writes h.1) h⟩
  exact Runs.related refl trans (fun s e h hg => (hnext s e h hg).1)
    (fun s e h hg => (hnext s e h hg).2) ⟨hs, hI⟩ hrun

theorem run_linked (host : Host) (es : List Event) (hs : Linked s) : Linked (run host s es) :=
  (run_invariant (I := fun _ => True) (fun _ _ _ _ _ _ _ _ _ _ => trivial) hs trivial
    (Runs.guarded_true s es)).1

theorem reached_linked (host : Host) (limit : Option Int) (es : List Event) :
    Linked (reached host limit es) :=
  run_linked host es (linked_init limit)

end Etlantic.ControlPlane.Durable
