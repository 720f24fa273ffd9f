import Etlantic.ControlPlane.Durable.Invariants

/-!
# Submissions under their idempotency tuples

The tuple a submission was accepted under is written on its row, and the
idempotency table points back from the tuple to the row.  So one tuple has at most
one submission.
-/

namespace Etlantic.ControlPlane.Durable

variable {host : Host} {e : Event} {s₀ s t u : Store} {k : Key}

/-- The idempotency tuple on a row. -/
def rowTuple (k : Key) (row : SubmissionRecord) : IdempotencyTuple where
  scope := k.scope
  issuer := row.principalIssuer.getD ""
  kind := row.principalKind
  subject := row.principalSubject
  operation := row.operation
  idempotencyKey := row.idempotencyKey

/-- Every submission is the one that its tuple points at. -/
def Inscribed (s : Store) : Prop :=
  s.submissions.All fun k row => s.idempotency.get? (rowTuple k row) = some k.id

/-- Every row was there before under its tuple, or the event accepts it. -/
def RowsFrom (e : Event) (s t : Store) : Prop :=
  t.submissions.All fun k row =>
    (∃ old, s.submissions.get? k = some old ∧ rowTuple k old = rowTuple k row) ∨
      ∃ ctx request, e.call = .accept ctx request ∧
        rowTuple k row = idempotencyTuple ctx request.operation request.idempotencyKey

theorem inscribed_init (limit : Option Int) : Inscribed (Store.init limit) := Dict.all_empty _

/-- A tuple has at most one submission. -/
theorem Inscribed.key_eq (h : Inscribed s) {k' : Key} {row row' : SubmissionRecord}
    (hget : s.submissions.get? k = some row) (hget' : s.submissions.get? k' = some row')
    (htuple : rowTuple k row = rowTuple k' row') : k = k' := by
  have hid : s.idempotency.get? (rowTuple k row) = some k.id := h k row hget
  have hid' : s.idempotency.get? (rowTuple k' row') = some k'.id := h k' row' hget'
  rw [htuple, hid'] at hid
  have hscope : k.scope = k'.scope := congrArg IdempotencyTuple.scope htuple
  cases k
  cases k'
  simp_all

theorem RowsFrom.refl (e : Event) (s : Store) : RowsFrom e s s :=
  fun _ row hget => .inl ⟨row, hget, rfl⟩

theorem RowsFrom.trans (h : RowsFrom e s t) (h' : RowsFrom e t u) : RowsFrom e s u := by
  intro k row hget
  rcases h' k row hget with ⟨middle, hmiddle, hsame⟩ | haccept
  · rcases h k middle hmiddle with ⟨old, hold, hsame'⟩ | ⟨ctx, request, hcall, htuple⟩
    · exact .inl ⟨old, hold, hsame'.trans hsame⟩
    · exact .inr ⟨ctx, request, hcall, hsame.symm.trans htuple⟩
  · exact .inr haccept

/-- A row that only changes its status keeps its tuple. -/
theorem Inscribed.setStatus (h : Inscribed s) {row : SubmissionRecord}
    (hget : s.submissions.get? k = some row) (status : SubmissionStatus) :
    (s.submissions.set k (row.withStatus status)).All fun k row =>
      s.idempotency.get? (rowTuple k row) = some k.id :=
  Dict.All.set h (h k row hget)

theorem RowsFrom.setStatus {row : SubmissionRecord} (hget : s.submissions.get? k = some row)
    (status : SubmissionStatus) (ht : t.submissions = s.submissions.set k (row.withStatus status)) :
    RowsFrom e s t := by
  unfold RowsFrom
  rw [ht]
  exact Dict.All.set (RowsFrom.refl e s) (.inl ⟨row, hget, rfl⟩)

theorem Write.inscribed (h : Write host e s₀ s t) (hs : Inscribed s) : Inscribed t := by
  cases h with
  | accept hcall hid hnew hidem hvalid hroute hlimit =>
      intro k row hget
      rcases Dict.get?_set_eq_some.mp hget with ⟨rfl, rfl⟩ | ⟨-, hold⟩
      · exact Dict.get?_set_self _ _ _
      · have hentry : s₀.idempotency.get? (rowTuple k row) = some k.id := hs k row hold
        exact Dict.get?_set_fresh hidem hentry
  | publish hcall hscope hrow hunpublished hget haccepted => exact hs.setStatus hget _
  | requestCancel hcall hscope hget hlive => exact hs.setStatus hget _
  | finishAttempt hcall hstatus hk hattempt hrunning hget hfence => exact hs.setStatus hget _
  | cancelSubmission hget hrequested hidle hready => exact hs.setStatus hget _
  | _ => exact hs

theorem Write.rowsFrom (h : Write host e s₀ s t) : RowsFrom e s t := by
  cases h with
  | accept hcall hid hnew hidem hvalid hroute hlimit =>
      intro k row hget
      rcases Dict.get?_set_eq_some.mp hget with ⟨rfl, rfl⟩ | ⟨-, hold⟩
      · exact .inr ⟨_, _, hcall, rfl⟩
      · exact .inl ⟨row, hold, rfl⟩
  | publish hcall hscope hrow hunpublished hget haccepted => exact .setStatus hget _ rfl
  | requestCancel hcall hscope hget hlive => exact .setStatus hget _ rfl
  | finishAttempt hcall hstatus hk hattempt hrunning hget hfence => exact .setStatus hget _ rfl
  | cancelSubmission hget hrequested hidle hready => exact .setStatus hget _ rfl
  | _ => exact .refl e _

theorem next_inscribed (hlinked : Linked s) (hs : Inscribed s) : Inscribed (next host s e) :=
  Runs.writes_invariant (fun _ _ ha hw => hw.inscribed ha) (next_writes hlinked) hs

theorem next_rowsFrom (hlinked : Linked s) : RowsFrom e s (next host s e) :=
  Runs.writes_related (I := fun _ => True) (RowsFrom.refl e) (fun h h' => h.trans h')
    (fun _ _ _ _ => trivial) (fun _ _ _ hw => hw.rowsFrom) (next_writes hlinked) trivial

end Etlantic.ControlPlane.Durable
