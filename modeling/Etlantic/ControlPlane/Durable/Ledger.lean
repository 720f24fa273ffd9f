import Etlantic.ControlPlane.Durable.Lifecycle

/-!
# Submissions, outbox rows and idempotency entries

`accept` writes three dictionaries at once.  As long as generated identifiers
are fresh they stay in bijection: each submission has one outbox row and one
idempotency entry (`Ledger`).  A repeated `accept` finds its entry before it looks
at the route or the admission limit.
-/

namespace Etlantic.ControlPlane.Durable

/-- The outbox row under `rowKey` announces the submission under `k`. -/
def Store.Announces (s : Store) (k rowKey : Key) : Prop :=
  ∃ row, s.outbox.get? rowKey = some row ∧ rowKey.scope = k.scope ∧ row.submissionId = k.id

/-- The idempotency entry points at the submission under `k`. -/
def Store.PointsAt (s : Store) (k : Key) (entry : IdempotencyTuple) : Prop :=
  s.idempotency.get? entry = some k.id ∧ entry.scope = k.scope

/-- The three dictionaries of acceptance are in bijection, and a row is published
exactly when it was delivered once. -/
structure Ledger (s : Store) : Prop where
  announced : ∀ k, s.Known k → ∃ rowKey, s.Announces k rowKey
  announcedOnce : ∀ k rowKey rowKey', s.Announces k rowKey → s.Announces k rowKey' →
    rowKey = rowKey'
  entered : ∀ k, s.Known k → ∃ entry, s.PointsAt k entry
  enteredOnce : ∀ k entry entry', s.PointsAt k entry → s.PointsAt k entry' → entry = entry'
  target : ∀ k entry, s.PointsAt k entry → s.Known k
  delivered : s.outbox.All fun _ row =>
    row.publishedAt = none ∧ row.deliveryCount = 0 ∨
      row.publishedAt ≠ none ∧ row.deliveryCount = 1

variable {host : Host} {e : Event} {s₀ s t : Store} {ctx : ControlPlaneContext} {k : Key}

theorem ledger_init (limit : Option Int) : Ledger (Store.init limit) where
  announced := by
    intro k hknown
    obtain ⟨row, hget⟩ := hknown.get
    simp [Store.init] at hget
  announcedOnce := by
    rintro k _ _ ⟨row, hget, -⟩
    simp [Store.init] at hget
  entered := by
    intro k hknown
    obtain ⟨row, hget⟩ := hknown.get
    simp [Store.init] at hget
  enteredOnce := by
    rintro k _ _ ⟨hget, -⟩
    simp [Store.init] at hget
  target := by
    rintro k _ ⟨hget, -⟩
    simp [Store.init] at hget
  delivered := Dict.all_empty _

/-! ## Every write keeps the ledger -/

/-- A write that touches neither the outbox nor the entries, and no key of the
submissions. -/
theorem Ledger.frame (h : Ledger s) (houtbox : t.outbox = s.outbox)
    (hidem : t.idempotency = s.idempotency) (hknown : ∀ k, t.Known k ↔ s.Known k) : Ledger t where
  announced := by
    intro k hk
    unfold Store.Announces
    rw [houtbox]
    exact h.announced k ((hknown k).mp hk)
  announcedOnce := by
    unfold Store.Announces
    rw [houtbox]
    exact h.announcedOnce
  entered := by
    intro k hk
    unfold Store.PointsAt
    rw [hidem]
    exact h.entered k ((hknown k).mp hk)
  enteredOnce := by
    unfold Store.PointsAt
    rw [hidem]
    exact h.enteredOnce
  target := by
    intro k entry hpoints
    unfold Store.PointsAt at hpoints
    rw [hidem] at hpoints
    exact (hknown k).mpr (h.target k entry hpoints)
  delivered := by
    rw [houtbox]
    exact h.delivered

/-- Overwriting a submission adds no key. -/
theorem known_set_iff {row row' : SubmissionRecord} {k' : Key}
    (hget : s.submissions.get? k' = some row) :
    Store.Known { s with submissions := s.submissions.set k' row' } k ↔ s.Known k := by
  unfold Store.Known
  rw [Dict.contains_set, Bool.or_eq_true, decide_eq_true_eq]
  refine ⟨fun h => ?_, .inr⟩
  rcases h with rfl | h
  · exact Store.known_of_get? hget
  · exact h

theorem Ledger.setStatus (h : Ledger s) {row : SubmissionRecord}
    (hget : s.submissions.get? k = some row) (status : SubmissionStatus) :
    Ledger { s with submissions := s.submissions.set k (row.withStatus status) } :=
  h.frame rfl rfl fun _ => known_set_iff hget

/-- An acknowledged row still announces what it announced. -/
theorem announces_acknowledge {rowKey rowKey' : Key} {row : OutboxRecord} {at_ : Instant}
    (hrow : s.outbox.get? rowKey = some row) :
    Store.Announces { s with outbox := s.outbox.set rowKey (row.acknowledge at_) } k rowKey' ↔
      s.Announces k rowKey' := by
  unfold Store.Announces
  rw [Dict.get?_set]
  by_cases hsame : rowKey = rowKey'
  · subst hsame
    simp [hrow]
  · rw [if_neg hsame]

theorem Ledger.acknowledge (h : Ledger s) {rowKey : Key} {row : OutboxRecord} {at_ : Instant}
    (hrow : s.outbox.get? rowKey = some row) (hunpublished : row.publishedAt = none) :
    Ledger { s with outbox := s.outbox.set rowKey (row.acknowledge at_) } where
  announced := by
    intro k hknown
    obtain ⟨rowKey', hannounces⟩ := h.announced k hknown
    exact ⟨rowKey', (announces_acknowledge hrow).mpr hannounces⟩
  announcedOnce := by
    intro k first second hfirst hsecond
    exact h.announcedOnce k first second ((announces_acknowledge hrow).mp hfirst)
      ((announces_acknowledge hrow).mp hsecond)
  entered := h.entered
  enteredOnce := h.enteredOnce
  target := h.target
  delivered := by
    refine Dict.All.set h.delivered (.inr ⟨Option.some_ne_none _, ?_⟩)
    rcases h.delivered rowKey row hrow with ⟨-, hcount⟩ | ⟨hpublished, -⟩
    · simp [hcount]
    · exact absurd hunpublished hpublished

/-- The generated outbox id of a fresh acceptance is not in use. -/
theorem Event.Fresh.outbox_new (hfresh : e.Fresh s) {request : AcceptRequest}
    (hcall : e.call = .accept ctx request) :
    s.outbox.get? (key ctx (e.env.generatedId "out-" 16 1)) = none := by
  unfold Event.Fresh Event.isFresh at hfresh
  rw [hcall] at hfresh
  simp only [Bool.and_eq_true, Bool.not_eq_true'] at hfresh
  exact Dict.contains_eq_false.mp hfresh.2

/-- The keys of the submissions after an acceptance. -/
theorem known_accept {request : AcceptRequest} {submissionId : String} {env : Env} :
    (insertAcceptance host env ctx request submissionId s).store.Known k ↔
      k = key ctx submissionId ∨ s.Known k := by
  unfold insertAcceptance Store.Known
  dsimp only [ret_store]
  rw [Dict.contains_set, Bool.or_eq_true, decide_eq_true_eq, eq_comm (a := k)]

theorem key_eq_iff {id : String} : k = key ctx id ↔ ctx.scopeKey = k.scope ∧ id = k.id := by
  cases k
  simp [key, eq_comm]

/-- A row announces the new submission from the new key, or an old one. -/
theorem announces_accept {request : AcceptRequest} {submissionId : String} {env : Env}
    {rowKey : Key} (houtbox : s.outbox.get? (key ctx (env.generatedId "out-" 16 1)) = none) :
    (insertAcceptance host env ctx request submissionId s).store.Announces k rowKey ↔
      k = key ctx submissionId ∧ rowKey = key ctx (env.generatedId "out-" 16 1) ∨
        s.Announces k rowKey := by
  unfold insertAcceptance Store.Announces acceptedOutbox
  dsimp only [ret_store]
  rw [Dict.get?_set, key_eq_iff]
  by_cases hrow : key ctx (env.generatedId "out-" 16 1) = rowKey
  · subst hrow
    rw [houtbox]
    simp [key]
  · simp [hrow, Ne.symm hrow]

/-- An entry points at the new submission, or at an old one. -/
theorem pointsAt_accept {request : AcceptRequest} {submissionId : String} {env : Env}
    {entry : IdempotencyTuple}
    (hidem : s.idempotency.get?
      (idempotencyTuple ctx request.operation request.idempotencyKey) = none) :
    (insertAcceptance host env ctx request submissionId s).store.PointsAt k entry ↔
      k = key ctx submissionId ∧
          entry = idempotencyTuple ctx request.operation request.idempotencyKey ∨
        s.PointsAt k entry := by
  unfold insertAcceptance Store.PointsAt
  dsimp only [ret_store]
  rw [Dict.get?_set, key_eq_iff]
  by_cases hentry : idempotencyTuple ctx request.operation request.idempotencyKey = entry
  · subst hentry
    rw [hidem]
    simp [idempotencyTuple, and_comm]
  · simp [hentry, Ne.symm hentry]

theorem Ledger.accept (h : Ledger s) (hlinked : Linked s) {request : AcceptRequest}
    {submissionId : String} {env : Env}
    (hnew : s.submissions.get? (key ctx submissionId) = none)
    (houtbox : s.outbox.get? (key ctx (env.generatedId "out-" 16 1)) = none)
    (hidem : s.idempotency.get?
      (idempotencyTuple ctx request.operation request.idempotencyKey) = none) :
    Ledger (insertAcceptance host env ctx request submissionId s).store := by
  have hunknown : ¬ s.Known (key ctx submissionId) := by
    intro hknown
    obtain ⟨row, hget⟩ := hknown.get
    rw [hnew] at hget
    cases hget
  have hunannounced : ∀ rowKey, ¬ s.Announces (key ctx submissionId) rowKey := by
    rintro rowKey ⟨row, hget, hscope, hid⟩
    have hknown := (hlinked.outbox rowKey row hget).2
    rw [hscope, hid] at hknown
    exact hunknown hknown
  constructor
  · intro k hk
    rcases known_accept.mp hk with rfl | hold
    · exact ⟨_, (announces_accept houtbox).mpr (.inl ⟨rfl, rfl⟩)⟩
    · obtain ⟨rowKey, hrow⟩ := h.announced k hold
      exact ⟨rowKey, (announces_accept houtbox).mpr (.inr hrow)⟩
  · intro k first second hfirst hsecond
    rcases (announces_accept houtbox).mp hfirst with ⟨rfl, rfl⟩ | hfirst
    · rcases (announces_accept houtbox).mp hsecond with ⟨-, rfl⟩ | hsecond
      · rfl
      · exact absurd hsecond (hunannounced second)
    · rcases (announces_accept houtbox).mp hsecond with ⟨rfl, -⟩ | hsecond
      · exact absurd hfirst (hunannounced first)
      · exact h.announcedOnce k first second hfirst hsecond
  · intro k hk
    rcases known_accept.mp hk with rfl | hold
    · exact ⟨_, (pointsAt_accept hidem).mpr (.inl ⟨rfl, rfl⟩)⟩
    · obtain ⟨entry, hentry⟩ := h.entered k hold
      exact ⟨entry, (pointsAt_accept hidem).mpr (.inr hentry)⟩
  · intro k first second hfirst hsecond
    rcases (pointsAt_accept hidem).mp hfirst with ⟨rfl, rfl⟩ | hfirst
    · rcases (pointsAt_accept hidem).mp hsecond with ⟨-, rfl⟩ | hsecond
      · rfl
      · exact absurd (h.target _ second hsecond) hunknown
    · rcases (pointsAt_accept hidem).mp hsecond with ⟨rfl, -⟩ | hsecond
      · exact absurd (h.target _ first hfirst) hunknown
      · exact h.enteredOnce k first second hfirst hsecond
  · intro k entry hentry
    rcases (pointsAt_accept hidem).mp hentry with ⟨rfl, -⟩ | hentry
    · exact known_accept.mpr (.inl rfl)
    · exact known_accept.mpr (.inr (h.target k entry hentry))
  · exact Dict.All.set h.delivered (.inl ⟨rfl, rfl⟩)

theorem Write.ledger (hfresh : e.Fresh s₀) (hlinked : Linked s) (hs : Ledger s)
    (h : Write host e s₀ s t) : Ledger t := by
  cases h with
  | accept hcall hid hnew hidem hvalid hroute hlimit =>
      exact hs.accept hlinked (hfresh.accepted_new hcall hid hnew) (hfresh.outbox_new hcall) hidem
  | publish hcall hscope hrow hunpublished hget haccepted =>
      exact (hs.acknowledge hrow hunpublished).setStatus hget _
  | acknowledge at_ hrow hunpublished why => exact hs.acknowledge hrow hunpublished
  | requestCancel hcall hscope hget hlive => exact hs.setStatus hget _
  | finishAttempt hcall hstatus hk hattempt hrunning hget hfence =>
      exact hs.frame rfl rfl fun _ => known_set_iff hget
  | cancelSubmission hget hrequested hidle hready => exact hs.setStatus hget _
  | _ => exact hs.frame rfl rfl fun _ => Iff.rfl

theorem reached_ledger {limit : Option Int} {es : List Event}
    (hrun : FreshRun host (Store.init limit) es) : Ledger (reached host limit es) :=
  (run_invariant (I := Ledger) (fun _ _ _ _ hfresh _ _ hlinked hI hw => hw.ledger hfresh hlinked hI)
    (linked_init limit) (ledger_init limit) hrun).2

/-! ## Repeated acceptance -/

/-- The repeated request agrees with the stored submission: the immutable inputs
are the same, and a given submission id or run id is the stored one. -/
structure Repeats (host : Host) (ctx : ControlPlaneContext) (request : AcceptRequest)
    (prior : SubmissionRecord) : Prop where
  inputs : actualInputs prior = requestedInputs host ctx request
  submissionId : ∀ given, request.submissionId = some given → given = prior.submissionId
  runId : ∀ given stored, request.runId = some given → prior.runId = some stored → given = stored

/-- A repeated acceptance returns the stored submission or is refused. -/
theorem accept_repeated {env : Env} {request : AcceptRequest} {prior : SubmissionRecord}
    (hlinked : Linked s) (hvalid : request.invalid = none)
    (hentry : s.idempotency.get?
      (idempotencyTuple ctx request.operation request.idempotencyKey) = some k.id)
    (hscope : k.scope = ctx.scopeKey) (hget : s.submissions.get? k = some prior) :
    (Repeats host ctx request prior → accept host env ctx request s = ret (prior, false) s) ∧
      (¬ Repeats host ctx request prior → (accept host env ctx request s).Refused s) := by
  have hkey : key ctx k.id = k := by
    cases k
    simp_all [key]
  have hid : prior.submissionId = k.id := (hlinked.submission k prior hget).1
  unfold accept
  rw [hvalid]
  dsimp only
  rw [hentry]
  dsimp only
  rw [hkey, hget]
  dsimp only
  unfold replayAccept
  constructor
  · rintro ⟨hinputs, hsubmission, hrun⟩
    rw [if_neg (not_not.mpr hinputs), if_neg, if_neg]
    · intro hother
      obtain ⟨given, hgiven, hother⟩ := (Option.any_eq_true _ _).mp hother
      obtain ⟨stored, hstored, hother⟩ := (Option.any_eq_true _ _).mp hother
      exact of_decide_eq_true hother (hrun given stored hgiven hstored)
    · intro hother
      obtain ⟨given, hgiven, hother⟩ := (Option.any_eq_true _ _).mp hother
      exact of_decide_eq_true hother ((hsubmission given hgiven).trans hid)
  · intro hdiffers
    split
    · exact refused_raise _ s
    · rename_i hinputs
      split
      · exact refused_raise _ s
      · rename_i hsubmission
        split
        · exact refused_raise _ s
        · rename_i hrun
          refine absurd ⟨not_not.mp hinputs, ?_, ?_⟩ hdiffers
          · intro given hgiven
            simpa [hgiven, hid] using hsubmission
          · intro given stored hgiven hstored
            simpa [hgiven, hstored] using hrun

/-- A first acceptance is refused on a route that is not active, above the admission
limit, and under a submission id that is taken. -/
theorem accept_refused {env : Env} {request : AcceptRequest}
    (hentry : s.idempotency.get?
      (idempotencyTuple ctx request.operation request.idempotencyKey) = none)
    (hrefused : (s.routeState request.executionRoute).status ≠ .active ∨
      s.admissionLimit.any (fun limit => limit ≤ (s.inFlight ctx.tenant.tenantId : Int)) = true ∨
      ∃ given, request.submissionId = some given ∧
        s.submissions.contains (key ctx given) = true) :
    (accept host env ctx request s).Refused s := by
  unfold accept
  split
  · exact refused_raise _ s
  · rw [hentry]
    dsimp only
    split
    · exact refused_raise _ s
    · rename_i hactive
      split
      · exact refused_raise _ s
      · rename_i hlimit
        rcases hrefused with hroute | hexceeded | ⟨given, hgiven, htaken⟩
        · exact absurd hroute hactive
        · exact absurd hexceeded hlimit
        · rw [hgiven]
          dsimp only
          rw [if_pos htaken]
          exact refused_raise _ s

theorem accept_invalid {env : Env} {request : AcceptRequest} (h : request.invalid ≠ none) :
    (accept host env ctx request s).Refused s := by
  unfold accept
  split
  · exact refused_raise _ s
  · rename_i hvalid
    exact absurd hvalid h

section Sample

/-- An acceptance under a run id. -/
def sampleAcceptRun (runId : String) : AcceptRequest :=
  { sampleAccept "a" "local" none with runId := some runId }

def acceptedRun : List Event :=
  [⟨sampleEnv 'a' 0, .accept sampleContext (sampleAcceptRun "run-1")⟩]

/-- A repeated acceptance under another run id is refused although the immutable inputs
are the same, and one without a run id is not. -/
theorem repeat_under_other_run_id :
    (reached sampleHost none acceptedRun).idempotency.get?
      (idempotencyTuple sampleContext "run" "a") = some "a" ∧
    ((reached sampleHost none acceptedRun).submissions.get? (key sampleContext "a")).map
      actualInputs = some (requestedInputs sampleHost sampleContext (sampleAcceptRun "run-2")) ∧
    (accept sampleHost (sampleEnv 'b' 1) sampleContext (sampleAcceptRun "run-2")
      (reached sampleHost none acceptedRun)).succeeded = false ∧
    (accept sampleHost (sampleEnv 'b' 1) sampleContext (sampleAccept "a" "local" none)
      (reached sampleHost none acceptedRun)).succeeded = true := by
  decide +kernel

end Sample

/-- Submissions, outbox rows and idempotency entries are in bijection in every
reachable store, the inputs of a submission never change, and a repeated
acceptance returns the stored submission or is refused. -/
theorem acceptance_ledger (host : Host) (limit : Option Int) (es : List Event)
    (hrun : FreshRun host (Store.init limit) es) :
    (∀ k, (reached host limit es).Known k →
      (∃! rowKey, (reached host limit es).Announces k rowKey) ∧
        ∃! entry, (reached host limit es).PointsAt k entry) ∧
    (∀ entry id, (reached host limit es).idempotency.get? entry = some id →
      (reached host limit es).Known ⟨entry.scope, id⟩) ∧
    (∀ rowKey row, (reached host limit es).outbox.get? rowKey = some row →
      (row.publishedAt ≠ none ↔ row.deliveryCount = 1)) ∧
    (∀ es', FreshRun host (reached host limit es) es' →
      ∀ k row, (reached host limit es).submissions.get? k = some row →
        ∃ status, (reached host limit (es ++ es')).submissions.get? k =
          some (row.withStatus status)) ∧
    (∀ env ctx request k prior, request.invalid = none → k.scope = ctx.scopeKey →
      (reached host limit es).idempotency.get?
        (idempotencyTuple ctx request.operation request.idempotencyKey) = some k.id →
      (reached host limit es).submissions.get? k = some prior →
      (Repeats host ctx request prior →
        accept host env ctx request (reached host limit es) =
          ret (prior, false) (reached host limit es)) ∧
      (¬ Repeats host ctx request prior →
        (accept host env ctx request (reached host limit es)).Refused (reached host limit es))) ∧
    (∀ env ctx request, (reached host limit es).idempotency.get?
        (idempotencyTuple ctx request.operation request.idempotencyKey) = none →
      ((reached host limit es).routeState request.executionRoute).status ≠ .active ∨
        (reached host limit es).admissionLimit.any (fun bound =>
          bound ≤ ((reached host limit es).inFlight ctx.tenant.tenantId : Int)) = true ∨
        (∃ given, request.submissionId = some given ∧
          (reached host limit es).submissions.contains (key ctx given) = true) →
      (accept host env ctx request (reached host limit es)).Refused (reached host limit es)) ∧
    ∀ env ctx request, request.invalid ≠ none →
      (accept host env ctx request (reached host limit es)).Refused (reached host limit es) := by
  have hlinked : Linked (reached host limit es) := reached_linked host limit es
  have hledger : Ledger (reached host limit es) := reached_ledger hrun
  refine ⟨fun k hknown => ⟨?_, ?_⟩, ?_, ?_, ?_, ?_, ?_, ?_⟩
  · obtain ⟨rowKey, hrow⟩ := hledger.announced k hknown
    exact ⟨rowKey, hrow, fun other hother => hledger.announcedOnce k other rowKey hother hrow⟩
  · obtain ⟨entry, hentry⟩ := hledger.entered k hknown
    exact ⟨entry, hentry, fun other hother => hledger.enteredOnce k other entry hother hentry⟩
  · exact fun entry id hget => hledger.target ⟨entry.scope, id⟩ entry ⟨hget, rfl⟩
  · intro rowKey row hget
    rcases hledger.delivered rowKey row hget with ⟨hnone, hcount⟩ | ⟨hsome, hcount⟩
    · simp [hnone, hcount]
    · simp [hsome, hcount]
  · intro es' hrun' k row hget
    obtain ⟨status, hlater, -⟩ := run_submissionsAdvance hlinked (reached_lifecycle host limit es)
      hrun' k row hget
    rw [reached_append]
    exact ⟨status, hlater⟩
  · exact fun env ctx request k prior hvalid hscope hentry hget =>
      accept_repeated hlinked hvalid hentry hscope hget
  · exact fun env ctx request hentry hrefused => accept_refused hentry hrefused
  · exact fun env ctx request hinvalid => accept_invalid hinvalid

/-- The submission of `acceptedRun` has one outbox row and one entry. -/
theorem acceptance_ledger_accepted :
    (∃! rowKey, (reached sampleHost none acceptedRun).Announces (key sampleContext "a") rowKey) ∧
      ∃! entry, (reached sampleHost none acceptedRun).PointsAt (key sampleContext "a") entry :=
  (acceptance_ledger sampleHost none acceptedRun (by decide +kernel)).1 (key sampleContext "a")
    (show Dict.contains _ _ = true by decide +kernel)

end Etlantic.ControlPlane.Durable
