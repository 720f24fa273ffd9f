import Etlantic.ControlPlane.Durable.Generations

/-!
# Recovering lost creates

While a dispatch is leased or uncertain, a remote run may exist that no record
names.  Another dispatcher finds out, as long as polling lists the outbox row of
the submission and the dispatch can be claimed (`Recoverable`).

Cancellation knows about the uncertain dispatch only.  A dispatch that is leased
when its submission is cancelled is lost once its dispatcher crashes; so is one
that is claimed again to resolve a cancelled create.
-/

namespace Etlantic.ControlPlane.Durable

/-- The submission completed or failed. -/
def isOver (submission : SubmissionRecord) : Bool :=
  submission.status = .completed || submission.status = .failed

/-- A remote run may exist that the dispatch does not name. -/
def isAmbiguous (record : DispatchRecord) : Bool :=
  record.status = .uncertain || record.status = .leased

/-- Neither the lease nor the retry delay of the dispatch is ahead. -/
def isDue (record : DispatchRecord) (now : Instant) : Bool :=
  !isAhead record.retryAfterAt now && !isAhead record.leaseExpiresAt now

/-- The outbox row of the submission is unpublished; once the dispatch is due polling
lists the row, and any owner may claim the dispatch.  A page of polling is the start
of the one list of rows that are ready. -/
structure Store.Recovers (s : Store) (k : Key) (submission : SubmissionRecord)
    (record : DispatchRecord) : Prop where
  listed : ∃ rowKey row, s.outbox.get? rowKey = some row ∧ rowKey.scope = k.scope ∧
    row.submissionId = k.id ∧ row.publishedAt = none ∧
    ∀ (env : Env) (ctx : ControlPlaneContext), ctx.scopeKey = k.scope →
      isDue record (env.now [0]) = true → ∃ rows : List OutboxRecord, row ∈ rows ∧
        ∀ limit : Int, 1 ≤ limit → limit ≤ 1000 →
          pendingDispatches env ctx submission.executionRoute limit s =
            ret (rows.take limit.toNat) s
  claimed : ∀ (env : Env) (ctx : ControlPlaneContext) ownerId leaseSeconds now,
    ctx.scopeKey = k.scope → isDue record (now.getD (env.now [0])) = true →
    isBlank ownerId = false → ownerId.toList.length ≤ 256 → 1 ≤ leaseSeconds →
    leaseSeconds ≤ 600 → ∃ granted,
      (claimDispatch env ctx k.id ownerId leaseSeconds now s).result = .ok (some granted) ∧
        granted.leaseOwnerId = some ownerId

/-- Every remote create that may have happened without a record can be found out. -/
def Recoverable (s : Store) : Prop :=
  ∀ k submission record, s.submissions.get? k = some submission →
    s.dispatches.get? k = some record → isOver submission = false →
      isAmbiguous record = true → s.Recovers k submission record

/-! ## The steps that strand a create -/

/-- The dispatch of the submission is leased. -/
def Store.isDispatchLeased (s : Store) (k : Key) : Bool :=
  (s.dispatches.get? k).any (fun record => record.status = .leased)

/-- The submission is not over and its dispatch is ambiguous. -/
def Store.hasAmbiguousDispatch (s : Store) (k : Key) : Bool :=
  (s.submissions.get? k).any (fun submission => !isOver submission) &&
    (s.dispatches.get? k).any isAmbiguous

/-- `claim_dispatch` leases the dispatch of a submission that is not `accepted`. -/
def strandsClaim (env : Env) (k : Key) (ownerId : String) (leaseSeconds : Int)
    (now : Option Instant) (s : Store) : Bool :=
  !isBlank ownerId && ownerId.toList.length ≤ 256 && 1 ≤ leaseSeconds && leaseSeconds ≤ 600 &&
    (s.dispatches.get? k).any fun record => (s.submissions.get? k).any fun submission =>
      submission.status ≠ .accepted && !isUnclaimable record submission (now.getD (env.now [0]))

/-- `finish_attempt` cancels a submission whose dispatch is leased. -/
def strandsFinish (env : Env) (ctx : ControlPlaneContext) (attemptId ownerId : String)
    (fencingToken : Int) (text : String) (s : Store) : Bool :=
  (AttemptStatus.ofTerminalText? text).any fun status =>
    (s.attempts.get? (key ctx attemptId)).any fun attempt =>
      (s.submissions.get? (key ctx attempt.submissionId)).any fun submission =>
        attempt.status = .running &&
          (finishFence s submission (key ctx attempt.submissionId) ownerId fencingToken
            (env.now [0])).toBool &&
          (finishStatuses status submission).2 = .cancelled &&
          s.isDispatchLeased (key ctx attempt.submissionId)

/-- The step leaves an ambiguous dispatch that nobody can recover: it leases the
dispatch of a submission that is no longer `accepted`, it cancels a submission
under a leased dispatch, or it acknowledges the outbox row of an ambiguous one. -/
def Event.strands (s : Store) (e : Event) : Bool :=
  match e.call with
  | .claimDispatch ctx submissionId ownerId leaseSeconds now =>
      strandsClaim e.env (key ctx submissionId) ownerId leaseSeconds now s
  | .cancelSubmission ctx submissionId =>
      (s.submissions.get? (key ctx submissionId)).any
        (fun submission => !submission.status.isTerminal) &&
        s.isDispatchLeased (key ctx submissionId)
  | .finishAttempt ctx attemptId ownerId fencingToken text =>
      strandsFinish e.env ctx attemptId ownerId fencingToken text s
  | .markPublished ctx outboxId =>
      (s.outbox.get? (key ctx outboxId)).any fun row =>
        row.publishedAt = none && s.hasAmbiguousDispatch (key ctx row.submissionId)
  | .reconcileTerminalOutbox ctx limit =>
      (terminalRows s ctx.scopeKey limit).any fun entry =>
        s.hasAmbiguousDispatch ⟨ctx.scopeKey, entry.2.submissionId⟩
  | _ => false

/-! ## Invariants -/

/-- No outbox row of the submission is published. -/
def Store.Unpublished (s : Store) (k : Key) : Prop :=
  ∀ rowKey row, s.outbox.get? rowKey = some row → rowKey.scope = k.scope →
    row.submissionId = k.id → row.publishedAt = none

/-- Every outbox row of the submission is published. -/
def Store.Published (s : Store) (k : Key) : Prop :=
  ∀ rowKey row, s.outbox.get? rowKey = some row → rowKey.scope = k.scope →
    row.submissionId = k.id → row.publishedAt ≠ none

/-- A submission moves from `accepted` to `dispatched` with the acknowledgement of its
row, and a dispatch goes to the route of its submission. -/
structure Delivery (s : Store) : Prop where
  accepted : s.submissions.All fun k submission => submission.status = .accepted → s.Unpublished k
  dispatched : s.submissions.All fun k submission =>
    submission.status = .dispatched → s.Published k
  route : s.dispatches.All fun k record => ∀ submission,
    s.submissions.get? k = some submission → record.executionRoute = submission.executionRoute

/-- A leased dispatch belongs to an `accepted` submission, and the row of an uncertain
one is unpublished, unless the submission is over. -/
structure Unstranded (s : Store) : Prop where
  leased : s.dispatches.All fun k record => record.status = .leased → ∀ submission,
    s.submissions.get? k = some submission → isOver submission = false →
      submission.status = .accepted
  uncertain : s.dispatches.All fun k record => record.status = .uncertain → ∀ submission,
    s.submissions.get? k = some submission → isOver submission = false → s.Unpublished k

variable {host : Host} {e : Event} {s₀ s t : Store} {ctx : ControlPlaneContext} {k : Key}

theorem delivery_init (limit : Option Int) : Delivery (Store.init limit) where
  accepted := Dict.all_empty _
  dispatched := Dict.all_empty _
  route := Dict.all_empty _

theorem unstranded_init (limit : Option Int) : Unstranded (Store.init limit) where
  leased := Dict.all_empty _
  uncertain := Dict.all_empty _

/-! ## Every write keeps the delivery -/

theorem AckReason.not_accepted {row : OutboxRecord} (why : AckReason e s₀ s k row)
    {submission : SubmissionRecord}
    (hget : s.submissions.get? ⟨k.scope, row.submissionId⟩ = some submission) :
    submission.status ≠ .accepted := by
  intro haccepted
  cases why with
  | published hcall hscope hs hnot =>
      subst hs
      simp [hget, haccepted] at hnot
  | terminal hcall hscope hrow hget' hterminal hsubmissions hdispatches =>
      obtain rfl := Option.some.inj (hget.symm.trans hget')
      rw [haccepted] at hterminal
      cases hterminal
  | cancelled hget' hcancelled hresolved =>
      obtain rfl := Option.some.inj (hget.symm.trans hget')
      rw [haccepted] at hcancelled
      cases hcancelled

/-- An acknowledged row is published. -/
theorem Store.Published.acknowledge (h : s.Published k) {rowKey : Key} {row : OutboxRecord}
    (at_ : Instant) :
    Store.Published { s with outbox := s.outbox.set rowKey (row.acknowledge at_) } k := by
  intro rowKey' row' hget hscope hid
  rcases Dict.get?_set_eq_some.mp hget with ⟨-, rfl⟩ | ⟨-, hold⟩
  · exact Option.some_ne_none _
  · exact h rowKey' row' hold hscope hid

/-- Acknowledging the row of another submission. -/
theorem Store.Unpublished.acknowledge (h : s.Unpublished k) {rowKey : Key} {row : OutboxRecord}
    (at_ : Instant) (hother : k ≠ ⟨rowKey.scope, row.submissionId⟩) :
    Store.Unpublished { s with outbox := s.outbox.set rowKey (row.acknowledge at_) } k := by
  intro rowKey' row' hget hscope hid
  rcases Dict.get?_set_eq_some.mp hget with ⟨rfl, rfl⟩ | ⟨-, hold⟩
  · refine absurd ?_ hother
    cases k
    simp_all [OutboxRecord.acknowledge]
  · exact h rowKey' row' hold hscope hid

theorem Delivery.acknowledge (h : Delivery s) {rowKey : Key} {row : OutboxRecord} (at_ : Instant)
    (hnot : ∀ submission, s.submissions.get? ⟨rowKey.scope, row.submissionId⟩ = some submission →
      submission.status ≠ .accepted) :
    Delivery { s with outbox := s.outbox.set rowKey (row.acknowledge at_) } where
  accepted := by
    intro k submission hget haccepted
    refine (h.accepted k submission hget haccepted).acknowledge at_ ?_
    rintro rfl
    exact hnot submission hget haccepted
  dispatched := fun k submission hget hdispatched =>
    (h.dispatched k submission hget hdispatched).acknowledge at_
  route := h.route

/-- The submission leaves the statuses before its execution. -/
theorem Delivery.setStatus (h : Delivery s) {row : SubmissionRecord}
    (hget : s.submissions.get? k = some row) {status : SubmissionStatus}
    (hstatus : status.isIneligible = true) :
    Delivery { s with submissions := s.submissions.set k (row.withStatus status) } where
  accepted := by
    refine Dict.All.set h.accepted fun haccepted => ?_
    obtain rfl : status = .accepted := haccepted
    cases hstatus
  dispatched := by
    refine Dict.All.set h.dispatched fun hdispatched => ?_
    obtain rfl : status = .dispatched := hdispatched
    cases hstatus
  route := by
    intro k' record hrecord submission hget'
    rcases Dict.get?_set_eq_some.mp hget' with ⟨rfl, rfl⟩ | ⟨-, hold⟩
    · exact h.route k record hrecord row hget
    · exact h.route k' record hrecord submission hold

/-- The one row of the submission is acknowledged. -/
theorem Delivery.publish (h : Delivery s) (hledger : Ledger s) {rowKey : Key}
    {row : OutboxRecord} {submission : SubmissionRecord} (at_ : Instant)
    (hrow : s.outbox.get? rowKey = some row)
    (hget : s.submissions.get? ⟨rowKey.scope, row.submissionId⟩ = some submission) :
    Delivery { s with
      outbox := s.outbox.set rowKey (row.acknowledge at_)
      submissions := s.submissions.set ⟨rowKey.scope, row.submissionId⟩
        (submission.withStatus .dispatched) } where
  accepted := by
    intro k row' hget' haccepted
    rcases Dict.get?_set_eq_some.mp hget' with ⟨rfl, rfl⟩ | ⟨hne, hold⟩
    · cases haccepted
    · exact (h.accepted k row' hold haccepted).acknowledge at_ hne.symm
  dispatched := by
    intro k row' hget' hdispatched
    rcases Dict.get?_set_eq_some.mp hget' with ⟨rfl, rfl⟩ | ⟨-, hold⟩
    · intro other row' hother hscope hid
      rcases Dict.get?_set_eq_some.mp hother with ⟨-, rfl⟩ | ⟨hne, hold⟩
      · exact Option.some_ne_none _
      · exact absurd (hledger.announcedOnce ⟨rowKey.scope, row.submissionId⟩ rowKey other
          ⟨row, hrow, rfl, rfl⟩ ⟨row', hold, hscope, hid⟩) hne
    · exact (h.dispatched k row' hold hdispatched).acknowledge at_
  route := by
    intro k record hrecord row' hget'
    rcases Dict.get?_set_eq_some.mp hget' with ⟨rfl, rfl⟩ | ⟨-, hold⟩
    · exact h.route _ record hrecord submission hget
    · exact h.route k record hrecord row' hold

theorem Delivery.setDispatch (h : Delivery s) {record record' : DispatchRecord}
    (hget : s.dispatches.get? k = some record)
    (hroute : record'.executionRoute = record.executionRoute) :
    Delivery { s with dispatches := s.dispatches.set k record' } where
  accepted := h.accepted
  dispatched := h.dispatched
  route := Dict.All.set h.route fun submission hsubmission =>
    hroute.trans (h.route k record hget submission hsubmission)

/-- Nothing refers to a submission that is not filed yet. -/
theorem Linked.unannounced (h : Linked s) (hnew : s.submissions.get? k = none) {rowKey : Key}
    {row : OutboxRecord} (hrow : s.outbox.get? rowKey = some row) (hscope : rowKey.scope = k.scope)
    (hid : row.submissionId = k.id) : False := by
  obtain ⟨-, hknown⟩ := h.outbox rowKey row hrow
  rw [hscope, hid] at hknown
  obtain ⟨submission, hget⟩ := hknown.get
  rw [hnew] at hget
  cases hget

theorem Linked.undispatched (h : Linked s) (hnew : s.submissions.get? k = none) :
    s.dispatches.get? k = none := by
  by_contra hsome
  obtain ⟨record, hrecord⟩ := Option.ne_none_iff_exists'.mp hsome
  obtain ⟨submission, hget⟩ := (h.dispatch k record hrecord).2.2.get
  rw [hnew] at hget
  cases hget

/-- A new acceptance files its submission with an unpublished row. -/
theorem unpublished_accept {request : AcceptRequest} {submissionId : String} {env : Env}
    (hold : s.Unpublished k) :
    (insertAcceptance host env ctx request submissionId s).store.Unpublished k := by
  intro rowKey row hget hscope hid
  rcases Dict.get?_set_eq_some.mp hget with ⟨-, rfl⟩ | ⟨-, hget⟩
  · rfl
  · exact hold rowKey row hget hscope hid

theorem Delivery.accept (h : Delivery s) (hlinked : Linked s) {request : AcceptRequest}
    {submissionId : String} {env : Env}
    (hnew : s.submissions.get? (key ctx submissionId) = none) :
    Delivery (insertAcceptance host env ctx request submissionId s).store where
  accepted := by
    intro k submission hget haccepted
    rcases Dict.get?_set_eq_some.mp hget with ⟨rfl, rfl⟩ | ⟨-, hold⟩
    · exact unpublished_accept fun rowKey row hrow hscope hid =>
        (hlinked.unannounced hnew hrow hscope hid).elim
    · exact unpublished_accept (h.accepted k submission hold haccepted)
  dispatched := by
    intro k submission hget hdispatched
    rcases Dict.get?_set_eq_some.mp hget with ⟨rfl, rfl⟩ | ⟨hne, hold⟩
    · cases hdispatched
    · intro rowKey row hrow hscope hid
      rcases Dict.get?_set_eq_some.mp hrow with ⟨rfl, rfl⟩ | ⟨-, hrow⟩
      · exact absurd (key_eq_iff.mpr ⟨hscope, hid⟩).symm hne
      · exact h.dispatched k submission hold hdispatched rowKey row hrow hscope hid
  route := by
    intro k record hrecord submission hget
    rcases Dict.get?_set_eq_some.mp hget with ⟨rfl, rfl⟩ | ⟨-, hold⟩
    · have hnone := hlinked.undispatched hnew
      rw [show s.dispatches.get? _ = _ from hrecord] at hnone
      cases hnone
    · exact h.route k record hrecord submission hold

theorem finishStatuses_ineligible (status : AttemptStatus) (submission : SubmissionRecord) :
    (finishStatuses status submission).2.isIneligible = true := by
  unfold finishStatuses
  split
  · rfl
  · dsimp only
    split <;> rfl

theorem Write.delivery (hfresh : e.Fresh s₀) (hlinked : Linked s) (hledger : Ledger s)
    (hs : Delivery s) (h : Write host e s₀ s t) : Delivery t := by
  cases h with
  | accept hcall hid hnew hidem hvalid hroute hlimit =>
      exact hs.accept hlinked (hfresh.accepted_new hcall hid hnew)
  | publish hcall hscope hrow hunpublished hget haccepted =>
      exact hs.publish hledger _ hrow hget
  | acknowledge at_ hrow hunpublished why =>
      exact hs.acknowledge at_ fun _ hget => why.not_accepted hget
  | requestCancel hcall hscope hget hlive => exact hs.setStatus hget rfl
  | finishAttempt hcall hstatus hk hattempt hrunning hget hfence =>
      rename_i status k attempt submission at_
      have hnext := hs.setStatus hget (finishStatuses_ineligible status submission)
      exact ⟨hnext.accepted, hnext.dispatched, hnext.route⟩
  | cancelSubmission hget hrequested hidle hready => exact hs.setStatus hget rfl
  | cancelDispatch hget hopen => exact hs.setDispatch hget rfl
  | prepareDispatch hcall hget hnew =>
      refine ⟨hs.accepted, hs.dispatched, Dict.All.set hs.route fun submission hsubmission => ?_⟩
      obtain rfl := Option.some.inj (hget.symm.trans hsubmission)
      rfl
  | claimDispatch hcall hscope hrecord hget hclaimable howner hseconds =>
      exact hs.setDispatch hrecord rfl
  | linkDispatch hcall hscope hrecord hleased => exact hs.setDispatch hrecord rfl
  | releaseDispatch hcall hscope hrecord hleased => exact hs.setDispatch hrecord rfl
  | rearmDispatch hcall hrecord hget hdispatched haccepted hunbegun hbound =>
      exact hs.setDispatch hrecord rfl
  | exhaustDispatch hrecord hget hdispatched haccepted => exact hs.setDispatch hrecord rfl
  | rearmReconciled hcall hscope hsucceeded hrecord hget hrequired haccepted hactive hunbegun =>
      exact hs.setDispatch hrecord rfl
  | _ => exact ⟨hs.accepted, hs.dispatched, hs.route⟩

/-! ## Steps that strand nothing -/

theorem key_of_scope (hscope : k.scope = ctx.scopeKey) : key ctx k.id = k :=
  (key_eq_iff.mpr ⟨hscope.symm, rfl⟩).symm

theorem isDispatchLeased_eq_true {record : DispatchRecord}
    (hget : s.dispatches.get? k = some record) (hleased : record.status = .leased) :
    s.isDispatchLeased k = true := by
  simp [Store.isDispatchLeased, hget, hleased]

theorem hasAmbiguousDispatch_eq_true {submission : SubmissionRecord} {record : DispatchRecord}
    (hget : s.submissions.get? k = some submission) (hrecord : s.dispatches.get? k = some record)
    (hlive : isOver submission = false) (hambiguous : isAmbiguous record = true) :
    s.hasAmbiguousDispatch k = true := by
  simp [Store.hasAmbiguousDispatch, hget, hrecord, hlive, hambiguous]

theorem isAmbiguous_of_leased {record : DispatchRecord} (h : record.status = .leased) :
    isAmbiguous record = true := by
  simp [isAmbiguous, h]

theorem isAmbiguous_of_uncertain {record : DispatchRecord} (h : record.status = .uncertain) :
    isAmbiguous record = true := by
  simp [isAmbiguous, h]

theorem isTerminal_of_isOver {submission : SubmissionRecord} (h : isOver submission = true) :
    submission.status.isTerminal = true := by
  unfold isOver at h
  cases hstatus : submission.status <;> first | rfl | simp [hstatus] at h

theorem not_isOver_of_live {submission : SubmissionRecord}
    (h : submission.status.isTerminal = false) : isOver submission = false := by
  by_contra hover
  rw [isTerminal_of_isOver (by simpa using hover)] at h
  cases h

theorem accepted_of_claim (hsafe : e.strands s = false) {ownerId : String}
    {leaseSeconds : Int} {now : Option Instant} {record : DispatchRecord}
    {submission : SubmissionRecord}
    (hcall : e.call = .claimDispatch ctx k.id ownerId leaseSeconds now)
    (hscope : k.scope = ctx.scopeKey) (hrecord : s.dispatches.get? k = some record)
    (hget : s.submissions.get? k = some submission)
    (hclaimable : isUnclaimable record submission (now.getD (e.env.now [0])) = false)
    (howner : ¬ (isBlank ownerId = true ∨ 256 < ownerId.toList.length))
    (hseconds : ¬ (leaseSeconds < 1 ∨ 600 < leaseSeconds)) : submission.status = .accepted := by
  by_contra hother
  push Not at howner hseconds
  unfold Event.strands strandsClaim at hsafe
  rw [hcall] at hsafe
  simp [key_of_scope hscope, hrecord, hget, hclaimable, howner, hseconds, hother] at hsafe

theorem unleased_of_cancel (hsafe : e.strands s = false) {submission : SubmissionRecord}
    (hcall : e.call = .cancelSubmission ctx k.id) (hscope : k.scope = ctx.scopeKey)
    (hget : s.submissions.get? k = some submission)
    (hlive : submission.status.isTerminal = false) : s.isDispatchLeased k = false := by
  unfold Event.strands at hsafe
  rw [hcall] at hsafe
  simpa [key_of_scope hscope, hget, hlive] using hsafe

theorem unleased_of_finish (hsafe : e.strands s = false) {attemptId ownerId text : String}
    {fencingToken : Int} {status : AttemptStatus} {attempt : AttemptRecord}
    {submission : SubmissionRecord}
    (hcall : e.call = .finishAttempt ctx attemptId ownerId fencingToken text)
    (hstatus : AttemptStatus.ofTerminalText? text = some status)
    (hattempt : s.attempts.get? (key ctx attemptId) = some attempt)
    (hrunning : attempt.status = .running)
    (hget : s.submissions.get? (key ctx attempt.submissionId) = some submission)
    (hfence : finishFence s submission (key ctx attempt.submissionId) ownerId fencingToken
      (e.env.now [0]) = .ok ())
    (hcancelled : (finishStatuses status submission).2 = .cancelled) :
    s.isDispatchLeased (key ctx attempt.submissionId) = false := by
  unfold Event.strands strandsFinish at hsafe
  rw [hcall] at hsafe
  simpa [hstatus, hattempt, hrunning, hget, hfence, hcancelled, Except.toBool] using hsafe

theorem unambiguous_of_mark (hsafe : e.strands s = false) {row : OutboxRecord}
    (hcall : e.call = .markPublished ctx k.id) (hscope : k.scope = ctx.scopeKey)
    (hrow : s.outbox.get? k = some row) (hunpublished : row.publishedAt = none) :
    s.hasAmbiguousDispatch ⟨k.scope, row.submissionId⟩ = false := by
  unfold Event.strands at hsafe
  rw [hcall] at hsafe
  dsimp only at hsafe
  rw [key_of_scope hscope, hrow, Option.any_some, hunpublished, key, ← hscope] at hsafe
  simpa using hsafe

theorem unambiguous_of_reconcile (hsafe : e.strands s = false) {limit : Int}
    {row : OutboxRecord} (hcall : e.call = .reconcileTerminalOutbox ctx limit)
    (hscope : k.scope = ctx.scopeKey) (hrow : (k, row) ∈ terminalRows s ctx.scopeKey limit) :
    s.hasAmbiguousDispatch ⟨k.scope, row.submissionId⟩ = false := by
  unfold Event.strands at hsafe
  rw [hcall] at hsafe
  rw [hscope]
  exact Bool.eq_false_iff.mpr (List.any_eq_false.mp hsafe _ hrow)

/-! ## Every such step keeps the creates recoverable -/

/-- The dispatch is no longer ambiguous. -/
theorem Unstranded.settleDispatch (h : Unstranded s) {record : DispatchRecord}
    (hsettled : isAmbiguous record = false) :
    Unstranded { s with dispatches := s.dispatches.set k record } where
  leased := Dict.All.set h.leased fun hleased =>
    absurd (isAmbiguous_of_leased hleased) (by simp [hsettled])
  uncertain := Dict.All.set h.uncertain fun huncertain =>
    absurd (isAmbiguous_of_uncertain huncertain) (by simp [hsettled])

/-- A submission that is not over stays so or ends, and no dispatch of it is leased. -/
theorem Unstranded.setStatus (h : Unstranded s) {row : SubmissionRecord}
    {status : SubmissionStatus} (hget : s.submissions.get? k = some row)
    (hlive : isOver row = false)
    (hunleased : isOver (row.withStatus status) = false → s.isDispatchLeased k = false) :
    Unstranded { s with submissions := s.submissions.set k (row.withStatus status) } where
  leased := by
    intro k' record hrecord hleased submission hget' hover
    rcases Dict.get?_set_eq_some.mp hget' with ⟨rfl, rfl⟩ | ⟨-, hold⟩
    · have htrue : s.isDispatchLeased k = true := isDispatchLeased_eq_true hrecord hleased
      rw [hunleased hover] at htrue
      cases htrue
    · exact h.leased k' record hrecord hleased submission hold hover
  uncertain := by
    intro k' record hrecord huncertain submission hget' hover
    rcases Dict.get?_set_eq_some.mp hget' with ⟨rfl, rfl⟩ | ⟨-, hold⟩
    · exact h.uncertain k record hrecord huncertain row hget hlive
    · exact h.uncertain k' record hrecord huncertain submission hold hover

/-- The row of a submission is acknowledged whose dispatch is not uncertain. -/
theorem Unstranded.acknowledge (h : Unstranded s) {row : OutboxRecord} (at_ : Instant)
    (hcertain : ∀ record, s.dispatches.get? ⟨k.scope, row.submissionId⟩ = some record →
      record.status = .uncertain → ∀ submission,
        s.submissions.get? ⟨k.scope, row.submissionId⟩ = some submission →
          isOver submission = true) :
    Unstranded { s with outbox := s.outbox.set k (row.acknowledge at_) } where
  leased := h.leased
  uncertain := by
    intro k' record hrecord huncertain submission hget hlive
    refine (h.uncertain k' record hrecord huncertain submission hget hlive).acknowledge at_ ?_
    rintro rfl
    rw [hcertain record hrecord huncertain submission hget] at hlive
    cases hlive

theorem AckReason.certain (hsafe : e.strands s₀ = false) (hsound : DispatchSound host s)
    {row : OutboxRecord} (hrow : s.outbox.get? k = some row) (hunpublished : row.publishedAt = none)
    (why : AckReason e s₀ s k row) {record : DispatchRecord}
    (hrecord : s.dispatches.get? ⟨k.scope, row.submissionId⟩ = some record)
    (huncertain : record.status = .uncertain) {submission : SubmissionRecord}
    (hget : s.submissions.get? ⟨k.scope, row.submissionId⟩ = some submission) :
    isOver submission = true := by
  by_contra hlive
  have hlive : isOver submission = false := by simpa using hlive
  have hambiguous : s.hasAmbiguousDispatch ⟨k.scope, row.submissionId⟩ = true :=
    hasAmbiguousDispatch_eq_true hget hrecord hlive (isAmbiguous_of_uncertain huncertain)
  cases why with
  | published hcall hscope hs hnot =>
      subst hs
      rw [unambiguous_of_mark hsafe hcall hscope hrow hunpublished] at hambiguous
      cases hambiguous
  | terminal hcall hscope hmem hget' hterminal hsubmissions hdispatches =>
      have hbefore := unambiguous_of_reconcile hsafe hcall hscope hmem
      unfold Store.hasAmbiguousDispatch at hambiguous hbefore
      rw [hsubmissions, hdispatches, hbefore] at hambiguous
      cases hambiguous
  | cancelled hget' hcancelled hresolved =>
      have hunlinked := hsound.unlinked hrecord (by rw [huncertain]; rfl)
      rcases hresolved record hrecord with hcertain | hlinked
      · exact hcertain huncertain
      · exact hlinked hunlinked

theorem Unstranded.accept (h : Unstranded s) (hlinked : Linked s) {request : AcceptRequest}
    {submissionId : String} {env : Env}
    (hnew : s.submissions.get? (key ctx submissionId) = none) :
    Unstranded (insertAcceptance host env ctx request submissionId s).store where
  leased := by
    intro k record hrecord hleased submission hget hlive
    rcases Dict.get?_set_eq_some.mp hget with ⟨rfl, rfl⟩ | ⟨-, hold⟩
    · rfl
    · exact h.leased k record hrecord hleased submission hold hlive
  uncertain := by
    intro k record hrecord huncertain submission hget hlive
    rcases Dict.get?_set_eq_some.mp hget with ⟨rfl, rfl⟩ | ⟨-, hold⟩
    · have hnone := hlinked.undispatched hnew
      rw [show s.dispatches.get? _ = _ from hrecord] at hnone
      cases hnone
    · exact unpublished_accept (h.uncertain k record hrecord huncertain submission hold hlive)

/-- The running attempt's submission is not over. -/
theorem Lifecycle.live (h : Lifecycle s) {attemptId : String} {attempt : AttemptRecord}
    {submission : SubmissionRecord} (hattempt : s.attempts.get? (key ctx attemptId) = some attempt)
    (hrunning : attempt.status = .running)
    (hget : s.submissions.get? (key ctx attempt.submissionId) = some submission) :
    submission.status.isTerminal = false := by
  by_contra hterminal
  exact h.idle _ submission hget (by simpa using hterminal) _ (runs_of_get hattempt hrunning)

theorem finishStatuses_live {status : AttemptStatus} {submission : SubmissionRecord}
    (h : isOver (submission.withStatus (finishStatuses status submission).2) = false) :
    (finishStatuses status submission).2 = .cancelled := by
  unfold finishStatuses at *
  split at h
  · rename_i hcancelled
    rw [if_pos hcancelled]
  · dsimp only at h
    split at h <;> cases h

theorem Write.unstranded (hfresh : e.Fresh s₀) (hsafe : e.strands s₀ = false)
    (hlinked : Linked s) (hlife : Lifecycle s) (hsound : DispatchSound host s)
    (hdelivery : Delivery s) (hs : Unstranded s) (h : Write host e s₀ s t) : Unstranded t := by
  cases h with
  | accept hcall hid hnew hidem hvalid hroute hlimit =>
      exact hs.accept hlinked (hfresh.accepted_new hcall hid hnew)
  | publish hcall hscope hrow hunpublished hget haccepted =>
      rename_i ctx k row at_ submission
      have hlive : isOver submission = false := by simp [isOver, haccepted]
      have hcertain : ∀ record, s₀.dispatches.get? ⟨k.scope, row.submissionId⟩ = some record →
          isAmbiguous record = false := by
        intro record hrecord
        by_contra hambiguous
        have htrue := hasAmbiguousDispatch_eq_true hget hrecord hlive (by simpa using hambiguous)
        rw [unambiguous_of_mark hsafe hcall hscope hrow hunpublished] at htrue
        cases htrue
      have hacked : Unstranded { s₀ with outbox := s₀.outbox.set k (row.acknowledge at_) } :=
        hs.acknowledge at_ fun record hrecord huncertain _ _ =>
          absurd (isAmbiguous_of_uncertain huncertain) (by simp [hcertain record hrecord])
      refine hacked.setStatus hget hlive fun _ => ?_
      unfold Store.isDispatchLeased
      cases hrecord : s₀.dispatches.get? ⟨k.scope, row.submissionId⟩ with
      | none => rfl
      | some record =>
          have hambiguous := hcertain record hrecord
          by_contra hleased
          rw [isAmbiguous_of_leased (by simpa using hleased)] at hambiguous
          cases hambiguous
  | acknowledge at_ hrow hunpublished why =>
      exact hs.acknowledge at_ fun _ hrecord huncertain _ hget =>
        why.certain hsafe hsound hrow hunpublished hrecord huncertain hget
  | requestCancel hcall hscope hget hlive =>
      exact hs.setStatus hget (not_isOver_of_live hlive) fun _ =>
        unleased_of_cancel hsafe hcall hscope hget hlive
  | finishAttempt hcall hstatus hk hattempt hrunning hget hfence =>
      subst hk
      have hlive := not_isOver_of_live (hlife.live hattempt hrunning hget)
      have hnext := hs.setStatus hget hlive fun hstill =>
        unleased_of_finish hsafe hcall hstatus hattempt hrunning hget hfence
          (finishStatuses_live hstill)
      exact ⟨hnext.leased, hnext.uncertain⟩
  | cancelSubmission hget hrequested hidle hready =>
      rename_i k submission now
      have hlive : isOver submission = false := by simp [isOver, hrequested]
      refine hs.setStatus hget hlive fun _ => ?_
      unfold Store.isDispatchLeased
      cases hrecord : s.dispatches.get? k with
      | none => rfl
      | some record =>
          by_contra hleased
          have haccepted := hs.leased k record hrecord (by simpa using hleased) submission hget hlive
          rw [hrequested] at haccepted
          cases haccepted
  | cancelDispatch hget hopen => exact hs.settleDispatch rfl
  | prepareDispatch hcall hget hnew =>
      refine hs.settleDispatch ?_
      unfold preparedDispatch isAmbiguous
      dsimp only
      split <;> rfl
  | claimDispatch hcall hscope hrecord hget hclaimable howner hseconds =>
      have haccepted :=
        accepted_of_claim hsafe hcall hscope hrecord hget hclaimable howner hseconds
      refine ⟨Dict.All.set hs.leased fun _ submission hsubmission _ => ?_,
        Dict.All.set hs.uncertain fun huncertain => nomatch huncertain⟩
      obtain rfl := Option.some.inj (hget.symm.trans hsubmission)
      exact haccepted
  | linkDispatch hcall hscope hrecord hleased => exact hs.settleDispatch rfl
  | releaseDispatch hcall hscope hrecord hleased =>
      refine ⟨Dict.All.set hs.leased fun hstill => ?_,
        Dict.All.set hs.uncertain fun _ submission hget hlive => ?_⟩
      · unfold releasedDispatch at hstill
        dsimp only at hstill
        split at hstill
        · cases hstill
        · split at hstill <;> cases hstill
      · exact hdelivery.accepted _ submission hget
          (hs.leased _ _ hrecord hleased submission hget hlive)
  | rearmDispatch hcall hrecord hget hdispatched haccepted hunbegun hbound =>
      exact hs.settleDispatch rfl
  | exhaustDispatch hrecord hget hdispatched haccepted => exact hs.settleDispatch rfl
  | rearmReconciled hcall hscope hsucceeded hrecord hget hrequired haccepted hactive hunbegun =>
      exact hs.settleDispatch rfl
  | _ => exact ⟨hs.leased, hs.uncertain⟩

/-! ## Runs -/

theorem reached_delivery {limit : Option Int} {es : List Event}
    (hrun : FreshRun host (Store.init limit) es) : Delivery (reached host limit es) :=
  (run_invariant (I := fun s => Ledger s ∧ Delivery s)
    (fun _ _ _ _ hfresh _ _ hlinked hI hw =>
      ⟨hw.ledger hfresh hlinked hI.1, hw.delivery hfresh hlinked hI.1 hI.2⟩)
    (linked_init limit) ⟨ledger_init limit, delivery_init limit⟩ hrun).2.2

/-- What is known of a store that was reached without stranding a create. -/
structure Deliverable (host : Host) (s : Store) : Prop where
  lifecycle : Lifecycle s
  sound : DispatchSound host s
  ledger : Ledger s
  delivery : Delivery s
  unstranded : Unstranded s

theorem reached_deliverable {limit : Option Int} {es : List Event}
    (hrun : Runs.Guarded (next host) (fun s e => e.Fresh s ∧ e.strands s = false)
      (Store.init limit) es) : Deliverable host (reached host limit es) := by
  refine (run_invariant (I := Deliverable host) (fun e s₀ s t hguard _ _ hlinked hI hw => ?_)
    (linked_init limit) ?_ hrun).2
  · exact {
      lifecycle := hw.lifecycle hI.lifecycle
      sound := hw.dispatchSound hI.sound
      ledger := hw.ledger hguard.1 hlinked hI.ledger
      delivery := hw.delivery hguard.1 hlinked hI.ledger hI.delivery
      unstranded := hw.unstranded hguard.1 hguard.2 hlinked hI.lifecycle hI.sound hI.delivery
        hI.unstranded }
  · exact {
      lifecycle := lifecycle_init limit
      sound := dispatchSound_init limit
      ledger := ledger_init limit
      delivery := delivery_init limit
      unstranded := unstranded_init limit }

/-! ## Recovery -/

theorem mem_unpublishedRows {scope : Scope} {row : OutboxRecord} (hscope : k.scope = scope)
    (hrow : s.outbox.get? k = some row) (hunpublished : row.publishedAt = none) :
    (k, row) ∈ unpublishedRows s scope := by
  unfold unpublishedRows
  rw [List.mem_insertionSort, List.mem_filter]
  exact ⟨Dict.mem_entries_iff.mpr hrow, by simp [hscope, hunpublished]⟩

/-- The rows that are ready for delivery on a route, oldest first. -/
def readyRows (s : Store) (scope : Scope) (route : String) (now : Instant) : List OutboxRecord :=
  ((unpublishedRows s scope).map Prod.snd).filter (isPendingDispatch s scope route now)

theorem pendingDispatches_eq {env : Env} {route : String} {limit : Int}
    (hvalid : isExecutionRoute route = true) (hprefect : isPrefectRoute route = true)
    (hpositive : 1 ≤ limit) (hbound : limit ≤ 1000) :
    pendingDispatches env ctx route limit s =
      ret ((readyRows s ctx.scopeKey route (env.now [0])).take limit.toNat) s := by
  unfold pendingDispatches
  rw [if_neg (by simp [hvalid]), if_neg (by simp [hprefect]), if_neg (by omega)]
  rfl

/-- The dispatch is uncertain, or leased on behalf of an `accepted` submission. -/
def Retained (submission : SubmissionRecord) (record : DispatchRecord) : Prop :=
  record.status = .uncertain ∨ record.status = .leased ∧ submission.status = .accepted

theorem isDue_iff {record : DispatchRecord} {now : Instant} :
    isDue record now = true ↔
      isAhead record.retryAfterAt now = false ∧ isAhead record.leaseExpiresAt now = false := by
  simp [isDue]

theorem isUnclaimable_retained {submission : SubmissionRecord} {record : DispatchRecord}
    {now : Instant} (hlive : isOver submission = false) (hretained : Retained submission record)
    (hdue : isDue record now = true) : isUnclaimable record submission now = false := by
  obtain ⟨hretry, hlease⟩ := isDue_iff.mp hdue
  unfold isOver at hlive
  rcases hretained with huncertain | ⟨hleased, haccepted⟩
  · cases hstatus : submission.status <;>
      simp_all [isUnclaimable, DispatchStatus.isSettled, SubmissionStatus.isIneligible]
  · simp [isUnclaimable, hleased, haccepted, hretry, hlease, DispatchStatus.isSettled,
      SubmissionStatus.isIneligible]

theorem isPendingDispatch_retained {submission : SubmissionRecord} {record : DispatchRecord}
    {row : OutboxRecord} {now : Instant} (hid : row.submissionId = k.id)
    (hget : s.submissions.get? k = some submission) (hrecord : s.dispatches.get? k = some record)
    (hlive : isOver submission = false) (hretained : Retained submission record)
    (hdue : isDue record now = true) :
    isPendingDispatch s k.scope submission.executionRoute now row = true := by
  obtain ⟨hretry, hlease⟩ := isDue_iff.mp hdue
  have hover : ¬ submission.status = .completed ∧ ¬ submission.status = .failed := by
    simpa [isOver] using hlive
  unfold isPendingDispatch
  rw [hid, hget, hrecord]
  rcases hretained with huncertain | ⟨hleased, haccepted⟩
  · simp [huncertain, hretry, hover, DispatchStatus.isSettled]
  · simp [hleased, haccepted, hretry, hlease, DispatchStatus.isSettled]

theorem claimDispatch_retained {submission : SubmissionRecord} {record : DispatchRecord}
    {env : Env} {ownerId : String} {leaseSeconds : Int} {now : Option Instant}
    (hscope : ctx.scopeKey = k.scope) (hget : s.submissions.get? k = some submission)
    (hrecord : s.dispatches.get? k = some record)
    (hclaimable : isUnclaimable record submission (now.getD (env.now [0])) = false)
    (howner : isBlank ownerId = false) (hlength : ownerId.toList.length ≤ 256)
    (hpositive : 1 ≤ leaseSeconds) (hbound : leaseSeconds ≤ 600) :
    (claimDispatch env ctx k.id ownerId leaseSeconds now s).result =
      .ok (some (claimedDispatch record ownerId leaseSeconds (now.getD (env.now [0])))) := by
  unfold claimDispatch
  rw [if_neg (by simp [howner, hlength]), if_neg (by omega)]
  dsimp only
  rw [key_of_scope hscope.symm, hrecord, hget]
  dsimp only
  rw [if_neg (by simp [hclaimable])]
  rfl

theorem Deliverable.recoverable (h : Deliverable host s) : Recoverable s := by
  intro k submission record hget hrecord hlive hambiguous
  have hretained : Retained submission record := by
    simp only [isAmbiguous, Bool.or_eq_true, decide_eq_true_eq] at hambiguous
    refine hambiguous.imp_right fun hleased => ⟨hleased, ?_⟩
    exact h.unstranded.leased k record hrecord hleased submission hget hlive
  have hunpublished : s.Unpublished k := by
    rcases hretained with huncertain | ⟨-, haccepted⟩
    · exact h.unstranded.uncertain k record hrecord huncertain submission hget hlive
    · exact h.delivery.accepted k submission hget haccepted
  obtain ⟨rowKey, row, hrow, hscope, hid⟩ := h.ledger.announced k (Store.known_of_get? hget)
  have hnone := hunpublished rowKey row hrow hscope hid
  have hroute := h.delivery.route k record hrecord submission hget
  constructor
  · refine ⟨rowKey, row, hrow, hscope, hid, hnone, fun env ctx hctx hdue =>
      ⟨readyRows s ctx.scopeKey submission.executionRoute (env.now [0]), ?_, ?_⟩⟩
    · refine List.mem_filter.mpr ⟨List.mem_map.mpr ⟨(rowKey, row), ?_, rfl⟩, ?_⟩
      · exact mem_unpublishedRows (hscope.trans hctx.symm) hrow hnone
      · rw [hctx]
        exact isPendingDispatch_retained hid hget hrecord hlive hretained hdue
    · intro limit hpositive hbound
      exact pendingDispatches_eq (hroute ▸ record.routeValid) (hroute ▸ record.routePrefect)
        hpositive hbound
  · intro env ctx ownerId leaseSeconds now hctx hdue howner hlength hpositive hbound
    exact ⟨_, claimDispatch_retained hctx hget hrecord
      (isUnclaimable_retained hlive hretained hdue) howner hlength hpositive hbound, rfl⟩

/-! ## What a stranding step leaves behind -/

/-- An instant past both the retry delay and the lease. -/
def dueAt (record : DispatchRecord) : Instant :=
  max (record.retryAfterAt.getD 0) (record.leaseExpiresAt.getD 0)

theorem isAhead_eq_false {at_ : Option Instant} {now : Instant} (h : at_.getD 0 ≤ now) :
    isAhead at_ now = false := by
  cases at_ with
  | none => rfl
  | some t => simpa [isAhead] using h

theorem isDue_dueAt (record : DispatchRecord) : isDue record (dueAt record) = true :=
  isDue_iff.mpr ⟨isAhead_eq_false (le_max_left _ _), isAhead_eq_false (le_max_right _ _)⟩

/-- Once every row is published polling finds none. -/
theorem unrecovered_of_published {submission : SubmissionRecord} {record : DispatchRecord}
    (h : s.Published k) : ¬ s.Recovers k submission record := by
  rintro ⟨⟨rowKey, row, hrow, hscope, hid, hnone, -⟩, -⟩
  exact h rowKey row hrow hscope hid hnone

/-- Under a cancelled submission a leased dispatch is never claimed again. -/
theorem unrecovered_of_cancelled {submission : SubmissionRecord} {record : DispatchRecord}
    (env : Env) (hctx : ctx.scopeKey = k.scope) (hget : s.submissions.get? k = some submission)
    (hrecord : s.dispatches.get? k = some record) (hleased : record.status = .leased)
    (hcancelled : submission.status = .cancelRequested ∨ submission.status = .cancelled) :
    ¬ s.Recovers k submission record := by
  rintro ⟨-, hclaimed⟩
  obtain ⟨granted, hgranted, -⟩ := hclaimed env ctx "dispatcher" 60 (some (dueAt record)) hctx
    (isDue_dueAt record) (by decide) (by decide) (by decide) (by decide)
  have hunclaimable : isUnclaimable record submission (dueAt record) = true := by
    rcases hcancelled with hstatus | hstatus <;>
      simp [isUnclaimable, hleased, hstatus, SubmissionStatus.isIneligible]
  unfold claimDispatch at hgranted
  rw [if_neg (by decide), if_neg (by decide)] at hgranted
  dsimp only at hgranted
  rw [key_of_scope hctx.symm, hrecord, hget] at hgranted
  simp [hunclaimable] at hgranted

/-- A published row of a submission is its only one. -/
theorem Ledger.published (h : Ledger s) {rowKey : Key} {row : OutboxRecord}
    (hrow : s.outbox.get? rowKey = some row) (hpublished : row.publishedAt ≠ none) :
    s.Published ⟨rowKey.scope, row.submissionId⟩ := by
  intro other row' hother hscope hid
  obtain rfl := h.announcedOnce ⟨rowKey.scope, row.submissionId⟩ rowKey other
    ⟨row, hrow, rfl, rfl⟩ ⟨row', hother, hscope, hid⟩
  obtain rfl := Option.some.inj (hrow.symm.trans hother)
  exact hpublished

theorem hasAmbiguousDispatch_iff :
    s.hasAmbiguousDispatch k = true ↔ ∃ submission record,
      s.submissions.get? k = some submission ∧ s.dispatches.get? k = some record ∧
        isOver submission = false ∧ isAmbiguous record = true := by
  unfold Store.hasAmbiguousDispatch
  cases s.submissions.get? k <;> cases s.dispatches.get? k <;> simp

theorem isDispatchLeased_iff :
    s.isDispatchLeased k = true ↔
      ∃ record, s.dispatches.get? k = some record ∧ record.status = .leased := by
  unfold Store.isDispatchLeased
  cases s.dispatches.get? k <;> simp

theorem cancelSubmission_store (env : Env) {submissionId : String} {submission : SubmissionRecord}
    (hget : s.submissions.get? (key ctx submissionId) = some submission)
    (hlive : submission.status.isTerminal = false) :
    (cancelSubmission env ctx submissionId s).store.submissions.get? (key ctx submissionId) =
        some (submission.withStatus .cancelRequested) ∧
      (cancelSubmission env ctx submissionId s).store.dispatches = s.dispatches := by
  have hrequest : (requestCancellation (key ctx submissionId) submission s).submissions.get?
        (key ctx submissionId) = some (submission.withStatus .cancelRequested) ∧
      (requestCancellation (key ctx submissionId) submission s).dispatches = s.dispatches := by
    unfold requestCancellation
    split
    · rename_i hstatus
      refine ⟨hget.trans ?_, rfl⟩
      rw [SubmissionRecord.withStatus, ← hstatus]
    · exact ⟨Dict.get?_set_self _ _ _, rfl⟩
  unfold cancelSubmission
  dsimp only
  rw [hget]
  dsimp only
  rw [if_neg (by simp [hlive])]
  split
  · exact hrequest
  · split
    · exact hrequest
    · exact hrequest

/-- Nothing but the outbox rows under these keys is written. -/
structure WritesRows (rows : List (Key × OutboxRecord)) (s t : Store) : Prop where
  submissions : t.submissions = s.submissions
  dispatches : t.dispatches = s.dispatches
  outbox : ∀ k, k ∉ rows.map Prod.fst → t.outbox.get? k = s.outbox.get? k

theorem WritesRows.cons {entry : Key × OutboxRecord} {rest : List (Key × OutboxRecord)}
    (h : WritesRows rest s t) : WritesRows (entry :: rest) s t :=
  { h with outbox := fun k hk => h.outbox k fun hmem => hk (List.mem_cons_of_mem _ hmem) }

theorem reconcileTerminalRows_writesRows (env : Env) (scope : Scope) (limit : Int) :
    ∀ (rows : List (Key × OutboxRecord)) (done : List OutboxRecord) (s : Store),
      WritesRows rows s (reconcileTerminalRows env scope limit rows done s).2
  | [], _, _ => ⟨rfl, rfl, fun _ _ => rfl⟩
  | (k, row) :: rest, done, s => by
      unfold reconcileTerminalRows
      split
      · exact ⟨rfl, rfl, fun _ _ => rfl⟩
      · split
        · exact (reconcileTerminalRows_writesRows env scope limit rest done s).cons
        · split
          · exact (reconcileTerminalRows_writesRows env scope limit rest done s).cons
          · obtain ⟨hsubmissions, hdispatches, houtbox⟩ := reconcileTerminalRows_writesRows
              env scope limit rest
              (done ++ [row.acknowledge (env.now [done.length])])
              { s with outbox := s.outbox.set k (row.acknowledge (env.now [done.length])) }
            refine ⟨hsubmissions, hdispatches, fun k' hk' => ?_⟩
            rw [List.map_cons, List.mem_cons, not_or] at hk'
            exact (houtbox k' hk'.2).trans (Dict.get?_set_ne _ _ (Ne.symm hk'.1))

/-- The terminal rows within the limit are acknowledged. -/
theorem reconcileTerminalRows_acknowledges (env : Env) (scope : Scope) (limit : Int) (s₀ : Store) :
    ∀ (rows : List (Key × OutboxRecord)) (done : List OutboxRecord) (s : Store),
      s.submissions = s₀.submissions → (rows.map Prod.fst).Nodup → ∀ k row,
      (k, row) ∈ (rows.filter (isTerminalRow s₀ scope)).take (limit.toNat - done.length) →
        ∃ at_, (reconcileTerminalRows env scope limit rows done s).2.outbox.get? k =
          some (row.acknowledge at_)
  | [], _, _, _, _, _, _, hmem => by simp at hmem
  | (k', row') :: rest, done, s, hsame, hnodup, k, row, hmem => by
      have hnodup' := List.nodup_cons.mp hnodup
      have hskip := fun hother : isTerminalRow s₀ scope (k', row') = false =>
        reconcileTerminalRows_acknowledges env scope limit s₀ rest done s hsame hnodup'.2 k row
          (by rwa [List.filter_cons_of_neg (by simp [hother])] at hmem)
      unfold reconcileTerminalRows
      split
      · rename_i hlimit
        rw [show limit.toNat - done.length = 0 by omega] at hmem
        cases hmem
      · rename_i hlimit
        split
        · rename_i hmissing
          exact hskip (by simp [isTerminalRow, ← hsame, hmissing])
        · rename_i submission hget
          split
          · rename_i hlive
            exact hskip (by simp [isTerminalRow, ← hsame, hget, hlive])
          · rename_i hterminal
            have hmine : isTerminalRow s₀ scope (k', row') = true := by
              simpa [isTerminalRow, ← hsame, hget] using hterminal
            obtain ⟨budget, hbudget⟩ : ∃ n, limit.toNat - done.length = n + 1 :=
              ⟨limit.toNat - done.length - 1, by omega⟩
            rw [List.filter_cons_of_pos hmine, hbudget, List.take_succ_cons] at hmem
            dsimp only
            rcases List.mem_cons.mp hmem with heq | hmem
            · obtain ⟨rfl, rfl⟩ := Prod.mk.injEq _ _ _ _ ▸ heq
              refine ⟨env.now [done.length], ?_⟩
              rw [(reconcileTerminalRows_writesRows env scope limit rest _ _).outbox k hnodup'.1]
              exact Dict.get?_set_self _ _ _
            · have hrest := reconcileTerminalRows_acknowledges env scope limit s₀ rest
                (done ++ [row'.acknowledge (env.now [done.length])])
                { s with outbox := s.outbox.set k' (row'.acknowledge (env.now [done.length])) }
                hsame hnodup'.2 k row
              rw [List.length_append, List.length_singleton, ← Nat.sub_sub, hbudget,
                Nat.add_sub_cancel] at hrest
              exact hrest hmem

theorem reconcileTerminalOutbox_acknowledges (env : Env) {limit : Int} {row : OutboxRecord}
    (hmem : (k, row) ∈ terminalRows s ctx.scopeKey limit) :
    ∃ at_, (reconcileTerminalOutbox env ctx limit s).store.outbox.get? k =
      some (row.acknowledge at_) :=
  reconcileTerminalRows_acknowledges _ _ _ s _ _ s rfl (unpublishedRows_nodup _) k row hmem

theorem claim_strands {env : Env} {submissionId ownerId : String} {leaseSeconds : Int}
    {now : Option Instant} (hdelivery : Delivery s)
    (h : strandsClaim env (key ctx submissionId) ownerId leaseSeconds now s = true) :
    ¬ Recoverable (claimDispatch env ctx submissionId ownerId leaseSeconds now s).store := by
  intro hrecoverable
  simp only [strandsClaim, Bool.and_eq_true, Option.any_eq_true, Bool.not_eq_true',
    decide_eq_true_eq] at h
  obtain ⟨⟨⟨⟨howner, hlength⟩, hpositive⟩, hbound⟩, record, hrecord, submission, hget, hother,
    hclaimable⟩ := h
  have hnext : (claimDispatch env ctx submissionId ownerId leaseSeconds now s).store = { s with
      dispatches := s.dispatches.set (key ctx submissionId)
        (claimedDispatch record ownerId leaseSeconds (now.getD (env.now [0]))) } := by
    unfold claimDispatch
    rw [if_neg (by simp [howner, hlength]), if_neg (by omega)]
    dsimp only
    rw [hrecord, hget]
    dsimp only
    rw [if_neg (by simp [hclaimable])]
    rfl
  rw [hnext] at hrecoverable
  have hrecovers := hrecoverable (key ctx submissionId) submission _ hget
    (Dict.get?_set_self _ _ _)
  cases hstatus : submission.status with
  | accepted => exact hother hstatus
  | dispatched =>
      refine unrecovered_of_published ?_ (hrecovers (by simp [isOver, hstatus]) rfl)
      exact hdelivery.dispatched _ submission hget hstatus
  | cancelRequested =>
      exact absurd (hrecovers (by simp [isOver, hstatus]) rfl) (unrecovered_of_cancelled env rfl
        hget (Dict.get?_set_self _ _ _) rfl (.inl hstatus))
  | cancelled =>
      exact absurd (hrecovers (by simp [isOver, hstatus]) rfl) (unrecovered_of_cancelled env rfl
        hget (Dict.get?_set_self _ _ _) rfl (.inr hstatus))
  | completed => simp [isUnclaimable, hstatus, SubmissionStatus.isIneligible] at hclaimable
  | failed => simp [isUnclaimable, hstatus, SubmissionStatus.isIneligible] at hclaimable

theorem cancel_strands {env : Env} {submissionId : String} {submission : SubmissionRecord}
    (hget : s.submissions.get? (key ctx submissionId) = some submission)
    (hlive : submission.status.isTerminal = false)
    (hleased : s.isDispatchLeased (key ctx submissionId) = true) :
    ¬ Recoverable (cancelSubmission env ctx submissionId s).store := by
  intro hrecoverable
  obtain ⟨hcancelled, hdispatches⟩ := cancelSubmission_store env hget hlive
  obtain ⟨record, hrecord, hstatus⟩ := isDispatchLeased_iff.mp hleased
  rw [← hdispatches] at hrecord
  exact unrecovered_of_cancelled env rfl hcancelled hrecord hstatus (.inl rfl)
    (hrecoverable _ _ record hcancelled hrecord rfl (isAmbiguous_of_leased hstatus))

theorem finish_strands {env : Env} {attemptId ownerId text : String} {fencingToken : Int}
    (h : strandsFinish env ctx attemptId ownerId fencingToken text s = true) :
    ¬ Recoverable (finishAttempt env ctx attemptId ownerId fencingToken text s).store := by
  intro hrecoverable
  simp only [strandsFinish, Option.any_eq_true, Bool.and_eq_true, decide_eq_true_eq] at h
  obtain ⟨status, hstatus, attempt, hattempt, submission, hget, ⟨⟨hrunning, hfence⟩, hcancelled⟩,
    hleased⟩ := h
  obtain ⟨record, hrecord, hrecordStatus⟩ := isDispatchLeased_iff.mp hleased
  have hnext : (finishAttempt env ctx attemptId ownerId fencingToken text s).store = { s with
      attempts := s.attempts.set (key ctx attemptId)
        (attempt.finish (finishStatuses status submission).1 (env.now [1]))
      submissions := s.submissions.set (key ctx attempt.submissionId)
        (submission.withStatus .cancelled) } := by
    unfold finishAttempt
    rw [hstatus]
    dsimp only
    rw [hattempt]
    dsimp only
    rw [hget]
    dsimp only
    cases hallowed : finishFence s submission (key ctx attempt.submissionId) ownerId fencingToken
        (env.now [0]) with
    | error error => simp [hallowed, Except.toBool] at hfence
    | ok _ =>
        dsimp only
        rw [if_neg (by simp [hrunning]), hcancelled]
        rfl
  rw [hnext] at hrecoverable
  refine absurd (hrecoverable (key ctx attempt.submissionId) _ record (Dict.get?_set_self _ _ _)
    hrecord rfl (isAmbiguous_of_leased hrecordStatus)) ?_
  exact unrecovered_of_cancelled env rfl (Dict.get?_set_self _ _ _) hrecord hrecordStatus (.inr rfl)

/-- Acknowledging the row of an ambiguous dispatch. -/
theorem acknowledge_strands {row : OutboxRecord} {at_ : Instant}
    (hledger : Ledger t) (hrow : t.outbox.get? k = some (row.acknowledge at_))
    (hambiguous : t.hasAmbiguousDispatch ⟨k.scope, row.submissionId⟩ = true) : ¬ Recoverable t := by
  intro hrecoverable
  obtain ⟨submission, record, hget, hrecord, hlive, hopen⟩ := hasAmbiguousDispatch_iff.mp hambiguous
  exact unrecovered_of_published (hledger.published hrow (Option.some_ne_none _))
    (hrecoverable _ submission record hget hrecord hlive hopen)

theorem mark_strands {env : Env} {outboxId : String} {row : OutboxRecord}
    (hledger : Ledger (markPublished env ctx outboxId s).store)
    (hrow : s.outbox.get? (key ctx outboxId) = some row) (hunpublished : row.publishedAt = none)
    (hambiguous : s.hasAmbiguousDispatch (key ctx row.submissionId) = true) :
    ¬ Recoverable (markPublished env ctx outboxId s).store := by
  obtain ⟨submission, record, hget, hrecord, hlive, hopen⟩ := hasAmbiguousDispatch_iff.mp hambiguous
  obtain ⟨status, hnext, hstill⟩ : ∃ status, (markPublished env ctx outboxId s).store = { s with
      outbox := s.outbox.set (key ctx outboxId) (row.acknowledge (env.now [0]))
      submissions := (markPublished env ctx outboxId s).store.submissions } ∧
      (markPublished env ctx outboxId s).store.submissions.get? (key ctx row.submissionId) =
        some (submission.withStatus status) ∧ isOver (submission.withStatus status) = false := by
    unfold markPublished
    rw [hrow]
    dsimp only
    rw [if_neg (by simp [hunpublished])]
    rw [show (row.acknowledge (env.now [0])).submissionId = row.submissionId from rfl, hget]
    dsimp only
    split
    · exact ⟨.dispatched, rfl, Dict.get?_set_self _ _ _, rfl⟩
    · exact ⟨submission.status, rfl, hget, hlive⟩
  have hacked : (markPublished env ctx outboxId s).store.outbox.get? (key ctx outboxId) =
      some (row.acknowledge (env.now [0])) := by
    rw [hnext]
    exact Dict.get?_set_self _ _ _
  refine acknowledge_strands hledger hacked (hasAmbiguousDispatch_eq_true hstill.1 ?_ hstill.2 hopen)
  rw [hnext]
  exact hrecord

theorem reconcile_strands {env : Env} {limit : Int} {row : OutboxRecord}
    (hledger : Ledger (reconcileTerminalOutbox env ctx limit s).store)
    (hmem : (k, row) ∈ terminalRows s ctx.scopeKey limit)
    (hambiguous : s.hasAmbiguousDispatch ⟨ctx.scopeKey, row.submissionId⟩ = true) :
    ¬ Recoverable (reconcileTerminalOutbox env ctx limit s).store := by
  obtain ⟨at_, hacked⟩ := reconcileTerminalOutbox_acknowledges env hmem
  have hscope : k.scope = ctx.scopeKey :=
    (unpublishedRows_mem (List.mem_filter.mp (List.mem_of_mem_take hmem)).1).1
  have hframe := reconcileTerminalRows_writesRows env ctx.scopeKey limit
    (unpublishedRows s ctx.scopeKey) [] s
  have hsubmissions : (reconcileTerminalOutbox env ctx limit s).store.submissions = s.submissions :=
    hframe.submissions
  have hdispatches : (reconcileTerminalOutbox env ctx limit s).store.dispatches = s.dispatches :=
    hframe.dispatches
  refine acknowledge_strands hledger hacked ?_
  unfold Store.hasAmbiguousDispatch at hambiguous ⊢
  rw [hscope, hsubmissions, hdispatches]
  exact hambiguous

theorem Event.strands_unrecoverable (hledger : Ledger (next host s e)) (hdelivery : Delivery s)
    (h : e.strands s = true) : ¬ Recoverable (next host s e) := by
  unfold next Event.outcome at hledger ⊢
  unfold Event.strands at h
  split at h
  · rename_i hcall
    rw [hcall]
    exact claim_strands hdelivery h
  · rename_i hcall
    rw [hcall]
    simp only [Bool.and_eq_true, Option.any_eq_true, Bool.not_eq_true'] at h
    obtain ⟨⟨submission, hget, hlive⟩, hleased⟩ := h
    exact cancel_strands hget hlive hleased
  · rename_i hcall
    rw [hcall]
    exact finish_strands h
  · rename_i hcall
    rw [hcall] at hledger ⊢
    simp only [Option.any_eq_true, Bool.and_eq_true, decide_eq_true_eq] at h
    obtain ⟨row, hrow, hunpublished, hambiguous⟩ := h
    exact mark_strands hledger hrow hunpublished hambiguous
  · rename_i hcall
    rw [hcall] at hledger ⊢
    obtain ⟨⟨k, row⟩, hmem, hambiguous⟩ := List.any_eq_true.mp h
    exact reconcile_strands hledger hmem hambiguous
  · cases h

section Sample

/-- The dispatch is leased for a minute when the cancellation arrives. -/
def cancelledUnderLease : List Event :=
  [⟨sampleEnv 'c' 2, .claimDispatch sampleContext "a" "dispatcher" 60 none⟩,
    ⟨sampleEnv 'd' 3, .cancelSubmission sampleContext "a"⟩]

/-- The dispatcher gives the create up as uncertain before the cancellation. -/
def cancelledWhileUncertain : List Event :=
  [⟨sampleEnv 'c' 2, .claimDispatch sampleContext "a" "dispatcher" 60 none⟩,
    ⟨sampleEnv 'd' 3, .releaseDispatch sampleContext "a" "dispatcher" 1 true false none none⟩,
    ⟨sampleEnv 'e' 4, .cancelSubmission sampleContext "a"⟩]

/-- A cancellation under a dispatch lease strands the create. -/
theorem cancelled_under_lease_stranded :
    FreshRun sampleHost (Store.init none)
      (preparedRun sampleEnvelope samplePlanSha256 ++ cancelledUnderLease) ∧
    ¬ Recoverable (reached sampleHost none
      (preparedRun sampleEnvelope samplePlanSha256 ++ cancelledUnderLease)) := by
  refine ⟨by decide, fun hrecoverable => ?_⟩
  rw [reached_append, reached_preparedRun sampleEnvelope_valid] at hrecoverable
  have hsubmission : ((run sampleHost (preparedStore sampleHost sampleEnvelope samplePlanSha256)
      cancelledUnderLease).submissions.get? (key sampleContext "a")).map SubmissionRecord.status =
        some .cancelRequested := by
    decide
  have hdispatch : ((run sampleHost (preparedStore sampleHost sampleEnvelope samplePlanSha256)
      cancelledUnderLease).dispatches.get? (key sampleContext "a")).map DispatchRecord.status =
        some .leased := by
    decide
  obtain ⟨submission, hget, hrequested⟩ := Option.map_eq_some_iff.mp hsubmission
  obtain ⟨record, hrecord, hleased⟩ := Option.map_eq_some_iff.mp hdispatch
  exact unrecovered_of_cancelled (sampleEnv 'e' 3600) rfl hget hrecord hleased (.inl hrequested)
    (hrecoverable _ submission record hget hrecord (by simp [isOver, hrequested])
      (isAmbiguous_of_leased hleased))

end Sample

/-- Every store that a run reaches keeps its creates recoverable exactly when no step
of the run strands one. -/
theorem creates_recoverable_iff (host : Host) (limit : Option Int) (es : List Event)
    (hfresh : FreshRun host (Store.init limit) es) :
    (∀ before after, es = before ++ after → Recoverable (reached host limit before)) ↔
      Runs.Guarded (next host) (fun s e => e.strands s = false) (Store.init limit) es := by
  constructor
  · intro hrecoverable
    refine Runs.guarded_iff.mpr fun before e after hes => ?_
    subst hes
    by_contra hstrands
    have hsplit : before ++ e :: after = before ++ [e] ++ after := by simp
    have hledger : Ledger (reached host limit (before ++ [e])) :=
      reached_ledger (Runs.Guarded.left (hsplit ▸ hfresh))
    have hafter := hrecoverable (before ++ [e]) after hsplit
    rw [reached_append] at hledger hafter
    exact Event.strands_unrecoverable hledger (reached_delivery hfresh.left)
      (by simpa using hstrands) hafter
  · rintro hsafe before after rfl
    exact (reached_deliverable (hfresh.left.and hsafe.left)).recoverable

/-- A create that was given up as uncertain survives the cancellation. -/
theorem creates_recoverable_uncertain :
    Recoverable (reached sampleHost none
      (preparedRun sampleEnvelope samplePlanSha256 ++ cancelledWhileUncertain)) := by
  refine (creates_recoverable_iff sampleHost none _ (by decide)).mpr
    ((Runs.guarded_append _ _ _).mpr ⟨by decide, ?_⟩) _ [] (List.append_nil _).symm
  rw [show Runs.run (next sampleHost) (Store.init none)
    (preparedRun sampleEnvelope samplePlanSha256) = _ from reached_preparedRun sampleEnvelope_valid]
  decide

end Etlantic.ControlPlane.Durable
