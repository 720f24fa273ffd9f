import Etlantic.ControlPlane.Durable.RouteLifecycle

/-!
# Draining a route

The workload of a route is looked at when the route retires, and then never
again.  Its submissions are terminal from there on, so no attempt starts, no
dispatch reopens and no outbox row is added (`Settled`).  Effects and result
publications may still be recorded for terminal submissions.
-/

namespace Etlantic.ControlPlane.Durable

/-- The route was retired. -/
def isRetired (status : ExecutionRouteLifecycle) : Bool := status = .retired || isCleaning status

/-- The submissions of the route are terminal and delivered. -/
structure Store.Settled (s : Store) (route : String) : Prop where
  submission : s.submissions.All fun _ row =>
    row.executionRoute = route → row.status.isTerminal = true
  dispatch : s.dispatches.All fun k record => s.onRoute route k = true →
    record.status = .dispatched ∨ record.status = .cancelled
  outbox : s.outbox.All fun k row =>
    s.onRoute route ⟨k.scope, row.submissionId⟩ = true → row.publishedAt ≠ none

/-- The effects of the route are resolved and its results published. -/
structure Store.Resolved (s : Store) (route : String) : Prop where
  effect : s.effects.All fun k row => s.onRoute route ⟨k.scope, row.submissionId⟩ = true →
    row.status ≠ .pending ∧ row.status ≠ .unknown
  publication : s.resultPublications.All fun k row =>
    s.onRoute route ⟨k.scope, row.submissionId⟩ = true → row.publishedAt ≠ none

/-- The call records an effect or a result publication. -/
def Call.recordsOutcome : Call → Bool
  | .recordEffect .. | .recordAttemptEffect .. | .recordResultPublication .. => true
  | _ => false

variable {host : Host} {e : Event} {s₀ s t : Store} {ctx : ControlPlaneContext} {route : String}
  {k : Key}

theorem onRoute_iff :
    s.onRoute route k = true ↔
      ∃ row, s.submissions.get? k = some row ∧ row.executionRoute = route := by
  unfold Store.onRoute
  cases s.submissions.get? k <;> simp

/-- A new status keeps the submission on its route. -/
theorem onRoute_setStatus {row : SubmissionRecord} {status : SubmissionStatus} {k' : Key}
    (hget : s.submissions.get? k' = some row) :
    Store.onRoute { s with submissions := s.submissions.set k' (row.withStatus status) } route k =
      s.onRoute route k := by
  unfold Store.onRoute
  rw [Dict.get?_set]
  split
  · rename_i hk
    rw [← hk, hget]
    rfl
  · rfl

/-- A submission accepted elsewhere is not on the route. -/
theorem onRoute_accept {request : AcceptRequest} {submissionId : String} {env : Env}
    (hother : request.executionRoute ≠ route)
    (h : (insertAcceptance host env ctx request submissionId s).store.onRoute route k = true) :
    k ≠ key ctx submissionId ∧ s.onRoute route k = true := by
  obtain ⟨row, hget, hroute⟩ := onRoute_iff.mp h
  rcases Dict.get?_set_eq_some.mp hget with ⟨-, rfl⟩ | ⟨hne, hold⟩
  · exact absurd hroute hother
  · exact ⟨hne.symm, onRoute_iff.mpr ⟨row, hold, hroute⟩⟩

/-! ## Workload -/

theorem SubmissionStatus.isNonTerminal_eq_false {status : SubmissionStatus} :
    status.isNonTerminal = false ↔ status.isTerminal = true := by
  cases status <;> simp [SubmissionStatus.isNonTerminal, SubmissionStatus.isTerminal]

theorem activeSubmissions_eq_zero :
    (s.executionRouteWorkload route).activeSubmissions = 0 ↔ s.submissions.All fun _ row =>
      row.executionRoute = route → row.status.isTerminal = true := by
  rw [Store.executionRouteWorkload, Dict.count_and_eq_zero]
  simp only [decide_eq_true_eq, SubmissionStatus.isNonTerminal_eq_false]

theorem activeAttempts_eq_zero :
    (s.executionRouteWorkload route).activeAttempts = 0 ↔ s.attempts.All fun k row =>
      s.onRoute route ⟨k.scope, row.submissionId⟩ = true → row.status ≠ .running := by
  rw [Store.executionRouteWorkload, Dict.count_and_eq_zero]
  simp only [decide_eq_false_iff_not, ne_eq]

theorem incompleteDispatches_eq_zero :
    (s.executionRouteWorkload route).incompleteDispatches = 0 ↔ s.dispatches.All fun k record =>
      s.onRoute route k = true → record.status = .dispatched ∨ record.status = .cancelled := by
  rw [Store.executionRouteWorkload, Dict.count_and_eq_zero]
  simp only [Bool.not_eq_false', Bool.or_eq_true, decide_eq_true_eq]

theorem unresolvedEffects_eq_zero :
    (s.executionRouteWorkload route).unresolvedEffects = 0 ↔ s.effects.All fun k row =>
      s.onRoute route ⟨k.scope, row.submissionId⟩ = true →
        row.status ≠ .pending ∧ row.status ≠ .unknown := by
  rw [Store.executionRouteWorkload, Dict.count_and_eq_zero]
  simp only [Bool.or_eq_false_iff, decide_eq_false_iff_not, ne_eq]

theorem pendingPublications_eq_zero :
    (s.executionRouteWorkload route).pendingPublications = 0 ↔
      s.resultPublications.All fun k row =>
        s.onRoute route ⟨k.scope, row.submissionId⟩ = true → row.publishedAt ≠ none := by
  rw [Store.executionRouteWorkload, Dict.count_and_eq_zero]
  simp only [decide_eq_false_iff_not, ne_eq]

theorem unpublishedOutboxes_eq_zero :
    (s.executionRouteWorkload route).unpublishedOutboxes = 0 ↔ s.outbox.All fun k row =>
      s.onRoute route ⟨k.scope, row.submissionId⟩ = true → row.publishedAt ≠ none := by
  rw [Store.executionRouteWorkload, Dict.count_and_eq_zero]
  simp only [decide_eq_false_iff_not, ne_eq]

theorem drained_iff {w : ExecutionRouteWorkload} :
    w.drained = true ↔ w.activeSubmissions = 0 ∧ w.activeAttempts = 0 ∧
      w.incompleteDispatches = 0 ∧ w.unresolvedEffects = 0 ∧ w.pendingPublications = 0 ∧
        w.unpublishedOutboxes = 0 := by
  simp [ExecutionRouteWorkload.drained, and_assoc]

/-- Terminal submissions have no running attempt. -/
theorem Store.Settled.activeAttempts (h : s.Settled route) (hlife : Lifecycle s) :
    (s.executionRouteWorkload route).activeAttempts = 0 := by
  refine activeAttempts_eq_zero.mpr fun k attempt hget hon hrunning => ?_
  obtain ⟨row, hrow, hroute⟩ := onRoute_iff.mp hon
  exact hlife.idle _ row hrow (h.submission _ row hrow hroute) k ⟨attempt, hget, rfl, rfl, hrunning⟩

theorem settled_of_drained (h : (s.executionRouteWorkload route).drained = true) :
    s.Settled route := by
  obtain ⟨hsubmissions, -, hdispatches, -, -, houtboxes⟩ := drained_iff.mp h
  exact ⟨activeSubmissions_eq_zero.mp hsubmissions, incompleteDispatches_eq_zero.mp hdispatches,
    unpublishedOutboxes_eq_zero.mp houtboxes⟩

theorem resolved_of_drained (h : (s.executionRouteWorkload route).drained = true) :
    s.Resolved route := by
  obtain ⟨-, -, -, heffects, hpublications, -⟩ := drained_iff.mp h
  exact ⟨unresolvedEffects_eq_zero.mp heffects, pendingPublications_eq_zero.mp hpublications⟩

theorem drained_of_settled (hlife : Lifecycle s) (hsettled : s.Settled route)
    (hresolved : s.Resolved route) : (s.executionRouteWorkload route).drained = true :=
  drained_iff.mpr ⟨activeSubmissions_eq_zero.mpr hsettled.submission,
    hsettled.activeAttempts hlife, incompleteDispatches_eq_zero.mpr hsettled.dispatch,
    unresolvedEffects_eq_zero.mpr hresolved.effect,
    pendingPublications_eq_zero.mpr hresolved.publication,
    unpublishedOutboxes_eq_zero.mpr hsettled.outbox⟩

/-! ## Settled routes stay settled -/

theorem Store.Settled.setStatus (h : s.Settled route) {row : SubmissionRecord}
    {status : SubmissionStatus} (hget : s.submissions.get? k = some row)
    (hstatus : row.executionRoute = route → status.isTerminal = true) :
    Store.Settled { s with submissions := s.submissions.set k (row.withStatus status) } route where
  submission := h.submission.set hstatus
  dispatch := fun k' record hrecord hon =>
    h.dispatch k' record hrecord (onRoute_setStatus hget ▸ hon)
  outbox := fun k' row' hrow hon => h.outbox k' row' hrow (onRoute_setStatus hget ▸ hon)

theorem Store.Settled.setDispatch (h : s.Settled route) {record : DispatchRecord}
    (hdone : s.onRoute route k = true → record.status = .dispatched ∨ record.status = .cancelled) :
    Store.Settled { s with dispatches := s.dispatches.set k record } route :=
  ⟨h.submission, h.dispatch.set hdone, h.outbox⟩

theorem Store.Settled.acknowledge (h : s.Settled route) (row : OutboxRecord) (at_ : Instant) :
    Store.Settled { s with outbox := s.outbox.set k (row.acknowledge at_) } route :=
  ⟨h.submission, h.dispatch, h.outbox.set fun _ => Option.some_ne_none _⟩

/-- A submission that is not terminal is not on a settled route. -/
theorem Store.Settled.off_route (h : s.Settled route) {row : SubmissionRecord}
    (hget : s.submissions.get? k = some row) (hlive : row.status.isTerminal = false) :
    s.onRoute route k = false := by
  by_contra hon
  obtain ⟨row', hget', hroute⟩ := onRoute_iff.mp (by simpa using hon)
  obtain rfl := Option.some.inj (hget.symm.trans hget')
  rw [h.submission k row hget hroute] at hlive
  cases hlive

/-- The dispatch of a submission on a settled route is settled. -/
theorem Store.Settled.dispatch_settled (h : s.Settled route) {record : DispatchRecord}
    (hget : s.dispatches.get? k = some record) (hon : s.onRoute route k = true) :
    record.status.isSettled = true := by
  rcases h.dispatch k record hget hon with hdone | hdone <;> rw [hdone] <;> rfl

theorem Store.Settled.accept (h : s.Settled route) {request : AcceptRequest}
    {submissionId : String} {env : Env} (hother : request.executionRoute ≠ route) :
    Store.Settled (insertAcceptance host env ctx request submissionId s).store route where
  submission := h.submission.set fun hroute => absurd hroute hother
  dispatch := fun k record hrecord hon => h.dispatch k record hrecord (onRoute_accept hother hon).2
  outbox := by
    intro k row hrow hon
    obtain ⟨hne, hon⟩ := onRoute_accept hother hon
    rcases Dict.get?_set_eq_some.mp hrow with ⟨rfl, rfl⟩ | ⟨-, hold⟩
    · exact absurd rfl hne
    · exact h.outbox k row hold hon

theorem ne_of_not_active {active : String} (hactive : (s.routeState active).status = .active)
    (hroute : (s.routeState route).status ≠ .active) : active ≠ route := by
  rintro rfl
  exact hroute hactive

theorem finishStatuses_terminal (status : AttemptStatus) (submission : SubmissionRecord) :
    (finishStatuses status submission).2.isTerminal = true := by
  unfold finishStatuses
  split
  · rfl
  · dsimp only
    split <;> rfl

theorem Write.settled (hroute : (s₀.routeState route).status ≠ .active) (hs : s.Settled route)
    (h : Write host e s₀ s t) : t.Settled route := by
  cases h with
  | accept hcall hid hnew hidem hvalid hactive hlimit =>
      exact hs.accept (ne_of_not_active hactive hroute)
  | publish hcall hscope hrow hunpublished hget haccepted =>
      rename_i ctx k row at_ submission
      refine (hs.acknowledge (k := k) row at_).setStatus hget fun hon => ?_
      have hterminal := hs.submission _ submission hget hon
      rw [haccepted] at hterminal
      cases hterminal
  | acknowledge at_ hrow hunpublished why => exact hs.acknowledge _ at_
  | requestCancel hcall hscope hget hlive =>
      refine hs.setStatus hget fun hon => ?_
      rw [hs.submission _ _ hget hon] at hlive
      cases hlive
  | finishAttempt hcall hstatus hk hattempt hrunning hget hfence =>
      rename_i status k attempt submission at_
      have hnext := hs.setStatus hget fun _ => finishStatuses_terminal status submission
      exact ⟨hnext.submission, hnext.dispatch, hnext.outbox⟩
  | cancelSubmission hget hrequested hidle hready => exact hs.setStatus hget fun _ => rfl
  | cancelDispatch hget hopen => exact hs.setDispatch fun _ => .inr rfl
  | prepareDispatch hcall hget hnew =>
      refine hs.setDispatch fun hon => .inr (if_pos ?_)
      obtain ⟨row, hrow, hrowRoute⟩ := onRoute_iff.mp hon
      obtain rfl := Option.some.inj (hget.symm.trans hrow)
      exact SubmissionStatus.isIneligible_of_isTerminal (hs.submission _ _ hget hrowRoute)
  | claimDispatch hcall hscope hrecord hget hclaimable howner hseconds =>
      refine hs.setDispatch fun hon => ?_
      have hunsettled := isUnclaimable_unsettled hclaimable
      rw [hs.dispatch_settled hrecord hon] at hunsettled
      cases hunsettled
  | linkDispatch hcall hscope hrecord hleased => exact hs.setDispatch fun _ => .inl rfl
  | releaseDispatch hcall hscope hrecord hleased =>
      refine hs.setDispatch fun hon => ?_
      have hunsettled := leased_unsettled hleased
      rw [hs.dispatch_settled hrecord hon] at hunsettled
      cases hunsettled
  | rearmDispatch hcall hrecord hget hdispatched haccepted hunbegun hbound =>
      refine hs.setDispatch fun hon => ?_
      rw [hs.off_route hget (by rw [haccepted]; rfl)] at hon
      cases hon
  | exhaustDispatch hrecord hget hdispatched haccepted =>
      refine hs.setDispatch fun hon => ?_
      rw [hs.off_route hget (by rw [haccepted]; rfl)] at hon
      cases hon
  | rearmReconciled hcall hscope hsucceeded hrecord hget hrequired haccepted hactive hunbegun =>
      refine hs.setDispatch fun hon => ?_
      rw [hs.off_route hget (by rw [haccepted]; rfl)] at hon
      cases hon
  | _ => exact ⟨hs.submission, hs.dispatch, hs.outbox⟩

theorem Store.Resolved.setStatus (h : s.Resolved route) {row : SubmissionRecord}
    (hget : s.submissions.get? k = some row) (status : SubmissionStatus) :
    Store.Resolved { s with submissions := s.submissions.set k (row.withStatus status) } route where
  effect := fun k' effect heffect hon =>
    h.effect k' effect heffect (onRoute_setStatus hget ▸ hon)
  publication := fun k' record hrecord hon =>
    h.publication k' record hrecord (onRoute_setStatus hget ▸ hon)

/-- Only a call that records an outcome unresolves a settled route. -/
theorem Write.resolved (hroute : (s₀.routeState route).status ≠ .active)
    (hsilent : e.call.recordsOutcome = false) (hsettled : s.Settled route)
    (hs : s.Resolved route) (h : Write host e s₀ s t) :
    t.Resolved route := by
  cases h with
  | accept hcall hid hnew hidem hvalid hactive hlimit =>
      have hother := ne_of_not_active hactive hroute
      exact ⟨fun k effect heffect hon => hs.effect k effect heffect (onRoute_accept hother hon).2,
        fun k record hrecord hon =>
          hs.publication k record hrecord (onRoute_accept hother hon).2⟩
  | publish hcall hscope hrow hunpublished hget haccepted =>
      have hnext := hs.setStatus hget .dispatched
      exact ⟨hnext.effect, hnext.publication⟩
  | requestCancel hcall hscope hget hlive => exact hs.setStatus hget _
  | finishAttempt hcall hstatus hk hattempt hrunning hget hfence =>
      rename_i status k attempt submission at_
      have hnext := hs.setStatus hget (finishStatuses status submission).2
      exact ⟨hnext.effect, hnext.publication⟩
  | recordUnknownEffect hsweep hran hget hsame hopen =>
      rename_i k submission at_
      have hoff : s.onRoute route k = false :=
        hsettled.off_route hget (by rw [hsweep.requested.2]; rfl)
      refine ⟨hs.effect.set fun hon => ?_, hs.publication⟩
      rw [show s.onRoute route k = true from hon] at hoff
      cases hoff
  | cancelSubmission hget hrequested hidle hready => exact hs.setStatus hget _
  | recordEffect hcall hvalid hget hallowed =>
      rcases hcall with hcall | ⟨claim, hcall⟩ <;> rw [hcall] at hsilent <;> cases hsilent
  | recordPublication hcall hscope hsubmission hlease =>
      rw [hcall] at hsilent
      cases hsilent
  | publishPublication hget =>
      exact ⟨hs.effect, hs.publication.set fun _ => Option.some_ne_none _⟩
  | _ => exact ⟨hs.effect, hs.publication⟩

/-! ## Runs -/

def RetiredSettled (s : Store) : Prop :=
  ∀ route, isRetired (s.routeState route).status = true → s.Settled route

theorem not_active_of_retired {status : ExecutionRouteLifecycle} (h : isRetired status = true) :
    status ≠ .active := by
  rintro rfl
  cases h

theorem next_settled (host : Host) (e : Event) (hlinked : Linked s)
    (hroute : (s.routeState route).status ≠ .active) (hs : s.Settled route) :
    (next host s e).Settled route :=
  Runs.writes_invariant (I := fun t => t.Settled route) (fun _ _ hI hw => hw.settled hroute hI)
    (next_writes hlinked) hs

/-- A retired route was retired, or comes from a retired one. -/
theorem allowed_into_retired {old new : ExecutionRouteLifecycle}
    (h : (old, new) ∈ ExecutionRouteLifecycle.allowed) (hnew : isRetired new = true) :
    new = .retired ∨ isRetired old = true := by
  cases old <;> cases new <;>
    first | exact absurd h (by decide) | exact absurd hnew (by decide) | decide

theorem drained_of_refusal (h : transitionRefusal route .retired s = none) :
    (s.executionRouteWorkload route).drained = true := by
  unfold transitionRefusal at h
  dsimp only at h
  rw [if_pos rfl] at h
  split at h
  · cases h
  · rename_i hdrained
    exact (Bool.not_eq_false _).mp hdrained

theorem next_retiredSettled (host : Host) (e : Event) (hlinked : Linked s) (hs : RetiredSettled s) :
    RetiredSettled (next host s e) := by
  intro route hretired
  have hkept := fun hbefore : isRetired (s.routeState route).status = true =>
    next_settled host e hlinked (not_active_of_retired hbefore) (hs route hbefore)
  rcases next_routeState host e hlinked route with
    ⟨-, hsame⟩ | ⟨ctx, status, at_, -, hallowed, hrefusal, hnext⟩
  · exact hkept (hsame ▸ hretired)
  · rw [hnext, routeState_set, if_pos rfl] at hretired
    rcases allowed_into_retired hallowed hretired with rfl | hbefore
    · have hsettled := settled_of_drained (drained_of_refusal hrefusal)
      rw [hnext]
      exact ⟨hsettled.submission, hsettled.dispatch, hsettled.outbox⟩
    · exact hkept hbefore

theorem reached_retiredSettled (host : Host) (limit : Option Int) (es : List Event) :
    RetiredSettled (reached host limit es) :=
  (Runs.invariant (I := fun s => Linked s ∧ RetiredSettled s)
    (fun _ e h _ => ⟨next_linked host e h.1, next_retiredSettled host e h.1 h.2⟩)
    ⟨linked_init limit, fun _ hretired => nomatch hretired⟩ (Runs.guarded_true _ es)).2

theorem Store.Vacant.drained (h : s.Vacant route) :
    (s.executionRouteWorkload route).drained = true := by
  have hoff : ∀ k, ¬ s.onRoute route k = true := by
    intro k hon
    obtain ⟨row, hget, hroute⟩ := onRoute_iff.mp hon
    exact h.submission k row hget hroute
  exact drained_iff.mpr ⟨
    activeSubmissions_eq_zero.mpr fun k row hget hroute => absurd hroute (h.submission k row hget),
    activeAttempts_eq_zero.mpr fun _ _ _ hon => absurd hon (hoff _),
    incompleteDispatches_eq_zero.mpr fun _ _ _ hon => absurd hon (hoff _),
    unresolvedEffects_eq_zero.mpr fun _ _ _ hon => absurd hon (hoff _),
    pendingPublications_eq_zero.mpr fun _ _ _ hon => absurd hon (hoff _),
    unpublishedOutboxes_eq_zero.mpr fun _ _ _ hon => absurd hon (hoff _)⟩

/-- Retiring a route leaves it drained. -/
theorem next_drained_of_retiring (host : Host) (e : Event) (hlinked : Linked s)
    (hbefore : (s.routeState route).status ≠ .retired)
    (hafter : ((next host s e).routeState route).status = .retired) :
    ((next host s e).executionRouteWorkload route).drained = true := by
  rcases next_routeState host e hlinked route with
    ⟨-, hsame⟩ | ⟨ctx, status, at_, -, -, hrefusal, hnext⟩
  · rw [hsame] at hafter
    exact absurd hafter hbefore
  · rw [hnext, routeState_set, if_pos rfl] at hafter
    obtain rfl : status = .retired := hafter
    rw [hnext]
    exact drained_of_refusal hrefusal

theorem next_drained (host : Host) (e : Event) (hlinked : Linked s) (hlife : Lifecycle s)
    (hroute : (s.routeState route).status ≠ .active)
    (hs : (s.executionRouteWorkload route).drained = true)
    (hsilent : e.call.recordsOutcome = false) :
    ((next host s e).executionRouteWorkload route).drained = true := by
  have hwrites : Writes host e s s (next host s e) := next_writes hlinked
  have hkept := Runs.writes_invariant
    (I := fun t => Lifecycle t ∧ t.Settled route ∧ t.Resolved route)
    (fun _ _ hI hw => ⟨hw.lifecycle hI.1, hw.settled hroute hI.2.1,
      hw.resolved hroute hsilent hI.2.1 hI.2.2⟩)
    hwrites ⟨hlife, settled_of_drained hs, resolved_of_drained hs⟩
  exact drained_of_settled hkept.1 hkept.2.1 hkept.2.2

section Sample

/-- The only submission of the sample route completes and the route retires. -/
def retiredRoute : List Event :=
  [⟨sampleEnv 'a' 0, .accept sampleContext (sampleAccept "a" sampleRoute none)⟩,
    ⟨sampleEnv 'b' 1, .acquireLease sampleContext "a" "one" 60⟩,
    ⟨sampleEnv 'c' 2, .startAttempt sampleContext "a" "one" 1 []⟩,
    ⟨sampleEnv 'd' 3, .finishAttempt sampleContext "att-0ccccccccccc4ccc" "one" 1 "completed"⟩,
    ⟨sampleEnv 'e' 4, .reconcileTerminalOutbox sampleContext 100⟩,
    ⟨sampleEnv 'f' 5, .transitionExecutionRouteState sampleContext sampleRoute 0 "draining" none⟩,
    ⟨sampleEnv 'a' 6, .transitionExecutionRouteState sampleContext sampleRoute 1 "retired" none⟩]

/-- A connector reports on the completed submission. -/
def lateEffect : Event :=
  ⟨sampleEnv 'b' 7, .recordEffect sampleContext (sampleEffect "write" "a" .pending)⟩

end Sample

end Etlantic.ControlPlane.Durable
