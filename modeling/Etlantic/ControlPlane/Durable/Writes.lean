import Etlantic.ControlPlane.Durable.Calls

/-!
# What a call can write

`Write host e s₀ s t` is one atomic write of the event `e`, called in the store
`s₀`, taking the store from `s` to `t`, with every guard that holds when it
happens.  Calls that write once do so from `s₀`; the loops of a call make one
write for each row they touch.

The operations are shown to make nothing but such writes, so an invariant of
the store is checked once for each kind of write, and not for each operation.
-/

namespace Etlantic.ControlPlane.Durable

/-- The rows the calls besides the delivery of work touch are left out. -/
def Store.withPeripheral (s t : Store) : Store :=
  { s with
    checkpoints := t.checkpoints
    previews := t.previews
    diffs := t.diffs
    baselines := t.baselines
    actionJobs := t.actionJobs
    actionIdempotency := t.actionIdempotency
    diagnostics := t.diagnostics }

/-- The outbox row belongs to a terminal submission. -/
def isTerminalRow (s : Store) (scope : Scope) (e : Key × OutboxRecord) : Bool :=
  (s.submissions.get? ⟨scope, e.2.submissionId⟩).any
    (fun submission => submission.status.isTerminal)

/-- The rows that `reconcile_terminal_outbox` gets to within its limit. -/
def terminalRows (s : Store) (scope : Scope) (limit : Int) : List (Key × OutboxRecord) :=
  ((unpublishedRows s scope).filter (isTerminalRow s scope)).take limit.toNat

/-- The cancellation requests that `reconcile_cancelled_submissions` gets to within its
limit. -/
def reconciledRows (s : Store) (scope : Scope) (sweep : CancellationSweep) (now : Instant) :
    List (Key × SubmissionRecord) :=
  ((cancellationCandidates s scope sweep).filter
    (fun entry => !cancellationWaits s entry.1 now)).take sweep.limit.toNat

/-- The arguments of a sweep are in order. -/
def CancellationSweep.isValid (sweep : CancellationSweep) : Bool :=
  sweep.submissionId.all (fun id => !isBlank id) &&
    sweep.executionRoute.all (fun route => isExecutionRoute route)

/-- The call is a sweep that finalizes the cancellation of the submission. -/
inductive Event.Finalizes (e : Event) (s : Store) (k : Key) (submission : SubmissionRecord) : Prop
  | sweep {ctx : ControlPlaneContext} {sweep : CancellationSweep}
      (hcall : e.call = .reconcileCancelledSubmissions ctx sweep)
      (hvalid : sweep.isValid = true)
      (hrow : (k, submission) ∈ reconciledRows s ctx.scopeKey sweep (e.env.now [0]))

/-- Why an outbox row is acknowledged without touching its submission. -/
inductive AckReason (e : Event) (s₀ s : Store) (k : Key) (row : OutboxRecord) : Prop
  | published {ctx : ControlPlaneContext} (hcall : e.call = .markPublished ctx k.id)
      (hscope : k.scope = ctx.scopeKey) (hs : s = s₀)
      (hnot : (s.submissions.get? ⟨k.scope, row.submissionId⟩).all
        (fun submission => submission.status ≠ .accepted) = true)
  | terminal {ctx : ControlPlaneContext} {limit : Int} {submission : SubmissionRecord}
      (hcall : e.call = .reconcileTerminalOutbox ctx limit) (hscope : k.scope = ctx.scopeKey)
      (hrow : (k, row) ∈ terminalRows s₀ ctx.scopeKey limit)
      (hget : s.submissions.get? ⟨k.scope, row.submissionId⟩ = some submission)
      (hterminal : submission.status.isTerminal = true)
      (hsubmissions : s.submissions = s₀.submissions) (hdispatches : s.dispatches = s₀.dispatches)
  | cancelled {submission : SubmissionRecord}
      (hget : s.submissions.get? ⟨k.scope, row.submissionId⟩ = some submission)
      (hcancelled : submission.status = .cancelled)
      (hresolved : ∀ d, s.dispatches.get? ⟨k.scope, row.submissionId⟩ = some d →
        d.status ≠ .uncertain ∨ d.prefectFlowRunId ≠ none)

inductive Write (host : Host) (e : Event) (s₀ : Store) : Store → Store → Prop
  | accept {ctx : ControlPlaneContext} {request : AcceptRequest} {submissionId : String}
      (hcall : e.call = .accept ctx request)
      (hid : request.submissionId = some submissionId ∨
        request.submissionId = none ∧ submissionId = e.env.generatedId "sub-" 16 0)
      (hnew : request.submissionId = some submissionId →
        s₀.submissions.get? (key ctx submissionId) = none)
      (hidem : s₀.idempotency.get?
        (idempotencyTuple ctx request.operation request.idempotencyKey) = none)
      (hvalid : isExecutionRoute request.executionRoute = true)
      (hroute : (s₀.routeState request.executionRoute).status = .active)
      (hlimit : s₀.admissionLimit.any
        (fun limit => limit ≤ (s₀.inFlight ctx.tenant.tenantId : Int)) = false) :
      Write host e s₀ s₀ (insertAcceptance host e.env ctx request submissionId s₀).store
  | publish {ctx : ControlPlaneContext} {k : Key} {row : OutboxRecord} {at_ : Instant}
      {submission : SubmissionRecord}
      (hcall : e.call = .markPublished ctx k.id) (hscope : k.scope = ctx.scopeKey)
      (hrow : s₀.outbox.get? k = some row) (hunpublished : row.publishedAt = none)
      (hget : s₀.submissions.get? ⟨k.scope, row.submissionId⟩ = some submission)
      (haccepted : submission.status = .accepted) :
      Write host e s₀ s₀ { s₀ with
        outbox := s₀.outbox.set k (row.acknowledge at_)
        submissions := s₀.submissions.set ⟨k.scope, row.submissionId⟩
          (submission.withStatus .dispatched) }
  | acknowledge {s : Store} {k : Key} {row : OutboxRecord} (at_ : Instant)
      (hrow : s.outbox.get? k = some row) (hunpublished : row.publishedAt = none)
      (why : AckReason e s₀ s k row) :
      Write host e s₀ s { s with outbox := s.outbox.set k (row.acknowledge at_) }
  | requestCancel {ctx : ControlPlaneContext} {k : Key} {submission : SubmissionRecord}
      (hcall : e.call = .cancelSubmission ctx k.id) (hscope : k.scope = ctx.scopeKey)
      (hget : s₀.submissions.get? k = some submission)
      (hlive : submission.status.isTerminal = false) :
      Write host e s₀ s₀ { s₀ with
        submissions := s₀.submissions.set k (submission.withStatus .cancelRequested) }
  | grantLease {ctx : ControlPlaneContext} {k : Key} {submission : SubmissionRecord}
      {lease : LeaseRecord} {now : Instant}
      (hscope : k.scope = ctx.scopeKey)
      (hget : s₀.submissions.get? k = some submission)
      (heligible : submission.status.isIneligible = false)
      (hscopeOf : lease.scope = k.scope) (hidOf : lease.submissionId = k.id)
      (htoken : lease.fencingToken = nextToken (s₀.leases.get? k) lease.ownerId now)
      (hother : leasedByOther (s₀.leases.get? k) lease.ownerId now = false) :
      Write host e s₀ s₀ { s₀ with leases := s₀.leases.set k lease }
  | touchLease {s : Store} {k : Key} {old lease : LeaseRecord}
      (hget : s.leases.get? k = some old) (howner : lease.ownerId = old.ownerId)
      (htoken : lease.fencingToken = old.fencingToken) (hscopeOf : lease.scope = old.scope)
      (hidOf : lease.submissionId = old.submissionId) :
      Write host e s₀ s { s with leases := s.leases.set k lease }
  | loseAttempt {s : Store} {k : Key} {attempt : AttemptRecord} {at_ : Instant}
      (hget : s.attempts.get? k = some attempt) (hrunning : attempt.status = .running) :
      Write host e s₀ s { s with attempts := s.attempts.set k (attempt.finish .lost at_) }
  | startAttempt {s : Store} {submission : SubmissionRecord} {lease : LeaseRecord}
      (ctx : ControlPlaneContext) (attempt : AttemptRecord)
      (hget : s.submissions.get? (key ctx attempt.submissionId) = some submission)
      (heligible : submission.status.isIneligible = false)
      (hlease : s.leases.get? (key ctx attempt.submissionId) = some lease)
      (howner : attempt.ownerId = lease.ownerId)
      (htoken : attempt.fencingToken = lease.fencingToken)
      (halone : s.hasRunningAttempt (key ctx attempt.submissionId) = false)
      (hscope : attempt.scope = ctx.scopeKey)
      (hrunning : attempt.status = .running) :
      Write host e s₀ s { s with attempts := s.attempts.set (key ctx attempt.attemptId) attempt }
  | finishAttempt {ctx : ControlPlaneContext} {attemptId ownerId text : String}
      {fencingToken : Int} {status : AttemptStatus} {k : Key} {attempt : AttemptRecord}
      {submission : SubmissionRecord} {at_ : Instant}
      (hcall : e.call = .finishAttempt ctx attemptId ownerId fencingToken text)
      (hstatus : AttemptStatus.ofTerminalText? text = some status)
      (hk : k = key ctx attempt.submissionId)
      (hattempt : s₀.attempts.get? (key ctx attemptId) = some attempt)
      (hrunning : attempt.status = .running)
      (hget : s₀.submissions.get? k = some submission)
      (hfence : finishFence s₀ submission k ownerId fencingToken (e.env.now [0]) = .ok ()) :
      Write host e s₀ s₀ { s₀ with
        attempts := s₀.attempts.set (key ctx attemptId)
          (attempt.finish (finishStatuses status submission).1 at_)
        submissions := s₀.submissions.set k
          (submission.withStatus (finishStatuses status submission).2) }
  | recordUnknownEffect {s : Store} {k : Key} {submission : SubmissionRecord} {at_ : Instant}
      (hsweep : e.Finalizes s₀ k submission)
      (hran : s₀.hasRunningAttempt k = true)
      (hget : s.submissions.get? k = some submission)
      (hsame : s.effects.get? ⟨k.scope, executionEffectId k.id⟩ =
        s₀.effects.get? ⟨k.scope, executionEffectId k.id⟩)
      (hopen : ∀ existing, s.effects.get? ⟨k.scope, executionEffectId k.id⟩ = some existing →
        existing.status ≠ .committed) :
      Write host e s₀ s { s with
        effects := s.effects.set ⟨k.scope, executionEffectId k.id⟩
          (unknownExecutionEffect k.scope k.id at_) }
  | cancelSubmission {s : Store} {k : Key} {submission : SubmissionRecord} {now : Instant}
      (hget : s.submissions.get? k = some submission)
      (hrequested : submission.status = .cancelRequested)
      (hidle : s.hasRunningAttempt k = false)
      (hready : cancellationWaits s k now = false) :
      Write host e s₀ s { s with
        submissions := s.submissions.set k (submission.withStatus .cancelled) }
  | cancelDispatch {s : Store} {k : Key} {dispatch : DispatchRecord} {now : Instant}
      (hget : s.dispatches.get? k = some dispatch) (hopen : isCancellable dispatch = true) :
      Write host e s₀ s { s with
        dispatches := s.dispatches.set k (cancelledDispatch dispatch now) }
  | recordEffect {ctx : ControlPlaneContext} {effect : EffectRecord}
      {submission : SubmissionRecord}
      (hcall : e.call = .recordEffect ctx effect ∨
        ∃ claim, e.call = .recordAttemptEffect ctx effect claim)
      (hvalid : invalidEffect ctx effect = none)
      (hget : s₀.submissions.get? (key ctx effect.submissionId) = some submission)
      (hallowed : (s₀.effects.get? (key ctx effect.effectId)).bind
        (fun existing => effectRefusal existing (safeEffect host effect)) = none) :
      Write host e s₀ s₀ { s₀ with
        effects := s₀.effects.set (key ctx effect.effectId) (safeEffect host effect) }
  | recordPublication {ctx : ControlPlaneContext} {given record : ResultPublicationRecord}
      {ownerId : String} {fencingToken : Int} {k : PublicationKey} {lease : LeaseRecord}
      (hcall : e.call = .recordResultPublication ctx given ownerId fencingToken)
      (hscope : record.scope = k.scope) (hsubmission : record.submissionId = k.submissionId)
      (hlease : s₀.leases.get? ⟨k.scope, k.submissionId⟩ = some lease) :
      Write host e s₀ s₀ { s₀ with resultPublications := s₀.resultPublications.set k record }
  | publishPublication {k : PublicationKey} {record : ResultPublicationRecord}
      {stamp : Stamp}
      (hget : s₀.resultPublications.get? k = some record) :
      Write host e s₀ s₀ { s₀ with
        resultPublications :=
          s₀.resultPublications.set k { record with publishedAt := some stamp } }
  | prepareDispatch {ctx : ControlPlaneContext} {submissionId snapshot : String}
      {submission : SubmissionRecord} {now : Instant}
      {hvalid : isExecutionRoute submission.executionRoute = true}
      {hprefect : isPrefectRoute submission.executionRoute = true}
      (hcall : e.call = .prepareDispatch ctx submissionId)
      (hget : s₀.submissions.get? (key ctx submissionId) = some submission)
      (hnew : s₀.dispatches.get? (key ctx submissionId) = none) :
      Write host e s₀ s₀ { s₀ with
        dispatches := s₀.dispatches.set (key ctx submissionId)
          (preparedDispatch host ctx submission submissionId snapshot now hvalid hprefect) }
  | claimDispatch {ctx : ControlPlaneContext} {k : Key} {ownerId : String} {leaseSeconds : Int}
      {now : Option Instant} {record : DispatchRecord} {submission : SubmissionRecord}
      (hcall : e.call = .claimDispatch ctx k.id ownerId leaseSeconds now)
      (hscope : k.scope = ctx.scopeKey)
      (hrecord : s₀.dispatches.get? k = some record)
      (hget : s₀.submissions.get? k = some submission)
      (hclaimable : isUnclaimable record submission (now.getD (e.env.now [0])) = false)
      (howner : ¬ (isBlank ownerId = true ∨ 256 < ownerId.toList.length))
      (hseconds : ¬ (leaseSeconds < 1 ∨ 600 < leaseSeconds)) :
      Write host e s₀ s₀ { s₀ with
        dispatches := s₀.dispatches.set k
          (claimedDispatch record ownerId leaseSeconds (now.getD (e.env.now [0]))) }
  | linkDispatch {ctx : ControlPlaneContext} {k : Key} {ownerId : String} {fencingToken : Int}
      {remoteRunId prefectFlowRunId : Option String} {now : Option Instant}
      {record : DispatchRecord} {selected : RemoteRunId} {current : Instant}
      (hcall : e.call =
        .linkDispatch ctx k.id ownerId fencingToken remoteRunId prefectFlowRunId now)
      (hscope : k.scope = ctx.scopeKey)
      (hrecord : s₀.dispatches.get? k = some record)
      (hleased : record.status = .leased) :
      Write host e s₀ s₀ { s₀ with
        dispatches := s₀.dispatches.set k (linkedDispatch record selected current) }
  | releaseDispatch {ctx : ControlPlaneContext} {k : Key} {ownerId : String} {fencingToken : Int}
      {outcomeUncertain cancelled : Bool} {errorCode : Option String} {now : Option Instant}
      {record : DispatchRecord} {current : Instant}
      (hcall : e.call = .releaseDispatch ctx k.id ownerId fencingToken outcomeUncertain cancelled
        errorCode now)
      (hscope : k.scope = ctx.scopeKey)
      (hrecord : s₀.dispatches.get? k = some record)
      (hleased : record.status = .leased) :
      Write host e s₀ s₀ { s₀ with
        dispatches := s₀.dispatches.set k
          (releasedDispatch record outcomeUncertain cancelled errorCode current) }
  | rearmDispatch {k : Key} {record : DispatchRecord} {submission : SubmissionRecord}
      {reason : String} {current : Instant}
      (hcall : ∀ ctx submissionId expected remote flow evidence now, e.call ≠
        .rearmReconciliationRequiredDispatch ctx submissionId expected remote flow evidence now)
      (hrecord : s₀.dispatches.get? k = some record)
      (hget : s₀.submissions.get? k = some submission)
      (hdispatched : record.status = .dispatched)
      (haccepted : submission.status = .accepted)
      (hunbegun : s₀.executionBegan k = false)
      (hbound : record.generation < maxDispatchGenerations) :
      Write host e s₀ s₀ { s₀ with
        dispatches := s₀.dispatches.set k (rearmedDispatch host k record reason current) }
  | exhaustDispatch {k : Key} {record : DispatchRecord} {submission : SubmissionRecord}
      {current : Instant}
      (hrecord : s₀.dispatches.get? k = some record)
      (hget : s₀.submissions.get? k = some submission)
      (hdispatched : record.status = .dispatched)
      (haccepted : submission.status = .accepted) :
      Write host e s₀ s₀ { s₀ with
        dispatches := s₀.dispatches.set k (exhaustedDispatch record current) }
  | rearmReconciled {ctx : ControlPlaneContext} {k : Key} {expectedGeneration : Int}
      {expectedRemoteRunId expectedFlowRunId : Option String} {evidenceSha256 : String}
      {now : Option Instant} {record : DispatchRecord} {submission : SubmissionRecord}
      {history : List DispatchReconciliation} {reason : String} {current : Instant}
      (hcall : e.call = .rearmReconciliationRequiredDispatch ctx k.id expectedGeneration
        expectedRemoteRunId expectedFlowRunId evidenceSha256 now)
      (hscope : k.scope = ctx.scopeKey)
      (hsucceeded : (e.outcome host s₀).succeeded = true)
      (hrecord : s₀.dispatches.get? k = some record)
      (hget : s₀.submissions.get? k = some submission)
      (hrequired : record.status = .reconciliationRequired)
      (haccepted : submission.status = .accepted)
      (hactive : (s₀.routeState record.executionRoute).status = .active)
      (hunbegun : s₀.executionBegan k = false) :
      Write host e s₀ s₀ { s₀ with
        dispatches := s₀.dispatches.set k
          { rearmedDispatch host k record reason current with reconciliationHistory := history } }
  | reserveReference {route referenceId : String}
      (hprefect : isPrefectRoute route = true)
      (hroute : (s₀.routeState route).status = .active) :
      Write host e s₀ s₀ { s₀ with
        executionRouteReferences :=
          s₀.executionRouteReferences.set route (insert referenceId (s₀.routeReferences route)) }
  | releaseReferences {table : Dict String (Finset String)}
      (hsub : ∀ route, (table.get? route).getD ∅ ⊆ s₀.routeReferences route) :
      Write host e s₀ s₀ { s₀ with executionRouteReferences := table }
  | transitionRoute {ctx : ControlPlaneContext} {route text : String} {expectedRevision : Int}
      {status : ExecutionRouteLifecycle} {now : Option Instant}
      (hcall : e.call = .transitionExecutionRouteState ctx route expectedRevision text now)
      (hstatus : ExecutionRouteLifecycle.ofText? text = some status)
      (hprefect : isPrefectRoute route = true)
      (hchanged : status ≠ (s₀.routeState route).status)
      (hallowed : ((s₀.routeState route).status, status) ∈ ExecutionRouteLifecycle.allowed)
      (hrefusal : transitionRefusal route status s₀ = none)
      (hsucceeded : (e.outcome host s₀).succeeded = true) :
      Write host e s₀ s₀ { s₀ with
        executionRouteStates := s₀.executionRouteStates.set route
          (advanceRoute ctx route (s₀.routeState route) status (now.getD (e.env.now [0]))) }
  | authorizeShadow {ctx : ControlPlaneContext} {shadow : ShadowRunRecord}
      (hscope : shadow.scope = ctx.scopeKey)
      (heffects : shadowEffectRefusal s₀ ctx.scopeKey shadow.effectIds = none) :
      Write host e s₀ s₀ { s₀ with
        shadows := s₀.shadows.set (key ctx shadow.shadowRunId) shadow }
  | peripheral {s t : Store} : Write host e s₀ s (s.withPeripheral t)

/-- The writes of one call, in order. -/
abbrev Writes (host : Host) (e : Event) (s₀ : Store) : Store → Store → Prop :=
  Relation.ReflTransGen (Write host e s₀)

end Etlantic.ControlPlane.Durable
