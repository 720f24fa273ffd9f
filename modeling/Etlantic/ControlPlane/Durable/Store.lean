import Etlantic.ControlPlane.DurableModels

/-!
# The state of `MemoryDurableWorkStore`

One dictionary per record family, keyed as in the source.  An operation is a
function of the store that gives its result, or the error it raises, together
with the store it leaves: writes made before an error stay visible.

`Host` collects what the store calls outside itself (the digest, the envelope
validator, the JSON and time parsers).  `Env` is what one call reads from its
surroundings: every reading of the clock, addressed by the place in the call
that makes it, and every generated identifier.  Both are arbitrary.
-/

namespace Etlantic.ControlPlane.Durable

/-! ## Keys -/

/-- `(tenant_id, workspace_id, id)`. -/
structure Key where
  scope : Scope
  id : String
deriving DecidableEq

/-- `(tenant_id, workspace_id, submission_id, attempt_id)`. -/
structure PublicationKey where
  scope : Scope
  submissionId : String
  attemptId : String
deriving DecidableEq

/-- The idempotency tuple of `accept`. -/
structure IdempotencyTuple where
  scope : Scope
  issuer : String
  kind : PrincipalKind
  subject : String
  operation : String
  idempotencyKey : String
deriving DecidableEq

/-- The idempotency tuple of `accept_action_job`. The legacy tuple lacks the
security domain, the environment and the owner. -/
structure ActionIdempotencyTuple where
  scope : Scope
  authority : Option (String × String × String)
  issuer : String
  kind : PrincipalKind
  subject : String
  action : String
  idempotencyKey : String
deriving DecidableEq

/-- `(*_scope(ctx), id)`. -/
def key (ctx : ControlPlaneContext) (id : String) : Key := ⟨ctx.scopeKey, id⟩

/-! ## Surroundings -/

/-- What the store reads of a validated `ExecutionEnvelope`: `planSchema` is the
schema tag of the plan document and `canonical` the envelope's `to_json()`. -/
structure ExecutionEnvelope where
  planFingerprint : String
  planSchema : Option String
  canonical : String

structure Host where
  /-- `hashlib.sha256(text.encode("utf-8")).hexdigest()`. -/
  sha256 : String → String
  unicode : Unicode
  /-- `ExecutionEnvelope.from_json`. -/
  executionEnvelope : String → Except PyError ExecutionEnvelope
  /-- `json.loads`, `none` where it raises. -/
  loads : String → Option Json
  /-- `_parse` of a text that a caller handed in, `none` where it raises. -/
  parse : String → Option ParsedTime

structure Env where
  /-- The reading of `_now()` at a place of the call. -/
  now : List Nat → Instant
  /-- `uuid.uuid4().hex` for the n-th identifier of the call. -/
  uuid : Nat → String

/-- `f"{label}-{uuid.uuid4().hex[:length]}"`. -/
def Env.generatedId (env : Env) (label : String) (length n : Nat) : String :=
  label ++ String.ofList ((env.uuid n).toList.take length)

/-! ## The store -/

structure Store where
  admissionLimit : Option Int
  submissions : Dict Key SubmissionRecord
  idempotency : Dict IdempotencyTuple String
  outbox : Dict Key OutboxRecord
  dispatches : Dict Key DispatchRecord
  leases : Dict Key LeaseRecord
  attempts : Dict Key AttemptRecord
  resultPublications : Dict PublicationKey ResultPublicationRecord
  checkpoints : Dict Key CheckpointRecord
  effects : Dict Key EffectRecord
  previews : Dict Key PreviewWorkspace
  diffs : Dict Key DiffRecord
  shadows : Dict Key ShadowRunRecord
  baselines : Dict Key BaselineAcknowledgement
  actionJobs : Dict Key ActionJobRecord
  actionIdempotency : Dict ActionIdempotencyTuple String
  diagnostics : List StateDiagnostic
  executionRouteStates : Dict String ExecutionRouteRecord
  executionRouteReferences : Dict String (Finset String)

/-- `MemoryDurableWorkStore(admission_limit=...)`. -/
def Store.init (admissionLimit : Option Int) : Store where
  admissionLimit := admissionLimit
  submissions := .empty
  idempotency := .empty
  outbox := .empty
  dispatches := .empty
  leases := .empty
  attempts := .empty
  resultPublications := .empty
  checkpoints := .empty
  effects := .empty
  previews := .empty
  diffs := .empty
  shadows := .empty
  baselines := .empty
  actionJobs := .empty
  actionIdempotency := .empty
  diagnostics := []
  executionRouteStates := .empty
  executionRouteReferences := .empty

namespace Store

/-- `self._execution_route_states.get(route, ExecutionRouteRecord(route))`. -/
def routeState (s : Store) (route : String) : ExecutionRouteRecord :=
  (s.executionRouteStates.get? route).getD (.initial route)

/-- `self._execution_route_references.get(route, set())`. -/
def routeReferences (s : Store) (route : String) : Finset String :=
  (s.executionRouteReferences.get? route).getD ∅

/-- `_require_lease`, with its reading of the clock. -/
def requireLease (s : Store) (key : Key) (ownerId : String) (token : Int) (now : Instant) :
    Except PyError LeaseRecord :=
  match s.leases.get? key with
  | none => .error (conflict "Stale or invalid execution lease")
  | some lease =>
      if lease.ownerId ≠ ownerId ∨ lease.fencingToken ≠ token ∨ lease.expiresAt ≤ now then
        .error (conflict "Stale or invalid execution lease")
      else .ok lease

theorem requireLease_eq_ok {s : Store} {key : Key} {ownerId : String} {token : Int}
    {now : Instant} {lease : LeaseRecord} :
    s.requireLease key ownerId token now = .ok lease ↔
      s.leases.get? key = some lease ∧ lease.ownerId = ownerId ∧ lease.fencingToken = token ∧
        now < lease.expiresAt := by
  unfold requireLease
  cases hget : s.leases.get? key with
  | none => simp
  | some row =>
      by_cases hbad : row.ownerId ≠ ownerId ∨ row.fencingToken ≠ token ∨ row.expiresAt ≤ now
      · simp only [if_pos hbad, reduceCtorEq, Option.some.injEq, false_iff]
        rintro ⟨rfl, howner, htoken, hlive⟩
        rcases hbad with h | h | h
        · exact h howner
        · exact h htoken
        · exact absurd hlive (not_lt.mpr h)
      · simp only [if_neg hbad, Except.ok.injEq, Option.some.injEq]
        constructor
        · rintro rfl
          push Not at hbad
          exact ⟨rfl, hbad⟩
        · exact fun h => h.1

/-! ## Workload and references of a route -/

/-- The submission of a record belongs to the route. -/
def onRoute (s : Store) (route : String) (k : Key) : Bool :=
  (s.submissions.get? k).any (fun row => row.executionRoute = route)

/-- `_execution_route_workload_unlocked`. -/
def executionRouteWorkload (s : Store) (route : String) : ExecutionRouteWorkload where
  executionRoute := route
  activeSubmissions :=
    s.submissions.count (fun _ row => row.executionRoute = route && row.status.isNonTerminal)
  activeAttempts :=
    s.attempts.count (fun k row =>
      s.onRoute route ⟨k.scope, row.submissionId⟩ && row.status = .running)
  incompleteDispatches :=
    s.dispatches.count (fun k row =>
      s.onRoute route k && !(row.status = .dispatched || row.status = .cancelled))
  unresolvedEffects :=
    s.effects.count (fun k row =>
      s.onRoute route ⟨k.scope, row.submissionId⟩ &&
        (row.status = .pending || row.status = .unknown))
  pendingPublications :=
    s.resultPublications.count (fun k row =>
      s.onRoute route ⟨k.scope, row.submissionId⟩ && row.publishedAt = none)
  unpublishedOutboxes :=
    s.outbox.count (fun k row =>
      s.onRoute route ⟨k.scope, row.submissionId⟩ && row.publishedAt = none)

/-- `_execution_route_reference_counts_unlocked`. -/
def executionRouteReferenceCounts (s : Store) (route : String) : ExecutionRouteReferenceCounts where
  canonicalSubmissions := s.submissions.count (fun _ row => row.executionRoute = route)
  scheduleReservations := (s.routeReferences route).card

end Store

/-! ## Outcomes -/

/-- What a call gives back and the store it leaves. -/
structure Outcome (α : Type) where
  result : Except PyError α
  store : Store

def raise {α : Type} (error : PyError) (s : Store) : Outcome α := ⟨.error error, s⟩

def ret {α : Type} (value : α) (s : Store) : Outcome α := ⟨.ok value, s⟩

namespace Outcome

variable {α : Type}

/-- The call returned. -/
def succeeded (o : Outcome α) : Bool := o.result.toBool

/-- The call raised and left the store as it was. -/
def Refused (o : Outcome α) (s : Store) : Prop := o.succeeded = false ∧ o.store = s

/-- The call raised and left the store as it was, or it returned and left a store
with `P`. -/
def RefusedOr (o : Outcome α) (s : Store) (P : Store → Prop) : Prop :=
  o.Refused s ∨ o.succeeded = true ∧ P o.store

/-- The outcome without its value. -/
def void (o : Outcome α) : Outcome Unit := ⟨o.result.map (fun _ => ()), o.store⟩

@[simp] theorem void_store (o : Outcome α) : o.void.store = o.store := rfl

@[simp] theorem void_succeeded (o : Outcome α) : o.void.succeeded = o.succeeded := by
  unfold void succeeded
  cases o.result <;> rfl

theorem result_eq_ok {o : Outcome α} {a : α} (h : o.result.toOption = some a) :
    o.result = .ok a := by
  cases hresult : o.result with
  | error error => simp [hresult, Except.toOption] at h
  | ok value => simpa [hresult, Except.toOption] using h

end Outcome

@[simp] theorem raise_store {α : Type} (e : PyError) (s : Store) :
    (raise e s : Outcome α).store = s := rfl

@[simp] theorem raise_result {α : Type} (e : PyError) (s : Store) :
    (raise e s : Outcome α).result = .error e := rfl

@[simp] theorem ret_store {α : Type} (a : α) (s : Store) : (ret a s).store = s := rfl

@[simp] theorem ret_result {α : Type} (a : α) (s : Store) : (ret a s).result = .ok a := rfl

theorem refused_raise {α : Type} (e : PyError) (s : Store) : (raise e s : Outcome α).Refused s :=
  ⟨rfl, rfl⟩

theorem refusedOr_raise {α : Type} (e : PyError) (s : Store) (P : Store → Prop) :
    (raise e s : Outcome α).RefusedOr s P :=
  .inl (refused_raise e s)

theorem refusedOr_ret {α : Type} (a : α) {s t : Store} {P : Store → Prop} (h : P t) :
    (ret a t).RefusedOr s P :=
  .inr ⟨rfl, h⟩

/-! ## Shared argument checks -/

def emptyFieldError (name : String) : PyError := .valueError (name ++ " must not be empty")

def routeError : PyError := .valueError "execution_route must be 'local' or 'prefect:<sha256>'"

/-- `not execution_route.startswith("prefect:")`. -/
def isPrefectRoute (route : String) : Bool := hasPrefix "prefect:" route

/-- `_select_remote_run_id` with `required=True`. -/
def selectRemoteRunId (remoteRunId legacyPrefectRunId : Option String) :
    Except PyError RemoteRunId :=
  match remoteRunId, legacyPrefectRunId with
  | none, none => .error (.valueError "remote_run_id is required")
  | none, some value | some value, none => checked value
  | some value, some legacy =>
      if value ≠ legacy then .error (.valueError "remote_run_id conflicts with prefect_flow_run_id")
      else checked value
where
  checked (value : String) : Except PyError RemoteRunId :=
    if h : isRemoteRunId value = true then .ok ⟨value, h⟩
    else .error (.valueError "remote_run_id must contain 1 to 256 characters")

/-- `redact_or_preserve_execution_envelope`. -/
def redactOrPreserveExecutionEnvelope (host : Host) (text : Option String) : Option String :=
  text.map fun value =>
    match host.executionEnvelope value with
    | .ok envelope => envelope.canonical
    | .error _ => redactControlPlaneText host.unicode value

end Etlantic.ControlPlane.Durable
