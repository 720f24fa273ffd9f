import Etlantic.ControlPlane.Memory.Submissions
import Etlantic.ControlPlane.Durable.Noninterference

/-!
# The submissions of one tenant

Two stores with the same rows of a tenant answer the tenant's calls alike, with
one exception: an acceptance compares its submission id with the receipts of
all tenants.  So the tenant is told of an id that somebody else has taken.
-/

namespace Etlantic.ControlPlane.Memory

open Durable (IdempotencyTuple idempotencyTuple Key tenantRows isOf get?_key
  get?_idempotencyTuple get?_tenantRows tenantRows_set isOf_scopeKey)

/-- The rows of a tenant, and its part of the queue. -/
def MemorySubmissionStore.ofTenant (tenantId : String) (s : MemorySubmissionStore) :
    MemorySubmissionStore where
  byId := tenantRows tenantId s.byId
  payloads := tenantRows tenantId s.payloads
  runs := tenantRows tenantId s.runs
  acceptedQueue := s.acceptedQueue.filter (isOf tenantId)

/-- Two stores with the same rows of a tenant. -/
structure SameRows (tenantId : String) where
  left : MemorySubmissionStore
  right : MemorySubmissionStore
  same : left.ofTenant tenantId = right.ofTenant tenantId

/-- A receipt of another tenant has the submission id. -/
def boundElsewhere (tenantId submissionId : String) (s : MemorySubmissionStore) : Bool :=
  s.byId.any fun key receipt => !isOf tenantId key && receipt.submissionId = submissionId

/-- A call of a tenant. -/
inductive TenantCall where
  | accept (request : Acceptance)
  | getRun (runId : String)
  | cancelRun (runId : String)
  | pollAccepted (limit : Int)

inductive TenantAnswer where
  | accepted (result : AcceptResult)
  | run (record : RunRecord)
  | cancelled (record : RunRecord) (changed : Bool)
  | polled (records : List RunRecord)

section Calls

variable (host : SubmissionHost) (env : Durable.Env) (ctx : ControlPlaneContext)

def perform (call : TenantCall) (s : MemorySubmissionStore) :
    Reply MemorySubmissionStore TenantAnswer :=
  match call with
  | .accept request =>
      ⟨(accept host env ctx request s).result.map .accepted, (accept host env ctx request s).state⟩
  | .getRun runId => ⟨(getRun ctx runId s).map .run, s⟩
  | .cancelRun runId =>
      ⟨(cancelRun env ctx runId s).result.map fun answer => .cancelled answer.1 answer.2,
        (cancelRun env ctx runId s).state⟩
  | .pollAccepted limit => ⟨.ok (.polled (pollAccepted ctx limit s)), s⟩

/-- The call answers alike on both stores, and leaves the same rows of the tenant. -/
structure Answers (stores : SameRows ctx.tenant.tenantId) (call : TenantCall) : Prop where
  result : (perform host env ctx call stores.left).result =
    (perform host env ctx call stores.right).result
  rows : (perform host env ctx call stores.left).state.ofTenant ctx.tenant.tenantId =
    (perform host env ctx call stores.right).state.ofTenant ctx.tenant.tenantId

/-- A new acceptance names a submission id that the tenant itself has bound, or that other
tenants have bound in both stores or in neither. -/
def Indifferent (stores : SameRows ctx.tenant.tenantId) (call : TenantCall) : Prop :=
  match call with
  | .accept request =>
      stores.left.byId.get? (idempotencyTuple ctx request.operation request.idempotencyKey) =
          none →
        bound (submissionIdOf env request) (stores.left.ofTenant ctx.tenant.tenantId) = true ∨
          boundElsewhere ctx.tenant.tenantId (submissionIdOf env request) stores.left =
            boundElsewhere ctx.tenant.tenantId (submissionIdOf env request) stores.right
  | _ => True

end Calls

section Agreement

variable {host : SubmissionHost} {env : Durable.Env} {ctx : ControlPlaneContext}
  {s t : MemorySubmissionStore} {tenantId : String}

theorem bound_eq_or (submissionId : String) :
    bound submissionId s =
      (bound submissionId (s.ofTenant tenantId) || boundElsewhere tenantId submissionId s) := by
  rw [Bool.eq_iff_iff, Bool.or_eq_true]
  simp only [bound, boundElsewhere, Dict.any, List.any_eq_true, decide_eq_true_eq,
    Bool.and_eq_true, Bool.not_eq_true']
  constructor
  · rintro ⟨row, hrow, hid⟩
    cases hof : isOf tenantId row.1 with
    | true => exact .inl ⟨row, List.mem_filter.mpr ⟨hrow, hof⟩, hid⟩
    | false => exact .inr ⟨row, hrow, hof, hid⟩
  · rintro (⟨row, hrow, hid⟩ | ⟨row, hrow, -, hid⟩)
    · exact ⟨row, List.mem_of_mem_filter hrow, hid⟩
    · exact ⟨row, hrow, hid⟩

section Same

variable (h : s.ofTenant ctx.tenant.tenantId = t.ofTenant ctx.tenant.tenantId)

include h

theorem byId_eq (operation idempotencyKey : String) :
    s.byId.get? (idempotencyTuple ctx operation idempotencyKey) =
      t.byId.get? (idempotencyTuple ctx operation idempotencyKey) := by
  have hrows : tenantRows ctx.tenant.tenantId s.byId = tenantRows ctx.tenant.tenantId t.byId :=
    congrArg MemorySubmissionStore.byId h
  rw [← get?_idempotencyTuple, hrows, get?_idempotencyTuple]

theorem payloads_eq (operation idempotencyKey : String) :
    s.payloads.get? (idempotencyTuple ctx operation idempotencyKey) =
      t.payloads.get? (idempotencyTuple ctx operation idempotencyKey) := by
  have hrows : tenantRows ctx.tenant.tenantId s.payloads =
      tenantRows ctx.tenant.tenantId t.payloads := congrArg MemorySubmissionStore.payloads h
  rw [← get?_idempotencyTuple, hrows, get?_idempotencyTuple]

theorem runs_eq (runId : String) :
    s.runs.get? (Durable.key ctx runId) = t.runs.get? (Durable.key ctx runId) := by
  have hrows : tenantRows ctx.tenant.tenantId s.runs = tenantRows ctx.tenant.tenantId t.runs :=
    congrArg MemorySubmissionStore.runs h
  rw [← get?_key, hrows, get?_key]

theorem getRun_eq (runId : String) : getRun ctx runId s = getRun ctx runId t := by
  unfold getRun
  rw [runs_eq h]

/-- The rows after an update of a run of the tenant. -/
theorem ofTenant_setRun (runId : String) (record : RunRecord) :
    ({ s with runs := s.runs.set (Durable.key ctx runId) record } :
        MemorySubmissionStore).ofTenant ctx.tenant.tenantId =
      ({ t with runs := t.runs.set (Durable.key ctx runId) record } :
        MemorySubmissionStore).ofTenant ctx.tenant.tenantId := by
  have hkey : isOf ctx.tenant.tenantId (Durable.key ctx runId) = true := isOf_scopeKey rfl
  simp only [MemorySubmissionStore.ofTenant, MemorySubmissionStore.mk.injEq] at h ⊢
  obtain ⟨hbyId, hpayloads, hruns, hqueue⟩ := h
  refine ⟨hbyId, hpayloads, ?_, hqueue⟩
  rw [tenantRows_set hkey, tenantRows_set hkey, hruns]

theorem cancelRun_eq (runId : String) :
    (cancelRun env ctx runId s).result = (cancelRun env ctx runId t).result ∧
      (cancelRun env ctx runId s).state.ofTenant ctx.tenant.tenantId =
        (cancelRun env ctx runId t).state.ofTenant ctx.tenant.tenantId := by
  unfold cancelRun
  rw [← runs_eq h]
  cases s.runs.get? (Durable.key ctx runId) with
  | none => exact ⟨rfl, h⟩
  | some record =>
      simp only
      split
      · exact ⟨rfl, ofTenant_setRun h _ _⟩
      · exact ⟨rfl, h⟩

omit h in
/-- A queued run of somebody else is passed by. -/
theorem polled_ofTenant :
    (s.ofTenant ctx.tenant.tenantId).acceptedQueue.filterMap
        (polled ctx (s.ofTenant ctx.tenant.tenantId)) =
      s.acceptedQueue.filterMap (polled ctx s) := by
  show (s.acceptedQueue.filter (isOf ctx.tenant.tenantId)).filterMap _ = _
  rw [List.filterMap_filter]
  refine List.filterMap_congr fun key _ => ?_
  by_cases hscope : key.scope = ctx.scopeKey
  · have hof : isOf ctx.tenant.tenantId key = true := isOf_scopeKey hscope
    have hrow : (s.ofTenant ctx.tenant.tenantId).runs.get? key = s.runs.get? key :=
      get?_tenantRows hof
    rw [if_pos hof]
    unfold polled
    rw [hrow]
  · simp [polled, hscope]

theorem pollAccepted_eq (limit : Int) : pollAccepted ctx limit s = pollAccepted ctx limit t := by
  unfold pollAccepted
  rw [← polled_ofTenant, h, polled_ofTenant]

/-- The rows after a new acceptance of the tenant. -/
theorem ofTenant_accept (key : IdempotencyTuple) (run : Key)
    (hkey : isOf ctx.tenant.tenantId key = true) (hrun : isOf ctx.tenant.tenantId run = true)
    (receipt : AcceptReceipt) (payload : Payload) (record : RunRecord) :
    MemorySubmissionStore.ofTenant ctx.tenant.tenantId
        ⟨s.byId.set key receipt, s.payloads.set key payload, s.runs.set run record,
          s.acceptedQueue ++ [run]⟩ =
      MemorySubmissionStore.ofTenant ctx.tenant.tenantId
        ⟨t.byId.set key receipt, t.payloads.set key payload, t.runs.set run record,
          t.acceptedQueue ++ [run]⟩ := by
  simp only [MemorySubmissionStore.ofTenant, MemorySubmissionStore.mk.injEq] at h ⊢
  obtain ⟨hbyId, hpayloads, hruns, hqueue⟩ := h
  refine ⟨?_, ?_, ?_, ?_⟩
  · rw [tenantRows_set hkey, tenantRows_set hkey, hbyId]
  · rw [tenantRows_set hkey, tenantRows_set hkey, hpayloads]
  · rw [tenantRows_set hrun, tenantRows_set hrun, hruns]
  · rw [List.filter_append, List.filter_append, hqueue]

/-- Acceptances agree where the two stores agree on the submission id. -/
theorem accept_eq (request : Acceptance)
    (hbound : s.byId.get? (idempotencyTuple ctx request.operation request.idempotencyKey) = none →
      bound (submissionIdOf env request) s = bound (submissionIdOf env request) t) :
    (accept host env ctx request s).result = (accept host env ctx request t).result ∧
      (accept host env ctx request s).state.ofTenant ctx.tenant.tenantId =
        (accept host env ctx request t).state.ofTenant ctx.tenant.tenantId := by
  unfold accept
  simp only
  rw [← byId_eq h, ← payloads_eq h]
  cases hget : s.byId.get? (idempotencyTuple ctx request.operation request.idempotencyKey) with
  | some existing =>
      simp only
      split
      · exact ⟨rfl, h⟩
      · split
        · exact ⟨rfl, h⟩
        · exact ⟨rfl, h⟩
  | none =>
      simp only
      rw [← hbound hget]
      split
      · exact ⟨rfl, h⟩
      · exact ⟨rfl, ofTenant_accept h _ _ (decide_eq_true rfl) (isOf_scopeKey rfl) _ _ _⟩

/-- An acceptance under a new key tells whether the submission id is bound. -/
theorem bound_eq_of_accept (request : Acceptance)
    (hnew : s.byId.get? (idempotencyTuple ctx request.operation request.idempotencyKey) = none)
    (hresult : (perform host env ctx (.accept request) s).result =
      (perform host env ctx (.accept request) t).result) :
    bound (submissionIdOf env request) s = bound (submissionIdOf env request) t := by
  have hnew' : t.byId.get? (idempotencyTuple ctx request.operation request.idempotencyKey) =
      none := (byId_eq h _ _).symm.trans hnew
  simp only [perform, accept, hnew, hnew'] at hresult
  cases hs : bound (submissionIdOf env request) s with
  | true =>
      cases ht : bound (submissionIdOf env request) t with
      | true => rfl
      | false => simp [hs, ht, Except.map] at hresult
  | false =>
      cases ht : bound (submissionIdOf env request) t with
      | true => simp [hs, ht, Except.map] at hresult
      | false => rfl

end Same

end Agreement

/-- Two stores with the same rows of a tenant answer a call of the tenant alike, and keep the
same rows, exactly when the call is indifferent to what others have bound. -/
theorem answers_iff_indifferent (host : SubmissionHost) (env : Durable.Env)
    (ctx : ControlPlaneContext) (stores : SameRows ctx.tenant.tenantId) (call : TenantCall) :
    Answers host env ctx stores call ↔ Indifferent env ctx stores call := by
  have hsame := stores.same
  cases call with
  | getRun runId =>
      have hresult := congrArg (Except.map TenantAnswer.run) (getRun_eq hsame runId)
      exact ⟨fun _ => trivial, fun _ => ⟨hresult, hsame⟩⟩
  | cancelRun runId =>
      obtain ⟨hresult, hrows⟩ := @cancelRun_eq env ctx _ _ hsame runId
      exact ⟨fun _ => trivial, fun _ => ⟨congrArg (Except.map _) hresult, hrows⟩⟩
  | pollAccepted limit =>
      refine ⟨fun _ => trivial, fun _ => ⟨?_, hsame⟩⟩
      show Except.ok (TenantAnswer.polled _) = .ok (.polled _)
      rw [pollAccepted_eq hsame]
  | accept request =>
      have hown : ∀ submissionId, bound submissionId stores.left =
          (bound submissionId (stores.left.ofTenant ctx.tenant.tenantId) ||
            boundElsewhere ctx.tenant.tenantId submissionId stores.left) := bound_eq_or
      have hown' : ∀ submissionId, bound submissionId stores.right =
          (bound submissionId (stores.left.ofTenant ctx.tenant.tenantId) ||
            boundElsewhere ctx.tenant.tenantId submissionId stores.right) := by
        rw [hsame]
        exact bound_eq_or
      constructor
      · intro hanswers hnew
        have hbound := bound_eq_of_accept hsame request hnew hanswers.result
        rw [hown, hown'] at hbound
        cases hmine : bound (submissionIdOf env request)
            (stores.left.ofTenant ctx.tenant.tenantId) with
        | true => exact .inl rfl
        | false =>
            rw [hmine, Bool.false_or, Bool.false_or] at hbound
            exact .inr hbound
      · intro hindifferent
        obtain ⟨hresult, hrows⟩ := @accept_eq host env ctx _ _ hsame request (by
          intro hnew
          rw [hown, hown']
          rcases hindifferent hnew with hmine | helsewhere
          · rw [hmine, Bool.true_or, Bool.true_or]
          · rw [helsewhere])
        exact ⟨congrArg (Except.map TenantAnswer.accepted) hresult, hrows⟩

/-! ## An id that another tenant has taken -/

def takenAcceptance : Acceptance :=
  ⟨"first", [], "run", none, some "nightly", "run.submit"⟩

/-- The empty store, and the store in which another tenant has taken the id. -/
def takenElsewhere : SameRows Durable.sampleContext.tenant.tenantId where
  left := .init
  right := (accept sampleSubmissionHost (Durable.sampleEnv 'a' 0) Durable.otherContext
    takenAcceptance .init).state
  same := rfl

/-- The tenant is told that the id is taken, in one of the two stores. -/
theorem taken_elsewhere_told : ¬ Answers sampleSubmissionHost (Durable.sampleEnv 'b' 1)
    Durable.sampleContext takenElsewhere (.accept takenAcceptance) := by
  intro h
  have hresult := congrArg (fun answer => answer.isOk) h.result
  revert hresult
  decide +kernel

end Etlantic.ControlPlane.Memory
