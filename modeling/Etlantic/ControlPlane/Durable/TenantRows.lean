import Etlantic.ControlPlane.Durable.Invariants
import Etlantic.ControlPlane.Durable.Readers

/-!
# The rows of one tenant

`Store.ofTenant` is a store without the rows of the other tenants; the route
states and references, which all tenants share, stay.  An operation is mirrored
in the rows of a tenant if it does the same on them as on the whole store, and
touches no row of another tenant.
-/

namespace Etlantic.ControlPlane.Durable

/-! ## Tables -/

/-- A key that files its row under a scope. -/
class Scoped (κ : Type) where
  scope : κ → Scope

instance : Scoped Key := ⟨Key.scope⟩

instance : Scoped PublicationKey := ⟨PublicationKey.scope⟩

instance : Scoped IdempotencyTuple := ⟨IdempotencyTuple.scope⟩

instance : Scoped ActionIdempotencyTuple := ⟨ActionIdempotencyTuple.scope⟩

section Tables

variable {κ ν : Type} [Scoped κ]

/-- The key belongs to the tenant. -/
def isOf (tenantId : String) (k : κ) : Bool := (Scoped.scope k).tenantId = tenantId

/-- The rows of a tenant in a table, in their order. -/
def tenantRows (tenantId : String) (table : Dict κ ν) : Dict κ ν :=
  table.restrict (isOf tenantId)

variable {tenantId : String} {table : Dict κ ν}

theorem tenantRows_tenantRows :
    tenantRows tenantId (tenantRows tenantId table) = tenantRows tenantId table :=
  Dict.restrict_restrict

theorem filter_tenantRows {q : κ × ν → Bool} (h : ∀ e, q e = true → isOf tenantId e.1 = true) :
    (tenantRows tenantId table).entries.filter q = table.entries.filter q :=
  Dict.filter_restrict h

variable [DecidableEq κ] {k : κ} {v : ν}

theorem get?_tenantRows (hk : isOf tenantId k = true) :
    (tenantRows tenantId table).get? k = table.get? k :=
  Dict.get?_restrict hk

theorem tenantRows_set (hk : isOf tenantId k = true) :
    tenantRows tenantId (table.set k v) = (tenantRows tenantId table).set k v :=
  Dict.restrict_set hk

theorem tenantRows_set_other {other : String} (hk : isOf tenantId k = true)
    (hne : other ≠ tenantId) : tenantRows other (table.set k v) = tenantRows other table := by
  have htenant : (Scoped.scope k).tenantId = tenantId := of_decide_eq_true hk
  have hother : isOf other k = false := decide_eq_false fun h => hne (h.symm.trans htenant)
  exact Dict.restrict_set_other hother

end Tables

/-! ## Rows -/

/-- The store without the rows of other tenants. -/
def Store.ofTenant (tenantId : String) (s : Store) : Store where
  admissionLimit := s.admissionLimit
  submissions := tenantRows tenantId s.submissions
  idempotency := tenantRows tenantId s.idempotency
  outbox := tenantRows tenantId s.outbox
  dispatches := tenantRows tenantId s.dispatches
  leases := tenantRows tenantId s.leases
  attempts := tenantRows tenantId s.attempts
  resultPublications := tenantRows tenantId s.resultPublications
  checkpoints := tenantRows tenantId s.checkpoints
  effects := tenantRows tenantId s.effects
  previews := tenantRows tenantId s.previews
  diffs := tenantRows tenantId s.diffs
  shadows := tenantRows tenantId s.shadows
  baselines := tenantRows tenantId s.baselines
  actionJobs := tenantRows tenantId s.actionJobs
  actionIdempotency := tenantRows tenantId s.actionIdempotency
  diagnostics := s.diagnostics.filter fun row => row.scope.tenantId = tenantId
  executionRouteStates := s.executionRouteStates
  executionRouteReferences := s.executionRouteReferences

/-- The rows of a tenant, in the order of the store. -/
def Store.rows (tenantId : String) (s : Store) : Store :=
  { s.ofTenant tenantId with
    admissionLimit := none, executionRouteStates := .empty, executionRouteReferences := .empty }

/-- The stores have the same rows of a tenant, the same route states and the same references. -/
structure Agree (tenantId : String) (s t : Store) : Prop where
  rows : s.rows tenantId = t.rows tenantId
  executionRouteStates : s.executionRouteStates = t.executionRouteStates
  executionRouteReferences : s.executionRouteReferences = t.executionRouteReferences

section Projections

variable {tenantId : String} {s : Store}

theorem ofTenant_submissions :
    (s.ofTenant tenantId).submissions = tenantRows tenantId s.submissions := rfl

theorem ofTenant_idempotency :
    (s.ofTenant tenantId).idempotency = tenantRows tenantId s.idempotency := rfl

theorem ofTenant_outbox : (s.ofTenant tenantId).outbox = tenantRows tenantId s.outbox := rfl

theorem ofTenant_dispatches :
    (s.ofTenant tenantId).dispatches = tenantRows tenantId s.dispatches := rfl

theorem ofTenant_leases : (s.ofTenant tenantId).leases = tenantRows tenantId s.leases := rfl

theorem ofTenant_attempts : (s.ofTenant tenantId).attempts = tenantRows tenantId s.attempts := rfl

theorem ofTenant_resultPublications :
    (s.ofTenant tenantId).resultPublications = tenantRows tenantId s.resultPublications := rfl

theorem ofTenant_checkpoints :
    (s.ofTenant tenantId).checkpoints = tenantRows tenantId s.checkpoints := rfl

theorem ofTenant_effects : (s.ofTenant tenantId).effects = tenantRows tenantId s.effects := rfl

theorem ofTenant_previews : (s.ofTenant tenantId).previews = tenantRows tenantId s.previews := rfl

theorem ofTenant_diffs : (s.ofTenant tenantId).diffs = tenantRows tenantId s.diffs := rfl

theorem ofTenant_shadows : (s.ofTenant tenantId).shadows = tenantRows tenantId s.shadows := rfl

theorem ofTenant_baselines :
    (s.ofTenant tenantId).baselines = tenantRows tenantId s.baselines := rfl

theorem ofTenant_actionJobs :
    (s.ofTenant tenantId).actionJobs = tenantRows tenantId s.actionJobs := rfl

theorem ofTenant_actionIdempotency :
    (s.ofTenant tenantId).actionIdempotency = tenantRows tenantId s.actionIdempotency := rfl

theorem ofTenant_admissionLimit : (s.ofTenant tenantId).admissionLimit = s.admissionLimit := rfl

theorem ofTenant_executionRouteReferences :
    (s.ofTenant tenantId).executionRouteReferences = s.executionRouteReferences := rfl

theorem routeState_ofTenant (route : String) :
    (s.ofTenant tenantId).routeState route = s.routeState route := rfl

theorem Agree.ofTenant_eq {t : Store} (h : Agree tenantId s t)
    (hlimit : s.admissionLimit = t.admissionLimit) : s.ofTenant tenantId = t.ofTenant tenantId := by
  have hmake : ∀ s : Store, s.ofTenant tenantId = { s.rows tenantId with
      admissionLimit := s.admissionLimit
      executionRouteStates := s.executionRouteStates
      executionRouteReferences := s.executionRouteReferences } := fun _ => rfl
  rw [hmake s, hmake t, h.rows, hlimit, h.executionRouteStates, h.executionRouteReferences]

theorem Store.rows_ofTenant : (s.ofTenant tenantId).rows tenantId = s.rows tenantId := by
  simp [Store.rows, Store.ofTenant, tenantRows_tenantRows]

end Projections

/-! ## Keys of a caller -/

section Keys

variable {ν : Type} {ctx : ControlPlaneContext}

theorem isOf_scopeKey {k : Key} (h : k.scope = ctx.scopeKey) :
    isOf ctx.tenant.tenantId k = true :=
  decide_eq_true (congrArg Scope.tenantId h)

theorem get?_key {table : Dict Key ν} {id : String} :
    (tenantRows ctx.tenant.tenantId table).get? (key ctx id) = table.get? (key ctx id) :=
  get?_tenantRows (decide_eq_true rfl)

theorem get?_scopeKey {table : Dict Key ν} {id : String} :
    (tenantRows ctx.tenant.tenantId table).get? ⟨ctx.scopeKey, id⟩ =
      table.get? ⟨ctx.scopeKey, id⟩ :=
  get?_tenantRows (decide_eq_true rfl)

theorem contains_key {table : Dict Key ν} {id : String} :
    (tenantRows ctx.tenant.tenantId table).contains (key ctx id) = table.contains (key ctx id) :=
  congrArg Option.isSome get?_key

theorem get?_publicationKey {table : Dict PublicationKey ν} {submissionId attemptId : String} :
    (tenantRows ctx.tenant.tenantId table).get? ⟨ctx.scopeKey, submissionId, attemptId⟩ =
      table.get? ⟨ctx.scopeKey, submissionId, attemptId⟩ :=
  get?_tenantRows (decide_eq_true rfl)

theorem get?_idempotencyTuple {table : Dict IdempotencyTuple ν} {operation key : String} :
    (tenantRows ctx.tenant.tenantId table).get? (idempotencyTuple ctx operation key) =
      table.get? (idempotencyTuple ctx operation key) :=
  get?_tenantRows (decide_eq_true rfl)

theorem get?_actionIdempotencyTuple {table : Dict ActionIdempotencyTuple ν}
    {authority : Option (String × String × String)} {request : ActionRequest} :
    (tenantRows ctx.tenant.tenantId table).get? (actionIdempotencyTuple ctx authority request) =
      table.get? (actionIdempotencyTuple ctx authority request) :=
  get?_tenantRows (decide_eq_true rfl)

end Keys

/-! ## Writes to rows of one tenant -/

/-- `t` is `s` after writes to rows of the tenant, and `t'` are the rows of `t`. -/
structure Moved (tenantId : String) (s t t' : Store) : Prop where
  store : t' = t.ofTenant tenantId
  others : ∀ other ≠ tenantId, t.rows other = s.rows other

/-- One outcome on the store, one on the rows of the tenant alone: they give the same. -/
structure Mirrors {α : Type} (tenantId : String) (s : Store) (o o' : Outcome α) : Prop where
  result : o'.result = o.result
  moved : Moved tenantId s o.store o'.store

/-- An operation does the same on the rows of the tenant, and keeps all other rows. -/
abbrev Mirrored {α : Type} (tenantId : String) (op : Store → Outcome α) (s : Store) : Prop :=
  Mirrors tenantId s (op s) (op (s.ofTenant tenantId))

section Moves

variable {tenantId : String} {s t t' : Store} {α : Type}

theorem Moved.refl : Moved tenantId s s (s.ofTenant tenantId) := ⟨rfl, fun _ _ => rfl⟩

theorem Mirrors.raise (e : PyError) (h : Moved tenantId s t t') :
    Mirrors tenantId s (Durable.raise e t : Outcome α) (Durable.raise e t') :=
  ⟨rfl, h⟩

theorem Mirrors.ret {a : α} (h : Moved tenantId s t t') :
    Mirrors tenantId s (Durable.ret a t) (Durable.ret a t') :=
  ⟨rfl, h⟩

variable (h : Moved tenantId s t t')

include h

/-- A row of the tenant is set in one of its tables. -/
theorem Moved.set {κ ν : Type} [DecidableEq κ] [Scoped κ] {k : κ} {v : ν}
    (hk : isOf tenantId k = true) (table : Store → Dict κ ν) (withTable : Dict κ ν → Store → Store)
    (hput : ∀ rows x tenantId, (withTable rows x).ofTenant tenantId =
      withTable (tenantRows tenantId rows) (x.ofTenant tenantId))
    (hget : ∀ x tenantId, table (x.ofTenant tenantId) = tenantRows tenantId (table x))
    (hsame : ∀ x, withTable (table x) x = x) :
    Moved tenantId s (withTable ((table t).set k v) t) (withTable ((table t').set k v) t') := by
  obtain ⟨rfl, hothers⟩ := h
  constructor
  · rw [hput, hget, tenantRows_set hk]
  · intro other hne
    rw [← hothers other hne]
    unfold Store.rows
    rw [hput, tenantRows_set_other hk hne, ← hget, hsame]

theorem Moved.submissions {k : Key} {v : SubmissionRecord} (hk : isOf tenantId k = true) :
    Moved tenantId s { t with submissions := t.submissions.set k v }
      { t' with submissions := t'.submissions.set k v } :=
  h.set hk (·.submissions) (fun rows x => { x with submissions := rows }) (fun _ _ _ => rfl)
    (fun _ _ => rfl) fun _ => rfl

theorem Moved.idempotency {k : IdempotencyTuple} {v : String} (hk : isOf tenantId k = true) :
    Moved tenantId s { t with idempotency := t.idempotency.set k v }
      { t' with idempotency := t'.idempotency.set k v } :=
  h.set hk (·.idempotency) (fun rows x => { x with idempotency := rows }) (fun _ _ _ => rfl)
    (fun _ _ => rfl) fun _ => rfl

theorem Moved.outbox {k : Key} {v : OutboxRecord} (hk : isOf tenantId k = true) :
    Moved tenantId s { t with outbox := t.outbox.set k v }
      { t' with outbox := t'.outbox.set k v } :=
  h.set hk (·.outbox) (fun rows x => { x with outbox := rows }) (fun _ _ _ => rfl)
    (fun _ _ => rfl) fun _ => rfl

theorem Moved.dispatches {k : Key} {v : DispatchRecord} (hk : isOf tenantId k = true) :
    Moved tenantId s { t with dispatches := t.dispatches.set k v }
      { t' with dispatches := t'.dispatches.set k v } :=
  h.set hk (·.dispatches) (fun rows x => { x with dispatches := rows }) (fun _ _ _ => rfl)
    (fun _ _ => rfl) fun _ => rfl

theorem Moved.leases {k : Key} {v : LeaseRecord} (hk : isOf tenantId k = true) :
    Moved tenantId s { t with leases := t.leases.set k v }
      { t' with leases := t'.leases.set k v } :=
  h.set hk (·.leases) (fun rows x => { x with leases := rows }) (fun _ _ _ => rfl)
    (fun _ _ => rfl) fun _ => rfl

theorem Moved.attempts {k : Key} {v : AttemptRecord} (hk : isOf tenantId k = true) :
    Moved tenantId s { t with attempts := t.attempts.set k v }
      { t' with attempts := t'.attempts.set k v } :=
  h.set hk (·.attempts) (fun rows x => { x with attempts := rows }) (fun _ _ _ => rfl)
    (fun _ _ => rfl) fun _ => rfl

theorem Moved.resultPublications {k : PublicationKey} {v : ResultPublicationRecord}
    (hk : isOf tenantId k = true) :
    Moved tenantId s { t with resultPublications := t.resultPublications.set k v }
      { t' with resultPublications := t'.resultPublications.set k v } :=
  h.set hk (·.resultPublications) (fun rows x => { x with resultPublications := rows }) (fun _ _ _ => rfl)
    (fun _ _ => rfl) fun _ => rfl

theorem Moved.checkpoints {k : Key} {v : CheckpointRecord} (hk : isOf tenantId k = true) :
    Moved tenantId s { t with checkpoints := t.checkpoints.set k v }
      { t' with checkpoints := t'.checkpoints.set k v } :=
  h.set hk (·.checkpoints) (fun rows x => { x with checkpoints := rows }) (fun _ _ _ => rfl)
    (fun _ _ => rfl) fun _ => rfl

theorem Moved.effects {k : Key} {v : EffectRecord} (hk : isOf tenantId k = true) :
    Moved tenantId s { t with effects := t.effects.set k v }
      { t' with effects := t'.effects.set k v } :=
  h.set hk (·.effects) (fun rows x => { x with effects := rows }) (fun _ _ _ => rfl)
    (fun _ _ => rfl) fun _ => rfl

theorem Moved.previews {k : Key} {v : PreviewWorkspace} (hk : isOf tenantId k = true) :
    Moved tenantId s { t with previews := t.previews.set k v }
      { t' with previews := t'.previews.set k v } :=
  h.set hk (·.previews) (fun rows x => { x with previews := rows }) (fun _ _ _ => rfl)
    (fun _ _ => rfl) fun _ => rfl

theorem Moved.diffs {k : Key} {v : DiffRecord} (hk : isOf tenantId k = true) :
    Moved tenantId s { t with diffs := t.diffs.set k v }
      { t' with diffs := t'.diffs.set k v } :=
  h.set hk (·.diffs) (fun rows x => { x with diffs := rows }) (fun _ _ _ => rfl)
    (fun _ _ => rfl) fun _ => rfl

theorem Moved.shadows {k : Key} {v : ShadowRunRecord} (hk : isOf tenantId k = true) :
    Moved tenantId s { t with shadows := t.shadows.set k v }
      { t' with shadows := t'.shadows.set k v } :=
  h.set hk (·.shadows) (fun rows x => { x with shadows := rows }) (fun _ _ _ => rfl)
    (fun _ _ => rfl) fun _ => rfl

theorem Moved.baselines {k : Key} {v : BaselineAcknowledgement} (hk : isOf tenantId k = true) :
    Moved tenantId s { t with baselines := t.baselines.set k v }
      { t' with baselines := t'.baselines.set k v } :=
  h.set hk (·.baselines) (fun rows x => { x with baselines := rows }) (fun _ _ _ => rfl)
    (fun _ _ => rfl) fun _ => rfl

theorem Moved.actionJobs {k : Key} {v : ActionJobRecord} (hk : isOf tenantId k = true) :
    Moved tenantId s { t with actionJobs := t.actionJobs.set k v }
      { t' with actionJobs := t'.actionJobs.set k v } :=
  h.set hk (·.actionJobs) (fun rows x => { x with actionJobs := rows }) (fun _ _ _ => rfl)
    (fun _ _ => rfl) fun _ => rfl

theorem Moved.actionIdempotency {k : ActionIdempotencyTuple} {v : String}
    (hk : isOf tenantId k = true) :
    Moved tenantId s { t with actionIdempotency := t.actionIdempotency.set k v }
      { t' with actionIdempotency := t'.actionIdempotency.set k v } :=
  h.set hk (·.actionIdempotency) (fun rows x => { x with actionIdempotency := rows }) (fun _ _ _ => rfl)
    (fun _ _ => rfl) fun _ => rfl

theorem Moved.diagnostics {row : StateDiagnostic} (hrow : row.scope.tenantId = tenantId) :
    Moved tenantId s { t with diagnostics := t.diagnostics ++ [row] }
      { t' with diagnostics := t'.diagnostics ++ [row] } := by
  obtain ⟨rfl, hothers⟩ := h
  constructor
  · simp [Store.ofTenant, hrow]
  · intro other hne
    have hother : row.scope.tenantId ≠ other := fun h => hne (h.symm.trans hrow)
    rw [← hothers other hne]
    simp [Store.rows, Store.ofTenant, hother]

theorem Moved.executionRouteReferences {table : Dict String (Finset String)} :
    Moved tenantId s { t with executionRouteReferences := table }
      { t' with executionRouteReferences := table } := by
  obtain ⟨rfl, hothers⟩ := h
  exact ⟨rfl, hothers⟩

end Moves

end Etlantic.ControlPlane.Durable
