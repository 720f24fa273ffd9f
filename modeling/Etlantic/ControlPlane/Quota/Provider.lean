import Etlantic.ControlPlane.DurableModels

/-!
# The in-memory quota provider

`MemoryQuotaProvider` admits units of a resource for the workspace of a caller,
up to the configured limit, and takes them back.  A keyed admission is a
reservation: a retry with the same key is given the reservation it already has
and adds its claim to it.  Under shared pressure a new reservation also needs
the turn of its workspace in a ring of the workspaces that use the resource.

Host code sets `unavailable` directly; it is a call here like the others.
-/

namespace Etlantic.ControlPlane.Quota

inductive QuotaResource where
  | concurrency
  | preview
  | events
  | repair
  | storageBytes
deriving DecidableEq

inductive QuotaEffect where
  | allow
  | deny
  | suspended
  | contained
deriving DecidableEq

structure QuotaBudget where
  resource : QuotaResource
  limit : Int
  weight : Int

structure QuotaState where
  scope : Scope
  suspended : Bool
  contained : Bool
  usage : Dict QuotaResource Int
  updatedAt : Instant

/-- The entries of a decision's `metadata`. -/
structure DecisionMetadata where
  rrCursor : Option Int
  weight : Option Int
  sharedPressure : Option Bool
  reservationKey : Option String
deriving DecidableEq

def DecisionMetadata.empty : DecisionMetadata := ⟨none, none, none, none⟩

structure QuotaDecision where
  effect : QuotaEffect
  resource : QuotaResource
  limit : Int
  used : Int
  reason : String
  metadata : DecisionMetadata
deriving DecidableEq

/-- `(tenant_id, workspace_id, key)`. -/
structure QuotaKey where
  scope : Scope
  key : String
deriving DecidableEq

/-- `uuid.uuid4().hex`: 32 hexadecimal digits. -/
structure UuidHex where
  text : String
  length : text.length = 32
deriving DecidableEq

/-- What one call reads from its surroundings. -/
structure Env where
  now : Instant
  uuid : UuidHex

structure MemoryQuotaProvider where
  unavailable : Bool
  sharedPressure : Bool
  defaultLimits : Dict QuotaResource Int
  weights : Dict Scope Int
  states : Dict Scope QuotaState
  admissions : Dict QuotaKey (QuotaResource × Int × QuotaDecision)
  releases : Dict QuotaKey (QuotaResource × Int)
  claims : Dict QuotaKey (Finset String)
  rrCursor : Int

/-- A new provider with the given limits and weights. -/
def MemoryQuotaProvider.init (defaultLimits : Dict QuotaResource Int) (weights : Dict Scope Int) :
    MemoryQuotaProvider where
  unavailable := false
  sharedPressure := false
  defaultLimits := defaultLimits
  weights := weights
  states := .empty
  admissions := .empty
  releases := .empty
  claims := .empty
  rrCursor := 0

namespace MemoryQuotaProvider

/-! ## Reading the tables -/

/-- `int(self.default_limits.get(resource, 0))`. -/
def limit (p : MemoryQuotaProvider) (resource : QuotaResource) : Int :=
  (p.defaultLimits.get? resource).getD 0

/-- `self.weights.get(scope, 1)`. -/
def weight (p : MemoryQuotaProvider) (scope : Scope) : Int := (p.weights.get? scope).getD 1

end MemoryQuotaProvider

/-- `int(state.usage.get(resource, 0))`. -/
def QuotaState.used (state : QuotaState) (resource : QuotaResource) : Int :=
  (state.usage.get? resource).getD 0

/-- The usage of a resource in a workspace; 0 before the workspace has a state. -/
def MemoryQuotaProvider.used (p : MemoryQuotaProvider) (scope : Scope)
    (resource : QuotaResource) : Int :=
  ((p.states.get? scope).map (·.used resource)).getD 0

def QuotaState.initial (scope : Scope) (now : Instant) : QuotaState :=
  ⟨scope, false, false, .empty, now⟩

def QuotaState.withUsage (state : QuotaState) (resource : QuotaResource) (used : Int)
    (now : Instant) : QuotaState :=
  { state with usage := state.usage.set resource used, updatedAt := now }

/-- `(*_scope(ctx), f"{reservation_key}:release")`. -/
def releaseKey (scope : Scope) (reservationKey : String) : QuotaKey :=
  ⟨scope, reservationKey ++ ":release"⟩

def unavailableError (ctx : ControlPlaneContext) : PyError :=
  .controlPlane ⟨"quota provider unavailable", "PMCP503", 503,
    "etlantic.control_plane/unavailable", "Unavailable",
    [("tenant_id", .str ctx.tenant.tenantId), ("workspace_id", .str ctx.workspace.workspaceId)]⟩

section Operations

variable (env : Env) (ctx : ControlPlaneContext)

/-- `_ensure`: the state of the caller's workspace, made if there is none. -/
def ensure (p : MemoryQuotaProvider) : QuotaState × MemoryQuotaProvider :=
  match p.states.get? ctx.scopeKey with
  | some state => (state, p)
  | none =>
      let state := QuotaState.initial ctx.scopeKey env.now
      (state, { p with states := p.states.set ctx.scopeKey state })

def getBudget (resource : QuotaResource) (p : MemoryQuotaProvider) :
    Reply MemoryQuotaProvider QuotaBudget :=
  if p.unavailable then ⟨.error (unavailableError ctx), p⟩
  else ⟨.ok ⟨resource, p.limit resource, p.weight ctx.scopeKey⟩, p⟩

def getState (p : MemoryQuotaProvider) : Reply MemoryQuotaProvider QuotaState :=
  if p.unavailable then ⟨.error (unavailableError ctx), p⟩
  else ⟨.ok (ensure env ctx p).1, (ensure env ctx p).2⟩

/-! ## The ring -/

/-- The order of `sorted(self._states.items())`. -/
def scopeLe (a b : Scope) : Bool :=
  a.tenantId < b.tenantId || (a.tenantId = b.tenantId && a.workspaceId ≤ b.workspaceId)

/-- The workspaces that compete for `units` asked for by `scope`. -/
def eligible (scope : Scope) (resource : QuotaResource) (units : Int)
    (p : MemoryQuotaProvider) : List Scope :=
  ((p.states.entries.insertionSort fun a b => scopeLe a.1 b.1).filter fun e =>
    !(e.2.suspended || e.2.contained) &&
      decide (e.2.used resource + (if e.1 = scope then units else 1) ≤ p.limit resource) &&
      (decide (e.1 = scope) || decide (0 < e.2.used resource))).map Prod.fst

/-- Every workspace as often as its weight says, and at least once. -/
def ring (p : MemoryQuotaProvider) (scopes : List Scope) : List Scope :=
  scopes.flatMap fun scope => List.replicate (max 1 (p.weight scope)).toNat scope

/-- `idx = self._rr_cursor % n`, for a cursor `offset` steps ahead. -/
def slot (cursor : Int) (offset n : Nat) : Nat := ((cursor + offset) % n).toNat

/-- `_wrr_allows`: whether the turn is the caller's, and the cursor it leaves. -/
def wrrAllows (scope : Scope) (resource : QuotaResource) (units : Int)
    (p : MemoryQuotaProvider) : Bool × MemoryQuotaProvider :=
  match eligible scope resource units p with
  | [] => (false, p)
  | [only] => (decide (only = scope), p)
  | scopes =>
      let slots := ring p scopes
      let idx := slot p.rrCursor 0 slots.length
      (decide (slots[idx]? = some scope),
        { p with rrCursor := ((idx + 1) % slots.length : Nat) })

/-! ## Admission and release -/

/-- The reservation that a key already holds: its admission, and the key of its
release. -/
def activeReservation (idempotencyKey : Option String) (p : MemoryQuotaProvider) :
    Option ((QuotaResource × Int × QuotaDecision) × QuotaKey) :=
  idempotencyKey.bind fun key =>
    (p.admissions.get? ⟨ctx.scopeKey, key⟩).map fun prior =>
      (prior, releaseKey ctx.scopeKey (prior.2.2.metadata.reservationKey.getD key))

/-- The decision that keeps a caller out before its turn is looked at. -/
def refusal (state : QuotaState) (resource : QuotaResource) (units limit : Int) :
    Option QuotaDecision :=
  if state.suspended then
    some ⟨.suspended, resource, limit, state.used resource, "workspace suspended", .empty⟩
  else if state.contained then
    some ⟨.contained, resource, limit, state.used resource, "emergency containment active", .empty⟩
  else if state.used resource + units > limit then
    some ⟨.deny, resource, limit, state.used resource, "quota exceeded", .empty⟩
  else none

/-- `f"{idempotency_key}:{uuid4().hex}"`. -/
def reservationKeyOf (key : String) : String := key ++ ":" ++ env.uuid.text

/-- The units are charged, and a keyed admission is filed. -/
def charge (resource : QuotaResource) (units : Int) (idempotencyKey claimId : Option String)
    (state : QuotaState) (p : MemoryQuotaProvider) : Reply MemoryQuotaProvider QuotaDecision :=
  let scope := ctx.scopeKey
  let used := state.used resource
  let decision : QuotaDecision :=
    ⟨.allow, resource, p.limit resource, used + units, "admitted",
      ⟨some p.rrCursor, some (p.weight scope), some p.sharedPressure,
        idempotencyKey.map (reservationKeyOf env)⟩⟩
  let charged :=
    { p with states := p.states.set scope (state.withUsage resource (used + units) env.now) }
  match idempotencyKey with
  | none => ⟨.ok decision, charged⟩
  | some key =>
      ⟨.ok decision,
        { charged with
          admissions := p.admissions.set ⟨scope, key⟩ (resource, units, decision)
          claims := p.claims.set (releaseKey scope (reservationKeyOf env key))
            {claimId.getD ""} }⟩

/-- `self._claims.setdefault(release_key, {""}).add(claim)`. -/
def addOwner (release : QuotaKey) (claim : String) (p : MemoryQuotaProvider) :
    MemoryQuotaProvider :=
  let owners := insert claim ((p.claims.get? release).getD {""})
  { p with claims := p.claims.set release owners }

/-- The part of `admit` for a caller that holds no reservation under its key. -/
def admitNew (resource : QuotaResource) (units : Int) (idempotencyKey claimId : Option String)
    (p : MemoryQuotaProvider) : Reply MemoryQuotaProvider QuotaDecision :=
  let (state, p) := ensure env ctx p
  let limit := p.limit resource
  match refusal state resource units limit with
  | some decision => ⟨.ok decision, p⟩
  | none =>
      if p.sharedPressure then
        match wrrAllows ctx.scopeKey resource units p with
        | (false, p) =>
            ⟨.ok ⟨.deny, resource, limit, state.used resource, "fairness deferred",
              ⟨some p.rrCursor, some (p.weight ctx.scopeKey), some true, none⟩⟩, p⟩
        | (true, p) => charge env ctx resource units idempotencyKey claimId state p
      else charge env ctx resource units idempotencyKey claimId state p

def admit_ (resource : QuotaResource) (units : Int) (idempotencyKey claimId : Option String)
    (p : MemoryQuotaProvider) : Reply MemoryQuotaProvider QuotaDecision :=
  if p.unavailable then ⟨.error (unavailableError ctx), p⟩
  else if units < 1 then ⟨.error (conflict "units must be positive"), p⟩
  else if claimId ≠ none ∧ (claimId = some "" ∨ idempotencyKey = none) then
    ⟨.error (conflict "Quota claims require a keyed admission"), p⟩
  else
    match activeReservation ctx idempotencyKey p with
    | none => admitNew env ctx resource units idempotencyKey claimId p
    | some (prior, release) =>
        if (prior.1, prior.2.1) ≠ (resource, units) then
          ⟨.error (conflict "Quota idempotency key reused with different admission"), p⟩
        else if p.releases.contains release then
          admitNew env ctx resource units idempotencyKey claimId p
        else
          -- The retry is one more owner of the reservation.
          ⟨.ok prior.2.2, addOwner release (claimId.getD "") p⟩

/-- The units are given back, under the key if there is one. -/
def settle (resource : QuotaResource) (units : Int) (release : Option QuotaKey)
    (p : MemoryQuotaProvider) : Reply MemoryQuotaProvider QuotaState :=
  let (state, p) := ensure env ctx p
  let updated := state.withUsage resource (max 0 (state.used resource - units)) env.now
  let settled := { p with states := p.states.set ctx.scopeKey updated }
  match release with
  | none => ⟨.ok updated, settled⟩
  | some key =>
      ⟨.ok updated,
        { settled with
          releases := p.releases.set key (resource, units)
          claims := p.claims.erase key }⟩

/-- The state of the caller's workspace, and nothing else. -/
def unsettled (p : MemoryQuotaProvider) : Reply MemoryQuotaProvider QuotaState :=
  ⟨.ok (ensure env ctx p).1, (ensure env ctx p).2⟩

def release (resource : QuotaResource) (units : Int) (idempotencyKey claimId : Option String)
    (p : MemoryQuotaProvider) : Reply MemoryQuotaProvider QuotaState :=
  if p.unavailable then ⟨.error (unavailableError ctx), p⟩
  else if claimId ≠ none ∧ (claimId = some "" ∨
      idempotencyKey.all (fun key => key.endsWith ":release") = false ∨
      idempotencyKey = none) then
    ⟨.error (conflict "Quota claims require a keyed release"), p⟩
  else
    match idempotencyKey with
    | none => settle env ctx resource units none p
    | some key =>
        let release : QuotaKey := ⟨ctx.scopeKey, key⟩
        match p.releases.get? release with
        | some prior =>
            if prior ≠ (resource, units) then
              ⟨.error (conflict "Quota release key reused with different release"), p⟩
            else unsettled env ctx p
        | none =>
            match claimId with
            | none => settle env ctx resource units (some release) p
            | some claim =>
                match p.claims.get? release with
                | none => unsettled env ctx p
                | some claims =>
                    if claim ∉ claims then unsettled env ctx p
                    else
                      let p := { p with claims := p.claims.set release (claims.erase claim) }
                      if (claims.erase claim).Nonempty then unsettled env ctx p
                      else settle env ctx resource units (some release) p

def setSuspended (suspended : Bool) (p : MemoryQuotaProvider) :
    Reply MemoryQuotaProvider QuotaState :=
  if p.unavailable then ⟨.error (unavailableError ctx), p⟩
  else
    let (state, p) := ensure env ctx p
    let updated := { state with suspended := suspended, updatedAt := env.now }
    ⟨.ok updated, { p with states := p.states.set ctx.scopeKey updated }⟩

def setContained (contained : Bool) (p : MemoryQuotaProvider) :
    Reply MemoryQuotaProvider QuotaState :=
  if p.unavailable then ⟨.error (unavailableError ctx), p⟩
  else
    let (state, p) := ensure env ctx p
    let updated := { state with contained := contained, updatedAt := env.now }
    ⟨.ok updated, { p with states := p.states.set ctx.scopeKey updated }⟩

end Operations

/-! ## What a call can do -/

/-- The reservations and the usage are as before. -/
structure Quiet (p q : MemoryQuotaProvider) : Prop where
  used : ∀ scope resource, q.used scope resource = p.used scope resource
  admissions : q.admissions = p.admissions
  releases : q.releases = p.releases
  claims : q.claims = p.claims
  limit : q.limit = p.limit

theorem Quiet.refl (p : MemoryQuotaProvider) : Quiet p p :=
  ⟨fun _ _ => rfl, rfl, rfl, rfl, rfl⟩

theorem Quiet.trans {p q r : MemoryQuotaProvider} (h : Quiet p q) (h' : Quiet q r) : Quiet p r :=
  ⟨fun scope resource => (h'.used scope resource).trans (h.used scope resource),
    h'.admissions.trans h.admissions, h'.releases.trans h.releases, h'.claims.trans h.claims,
    h'.limit.trans h.limit⟩

theorem QuotaState.used_withUsage (state : QuotaState) (resource other : QuotaResource)
    (used : Int) (now : Instant) :
    (state.withUsage resource used now).used other =
      if resource = other then used else state.used other := by
  unfold QuotaState.used QuotaState.withUsage
  rw [Dict.get?_set]
  by_cases h : resource = other
  · rw [if_pos h, if_pos h]
    rfl
  · rw [if_neg h, if_neg h]

theorem used_setState (p : MemoryQuotaProvider) (scope other : Scope) (state : QuotaState)
    (resource : QuotaResource) :
    MemoryQuotaProvider.used { p with states := p.states.set scope state } other resource =
      if scope = other then state.used resource else p.used other resource := by
  unfold MemoryQuotaProvider.used
  show ((((p.states.set scope state).get? other).map _).getD 0) = _
  rw [Dict.get?_set]
  by_cases h : scope = other
  · rw [if_pos h, if_pos h]
    rfl
  · rw [if_neg h, if_neg h]

section Spec

variable (env : Env) (ctx : ControlPlaneContext) (p : MemoryQuotaProvider)

theorem ensure_used (resource : QuotaResource) :
    (ensure env ctx p).1.used resource = p.used ctx.scopeKey resource := by
  unfold ensure MemoryQuotaProvider.used
  cases p.states.get? ctx.scopeKey with
  | none => rfl
  | some state => rfl

theorem ensure_quiet : Quiet p (ensure env ctx p).2 := by
  unfold ensure
  cases hget : p.states.get? ctx.scopeKey with
  | some state => exact Quiet.refl p
  | none =>
      refine ⟨?_, rfl, rfl, rfl, rfl⟩
      intro scope resource
      rw [used_setState]
      by_cases h : ctx.scopeKey = scope
      · subst h
        rw [if_pos rfl]
        unfold MemoryQuotaProvider.used
        rw [hget]
        rfl
      · rw [if_neg h]

theorem wrrAllows_quiet (scope : Scope) (resource : QuotaResource) (units : Int) :
    Quiet p (wrrAllows scope resource units p).2 := by
  unfold wrrAllows
  split
  · exact Quiet.refl p
  · exact Quiet.refl p
  · exact ⟨fun _ _ => rfl, rfl, rfl, rfl, rfl⟩

/-- What `admit` does: raise, answer without an admission, add a claim to the
reservation that the key holds, or charge the units below the limit. -/
inductive Admits (resource : QuotaResource) (units : Int) (idempotencyKey claimId : Option String) :
    Reply MemoryQuotaProvider QuotaDecision → Prop
  | refused (error : PyError) : Admits resource units idempotencyKey claimId ⟨.error error, p⟩
  | denied (decision : QuotaDecision) (q : MemoryQuotaProvider)
      (hdenied : decision.effect ≠ .allow) (hq : Quiet p q) :
      Admits resource units idempotencyKey claimId ⟨.ok decision, q⟩
  | joined (decision : QuotaDecision) (release : QuotaKey)
      (hactive : activeReservation ctx idempotencyKey p =
        some ((resource, units, decision), release))
      (hopen : p.releases.contains release = false) :
      Admits resource units idempotencyKey claimId
        ⟨.ok decision, addOwner release (claimId.getD "") p⟩
  | charged (state : QuotaState) (q : MemoryQuotaProvider) (hq : Quiet p q)
      (hused : ∀ other, state.used other = p.used ctx.scopeKey other)
      (hunits : 1 ≤ units) (hlimit : p.used ctx.scopeKey resource + units ≤ p.limit resource) :
      Admits resource units idempotencyKey claimId
        (charge env ctx resource units idempotencyKey claimId state q)

theorem refusal_effect {state : QuotaState} {resource : QuotaResource} {units limit : Int}
    {decision : QuotaDecision} (h : refusal state resource units limit = some decision) :
    decision.effect ≠ .allow := by
  unfold refusal at h
  split at h
  · cases h
    simp
  · split at h
    · cases h
      simp
    · split at h
      · cases h
        simp
      · cases h

theorem refusal_none {state : QuotaState} {resource : QuotaResource} {units limit : Int}
    (h : refusal state resource units limit = none) : state.used resource + units ≤ limit := by
  unfold refusal at h
  split at h
  · cases h
  · split at h
    · cases h
    · split at h
      · cases h
      · omega

theorem admitNew_admits (resource : QuotaResource) (units : Int)
    (idempotencyKey claimId : Option String) (hunits : 1 ≤ units) :
    Admits env ctx p resource units idempotencyKey claimId
      (admitNew env ctx resource units idempotencyKey claimId p) := by
  have hensure := ensure_quiet env ctx p
  have hused := ensure_used env ctx p
  unfold admitNew
  generalize ensure env ctx p = made at hensure hused
  obtain ⟨state, q⟩ := made
  simp only at hensure hused ⊢
  cases hrefusal : refusal state resource units (q.limit resource) with
  | some decision => exact .denied decision q (refusal_effect hrefusal) hensure
  | none =>
      have hlimit : p.used ctx.scopeKey resource + units ≤ p.limit resource := by
        have := refusal_none hrefusal
        rw [hused, hensure.limit] at this
        exact this
      simp only
      split
      · -- Under pressure the ring decides.
        have hring := wrrAllows_quiet q ctx.scopeKey resource units
        generalize wrrAllows ctx.scopeKey resource units q = turn at hring
        obtain ⟨allowed, q'⟩ := turn
        cases allowed with
        | false => exact .denied _ q' (by simp) (hensure.trans hring)
        | true => exact .charged state q' (hensure.trans hring) hused hunits hlimit
      · exact .charged state q hensure hused hunits hlimit

theorem admit_admits (resource : QuotaResource) (units : Int)
    (idempotencyKey claimId : Option String) :
    Admits env ctx p resource units idempotencyKey claimId
      (admit_ env ctx resource units idempotencyKey claimId p) := by
  unfold admit_
  split
  · exact .refused _
  · split
    · exact .refused _
    · rename_i hunits
      have hnew := admitNew_admits env ctx p resource units idempotencyKey claimId (by omega)
      split
      · exact .refused _
      · split
        · exact hnew
        · rename_i prior release hactive
          obtain ⟨priorResource, priorUnits, decision⟩ := prior
          split
          · exact .refused _
          · rename_i hsame
            obtain ⟨rfl, rfl⟩ := Prod.mk.inj (not_not.mp hsame)
            split
            · exact hnew
            · rename_i hopen
              exact .joined decision release hactive (by simpa using hopen)

/-- The usage falls by the units, and the release is filed. -/
structure Settled (key : QuotaKey) (resource : QuotaResource) (units : Int)
    (q : MemoryQuotaProvider) : Prop where
  used : ∀ scope other, q.used scope other =
    if ctx.scopeKey = scope ∧ resource = other then max 0 (p.used scope other - units)
    else p.used scope other
  admissions : q.admissions = p.admissions
  releases : q.releases = p.releases.set key (resource, units)
  claims : ∀ other, key ≠ other → q.claims.get? other = p.claims.get? other
  limit : q.limit = p.limit

/-- What a release under a key does: raise, nothing, compensate one of several
claims, or give the units back. -/
inductive Releases (resource : QuotaResource) (units : Int) (key : QuotaKey)
    (claimId : Option String) : Reply MemoryQuotaProvider QuotaState → Prop
  | refused (error : PyError) : Releases resource units key claimId ⟨.error error, p⟩
  | repeated (state : QuotaState) (q : MemoryQuotaProvider) (hq : Quiet p q)
      (hnothing : p.releases.get? key = some (resource, units) ∨
        ∃ claim, claimId = some claim ∧ claim ∉ (p.claims.get? key).getD ∅) :
      Releases resource units key claimId ⟨.ok state, q⟩
  | compensated (state : QuotaState) (q : MemoryQuotaProvider) (claims : Finset String)
      (claim : String) (hclaim : claimId = some claim) (hopen : p.releases.get? key = none)
      (hclaims : p.claims.get? key = some claims) (hmem : claim ∈ claims)
      (hleft : claims.erase claim ≠ ∅)
      (hq : Quiet { p with claims := p.claims.set key (claims.erase claim) } q) :
      Releases resource units key claimId ⟨.ok state, q⟩
  | settled (state : QuotaState) (q : MemoryQuotaProvider) (hopen : p.releases.get? key = none)
      (hlast : claimId = none ∨ ∃ claim claims, claimId = some claim ∧
        p.claims.get? key = some claims ∧ claim ∈ claims ∧ claims.erase claim = ∅)
      (hq : Settled ctx p key resource units q) :
      Releases resource units key claimId ⟨.ok state, q⟩

theorem settle_settled (resource : QuotaResource) (units : Int) (key : QuotaKey) :
    ∃ state q, settle env ctx resource units (some key) p = ⟨.ok state, q⟩ ∧
      Settled ctx p key resource units q := by
  have hensure := ensure_quiet env ctx p
  have hused := ensure_used env ctx p
  unfold settle
  generalize ensure env ctx p = made at hensure hused
  obtain ⟨state, q⟩ := made
  refine ⟨_, _, rfl, ?_⟩
  constructor
  · intro scope other
    show MemoryQuotaProvider.used { q with states := q.states.set _ _ } scope other = _
    rw [used_setState, QuotaState.used_withUsage, hensure.used]
    by_cases hscope : ctx.scopeKey = scope
    · subst hscope
      by_cases hresource : resource = other
      · subst hresource
        simp [hused]
      · simp [hused, hresource]
    · simp [hscope]
  · exact hensure.admissions
  · show q.releases.set key _ = _
    rw [hensure.releases]
  · intro other hother
    show (q.claims.erase key).get? other = _
    rw [Dict.get?_erase, hensure.claims, if_neg hother]
  · exact hensure.limit

theorem release_releases (resource : QuotaResource) (units : Int) (key : String)
    (claimId : Option String) :
    Releases ctx p resource units ⟨ctx.scopeKey, key⟩ claimId
      (release env ctx resource units (some key) claimId p) := by
  unfold release
  split
  · exact .refused _
  · split
    · exact .refused _
    · simp only
      cases hreleased : p.releases.get? ⟨ctx.scopeKey, key⟩ with
      | some prior =>
          simp only
          split
          · exact .refused _
          · rename_i hsame
            exact .repeated _ _ (ensure_quiet env ctx p)
              (.inl (hreleased.trans (congrArg some (not_not.mp hsame))))
      | none =>
          cases claimId with
          | none =>
              obtain ⟨state, q, heq, hq⟩ :=
                settle_settled env ctx p resource units ⟨ctx.scopeKey, key⟩
              simp only [heq]
              exact .settled state q hreleased (.inl rfl) hq
          | some claim =>
              simp only
              cases hclaims : p.claims.get? ⟨ctx.scopeKey, key⟩ with
              | none =>
                  exact .repeated _ _ (ensure_quiet env ctx p)
                    (.inr ⟨claim, rfl, by simp [hclaims]⟩)
              | some claims =>
                  simp only
                  split
                  · rename_i hnot
                    exact .repeated _ _ (ensure_quiet env ctx p)
                      (.inr ⟨claim, rfl, by simpa [hclaims] using hnot⟩)
                  · rename_i hmem
                    split
                    · rename_i hleft
                      exact .compensated _ _ claims claim rfl hreleased hclaims
                        (not_not.mp hmem) hleft.ne_empty (ensure_quiet env ctx _)
                    · rename_i hnone
                      -- The last claim is compensated.
                      have hempty : claims.erase claim = ∅ := Finset.not_nonempty_iff_eq_empty.mp hnone
                      obtain ⟨state, q, heq, hq⟩ := settle_settled env ctx
                        { p with claims := p.claims.set ⟨ctx.scopeKey, key⟩ (claims.erase claim) }
                        resource units ⟨ctx.scopeKey, key⟩
                      rw [heq]
                      refine .settled state q hreleased
                        (.inr ⟨claim, claims, rfl, hclaims, not_not.mp hmem, hempty⟩) ?_
                      refine ⟨hq.used, hq.admissions, hq.releases, ?_, hq.limit⟩
                      intro other hother
                      rw [hq.claims other hother]
                      exact Dict.get?_set_ne _ _ hother

theorem setState_quiet (state : QuotaState)
    (hused : ∀ resource, state.used resource = p.used ctx.scopeKey resource) :
    Quiet p { p with states := p.states.set ctx.scopeKey state } := by
  refine ⟨?_, rfl, rfl, rfl, rfl⟩
  intro scope resource
  rw [used_setState]
  by_cases h : ctx.scopeKey = scope
  · subst h
    rw [if_pos rfl, hused]
  · rw [if_neg h]

theorem setSuspended_quiet (suspended : Bool) : Quiet p (setSuspended env ctx suspended p).state := by
  unfold setSuspended
  split
  · exact Quiet.refl p
  · refine (ensure_quiet env ctx p).trans (setState_quiet ctx _ _ ?_)
    intro resource
    rw [(ensure_quiet env ctx p).used, ← ensure_used env ctx p]
    rfl

theorem setContained_quiet (contained : Bool) : Quiet p (setContained env ctx contained p).state := by
  unfold setContained
  split
  · exact Quiet.refl p
  · refine (ensure_quiet env ctx p).trans (setState_quiet ctx _ _ ?_)
    intro resource
    rw [(ensure_quiet env ctx p).used, ← ensure_used env ctx p]
    rfl

theorem getState_quiet : Quiet p (getState env ctx p).state := by
  unfold getState
  split
  · exact Quiet.refl p
  · exact ensure_quiet env ctx p

theorem getBudget_quiet (resource : QuotaResource) : Quiet p (getBudget ctx resource p).state := by
  unfold getBudget
  split
  · exact Quiet.refl p
  · exact Quiet.refl p

end Spec

/-! ## Runs -/

inductive Call where
  | admit_ (ctx : ControlPlaneContext) (resource : QuotaResource) (units : Int)
      (idempotencyKey claimId : Option String)
  | release (ctx : ControlPlaneContext) (resource : QuotaResource) (units : Int)
      (idempotencyKey claimId : Option String)
  | setSuspended (ctx : ControlPlaneContext) (suspended : Bool)
  | setContained (ctx : ControlPlaneContext) (contained : Bool)
  | getState (ctx : ControlPlaneContext)
  | getBudget (ctx : ControlPlaneContext) (resource : QuotaResource)
  | setSharedPressure (enabled : Bool)
  | setUnavailable (unavailable : Bool)

structure Event where
  env : Env
  call : Call

def next (p : MemoryQuotaProvider) (e : Event) : MemoryQuotaProvider :=
  match e.call with
  | .admit_ ctx resource units idempotencyKey claimId =>
      (admit_ e.env ctx resource units idempotencyKey claimId p).state
  | .release ctx resource units idempotencyKey claimId =>
      (release e.env ctx resource units idempotencyKey claimId p).state
  | .setSuspended ctx suspended => (setSuspended e.env ctx suspended p).state
  | .setContained ctx contained => (setContained e.env ctx contained p).state
  | .getState ctx => (getState e.env ctx p).state
  | .getBudget ctx resource => (getBudget ctx resource p).state
  | .setSharedPressure enabled => { p with sharedPressure := enabled }
  | .setUnavailable unavailable => { p with unavailable := unavailable }

end Etlantic.ControlPlane.Quota
