import Etlantic.ControlPlane.Quota.Accounting

/-!
# The turn under shared pressure

Under shared pressure a workspace is admitted only when the ring's cursor stands
on one of its slots.  A miss moves the cursor on by one slot as well, so the
`k`-th request of a sequence without an admission is measured against the slot
`k` steps ahead.  Requests that come in step with the ring can miss for ever.
-/

namespace Etlantic.ControlPlane.Quota

/-- A call of `admit` for a given resource. -/
structure Request where
  env : Env
  ctx : ControlPlaneContext
  units : Int
  idempotencyKey : Option String
  claimId : Option String

namespace Request

def scope (r : Request) : Scope := r.ctx.scopeKey

def event (resource : QuotaResource) (r : Request) : Event :=
  ⟨r.env, .admit_ r.ctx resource r.units r.idempotencyKey r.claimId⟩

/-- The request asks for a reservation that it does not hold yet. -/
def Asks (resource : QuotaResource) (p : MemoryQuotaProvider) (r : Request) : Prop :=
  1 ≤ r.units ∧ (r.claimId = none ∨ r.claimId ≠ some "" ∧ r.idempotencyKey ≠ none) ∧
    ∀ held ∈ activeReservation r.ctx r.idempotencyKey p,
      (held.1.1, held.1.2.1) = (resource, r.units) ∧ p.releases.contains held.2 = true

end Request

/-- The call is answered with an admission. -/
def Admitted (p : MemoryQuotaProvider) (e : Event) : Prop :=
  match e.call with
  | .admit_ ctx resource units idempotencyKey claimId =>
      match (admit_ e.env ctx resource units idempotencyKey claimId p).result with
      | .ok decision => decision.effect = .allow
      | .error _ => False
  | _ => False

/-- Some request of the sequence is admitted. -/
def SomeAdmitted (resource : QuotaResource) (p : MemoryQuotaProvider) (rs : List Request) : Prop :=
  ¬ Runs.Guarded next (fun p e => ¬ Admitted p e) p (rs.map (Request.event resource))

/-- As many rounds as the ring has slots, over a set of workspaces that compete for the
resource and all have room for what they ask. -/
structure Competes (p : MemoryQuotaProvider) (resource : QuotaResource) (scopes : List Scope)
    (rs : List Request) : Prop where
  available : p.unavailable = false
  pressure : p.sharedPressure = true
  several : 2 ≤ scopes.length
  asks : ∀ r ∈ rs, r.Asks resource p
  eligible : ∀ r ∈ rs, r.scope ∈ scopes ∧ eligible r.scope resource r.units p = scopes
  rounds : ∃ rounds : List (List Request), rs = rounds.flatten ∧
    rounds.length = (ring p scopes).length ∧
    ∀ round ∈ rounds, (round.map Request.scope).Perm scopes

section Turns

variable {resource : QuotaResource} {p : MemoryQuotaProvider} {scopes : List Scope}

theorem mem_eligible {scope other : Scope} {units : Int}
    (h : other ∈ eligible scope resource units p) :
    ∃ state, p.states.get? other = some state ∧ state.suspended = false ∧
      state.contained = false ∧
      state.used resource + (if other = scope then units else 1) ≤ p.limit resource := by
  unfold eligible at h
  obtain ⟨⟨k, state⟩, hentry, rfl⟩ := List.mem_map.mp h
  obtain ⟨hmem, hkept⟩ := List.mem_filter.mp hentry
  have hmem := (List.perm_insertionSort _ _).mem_iff.mp hmem
  simp only [Bool.and_eq_true, Bool.not_eq_true', Bool.or_eq_false_iff, decide_eq_true_eq] at hkept
  exact ⟨state, Dict.mem_entries_iff.mp hmem, hkept.1.1.1, hkept.1.1.2, hkept.1.2⟩

theorem ring_ne_nil (h : scopes ≠ []) : ring p scopes ≠ [] := by
  obtain ⟨scope, rest, rfl⟩ := List.exists_cons_of_ne_nil h
  intro hnil
  have hmem : scope ∈ ring p (scope :: rest) := by
    refine List.mem_flatMap.mpr ⟨scope, List.mem_cons_self, List.mem_replicate.mpr ⟨?_, rfl⟩⟩
    omega
  rw [hnil] at hmem
  exact List.not_mem_nil hmem

theorem slot_slot {n : Nat} (hn : 0 < n) (cursor : Int) (k j : Nat) :
    slot (slot cursor k n) j n = slot cursor (k + j) n := by
  unfold slot
  have hmod : 0 ≤ (cursor + k) % n := Int.emod_nonneg _ (by omega)
  rw [Int.toNat_of_nonneg hmod, Int.emod_add_emod]
  push_cast
  rw [add_assoc]

/-- The provider with the cursor moved on by one of `n` slots. -/
def advanced (p : MemoryQuotaProvider) (n : Nat) : MemoryQuotaProvider :=
  { p with rrCursor := slot p.rrCursor 1 n }

theorem wrrAllows_eq {scope : Scope} {units : Int} (h : eligible scope resource units p = scopes)
    (hseveral : 2 ≤ scopes.length) :
    wrrAllows scope resource units p =
      (decide ((ring p scopes)[slot p.rrCursor 0 (ring p scopes).length]? = some scope),
        advanced p (ring p scopes).length) := by
  have hring : 0 < (ring p scopes).length :=
    List.length_pos_iff.mpr (ring_ne_nil (List.length_pos_iff.mp (by omega)))
  have hnext : (slot p.rrCursor 0 (ring p scopes).length + 1) % (ring p scopes).length =
      slot p.rrCursor 1 (ring p scopes).length := by
    have := slot_slot hring p.rrCursor 0 1
    rw [Nat.zero_add] at this
    rw [← this]
    generalize slot p.rrCursor 0 _ = idx
    have hcast : ((idx : Int) + (1 : Nat)) % ((ring p scopes).length : Nat) =
        (((idx + 1) % (ring p scopes).length : Nat) : Int) := by
      push_cast
      rfl
    unfold slot
    rw [hcast, Int.toNat_natCast]
  unfold wrrAllows advanced
  rw [h, ← hnext]
  match scopes, hseveral with
  | _ :: _ :: _, _ => rfl

/-- A request that reaches the gate is admitted on its own slot, and moves the cursor
on from any other. -/
theorem admit_at_gate {r : Request} (havailable : p.unavailable = false)
    (hpressure : p.sharedPressure = true) (hseveral : 2 ≤ scopes.length)
    (hasks : r.Asks resource p) (hscope : r.scope ∈ scopes)
    (heligible : eligible r.scope resource r.units p = scopes) :
    (Admitted p (r.event resource) ↔
      (ring p scopes)[slot p.rrCursor 0 (ring p scopes).length]? = some r.scope) ∧
    (¬ Admitted p (r.event resource) →
      next p (r.event resource) = advanced p (ring p scopes).length) := by
  obtain ⟨env, ctx, units, idempotencyKey, claimId⟩ := r
  obtain ⟨hunits, hclaim, hheld⟩ := hasks
  have hunits : 1 ≤ units := hunits
  obtain ⟨state, hstate, hsuspended, hcontained, hroom⟩ := mem_eligible (heligible ▸ hscope)
  have hensure : ensure env ctx p = (state, p) := by
    unfold ensure
    rw [show p.states.get? ctx.scopeKey = some state from hstate]
  have hrefusal : refusal state resource units (p.limit resource) = none := by
    rw [if_pos rfl] at hroom
    have hroom : state.used resource + units ≤ p.limit resource := hroom
    unfold refusal
    rw [if_neg (by simp [hsuspended]), if_neg (by simp [hcontained]), if_neg (by omega)]
  have hnew : admit_ env ctx resource units idempotencyKey claimId p =
      admitNew env ctx resource units idempotencyKey claimId p := by
    have hclaim' : ¬ (claimId ≠ none ∧ (claimId = some "" ∨ idempotencyKey = none)) := by
      rintro ⟨hsome, hbad⟩
      rcases hclaim with hnone | ⟨hnonempty, hkey⟩
      · exact hsome hnone
      · rcases hbad with h | h
        · exact hnonempty h
        · exact hkey h
    unfold admit_
    rw [if_neg (by simp [havailable]), if_neg (by omega), if_neg hclaim']
    cases hactive : activeReservation ctx idempotencyKey p with
    | none => rfl
    | some held =>
        obtain ⟨hsame, hreleased⟩ := hheld held hactive
        simp only
        rw [if_neg (not_not.mpr hsame), if_pos hreleased]
  have hgate := wrrAllows_eq heligible hseveral
  have hreply : admitNew env ctx resource units idempotencyKey claimId p =
      if (ring p scopes)[slot p.rrCursor 0 (ring p scopes).length]? = some ctx.scopeKey then
        charge env ctx resource units idempotencyKey claimId state
          (advanced p (ring p scopes).length)
      else
        ⟨.ok ⟨.deny, resource, p.limit resource, state.used resource, "fairness deferred",
          ⟨some (advanced p (ring p scopes).length).rrCursor, some (p.weight ctx.scopeKey),
            some true, none⟩⟩, advanced p (ring p scopes).length⟩ := by
    unfold admitNew
    rw [hensure]
    simp only [hrefusal, hpressure, if_true]
    rw [show wrrAllows ctx.scopeKey resource units p = _ from hgate]
    by_cases hturn : (ring p scopes)[slot p.rrCursor 0 (ring p scopes).length]? = some ctx.scopeKey
    · simp [Request.scope, hturn]
    · simp [Request.scope, hturn]
      rfl
  have hadmitted : Admitted p (Request.event resource ⟨env, ctx, units, idempotencyKey, claimId⟩) ↔
      (ring p scopes)[slot p.rrCursor 0 (ring p scopes).length]? = some ctx.scopeKey := by
    show (match (admit_ env ctx resource units idempotencyKey claimId p).result with
      | .ok decision => decision.effect = .allow
      | .error _ => False) ↔ _
    rw [hnew, hreply]
    by_cases hturn : (ring p scopes)[slot p.rrCursor 0 (ring p scopes).length]? = some ctx.scopeKey
    · rw [if_pos hturn]
      refine iff_of_true ?_ hturn
      cases idempotencyKey with
      | none => rfl
      | some key => rfl
    · rw [if_neg hturn]
      exact iff_of_false (by simp) hturn
  refine ⟨hadmitted, ?_⟩
  intro hmiss
  show (admit_ env ctx resource units idempotencyKey claimId p).state = _
  rw [hnew, hreply, if_neg fun hturn => hmiss (hadmitted.mpr hturn)]

/-- No request of a sequence is admitted exactly when every one misses its slot. -/
theorem none_admitted_iff : ∀ {rs : List Request} {p : MemoryQuotaProvider},
    p.unavailable = false → p.sharedPressure = true → 2 ≤ scopes.length →
    (∀ r ∈ rs, r.Asks resource p) →
    (∀ r ∈ rs, r.scope ∈ scopes ∧ eligible r.scope resource r.units p = scopes) →
    (Runs.Guarded next (fun p e => ¬ Admitted p e) p (rs.map (Request.event resource)) ↔
      ∀ k r, rs[k]? = some r →
        (ring p scopes)[slot p.rrCursor k (ring p scopes).length]? ≠ some r.scope) := by
  intro rs
  induction rs with
  | nil =>
      intro p _ _ _ _ _
      simp [Runs.Guarded]
  | cons r rs ih =>
      intro p havailable hpressure hseveral hasks heligible
      obtain ⟨hscope, hhere⟩ := heligible r List.mem_cons_self
      obtain ⟨hadmitted, hmissed⟩ := admit_at_gate havailable hpressure hseveral
        (hasks r List.mem_cons_self) hscope hhere
      -- After a miss only the cursor is different.
      have hrest := ih (p := advanced p (ring p scopes).length) havailable hpressure hseveral
        (fun r' hr' => hasks r' (List.mem_cons_of_mem _ hr'))
        (fun r' hr' => heligible r' (List.mem_cons_of_mem _ hr'))
      have hring : ring (advanced p (ring p scopes).length) scopes = ring p scopes := rfl
      have hslot : ∀ k, slot (advanced p (ring p scopes).length).rrCursor k (ring p scopes).length =
          slot p.rrCursor (k + 1) (ring p scopes).length := by
        intro k
        rw [add_comm k 1]
        exact slot_slot (List.length_pos_iff.mpr (ring_ne_nil (List.ne_nil_of_mem hscope))) _ _ _
      rw [List.map_cons]
      constructor
      · rintro ⟨hmiss, hlater⟩ k r' hk
        rw [hmissed hmiss] at hlater
        cases k with
        | zero =>
            obtain rfl : r = r' := Option.some.inj hk
            exact fun hturn => hmiss (hadmitted.mpr hturn)
        | succ k =>
            have := hrest.mp hlater k r' hk
            rwa [hring, hslot] at this
      · intro hall
        have hmiss : ¬ Admitted p (r.event resource) :=
          fun h => hall 0 r rfl (hadmitted.mp h)
        refine ⟨hmiss, ?_⟩
        rw [hmissed hmiss]
        refine hrest.mpr ?_
        intro k r' hk
        rw [hring, hslot]
        exact hall (k + 1) r' hk

end Turns

/-- A sequence of rounds contains an admission exactly when, for some `k`, its `k`-th
request is made by the workspace on the slot `k` steps ahead of the cursor. -/
theorem some_admitted_iff {p : MemoryQuotaProvider} {resource : QuotaResource}
    {scopes : List Scope} {rs : List Request} (h : Competes p resource scopes rs) :
    SomeAdmitted resource p rs ↔ ∃ k r, rs[k]? = some r ∧
      (ring p scopes)[slot p.rrCursor k (ring p scopes).length]? = some r.scope := by
  unfold SomeAdmitted
  rw [none_admitted_iff h.available h.pressure h.several h.asks h.eligible]
  push Not
  rfl

/-! ## Requests in step with the ring -/

def otherContext : ControlPlaneContext where
  principal := ⟨"bob", none, .human⟩
  tenant := ⟨"globex"⟩
  workspace := ⟨"globex", "main"⟩
  environment := ⟨"prod"⟩
  securityDomain := ⟨"corp"⟩
  resourceOwnerId := none
  workspaceTenant := workspace_ofTenant "globex" "main"
  ownerNonEmpty := sampleContext.ownerNonEmpty

/-- Two workspaces that use a little of a large budget, with contention declared. -/
def contended : MemoryQuotaProvider :=
  Runs.run next (.init (Dict.empty.set .concurrency 100) .empty)
    [⟨⟨0, sampleUuid 'a'⟩, .admit_ sampleContext .concurrency 1 none none⟩,
      ⟨⟨1, sampleUuid 'b'⟩, .admit_ otherContext .concurrency 1 none none⟩,
      ⟨⟨2, sampleUuid 'c'⟩, .setSharedPressure true⟩]

def sampleRequest (ctx : ControlPlaneContext) (now : Instant) : Request :=
  ⟨⟨now, sampleUuid 'd'⟩, ctx, 1, none, none⟩

/-- Two rounds in which the workspaces ask in the order opposite to the ring's. -/
def inStep : List Request :=
  [sampleRequest otherContext 3, sampleRequest sampleContext 4, sampleRequest otherContext 5,
    sampleRequest sampleContext 6]

def competitors : List Scope := [sampleContext.scopeKey, otherContext.scopeKey]

theorem Competes.of_rounds {p : MemoryQuotaProvider} {resource : QuotaResource}
    {scopes : List Scope} (rounds : List (List Request)) (havailable : p.unavailable = false)
    (hpressure : p.sharedPressure = true) (hseveral : 2 ≤ scopes.length)
    (hrequests : ∀ r ∈ rounds.flatten, r.idempotencyKey = none ∧ r.claimId = none ∧ 1 ≤ r.units ∧
      r.scope ∈ scopes ∧ Quota.eligible r.scope resource r.units p = scopes)
    (hlength : rounds.length = (ring p scopes).length)
    (hrounds : ∀ round ∈ rounds, (round.map Request.scope).Perm scopes) :
    Competes p resource scopes rounds.flatten := by
  refine ⟨havailable, hpressure, hseveral, ?_, ?_, rounds, rfl, hlength, hrounds⟩
  · intro r hr
    obtain ⟨hkey, hclaim, hunits, -, -⟩ := hrequests r hr
    refine ⟨hunits, .inl hclaim, ?_⟩
    rw [hkey]
    intro held hheld
    cases hheld
  · intro r hr
    exact (hrequests r hr).2.2.2

/-- Two rounds over a ring of two slots, and nobody is admitted. -/
theorem no_admission_in_step :
    Competes contended .concurrency competitors inStep ∧
      ¬ SomeAdmitted .concurrency contended inStep := by
  have hcompetes : Competes contended .concurrency competitors inStep :=
    Competes.of_rounds
      [[sampleRequest otherContext 3, sampleRequest sampleContext 4],
        [sampleRequest otherContext 5, sampleRequest sampleContext 6]]
      rfl rfl (by decide) (by decide) (by decide) (by decide)
  refine ⟨hcompetes, ?_⟩
  unfold SomeAdmitted
  rw [not_not, none_admitted_iff hcompetes.available hcompetes.pressure hcompetes.several
    hcompetes.asks hcompetes.eligible]
  have hmisses : ∀ k < 4, ∀ r ∈ inStep[k]?,
      (ring contended competitors)[slot contended.rrCursor k 2]? ≠ some r.scope := by
    decide
  intro k r hk
  have hlt : k < 4 := (List.getElem?_eq_some_iff.mp hk).1
  exact hmisses k hlt r hk

/-- The same workspaces in the order of the ring. -/
def inOrder : List Request :=
  [sampleRequest sampleContext 3, sampleRequest otherContext 4, sampleRequest sampleContext 5,
    sampleRequest otherContext 6]

theorem some_admitted_in_order : SomeAdmitted .concurrency contended inOrder := by
  have hcompetes : Competes contended .concurrency competitors inOrder :=
    Competes.of_rounds
      [[sampleRequest sampleContext 3, sampleRequest otherContext 4],
        [sampleRequest sampleContext 5, sampleRequest otherContext 6]]
      rfl rfl (by decide) (by decide) (by decide) (by decide)
  exact (some_admitted_iff hcompetes).mpr ⟨0, _, rfl, by decide⟩

end Etlantic.ControlPlane.Quota
