import Etlantic.ControlPlane.Quota.Ledger

/-!
# Quota accounting

As long as a release names a reservation with its own key, resource and units,
the usage that the provider keeps is the sum over the open reservations of the
ledger, and it falls only where the ledger closes a reservation.
-/

namespace Etlantic.ControlPlane.Quota

/-! ## The invariant -/

/-- The provider's rows for a reservation. -/
def Filed (p : MemoryQuotaProvider) (r : Reservation) (key : QuotaKey) : Prop :=
  if r.freed then p.releases.get? key = some (r.resource, r.units)
  else p.releases.get? key = none ∧ p.claims.get? key = some r.owners

/-- An admission on file tells the reservation it stands for. -/
def Reserved (ledger : Ledger) (key : QuotaKey) (prior : QuotaResource × Int × QuotaDecision) :
    Prop :=
  prior.2.2.effect = .allow ∧ ∃ r ∈ ledger, r.scope = key.scope ∧ r.resource = prior.1 ∧
    r.units = prior.2.1 ∧ ∃ text, r.reservationKey = some text ∧
      prior.2.2.metadata.reservationKey = some text

structure Accounted (σ : Session) : Prop where
  keys : σ.ledger.keys.Nodup
  positive : ∀ r ∈ σ.ledger, 0 < r.units
  usage : ∀ scope resource, σ.provider.used scope resource = σ.ledger.held scope resource
  bounded : ∀ scope resource, σ.provider.used scope resource ≤ max 0 (σ.provider.limit resource)
  filed : ∀ r ∈ σ.ledger, ∀ key, r.releaseKey = some key → Filed σ.provider r key
  reserved : ∀ key prior, σ.provider.admissions.get? key = some prior →
    Reserved σ.ledger key prior
  released : ∀ key amount, σ.provider.releases.get? key = some amount → key ∈ σ.ledger.keys

theorem accounted_init (defaultLimits : Dict QuotaResource Int) (weights : Dict Scope Int) :
    Accounted (.init defaultLimits weights) where
  keys := List.nodup_nil
  positive := fun r hr => absurd hr List.not_mem_nil
  usage := fun _ _ => rfl
  bounded := fun _ _ => le_max_left 0 _
  filed := fun r hr => absurd hr List.not_mem_nil
  reserved := fun key prior h => by
    simp [Session.init, MemoryQuotaProvider.init] at h
  released := fun key amount h => by
    simp [Session.init, MemoryQuotaProvider.init] at h

/-- What a change of a reservation leaves alone. -/
def Keeps (f : Reservation → Reservation) : Prop :=
  ∀ r, (f r).scope = r.scope ∧ (f r).resource = r.resource ∧ (f r).units = r.units ∧
    (f r).name = r.name

theorem Reserved.update {ledger : Ledger} {key : QuotaKey}
    {prior : QuotaResource × Int × QuotaDecision} (h : Reserved ledger key prior) {other : QuotaKey}
    {f : Reservation → Reservation} (hf : Keeps f) :
    Reserved (ledger.update other f) key prior := by
  obtain ⟨heffect, r, hr, hscope, hresource, hunits, text, htext, hmetadata⟩ := h
  refine ⟨heffect, ?_⟩
  by_cases hother : r.releaseKey = some other
  · refine ⟨f r, Ledger.mem_update.mpr (.inr ⟨r, hr, hother, rfl⟩), ?_⟩
    obtain ⟨h₁, h₂, h₃, h₄⟩ := hf r
    refine ⟨h₁.trans hscope, h₂.trans hresource, h₃.trans hunits, text, ?_, hmetadata⟩
    unfold Reservation.reservationKey
    rw [h₄]
    exact htext
  · exact ⟨r, Ledger.mem_update.mpr (.inl ⟨hr, hother⟩), hscope, hresource, hunits, text, htext,
      hmetadata⟩

theorem Reserved.append {ledger : Ledger} {key : QuotaKey}
    {prior : QuotaResource × Int × QuotaDecision} (h : Reserved ledger key prior) (r : Reservation) :
    Reserved (ledger ++ [r]) key prior := by
  obtain ⟨heffect, r', hr', hrest⟩ := h
  exact ⟨heffect, r', List.mem_append_left _ hr', hrest⟩

theorem keeps_join (claim : String) : Keeps (Reservation.join claim) :=
  fun _ => ⟨rfl, rfl, rfl, rfl⟩

theorem keeps_give (claimId : Option String) :
    Keeps fun r => if r.freed then r else r.give claimId := by
  intro r
  show _ ∧ _
  by_cases hfreed : r.freed = true
  · simp [hfreed]
  · simp only [hfreed]
    cases claimId with
    | none => exact ⟨rfl, rfl, rfl, rfl⟩
    | some claim =>
        by_cases hmem : claim ∈ r.owners
        · simp [Reservation.give, hmem]
        · simp [Reservation.give, hmem]

theorem Keeps.releaseKey {f : Reservation → Reservation} (hf : Keeps f) (r : Reservation) :
    (f r).releaseKey = r.releaseKey := by
  obtain ⟨hscope, -, -, hname⟩ := hf r
  unfold Reservation.releaseKey Reservation.reservationKey
  rw [hscope, hname]

section Steps

variable {σ : Session}

theorem Accounted.quiet (h : Accounted σ) {q : MemoryQuotaProvider} (hq : Quiet σ.provider q) :
    Accounted ⟨q, σ.ledger⟩ where
  keys := h.keys
  positive := h.positive
  usage := fun scope resource => (hq.used scope resource).trans (h.usage scope resource)
  bounded := fun scope resource => by
    show q.used scope resource ≤ max 0 (q.limit resource)
    rw [hq.used, hq.limit]
    exact h.bounded scope resource
  filed := fun r hr key hkey => by
    have := h.filed r hr key hkey
    unfold Filed at this ⊢
    rw [hq.releases, hq.claims]
    exact this
  reserved := fun key prior hget => h.reserved key prior (by rw [← hq.admissions]; exact hget)
  released := fun key amount hget => h.released key amount (by rw [← hq.releases]; exact hget)

/-- The rows of one reservation and its place in the ledger change together. -/
theorem Accounted.change (h : Accounted σ) {r : Reservation} (hr : r ∈ σ.ledger) {key : QuotaKey}
    (hkey : r.releaseKey = some key) {f : Reservation → Reservation} (hf : Keeps f)
    {q : MemoryQuotaProvider}
    (hused : ∀ scope resource, q.used scope resource =
      σ.provider.used scope resource - r.held scope resource + (f r).held scope resource)
    (hless : ∀ scope resource, (f r).held scope resource ≤ r.held scope resource)
    (hlimit : q.limit = σ.provider.limit) (hadmissions : q.admissions = σ.provider.admissions)
    (hreleases : ∀ other, key ≠ other → q.releases.get? other = σ.provider.releases.get? other)
    (hclaims : ∀ other, key ≠ other → q.claims.get? other = σ.provider.claims.get? other)
    (hfiled : Filed q (f r) key) :
    Accounted ⟨q, σ.ledger.update key f⟩ where
  keys := by
    rw [Ledger.keys_update hf.releaseKey]
    exact h.keys
  positive := by
    intro x hx
    rcases Ledger.mem_update.mp hx with ⟨hx, -⟩ | ⟨y, hy, -, rfl⟩
    · exact h.positive x hx
    · rw [(hf y).2.2.1]
      exact h.positive y hy
  usage := by
    intro scope resource
    rw [Ledger.held_update h.keys hr hkey, ← h.usage]
    exact hused scope resource
  bounded := by
    intro scope resource
    have hbefore := h.bounded scope resource
    have hafter := hused scope resource
    have := hless scope resource
    show q.used scope resource ≤ max 0 (q.limit resource)
    rw [hlimit]
    omega
  filed := by
    intro x hx other hother
    rcases Ledger.mem_update.mp hx with ⟨hx, hne⟩ | ⟨y, hy, hykey, rfl⟩
    · have hne' : key ≠ other := fun heq => hne (heq ▸ hother)
      have := h.filed x hx other hother
      unfold Filed at this ⊢
      rw [hreleases other hne', hclaims other hne']
      exact this
    · -- The release key belongs to `r` alone.
      obtain rfl := Ledger.unique h.keys hr hy hkey hykey
      obtain rfl : key = other := Option.some.inj (hykey.symm.trans ((hf.releaseKey r) ▸ hother))
      exact hfiled
  reserved := by
    intro k prior hget
    rw [hadmissions] at hget
    exact (h.reserved k prior hget).update hf
  released := by
    intro other amount hget
    rw [Ledger.keys_update hf.releaseKey]
    by_cases hne : key = other
    · subst hne
      exact Ledger.mem_keys.mpr ⟨r, hr, hkey⟩
    · exact h.released other amount (by rw [← hreleases other hne]; exact hget)

/-- A retry adds its claim to the reservation it is told of. -/
theorem Accounted.joined (h : Accounted σ) {ctx : ControlPlaneContext} {resource : QuotaResource}
    {units : Int} {idempotencyKey : Option String} (claim : String) {decision : QuotaDecision}
    {release : QuotaKey}
    (hactive : activeReservation ctx idempotencyKey σ.provider =
      some ((resource, units, decision), release))
    (hopen : σ.provider.releases.contains release = false) :
    decision.effect = .allow ∧ release ∈ σ.ledger.keys ∧
      decision.metadata.reservationKey.map (releaseKey ctx.scopeKey) = some release ∧
      Accounted ⟨addOwner release claim σ.provider,
        σ.ledger.update release (Reservation.join claim)⟩ := by
  unfold activeReservation at hactive
  obtain ⟨key, rfl, hprior⟩ := Option.bind_eq_some_iff.mp hactive
  obtain ⟨prior, hget, hpair⟩ := Option.map_eq_some_iff.mp hprior
  obtain ⟨rfl, hrelease⟩ := Prod.mk.inj hpair
  obtain ⟨heffect, r, hr, hscope, -, -, text, htext, hmetadata⟩ := h.reserved _ _ hget
  have hmetadata : decision.metadata.reservationKey = some text := hmetadata
  have hrelease : releaseKey ctx.scopeKey text = release := by
    simpa only [hmetadata, Option.getD_some] using hrelease
  have hkey : r.releaseKey = some release := by
    unfold Reservation.releaseKey
    rw [htext, hscope, ← hrelease]
    rfl
  refine ⟨heffect, Ledger.mem_keys.mpr ⟨r, hr, hkey⟩, ?_, ?_⟩
  · rw [hmetadata, ← hrelease]
    rfl
  · have hnone := Dict.contains_eq_false.mp hopen
    have hfiled := h.filed r hr release hkey
    unfold Filed at hfiled
    -- A reservation whose release is not on file is open.
    cases hfreed : r.freed with
    | true =>
        rw [if_pos hfreed, hnone] at hfiled
        cases hfiled
    | false =>
        rw [if_neg (by simp [hfreed])] at hfiled
        refine h.change hr hkey (keeps_join claim) ?_ ?_ rfl rfl (fun _ _ => rfl) ?_ ?_
        · intro scope resource
          show σ.provider.used scope resource = _
          have : (r.join claim).held scope resource = r.held scope resource := rfl
          omega
        · intro scope resource
          exact le_of_eq rfl
        · intro other hother
          exact Dict.get?_set_ne _ _ hother
        · unfold Filed
          rw [if_neg (by simp [Reservation.join, hfreed])]
          refine ⟨hnone, ?_⟩
          show (Dict.set _ _ _).get? release = _
          rw [Dict.get?_set_self, hfiled.2]
          rfl

theorem charge_used (env : Env) (ctx : ControlPlaneContext) (resource : QuotaResource) (units : Int)
    (idempotencyKey claimId : Option String) (state : QuotaState) (q : MemoryQuotaProvider)
    (hstate : ∀ other, state.used other = q.used ctx.scopeKey other) (scope : Scope)
    (other : QuotaResource) :
    (charge env ctx resource units idempotencyKey claimId state q).state.used scope other =
      q.used scope other + if ctx.scopeKey = scope ∧ resource = other then units else 0 := by
  let charged := state.withUsage resource (state.used resource + units) env.now
  have hcharged : (charge env ctx resource units idempotencyKey claimId state q).state.used scope
      other = MemoryQuotaProvider.used
        { q with states := q.states.set ctx.scopeKey charged } scope other := by
    unfold charge
    cases idempotencyKey with
    | none => rfl
    | some key => rfl
  rw [hcharged, used_setState, QuotaState.used_withUsage]
  by_cases hscope : ctx.scopeKey = scope
  · subst hscope
    by_cases hresource : resource = other
    · subst hresource
      simp [hstate]
    · simp [hresource, hstate]
  · simp [hscope]

/-- The units are charged to a reservation of their own. -/
theorem Accounted.charged (h : Accounted σ) {env : Env} {ctx : ControlPlaneContext}
    {resource : QuotaResource} {units : Int} {idempotencyKey claimId : Option String}
    {state : QuotaState} {q : MemoryQuotaProvider} (hq : Quiet σ.provider q)
    (hstate : ∀ other, state.used other = σ.provider.used ctx.scopeKey other) (hunits : 1 ≤ units)
    (hlimit : σ.provider.used ctx.scopeKey resource + units ≤ σ.provider.limit resource)
    (hfresh : ∀ r ∈ σ.ledger, ∀ name ∈ r.name, name.2 ≠ env.uuid) :
    (idempotencyKey.map (reservationKeyOf env)).map (releaseKey ctx.scopeKey) ∉
        σ.ledger.keys.map some ∧
      Accounted ⟨(charge env ctx resource units idempotencyKey claimId state q).state,
        σ.ledger ++ [⟨ctx.scopeKey, resource, units, idempotencyKey.map (·, env.uuid),
          {claimId.getD ""}, false⟩]⟩ := by
  set new : Reservation := ⟨ctx.scopeKey, resource, units, idempotencyKey.map (·, env.uuid),
    {claimId.getD ""}, false⟩ with hnew
  have hnewKey : new.releaseKey =
      (idempotencyKey.map (reservationKeyOf env)).map (releaseKey ctx.scopeKey) := by
    cases idempotencyKey with
    | none => rfl
    | some key => rfl
  have hnewFresh : ∀ key, new.releaseKey = some key → key ∉ σ.ledger.keys := by
    intro key hkey hmem
    obtain ⟨r, hr, hrkey⟩ := Ledger.mem_keys.mp hmem
    obtain ⟨text, htext, rfl⟩ := Option.map_eq_some_iff.mp hrkey
    obtain ⟨name, hname, rfl⟩ := Option.map_eq_some_iff.mp htext
    obtain ⟨_, hk, heq⟩ := Option.map_eq_some_iff.mp hkey
    obtain ⟨name', hname', rfl⟩ := Option.map_eq_some_iff.mp hk
    obtain ⟨key', -, rfl⟩ := Option.map_eq_some_iff.mp hname'
    exact hfresh r hr name hname (uuid_of_releaseKey heq).symm
  have hnewKeys : Ledger.keys [new] = new.releaseKey.toList := by
    unfold Ledger.keys
    cases hk : new.releaseKey with
    | none => rw [List.filterMap_cons_none hk]; rfl
    | some key => rw [List.filterMap_cons_some hk]; rfl
  have hkeysAppend : Ledger.keys (σ.ledger ++ [new]) = σ.ledger.keys ++ new.releaseKey.toList := by
    rw [← hnewKeys]
    exact List.filterMap_append
  have hadmissions : ∀ key prior,
      (charge env ctx resource units idempotencyKey claimId state q).state.admissions.get? key =
        some prior → σ.provider.admissions.get? key = some prior ∨
          ∃ k, idempotencyKey = some k ∧ key = ⟨ctx.scopeKey, k⟩ ∧ prior.1 = resource ∧
            prior.2.1 = units ∧ prior.2.2.effect = .allow ∧
            prior.2.2.metadata.reservationKey = some (reservationKeyOf env k) := by
    intro key prior hget
    cases idempotencyKey with
    | none => exact .inl (by rw [← hq.admissions]; exact hget)
    | some k =>
        rcases Dict.get?_set_eq_some.mp hget with ⟨rfl, rfl⟩ | ⟨-, hget⟩
        · exact .inr ⟨k, rfl, rfl, rfl, rfl, rfl, rfl⟩
        · exact .inl (by rw [← hq.admissions]; exact hget)
  have hreleases : (charge env ctx resource units idempotencyKey claimId state q).state.releases =
      σ.provider.releases := by
    rw [← hq.releases]
    cases idempotencyKey with
    | none => rfl
    | some key => rfl
  have hclaims : ∀ other, new.releaseKey ≠ some other →
      (charge env ctx resource units idempotencyKey claimId state q).state.claims.get? other =
        σ.provider.claims.get? other := by
    intro other hother
    rw [← hq.claims]
    cases idempotencyKey with
    | none => rfl
    | some key => exact Dict.get?_set_ne _ _ fun heq => hother (by rw [hnewKey, ← heq]; rfl)
  have hlimits : (charge env ctx resource units idempotencyKey claimId state q).state.limit =
      σ.provider.limit := by
    rw [← hq.limit]
    cases idempotencyKey with
    | none => rfl
    | some key => rfl
  refine ⟨?_, ?_⟩
  · rw [← hnewKey]
    intro hmem
    obtain ⟨key, hkey, heq⟩ := List.mem_map.mp hmem
    exact hnewFresh key heq.symm hkey
  constructor
  · show (Ledger.keys (σ.ledger ++ [new])).Nodup
    rw [hkeysAppend]
    cases hk : new.releaseKey with
    | none => simpa using h.keys
    | some key =>
        rw [Option.toList_some, ← List.concat_eq_append, List.nodup_concat]
        exact ⟨hnewFresh key hk, h.keys⟩
  · intro r hr
    rcases List.mem_append.mp hr with hr | hr
    · exact h.positive r hr
    · obtain rfl := List.mem_singleton.mp hr
      show 0 < units
      omega
  · intro scope other
    show MemoryQuotaProvider.used _ scope other = Ledger.held (σ.ledger ++ [new]) scope other
    rw [Ledger.held_append, ← h.usage, charge_used _ _ _ _ _ _ _ _
      (fun other => (hstate other).trans (hq.used _ _).symm), hq.used]
    congr 1
    show _ = Ledger.held [new] scope other
    unfold Ledger.held Reservation.held
    simp [hnew]
  · intro scope other
    show MemoryQuotaProvider.used _ scope other ≤ max 0 (MemoryQuotaProvider.limit _ other)
    have hbefore := h.bounded scope other
    rw [hlimits, charge_used _ _ _ _ _ _ _ _
      (fun other => (hstate other).trans (hq.used _ _).symm), hq.used]
    split
    · rename_i hhere
      obtain ⟨rfl, rfl⟩ := hhere
      omega
    · omega
  · intro r hr key hkey
    rcases List.mem_append.mp hr with hr | hr
    · have hne : new.releaseKey ≠ some key :=
        fun heq => hnewFresh key heq (Ledger.mem_keys.mpr ⟨r, hr, hkey⟩)
      have := h.filed r hr key hkey
      unfold Filed at this ⊢
      rw [hreleases, hclaims key hne]
      exact this
    · obtain rfl := List.mem_singleton.mp hr
      unfold Filed
      rw [if_neg (by simp [hnew])]
      constructor
      · -- A key on file would belong to the ledger already.
        rw [hreleases]
        cases hget : σ.provider.releases.get? key with
        | none => rfl
        | some amount => exact absurd (h.released key amount hget) (hnewFresh key hkey)
      · cases idempotencyKey with
        | none => cases hkey
        | some k =>
            obtain rfl := Option.some.inj (hnewKey.symm.trans hkey)
            exact Dict.get?_set_self _ _ _
  · intro key prior hget
    rcases hadmissions key prior hget with hold | ⟨k, rfl, rfl, h₁, h₂, heffect, hmetadata⟩
    · exact (h.reserved key prior hold).append new
    · exact ⟨heffect, new, List.mem_append_right _ List.mem_cons_self, rfl, h₁.symm, h₂.symm, _,
        rfl, hmetadata⟩
  · intro key amount hget
    have hget : σ.provider.releases.get? key = some amount := by
      rw [← hreleases]
      exact hget
    show key ∈ Ledger.keys (σ.ledger ++ [new])
    rw [hkeysAppend]
    exact List.mem_append_left _ (h.released key amount hget)

/-- The ledger's change at a release. -/
def closing (claimId : Option String) (r : Reservation) : Reservation :=
  if r.freed then r else r.give claimId

theorem Accounted.fixed (h : Accounted σ) {r : Reservation} (hr : r ∈ σ.ledger) {key : QuotaKey}
    (hkey : r.releaseKey = some key) {f : Reservation → Reservation} (hf : f r = r) :
    σ.ledger.update key f = σ.ledger := by
  obtain ⟨before, after, hsplit, hother⟩ := Ledger.exists_split h.keys hr hkey
  rw [hsplit, Ledger.update_split hkey hother, hf]

theorem Accounted.unfreed (h : Accounted σ) {r : Reservation} (hr : r ∈ σ.ledger) {key : QuotaKey}
    (hkey : r.releaseKey = some key) (hopen : σ.provider.releases.get? key = none) :
    r.freed = false ∧ σ.provider.claims.get? key = some r.owners := by
  have hfiled := h.filed r hr key hkey
  unfold Filed at hfiled
  cases hfreed : r.freed with
  | true =>
      rw [if_pos hfreed, hopen] at hfiled
      cases hfiled
  | false =>
      rw [if_neg (by simp [hfreed])] at hfiled
      exact ⟨rfl, hfiled.2⟩

/-- A release that comes again, or with a claim that is not an owner's. -/
theorem Accounted.repeated (h : Accounted σ) {r : Reservation} (hr : r ∈ σ.ledger) {key : QuotaKey}
    (hkey : r.releaseKey = some key) {amount : QuotaResource × Int} {claimId : Option String}
    (hnothing : σ.provider.releases.get? key = some amount ∨
      ∃ claim, claimId = some claim ∧ claim ∉ (σ.provider.claims.get? key).getD ∅) :
    σ.ledger.update key (closing claimId) = σ.ledger := by
  apply h.fixed hr hkey
  have hfiled := h.filed r hr key hkey
  unfold Filed at hfiled
  unfold closing
  by_cases hfreed : r.freed = true
  · rw [if_pos hfreed]
  · rw [if_neg hfreed] at hfiled ⊢
    rcases hnothing with hget | ⟨claim, rfl, hclaim⟩
    · rw [hfiled.1] at hget
      cases hget
    · rw [hfiled.2] at hclaim
      exact if_neg hclaim

/-- One of several claims is compensated. -/
theorem Accounted.compensated (h : Accounted σ) {r : Reservation} (hr : r ∈ σ.ledger)
    {key : QuotaKey} (hkey : r.releaseKey = some key) {claims : Finset String} {claim : String}
    (hopen : σ.provider.releases.get? key = none) (hclaims : σ.provider.claims.get? key = some claims)
    (hmem : claim ∈ claims) (hleft : claims.erase claim ≠ ∅) :
    Accounted ⟨{ σ.provider with claims := σ.provider.claims.set key (claims.erase claim) },
      σ.ledger.update key (closing (some claim))⟩ := by
  obtain ⟨hfreed, howners⟩ := h.unfreed hr hkey hopen
  obtain rfl : claims = r.owners := Option.some.inj (hclaims.symm.trans howners)
  have hgiven : closing (some claim) r = { r with owners := r.owners.erase claim } := by
    unfold closing Reservation.give
    simp [hfreed, hmem, hleft]
  have hheld : ∀ scope resource, (closing (some claim) r).held scope resource =
      r.held scope resource := by
    intro scope resource
    rw [hgiven]
    rfl
  refine h.change hr hkey (keeps_give (some claim)) ?_ (fun _ _ => (hheld _ _).le) rfl rfl
    (fun _ _ => rfl) ?_ ?_
  · intro scope resource
    show σ.provider.used scope resource = _ - _ + (closing (some claim) r).held scope resource
    rw [hheld]
    omega
  · intro other hother
    exact Dict.get?_set_ne _ _ hother
  · show Filed _ (closing (some claim) r) key
    rw [hgiven]
    unfold Filed
    rw [if_neg (by simp [hfreed])]
    exact ⟨hopen, Dict.get?_set_self _ _ _⟩

/-- The whole reservation is given back: by a release without a claim, or by the
last compensation. -/
theorem Accounted.settled (h : Accounted σ) {r : Reservation} (hr : r ∈ σ.ledger)
    {ctx : ControlPlaneContext} (hscope : r.scope = ctx.scopeKey) {key : QuotaKey}
    (hkey : r.releaseKey = some key) {claimId : Option String}
    (hopen : σ.provider.releases.get? key = none)
    (hlast : claimId = none ∨ ∃ claim claims, claimId = some claim ∧
      σ.provider.claims.get? key = some claims ∧ claim ∈ claims ∧ claims.erase claim = ∅)
    {q : MemoryQuotaProvider} (hq : Settled ctx σ.provider key r.resource r.units q) :
    r.freed = false ∧ (claimId = none ∨ ∃ claim, claimId = some claim ∧ r.owners = {claim}) ∧
      (∀ scope resource, q.used scope resource =
        σ.provider.used scope resource - r.held scope resource) ∧
      closing claimId r = { r with owners := ∅, freed := true } ∧
      Accounted ⟨q, σ.ledger.update key (closing claimId)⟩ := by
  obtain ⟨hfreed, howners⟩ := h.unfreed hr hkey hopen
  have hlast' : claimId = none ∨ ∃ claim, claimId = some claim ∧ r.owners = {claim} := by
    rcases hlast with rfl | ⟨claim, claims, rfl, hclaims, hmem, hempty⟩
    · exact .inl rfl
    · obtain rfl : claims = r.owners := Option.some.inj (hclaims.symm.trans howners)
      refine .inr ⟨claim, rfl, ?_⟩
      rw [← Finset.insert_erase hmem, hempty, insert_empty_eq]
  have hgiven : closing claimId r = { r with owners := ∅, freed := true } := by
    unfold closing
    rw [if_neg (by simp [hfreed])]
    rcases hlast' with rfl | ⟨claim, rfl, hone⟩
    · rfl
    · simp [Reservation.give, hone]
  have hheld : ∀ scope resource, (closing claimId r).held scope resource = 0 := by
    intro scope resource
    rw [hgiven]
    exact if_neg (by simp)
  have hused : ∀ scope resource, q.used scope resource =
      σ.provider.used scope resource - r.held scope resource := by
    intro scope resource
    rw [hq.used]
    by_cases hhere : ctx.scopeKey = scope ∧ r.resource = resource
    · have hrheld : r.held scope resource = r.units :=
        if_pos ⟨hfreed, hscope.trans hhere.1, hhere.2⟩
      have hle : r.held scope resource ≤ Ledger.held _ scope resource :=
        Ledger.held_le h.positive hr
      rw [← h.usage, hrheld] at hle
      rw [if_pos hhere, hrheld]
      omega
    · have hrheld : r.held scope resource = 0 :=
        if_neg fun hheld => hhere ⟨hscope.symm.trans hheld.2.1, hheld.2.2⟩
      rw [if_neg hhere, hrheld]
      omega
  refine ⟨hfreed, hlast', hused, hgiven, ?_⟩
  refine h.change hr hkey (keeps_give claimId) ?_ ?_ hq.limit hq.admissions ?_ hq.claims ?_
  · intro scope resource
    show _ = _ - _ + (closing claimId r).held scope resource
    rw [hheld, hused]
    omega
  · intro scope resource
    show (closing claimId r).held scope resource ≤ _
    rw [hheld]
    unfold Reservation.held
    split
    · exact (h.positive r hr).le
    · exact le_rfl
  · intro other hother
    rw [hq.releases]
    exact Dict.get?_set_ne _ _ hother
  · show Filed _ (closing claimId r) key
    rw [hgiven]
    unfold Filed
    rw [if_pos rfl, hq.releases]
    exact Dict.get?_set_self _ _ _

end Steps

/-! ## Steps -/

/-- The call gives back the units of one open reservation: its other claims are all
compensated, or the call is a release of the whole. -/
structure Frees (σ : Session) (e : Event) (r : Reservation) (key : QuotaKey) : Prop where
  mem : r ∈ σ.ledger
  named : r.releaseKey = some key
  call : ∃ ctx idempotencyKey claimId, key = ⟨ctx.scopeKey, idempotencyKey⟩ ∧
    e.call = .release ctx r.resource r.units (some idempotencyKey) claimId ∧
    (claimId = none ∨ ∃ claim, claimId = some claim ∧ r.owners = {claim})
  unfreed : r.freed = false
  unreleased : σ.provider.releases.get? key = none
  released : (act σ e).provider.releases.get? key ≠ none
  used : ∀ scope resource, (act σ e).provider.used scope resource =
    σ.provider.used scope resource - r.held scope resource
  closed : { r with owners := ∅, freed := true } ∈ (act σ e).ledger

/-- What a proper step does: it keeps the accounts and the releases on file, and where
it lowers a usage it frees a reservation. -/
structure Step (σ : Session) (e : Event) : Prop where
  accounted : Accounted (act σ e)
  releases : ∀ key, σ.provider.releases.get? key ≠ none →
    (act σ e).provider.releases.get? key ≠ none
  frees : (∃ r key, Frees σ e r key) ∨ ∀ scope resource,
    σ.provider.used scope resource ≤ (act σ e).provider.used scope resource

section Steps

variable {σ : Session}

theorem Step.of_quiet (h : Accounted σ) {e : Event} {q : MemoryQuotaProvider} {ledger : Ledger}
    (hact : act σ e = ⟨q, ledger⟩) (hq : Quiet σ.provider q) (hledger : ledger = σ.ledger) :
    Step σ e := by
  subst hledger
  constructor
  · rw [hact]
    exact h.quiet hq
  · intro key hkey
    rw [hact]
    show q.releases.get? key ≠ none
    rw [hq.releases]
    exact hkey
  · right
    intro scope resource
    rw [hact]
    exact (hq.used scope resource).ge

theorem act_admit (σ : Session) (env : Env) (ctx : ControlPlaneContext) (resource : QuotaResource)
    (units : Int) (idempotencyKey claimId : Option String) :
    act σ ⟨env, .admit_ ctx resource units idempotencyKey claimId⟩ =
      ⟨(admit_ env ctx resource units idempotencyKey claimId σ.provider).state,
        match (admit_ env ctx resource units idempotencyKey claimId σ.provider).result with
        | .ok decision =>
            if decision.effect = .allow then
              σ.ledger.admitted env ctx resource units idempotencyKey claimId decision
            else σ.ledger
        | .error _ => σ.ledger⟩ := rfl

theorem step_admit (h : Accounted σ) (env : Env) (ctx : ControlPlaneContext)
    (resource : QuotaResource) (units : Int) (idempotencyKey claimId : Option String)
    (hfresh : ∀ r ∈ σ.ledger, ∀ name ∈ r.name, name.2 ≠ env.uuid) :
    Step σ ⟨env, .admit_ ctx resource units idempotencyKey claimId⟩ := by
  have hadmits := admit_admits env ctx σ.provider resource units idempotencyKey claimId
  have hact := act_admit σ env ctx resource units idempotencyKey claimId
  generalize admit_ env ctx resource units idempotencyKey claimId σ.provider = reply
    at hadmits hact
  cases hadmits with
  | refused error => exact .of_quiet h hact (.refl _) rfl
  | denied decision q hdenied hq => exact .of_quiet h hact hq (if_neg hdenied)
  | joined decision release hactive hopen =>
      obtain ⟨heffect, hmem, hmetadata, hjoined⟩ :=
        h.joined (claimId.getD "") hactive hopen
      have hledger : σ.ledger.admitted env ctx resource units idempotencyKey claimId decision =
          σ.ledger.update release (Reservation.join (claimId.getD "")) := by
        obtain ⟨r, hr, hkey⟩ := Ledger.mem_keys.mp hmem
        unfold Ledger.admitted
        simp only [hmetadata]
        rw [if_pos ⟨by simp, List.mem_map.mpr ⟨r, hr, hkey⟩⟩]
        rfl
      simp only [if_pos heffect, hledger] at hact
      constructor
      · rw [hact]
        exact hjoined
      · intro key hkey
        rw [hact]
        exact hkey
      · right
        intro scope other
        rw [hact]
        exact le_rfl
  | charged state q hq hstate hunits hlimit =>
      obtain ⟨hnew, hcharged⟩ := h.charged
        hq hstate hunits hlimit hfresh
      have hdecision : ∃ decision,
          (charge env ctx resource units idempotencyKey claimId state q).result = .ok decision ∧
            decision.effect = .allow ∧
            decision.metadata.reservationKey = idempotencyKey.map (reservationKeyOf env) := by
        cases idempotencyKey with
        | none => exact ⟨_, rfl, rfl, rfl⟩
        | some key => exact ⟨_, rfl, rfl, rfl⟩
      obtain ⟨decision, hresult, heffect, hmetadata⟩ := hdecision
      have hledger : σ.ledger.admitted env ctx resource units idempotencyKey claimId decision =
          σ.ledger ++ [⟨ctx.scopeKey, resource, units, idempotencyKey.map (·, env.uuid),
            {claimId.getD ""}, false⟩] := by
        unfold Ledger.admitted
        simp only [hmetadata]
        refine if_neg ?_
        rintro ⟨hsome, hmem⟩
        apply hnew
        -- A new reservation key is not in the ledger.
        obtain ⟨r, hr, hkey⟩ := List.mem_map.mp hmem
        obtain ⟨key, hsome⟩ := Option.ne_none_iff_exists'.mp hsome
        rw [hsome] at hkey ⊢
        exact List.mem_map_of_mem (Ledger.mem_keys.mpr ⟨r, hr, hkey⟩)
      simp only [hresult, if_pos heffect, hledger] at hact
      constructor
      · rw [hact]
        exact hcharged
      · intro key hkey
        rw [hact]
        have hreleases : (charge env ctx resource units idempotencyKey claimId state q).state.releases
            = σ.provider.releases := by
          rw [← hq.releases]
          cases idempotencyKey with
          | none => rfl
          | some key => rfl
        show (MemoryQuotaProvider.releases _).get? key ≠ none
        rw [hreleases]
        exact hkey
      · right
        intro scope other
        rw [hact]
        show _ ≤ MemoryQuotaProvider.used _ scope other
        rw [charge_used _ _ _ _ _ _ _ _ (fun other => (hstate other).trans (hq.used _ _).symm),
          hq.used]
        split
        · omega
        · omega

theorem act_release (σ : Session) (env : Env) (ctx : ControlPlaneContext)
    (resource : QuotaResource) (units : Int) (key : String) (claimId : Option String) :
    act σ ⟨env, .release ctx resource units (some key) claimId⟩ =
      ⟨(release env ctx resource units (some key) claimId σ.provider).state,
        match (release env ctx resource units (some key) claimId σ.provider).result with
        | .ok _ => σ.ledger.update ⟨ctx.scopeKey, key⟩ (closing claimId)
        | .error _ => σ.ledger⟩ := rfl

theorem step_release (h : Accounted σ) (env : Env) (ctx : ControlPlaneContext) {r : Reservation}
    (hr : r ∈ σ.ledger) (hscope : r.scope = ctx.scopeKey) (key : String)
    (hkey : r.releaseKey = some ⟨ctx.scopeKey, key⟩) (claimId : Option String) :
    Step σ ⟨env, .release ctx r.resource r.units (some key) claimId⟩ := by
  have hreleases := release_releases env ctx σ.provider r.resource r.units key claimId
  have hact := act_release σ env ctx r.resource r.units key claimId
  generalize release env ctx r.resource r.units (some key) claimId σ.provider = reply
    at hreleases hact
  cases hreleases with
  | refused error => exact .of_quiet h hact (.refl _) rfl
  | repeated state q hq hnothing => exact .of_quiet h hact hq (h.repeated hr hkey hnothing)
  | compensated state q claims claim hclaim hopen hclaims hmem hleft hq =>
      subst hclaim
      have hcompensated := h.compensated hr hkey hopen hclaims hmem hleft
      constructor
      · rw [hact]
        exact hcompensated.quiet hq
      · intro other hother
        rw [hact]
        show q.releases.get? other ≠ none
        rw [hq.releases]
        exact hother
      · right
        intro scope resource
        rw [hact]
        exact (hq.used scope resource).ge
  | settled state q hopen hlast hq =>
      obtain ⟨hfreed, hlast', hused, hgiven, hsettled⟩ :=
        h.settled hr hscope hkey hopen hlast hq
      constructor
      · rw [hact]
        exact hsettled
      · intro other hother
        rw [hact]
        show q.releases.get? other ≠ none
        rw [hq.releases, Dict.get?_set]
        split
        · simp
        · exact hother
      · refine .inl ⟨r, ⟨ctx.scopeKey, key⟩, hr, hkey, ⟨ctx, key, claimId, rfl, rfl, hlast'⟩, hfreed,
          hopen, ?_, ?_, ?_⟩
        · rw [hact]
          show q.releases.get? _ ≠ none
          rw [hq.releases, Dict.get?_set_self]
          simp
        · intro scope resource
          rw [hact]
          exact hused scope resource
        · rw [hact]
          exact Ledger.mem_update.mpr (.inr ⟨r, hr, hkey, hgiven⟩)

theorem Accounted.step (h : Accounted σ) (e : Event) (hproper : Proper σ e) : Step σ e := by
  obtain ⟨env, call⟩ := e
  cases call with
  | admit_ ctx resource units idempotencyKey claimId =>
      exact step_admit h env ctx resource units idempotencyKey claimId hproper
  | release ctx resource units idempotencyKey claimId =>
      obtain ⟨r, hr, hscope, rfl, rfl, key, rfl, hkey⟩ := hproper
      exact step_release h env ctx hr hscope key hkey claimId
  | setSuspended ctx suspended =>
      exact .of_quiet h rfl (setSuspended_quiet env ctx σ.provider suspended) rfl
  | setContained ctx contained =>
      exact .of_quiet h rfl (setContained_quiet env ctx σ.provider contained) rfl
  | getState ctx => exact .of_quiet h rfl (getState_quiet env ctx σ.provider) rfl
  | getBudget ctx resource => exact .of_quiet h rfl (getBudget_quiet ctx σ.provider resource) rfl
  | setSharedPressure enabled => exact .of_quiet h rfl ⟨fun _ _ => rfl, rfl, rfl, rfl, rfl⟩ rfl
  | setUnavailable unavailable => exact .of_quiet h rfl ⟨fun _ _ => rfl, rfl, rfl, rfl, rfl⟩ rfl

end Steps

/-! ## Runs -/

/-- The release key under which a call lowers the usage of its resource. -/
def freedKey (σ : Session) (e : Event) : Option QuotaKey :=
  match e.call with
  | .release ctx resource _ (some key) _ =>
      if (act σ e).provider.used ctx.scopeKey resource < σ.provider.used ctx.scopeKey resource then
        some ⟨ctx.scopeKey, key⟩
      else none
  | _ => none

/-- Where a usage falls, it falls by the units of one open reservation, which is
closed: by a release without a claim, or by the compensation of its last claim. -/
def LowersRightly (σ : Session) (e : Event) : Prop :=
  ∀ scope resource,
    (act σ e).provider.used scope resource < σ.provider.used scope resource →
      ∃ r key, Frees σ e r key ∧ r.scope = scope ∧ r.resource = resource

theorem Step.lowersRightly {σ : Session} {e : Event} (h : Step σ e) : LowersRightly σ e := by
  intro scope resource hlower
  rcases h.frees with ⟨r, key, hfrees⟩ | hkept
  · refine ⟨r, key, hfrees, ?_⟩
    have hused := hfrees.used scope resource
    have hheld : r.held scope resource ≠ 0 := by omega
    unfold Reservation.held at hheld
    by_contra hother
    exact hheld (if_neg fun hhere => hother hhere.2)
  · exact absurd (hkept scope resource) (not_le.mpr hlower)

theorem Step.freedKey {σ : Session} {e : Event} (h : Step σ e) {key : QuotaKey}
    (hkey : freedKey σ e = some key) :
    σ.provider.releases.get? key = none ∧ (act σ e).provider.releases.get? key ≠ none := by
  obtain ⟨env, call⟩ := e
  cases call with
  | release ctx resource units idempotencyKey claimId =>
      cases idempotencyKey with
      | none => cases hkey
      | some name =>
          unfold Quota.freedKey at hkey
          simp only at hkey
          split at hkey
          · rename_i hlower
            obtain rfl := Option.some.inj hkey
            obtain ⟨r, key, hfrees, -, -⟩ := h.lowersRightly _ _ hlower
            obtain ⟨ctx', name', claimId', rfl, hcall, -⟩ := hfrees.call
            cases hcall
            exact ⟨hfrees.unreleased, hfrees.released⟩
          · cases hkey
  | _ => cases hkey

/-- The keys under which units were given back so far are on file as released. -/
structure Observed (σ : Session) (seen : List QuotaKey) : Prop where
  accounted : Accounted σ
  nodup : seen.Nodup
  released : ∀ key ∈ seen, σ.provider.releases.get? key ≠ none

theorem Observed.step {σ : Session} (e : Event) {seen : List QuotaKey} (h : Observed σ seen)
    (hproper : Proper σ e) : Observed (act σ e) (seen ++ (freedKey σ e).toList) := by
  have hstep := h.accounted.step e hproper
  refine ⟨hstep.accounted, ?_, ?_⟩
  · rw [List.nodup_append]
    refine ⟨h.nodup, by cases freedKey σ e <;> simp, ?_⟩
    rintro key hkey key' hkey' rfl
    -- A key seen before is released, so it frees nothing now.
    exact h.released key hkey (hstep.freedKey (Option.mem_toList.mp hkey')).1
  · intro key hkey
    rcases List.mem_append.mp hkey with hkey | hkey
    · exact hstep.releases key (h.released key hkey)
    · exact (hstep.freedKey (Option.mem_toList.mp hkey)).2

theorem observed_run {defaultLimits : Dict QuotaResource Int} {weights : Dict Scope Int}
    {es : List Event} (h : Runs.Guarded act Proper (.init defaultLimits weights) es) :
    Observed (Runs.run act (.init defaultLimits weights) es)
      (Runs.observe act freedKey (.init defaultLimits weights) es) := by
  have hinit : Observed (.init defaultLimits weights) [] :=
    ⟨accounted_init defaultLimits weights, List.nodup_nil,
      fun key hkey => absurd hkey List.not_mem_nil⟩
  have := Runs.invariant_observed (I := Observed)
    (fun σ e seen hσ hproper => hσ.step e hproper) hinit h
  simpa using this

/-- The usage balances with the open reservations in every state and stays within the
limit, no release key gives units back twice, and units are given back only where a
reservation closes. -/
theorem quota_accounting (defaultLimits : Dict QuotaResource Int) (weights : Dict Scope Int)
    (es : List Event) (h : Runs.Guarded act Proper (.init defaultLimits weights) es) :
    let σ := Runs.run act (.init defaultLimits weights) es
    (∀ scope resource,
      σ.provider.used scope resource = σ.ledger.held scope resource ∧
        0 ≤ σ.provider.used scope resource ∧
        σ.provider.used scope resource ≤ max 0 (σ.provider.limit resource)) ∧
      σ.ledger.keys.Nodup ∧
      (Runs.observe act freedKey (.init defaultLimits weights) es).Nodup ∧
      Runs.Guarded act LowersRightly (.init defaultLimits weights) es := by
  intro σ
  have hobserved := observed_run h
  have haccounted : Accounted σ := hobserved.accounted
  refine ⟨?_, haccounted.keys, hobserved.nodup, ?_⟩
  · intro scope resource
    refine ⟨haccounted.usage scope resource, ?_, haccounted.bounded scope resource⟩
    rw [haccounted.usage]
    exact Ledger.held_nonneg haccounted.positive
  · exact h.along (fun σ e hσ hproper => (hσ.step e hproper).accounted)
      (fun σ e hσ hproper => (hσ.step e hproper).lowersRightly)
      (accounted_init defaultLimits weights)

/-! ## A run -/

def sampleUuid (c : Char) : UuidHex where
  text := String.ofList (List.replicate 32 c)
  length := by simp

def sampleContext : ControlPlaneContext where
  principal := ⟨"alice", none, .human⟩
  tenant := ⟨"acme"⟩
  workspace := ⟨"acme", "main"⟩
  environment := ⟨"prod"⟩
  securityDomain := ⟨"corp"⟩
  resourceOwnerId := none
  workspaceTenant := workspace_ofTenant "acme" "main"
  ownerNonEmpty := none_ownerNonEmpty

def sampleLimits : Dict QuotaResource Int := Dict.empty.set .concurrency 2

def sampleReservationKey : String := "run" ++ ":" ++ (sampleUuid 'a').text

/-- Two attempts claim one reservation, give up one after the other, and the second
gives up again. -/
def sampleRun : List Event :=
  [⟨⟨0, sampleUuid 'a'⟩, .admit_ sampleContext .concurrency 2 (some "run") (some "first")⟩,
    ⟨⟨1, sampleUuid 'b'⟩, .admit_ sampleContext .concurrency 2 (some "run") (some "second")⟩,
    ⟨⟨2, sampleUuid 'c'⟩, .release sampleContext .concurrency 2
      (some (sampleReservationKey ++ ":release")) (some "first")⟩,
    ⟨⟨3, sampleUuid 'd'⟩, .release sampleContext .concurrency 2
      (some (sampleReservationKey ++ ":release")) (some "second")⟩,
    ⟨⟨4, sampleUuid 'e'⟩, .release sampleContext .concurrency 2
      (some (sampleReservationKey ++ ":release")) (some "second")⟩]

/-- The second compensation gives the units back, and the third finds nothing. -/
theorem quota_accounting_sample :
    Runs.Guarded act Proper (.init sampleLimits .empty) sampleRun ∧
      (Runs.observe act freedKey (.init sampleLimits .empty) sampleRun).Nodup ∧
      Runs.observe act freedKey (.init sampleLimits .empty) sampleRun =
        [⟨sampleContext.scopeKey, sampleReservationKey ++ ":release"⟩] := by
  have hproper : Runs.Guarded act Proper (.init sampleLimits .empty) sampleRun := by decide +kernel
  obtain ⟨-, -, hnodup, -⟩ := quota_accounting sampleLimits .empty sampleRun hproper
  exact ⟨hproper, hnodup, by decide +kernel⟩

end Etlantic.ControlPlane.Quota
