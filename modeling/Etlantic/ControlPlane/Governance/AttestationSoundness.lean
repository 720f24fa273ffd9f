import Etlantic.Base.Joined
import Etlantic.ControlPlane.Governance.Attestation

/-!
# What a verified plan rests on

The store keeps what was put; a signature that verifies was made by the signer
for the same text; and a text without a `|` inside its fields has one statement
behind it.  Where ids and statements go together one to one in each scope, and
tenants do not share ids, a positive check is a fresh, signed statement about
its subject, a revocation is final, and it stays within its tenant.
-/

namespace Etlantic.ControlPlane.Governance

open IsoText

namespace MemoryAttestationStore

/-! ## Signatures -/

/-- Distinct payloads have distinct signatures. -/
def CollisionFree (signer : Signer) : Prop := Function.Injective signer.sign

/-- A signature that verifies is one that the signer has made before. -/
def Unforgeable (signer : Signer) (events : List Event) : Prop :=
  ∀ before call after, events = before ++ .put call :: after → call.verifies signer = true →
    ∃ statement, .sign statement ∈ before ∧
      signer.sign (signingPayload statement.signingParts) = call.scoped.signature

/-- The put is accepted. -/
def Put.Accepted (signer : Signer) (call : Put) : Prop :=
  call.inScope = true ∧ call.verifies signer = true

/-- Fields without a separator; in each scope ids and statements one to one; and no id revoked by
one tenant and put by another. -/
structure Disciplined (signer : Signer) (events : List Event) : Prop where
  plain : ∀ statement, .sign statement ∈ events → ∀ part ∈ statement.signingParts,
    '|' ∉ part.toList
  oneStatement : ∀ p q, .put p ∈ events → .put q ∈ events → p.Accepted signer →
    q.Accepted signer → p.ctx.scopeKey = q.ctx.scopeKey →
    p.scoped.attestationId = q.scoped.attestationId → p.scoped.signingParts = q.scoped.signingParts
  oneId : ∀ p q, .put p ∈ events → .put q ∈ events → p.Accepted signer → q.Accepted signer →
    p.ctx.scopeKey = q.ctx.scopeKey → p.scoped.signingParts = q.scoped.signingParts →
    p.scoped.attestationId = q.scoped.attestationId
  owned : ∀ p r, .put p ∈ events → .revoke r ∈ events → p.Accepted signer →
    r.attestationId = p.scoped.attestationId → r.ctx.tenant = p.ctx.tenant

/-! ## What the store keeps -/

/-- Every record and every index entry comes from an accepted put of the run, and the revoked ids
are those of its revocations. -/
structure Kept (signer : Signer) (events : List Event) (s : MemoryAttestationStore) : Prop where
  record : ∀ scope id a, s.attestations.get? (scope, id) = some a → ∃ p, .put p ∈ events ∧
    p.Accepted signer ∧ p.ctx.scopeKey = scope ∧ p.scoped.attestationId = id ∧ p.scoped = a
  index : ∀ scope kind subject id, s.bySubject.get? (scope, kind, subject) = some id → ∃ p,
    .put p ∈ events ∧ p.Accepted signer ∧ p.ctx.scopeKey = scope ∧
      p.scoped.attestationId = id ∧ p.scoped.kind = kind ∧ p.scoped.subjectFingerprint = subject
  revoked : ∀ id, id ∈ s.revoked ↔ ∃ r, .revoke r ∈ events ∧ r.attestationId = id

theorem put_cases (signer : Signer) (s : MemoryAttestationStore) (call : Put) :
    (s.put signer call).state = s ∨ (call.Accepted signer ∧
      (s.put signer call).state = { s with
        attestations :=
          s.attestations.set (call.ctx.scopeKey, call.scoped.attestationId) call.scoped
        bySubject := s.bySubject.set
          (call.ctx.scopeKey, call.scoped.kind, call.scoped.subjectFingerprint)
          call.scoped.attestationId }) := by
  unfold put
  by_cases hscope : call.inScope = true
  · rw [hscope, Bool.not_true, if_neg Bool.false_ne_true]
    by_cases hverifies : call.verifies signer = true
    · rw [hverifies, Bool.not_true, if_neg Bool.false_ne_true]
      exact .inr ⟨⟨hscope, hverifies⟩, rfl⟩
    · exact .inl (by simp [hverifies])
  · exact .inl (by simp [hscope])

theorem Kept.mono {signer : Signer} {events : List Event} {s : MemoryAttestationStore}
    (h : Kept signer events s) (event : Event) (hrevoke : ∀ r, event ≠ .revoke r) :
    Kept signer (events ++ [event]) s := by
  refine ⟨?_, ?_, ?_⟩
  · intro scope id a hget
    obtain ⟨p, hmem, hrest⟩ := h.record scope id a hget
    exact ⟨p, List.mem_append_left _ hmem, hrest⟩
  · intro scope kind subject id hget
    obtain ⟨p, hmem, hrest⟩ := h.index scope kind subject id hget
    exact ⟨p, List.mem_append_left _ hmem, hrest⟩
  · intro id
    rw [h.revoked]
    constructor
    · rintro ⟨r, hmem, hid⟩
      exact ⟨r, List.mem_append_left _ hmem, hid⟩
    · rintro ⟨r, hmem, hid⟩
      rcases List.mem_append.mp hmem with hmem | hmem
      · exact ⟨r, hmem, hid⟩
      · exact absurd (List.mem_singleton.mp hmem).symm (hrevoke r)

theorem Kept.put {signer : Signer} {events : List Event} {s : MemoryAttestationStore}
    (h : Kept signer events s) (call : Put) :
    Kept signer (events ++ [.put call]) (s.put signer call).state := by
  have hmono := h.mono (.put call) (fun r heq => by cases heq)
  have hlast : Event.put call ∈ events ++ [.put call] :=
    List.mem_append_right _ (List.mem_singleton.mpr rfl)
  rcases put_cases signer s call with hsame | ⟨haccepted, hstate⟩
  · rw [hsame]
    exact hmono
  · rw [hstate]
    refine ⟨?_, ?_, hmono.revoked⟩
    · intro scope id a hget
      rcases Dict.get?_set_eq_some.mp hget with ⟨hkey, rfl⟩ | ⟨-, hold⟩
      · obtain ⟨rfl, rfl⟩ := Prod.mk.inj hkey
        exact ⟨call, hlast, haccepted, rfl, rfl, rfl⟩
      · exact hmono.record scope id a hold
    · intro scope kind subject id hget
      rcases Dict.get?_set_eq_some.mp hget with ⟨hkey, rfl⟩ | ⟨-, hold⟩
      · obtain ⟨rfl, hrest⟩ := Prod.mk.inj hkey
        obtain ⟨rfl, rfl⟩ := Prod.mk.inj hrest
        exact ⟨call, hlast, haccepted, rfl, rfl, rfl, rfl⟩
      · exact hmono.index scope kind subject id hold

theorem Kept.revoke {signer : Signer} {events : List Event} {s : MemoryAttestationStore}
    (h : Kept signer events s) (call : Revoke) :
    Kept signer (events ++ [.revoke call]) (s.revoke call).state := by
  refine ⟨?_, ?_, ?_⟩
  · intro scope id a hget
    obtain ⟨p, hmem, hrest⟩ := h.record scope id a hget
    exact ⟨p, List.mem_append_left _ hmem, hrest⟩
  · intro scope kind subject id hget
    obtain ⟨p, hmem, hrest⟩ := h.index scope kind subject id hget
    exact ⟨p, List.mem_append_left _ hmem, hrest⟩
  · intro id
    show id ∈ call.attestationId :: s.revoked ↔ _
    rw [List.mem_cons, h.revoked]
    constructor
    · rintro (rfl | ⟨r, hmem, hid⟩)
      · exact ⟨call, List.mem_append_right _ (List.mem_singleton.mpr rfl), rfl⟩
      · exact ⟨r, List.mem_append_left _ hmem, hid⟩
    · rintro ⟨r, hmem, hid⟩
      rcases List.mem_append.mp hmem with hmem | hmem
      · exact .inr ⟨r, hmem, hid⟩
      · cases List.mem_singleton.mp hmem
        exact .inl hid.symm

theorem kept_run (signer : Signer) (events : List Event) :
    Kept signer events (Runs.run (next signer) init events) := by
  induction events using List.reverseRecOn with
  | nil =>
      refine ⟨?_, ?_, ?_⟩
      · intro scope id a hget
        cases hget
      · intro scope kind subject id hget
        cases hget
      · intro id
        simp [Runs.run, init]
  | append_singleton events event ih =>
      rw [Runs.run_append_singleton]
      cases event with
      | sign statement => exact ih.mono _ (fun r heq => by cases heq)
      | put call => exact ih.put call
      | revoke call => exact ih.revoke call
      | verifyPlan call => exact ih.mono _ (fun r heq => by cases heq)

/-! ## What a signature says -/

theorem kind_of_text {a b : AttestationKind} (h : a.text = b.text) : a = b := by
  revert h
  cases a <;> cases b <;> decide

/-- Statements of the same parts are about the same kind, subject, tenant and workspace. -/
theorem same_of_parts {a b : Attestation} (h : a.signingParts = b.signingParts) :
    a.kind = b.kind ∧ a.subjectFingerprint = b.subjectFingerprint ∧
      a.tenantId.getD "" = b.tenantId.getD "" ∧ a.workspaceId.getD "" = b.workspaceId.getD "" := by
  unfold Attestation.signingParts at h
  obtain ⟨-, hkind, hsubject, -, htenant, hworkspace, -⟩ :
      attestationSchema = attestationSchema ∧ a.kind.text = b.kind.text ∧
        a.subjectFingerprint = b.subjectFingerprint ∧ a.signerId = b.signerId ∧
        a.tenantId.getD "" = b.tenantId.getD "" ∧ a.workspaceId.getD "" = b.workspaceId.getD "" ∧
        True := by
    simp only [List.cons.injEq] at h
    exact ⟨rfl, h.2.1, h.2.2.1, h.2.2.2.1, h.2.2.2.2.1, h.2.2.2.2.2.1, trivial⟩
  exact ⟨kind_of_text hkind, hsubject, htenant, hworkspace⟩

/-- A plain statement with the payload of an attestation is an attestation of the same parts. -/
theorem statement_of_payload {statement : Statement} {a : Attestation}
    (hplain : ∀ part ∈ statement.signingParts, '|' ∉ part.toList)
    (h : signingPayload statement.signingParts = signingPayload a.signingParts) :
    ∃ signed, statement = .attestation signed ∧ signed.signingParts = a.signingParts := by
  cases statement with
  | attestation signed =>
      exact ⟨signed, rfl, Joined.strings_inj rfl rfl hplain h⟩
  | observation o =>
      -- An observation has fewer parts, so one of them would contain the separator.
      obtain ⟨part, hpart, hmem⟩ := Joined.strings_shorter rfl
        (List.cons_ne_nil _ _) (Nat.lt_of_sub_eq_succ rfl) h.symm
      exact absurd hmem (hplain part hpart)

/-- An accepted put carries a statement that was signed before it. -/
theorem signed_of_accepted {signer : Signer} (hfree : CollisionFree signer) {events : List Event}
    (hunforgeable : Unforgeable signer events)
    (hplain : ∀ statement, .sign statement ∈ events → ∀ part ∈ statement.signingParts,
      '|' ∉ part.toList)
    {p : Put} (hmem : .put p ∈ events) (haccepted : p.Accepted signer) :
    ∃ signed, .sign (.attestation signed) ∈ events ∧
      signed.signingParts = p.scoped.signingParts := by
  obtain ⟨before, after, hevents⟩ := List.append_of_mem hmem
  obtain ⟨statement, hsigned, hsignature⟩ := hunforgeable before p after hevents haccepted.2
  have hin : .sign statement ∈ events := by
    rw [hevents]
    exact List.mem_append_left _ hsigned
  have hverifies : signer.sign (signingPayload p.scoped.signingParts) = p.scoped.signature := by
    have hdecide := haccepted.2
    unfold Put.verifies Signer.verifySignature at hdecide
    exact of_decide_eq_true hdecide
  obtain ⟨signed, rfl, hparts⟩ := statement_of_payload (hplain statement hin)
    (hfree (hsignature.trans hverifies.symm))
  exact ⟨signed, hin, hparts⟩

/-! ## Positive checks -/

/-- What a positive check has found. -/
theorem verifyOne_ok {signer : Signer} {s : MemoryAttestationStore} {scope : Scope}
    {maxAgeSeconds : Int} {now : Datetime} {check : AttestationKind × String}
    (h : (verifyOne signer s scope maxAgeSeconds now check).ok = true) :
    ∃ aid a, s.bySubject.get? (scope, check.1, check.2) = some aid ∧ aid ∉ s.revoked ∧
      s.attestations.get? (scope, aid) = some a ∧ Fresh now maxAgeSeconds a := by
  unfold verifyOne at h
  cases hindex : s.bySubject.get? (scope, check.1, check.2) with
  | none =>
      rw [hindex] at h
      cases h
  | some aid =>
      rw [hindex] at h
      dsimp only at h
      by_cases hrevoked : aid ∈ s.revoked
      · rw [if_pos hrevoked] at h
        cases h
      · rw [if_neg hrevoked] at h
        cases hget : s.attestations.get? (scope, aid) with
        | none =>
            rw [hget] at h
            cases h
        | some a =>
            rw [hget] at h
            dsimp only at h
            split at h
            · cases h
            · split at h
              · cases h
              · rename_i hfuture
                split at h
                · cases h
                · rename_i hstale
                  exact ⟨aid, a, rfl, hrevoked, hget, not_lt.mp hfuture, not_lt.mp hstale⟩

/-- The signer signed a statement of the check's kind and subject for the tenant and the workspace
of the scope, and that statement is the one found in the store, fresh and not revoked. -/
def Sound (events : List Event) (s : MemoryAttestationStore) (scope : Scope) (maxAgeSeconds : Int)
    (now : Datetime) (check : AttestationKind × String) : Prop :=
  ∃ signed a, .sign (.attestation signed) ∈ events ∧ found s scope check = some a ∧
    signed.signingParts = a.signingParts ∧ signed.kind = check.1 ∧
    signed.subjectFingerprint = check.2 ∧ signed.tenantId.getD "" = scope.tenantId ∧
    signed.workspaceId.getD "" = scope.workspaceId ∧ Fresh now maxAgeSeconds a ∧
    a.attestationId ∉ s.revoked

theorem scope_of_inScope {p : Put} (h : p.inScope = true) :
    p.scoped.tenantId = some p.ctx.scopeKey.tenantId ∧
      p.scoped.workspaceId = some p.ctx.scopeKey.workspaceId := by
  unfold Put.inScope at h
  have hboth := Bool.and_eq_true_iff.mp h
  exact ⟨of_decide_eq_true hboth.1, of_decide_eq_true hboth.2⟩

theorem sound_of_ok {signer : Signer} (hfree : CollisionFree signer) {events : List Event}
    (hunforgeable : Unforgeable signer events) (hdisciplined : Disciplined signer events)
    {scope : Scope} {maxAgeSeconds : Int} {now : Datetime} {check : AttestationKind × String}
    (h : (verifyOne signer (Runs.run (next signer) init events) scope maxAgeSeconds now
      check).ok = true) :
    Sound events (Runs.run (next signer) init events) scope maxAgeSeconds now check := by
  have hkept := kept_run signer events
  obtain ⟨aid, a, hindex, hrevoked, hget, hfresh⟩ := verifyOne_ok h
  obtain ⟨p, hp, hpAccepted, hpScope, hpId, hkind, hsubject⟩ := hkept.index _ _ _ _ hindex
  obtain ⟨q, hq, hqAccepted, hqScope, hqId, rfl⟩ := hkept.record _ _ _ hget
  obtain ⟨signed, hsigned, hparts⟩ :=
    signed_of_accepted hfree hunforgeable hdisciplined.plain hq hqAccepted
  have hpq := hdisciplined.oneStatement p q hp hq hpAccepted hqAccepted
    (hpScope.trans hqScope.symm) (hpId.trans hqId.symm)
  obtain ⟨hsameKind, hsameSubject, -, -⟩ := same_of_parts (hparts.trans hpq.symm)
  obtain ⟨-, -, hsameTenant, hsameWorkspace⟩ := same_of_parts hparts
  obtain ⟨htenant, hworkspace⟩ := scope_of_inScope hqAccepted.1
  refine ⟨signed, q.scoped, hsigned, ?_, hparts, hsameKind.trans hkind,
    hsameSubject.trans hsubject, ?_, ?_, hfresh, ?_⟩
  · unfold found
    rw [hindex]
    exact hget
  · rw [hsameTenant, htenant, ← hqScope]
    rfl
  · rw [hsameWorkspace, hworkspace, ← hqScope]
    rfl
  · rw [hqId]
    exact hrevoked

/-! ## Revocation -/

/-- In the run the statement was put under an id of the scope that was revoked in the scope. -/
def RevokedStatement (signer : Signer) (events : List Event) (scope : Scope) (parts : List String) :
    Prop :=
  ∃ p r, .put p ∈ events ∧ .revoke r ∈ events ∧ p.Accepted signer ∧ p.ctx.scopeKey = scope ∧
    r.ctx.scopeKey = scope ∧ r.attestationId = p.scoped.attestationId ∧
    p.scoped.signingParts = parts

/-- A revoked statement is not what a positive check rests on. -/
theorem not_ok_of_revoked {signer : Signer} {events : List Event}
    (hdisciplined : Disciplined signer events) {scope : Scope} {parts : List String}
    (hrevokedParts : RevokedStatement signer events scope parts) {maxAgeSeconds : Int}
    {now : Datetime} {check : AttestationKind × String}
    (h : (verifyOne signer (Runs.run (next signer) init events) scope maxAgeSeconds now
      check).ok = true) {a : Attestation}
    (hfound : found (Runs.run (next signer) init events) scope check = some a) :
    a.signingParts ≠ parts := by
  rintro rfl
  have hkept := kept_run signer events
  obtain ⟨aid, a', hindex, hrevoked, hget, -⟩ := verifyOne_ok h
  obtain ⟨p, r, hp, hr, hpAccepted, hpScope, -, hid, hparts⟩ := hrevokedParts
  unfold found at hfound
  rw [hindex, Option.bind_some, hget] at hfound
  obtain rfl := Option.some.inj hfound
  obtain ⟨q, hq, hqAccepted, hqScope, hqId, rfl⟩ := hkept.record _ _ _ hget
  have hsame := hdisciplined.oneId p q hp hq hpAccepted hqAccepted (hpScope.trans hqScope.symm)
    hparts
  exact hrevoked ((hkept.revoked aid).mpr ⟨r, hr, hid.trans (hsame.trans hqId)⟩)

/-! ## Tenants -/

/-- Not a revocation by another tenant. -/
def notForeign (tenant : TenantRef) : Event → Bool
  | .revoke r => r.ctx.tenant = tenant
  | _ => true

/-- Revocations change the set of revoked ids and nothing else. -/
theorem run_filter (signer : Signer) (tenant : TenantRef) : ∀ (events : List Event)
    (s t : MemoryAttestationStore), s.attestations = t.attestations → s.bySubject = t.bySubject →
      (Runs.run (next signer) s events).attestations =
          (Runs.run (next signer) t (events.filter (notForeign tenant))).attestations ∧
        (Runs.run (next signer) s events).bySubject =
          (Runs.run (next signer) t (events.filter (notForeign tenant))).bySubject
  | [], _, _, hrecords, hindex => ⟨hrecords, hindex⟩
  | event :: events, s, t, hrecords, hindex => by
      have hkeep : ∀ e : Event, (next signer s e).attestations = (next signer t e).attestations ∧
          (next signer s e).bySubject = (next signer t e).bySubject := by
        intro e
        cases e with
        | sign statement => exact ⟨hrecords, hindex⟩
        | revoke call => exact ⟨hrecords, hindex⟩
        | verifyPlan call => exact ⟨hrecords, hindex⟩
        | put call =>
            show (s.put signer call).state.attestations = (t.put signer call).state.attestations ∧
              (s.put signer call).state.bySubject = (t.put signer call).state.bySubject
            unfold put
            split
            · exact ⟨hrecords, hindex⟩
            · split
              · exact ⟨hrecords, hindex⟩
              · dsimp only
                rw [hrecords, hindex]
                exact ⟨rfl, rfl⟩
      by_cases hforeign : notForeign tenant event = true
      · rw [List.filter_cons_of_pos hforeign, Runs.run_cons, Runs.run_cons]
        exact run_filter signer tenant events _ _ (hkeep event).1 (hkeep event).2
      · rw [List.filter_cons_of_neg hforeign, Runs.run_cons]
        cases event with
        | revoke call => exact run_filter signer tenant events _ t hrecords hindex
        | sign statement => exact absurd rfl hforeign
        | put call => exact absurd rfl hforeign
        | verifyPlan call => exact absurd rfl hforeign

/-- A check of a tenant is the same without the revocations of the others. -/
theorem verifyOne_filter {signer : Signer} {events : List Event}
    (hdisciplined : Disciplined signer events) {scope : Scope} {tenant : TenantRef}
    (htenant : tenant.tenantId = scope.tenantId) (maxAgeSeconds : Int) (now : Datetime)
    (check : AttestationKind × String) :
    verifyOne signer (Runs.run (next signer) init events) scope maxAgeSeconds now check =
      verifyOne signer (Runs.run (next signer) init (events.filter (notForeign tenant))) scope
        maxAgeSeconds now check := by
  have hkept := kept_run signer events
  have hkept' := kept_run signer (events.filter (notForeign tenant))
  obtain ⟨hrecords, hindexes⟩ := run_filter signer tenant events init init rfl rfl
  unfold verifyOne
  rw [← hindexes, ← hrecords]
  cases hindex : (Runs.run (next signer) init events).bySubject.get? (scope, check.1, check.2) with
  | none => rfl
  | some aid =>
      have hrevoked : aid ∈ (Runs.run (next signer) init events).revoked ↔
          aid ∈ (Runs.run (next signer) init (events.filter (notForeign tenant))).revoked := by
        rw [hkept.revoked, hkept'.revoked]
        constructor
        · rintro ⟨r, hr, hid⟩
          obtain ⟨p, hp, hpAccepted, hpScope, hpId, -⟩ := hkept.index _ _ _ _ hindex
          have howner := hdisciplined.owned p r hp hr hpAccepted (hid.trans hpId.symm)
          have hsame : r.ctx.tenant = tenant := by
            rw [howner]
            have hid : p.ctx.tenant.tenantId = tenant.tenantId := by
              rw [htenant, ← hpScope]
              rfl
            cases htenants : p.ctx.tenant
            cases tenant
            rw [htenants] at hid
            exact congrArg TenantRef.mk hid
          exact ⟨r, List.mem_filter.mpr ⟨hr, decide_eq_true hsame⟩, hid⟩
        · rintro ⟨r, hr, hid⟩
          exact ⟨r, (List.mem_filter.mp hr).1, hid⟩
      dsimp only
      by_cases hin : aid ∈ (Runs.run (next signer) init events).revoked
      · rw [if_pos hin, if_pos (hrevoked.mp hin)]
      · rw [if_neg hin, if_neg (fun h => hin (hrevoked.mpr h))]

/-! ## The laws together -/

theorem verifyPlan_ok {signer : Signer} {s : MemoryAttestationStore} {call : Verify}
    {results : List VerificationResult} (h : verifyPlan signer s call = .ok results) {i : Nat}
    {check : AttestationKind × String} (hcheck : call.checks[i]? = some check)
    {result : VerificationResult} (hresult : results[i]? = some result) :
    result = verifyOne signer s call.ctx.scopeKey call.maxAgeSeconds (call.now i) check := by
  unfold verifyPlan at h
  split at h
  · cases h
  · obtain rfl := Except.ok.inj h
    rw [List.getElem?_mapIdx, hcheck] at hresult
    exact (Option.some.inj hresult).symm

/-- In a disciplined run a positive check is sound and rests on no revoked statement, and the
revocations of other tenants change no result. -/
theorem attestations_sound {signer : Signer} (hfree : CollisionFree signer) {events : List Event}
    (hunforgeable : Unforgeable signer events) (hdisciplined : Disciplined signer events) :
    (∀ call results, verifyPlan signer (Runs.run (next signer) init events) call = .ok results →
      ∀ i check result, call.checks[i]? = some check → results[i]? = some result →
        result.ok = true →
          Sound events (Runs.run (next signer) init events) call.ctx.scopeKey call.maxAgeSeconds
            (call.now i) check ∧
          ∀ a, found (Runs.run (next signer) init events) call.ctx.scopeKey check = some a →
            ¬ RevokedStatement signer events call.ctx.scopeKey a.signingParts) ∧
    ∀ call, verifyPlan signer (Runs.run (next signer) init events) call =
      verifyPlan signer
        (Runs.run (next signer) init (events.filter (notForeign call.ctx.tenant))) call := by
  constructor
  · intro call results h i check result hcheck hresult hok
    rw [verifyPlan_ok h hcheck hresult] at hok
    refine ⟨sound_of_ok hfree hunforgeable hdisciplined hok, ?_⟩
    intro a hfound hrevoked
    exact not_ok_of_revoked hdisciplined hrevoked hok hfound rfl
  · intro call
    unfold verifyPlan
    split
    · rfl
    · refine congrArg Except.ok ?_
      have hone := fun i => @verifyOne_filter signer events hdisciplined call.ctx.scopeKey
        call.ctx.tenant rfl call.maxAgeSeconds (call.now i)
      simp only [hone]

/-! ## A revoked statement put again -/

def notary : ControlPlaneContext where
  principal := ⟨"alice", none, .human⟩
  tenant := ⟨"acme"⟩
  workspace := ⟨"acme", "main"⟩
  environment := ⟨"prod"⟩
  securityDomain := ⟨"corp"⟩
  resourceOwnerId := none
  workspaceTenant := workspace_ofTenant "acme" "main"
  ownerNonEmpty := none_ownerNonEmpty

def signedAt : Datetime := ⟨⟨2024, 1, 1, 0, 0, 0, 0⟩, by decide⟩

def planSignature : String := 
  "6fd4b4c2bdf905095325f947110df899eacf3bbf5883ac47cea8fd6c39f3c1c3"

/-- A signed statement about the plan `fp`, under an id that the signature does not cover. -/
def planStatement (attestationId : String) : Attestation where
  attestationId := attestationId
  kind := .plan
  subjectFingerprint := "fp"
  signature := planSignature
  signerId := "memory"
  tenantId := some "acme"
  workspaceId := some "main"
  environment := some "prod"
  sbomDigest := none
  createdAt := signedAt

def planPayload : String :=
  "etlantic.control_plane.attestation/2|plan|fp|memory|acme|main|prod||2024-01-01T00:00:00+00:00"

/-- The secret of `for_tests` on the payload above. -/
def notarySigner : Signer where
  sign payload := if payload = planPayload then planSignature else "hmac:" ++ payload

theorem notarySigner_collisionFree : CollisionFree notarySigner := by
  have hother : ∀ payload : String, "hmac:" ++ payload ≠ planSignature := by
    intro payload heq
    have hhead := congrArg (fun text : String => text.toList.head?) heq
    simp [planSignature] at hhead
  intro a b h
  unfold notarySigner at h
  dsimp only at h
  split at h
  · rename_i ha
    split at h
    · rename_i hb
      exact ha.trans hb.symm
    · exact absurd h.symm (hother b)
  · split at h
    · exact absurd h (hother a)
    · have hlists := congrArg String.toList h
      rw [String.toList_append, String.toList_append] at hlists
      exact String.ext (List.append_cancel_left hlists)

def putting (attestationId : String) : Put := ⟨notary, planStatement attestationId⟩

def verifying : Verify :=
  ⟨notary, "fp", "rev", "policy", [], none, 86400, fun _ => signedAt⟩

/-- The run in which a revoked statement is put again under another id. -/
def resubmission : List Event :=
  [.sign (.attestation (planStatement "a1")), .put (putting "a1"), .revoke ⟨notary, "a1"⟩,
    .put (putting "a2")]

theorem planPayload_eq (attestationId : String) :
    signingPayload (planStatement attestationId).signingParts = planPayload := by
  show signingPayload (planStatement "a1").signingParts = planPayload
  decide +kernel

theorem sign_planPayload : notarySigner.sign planPayload = planSignature := by
  unfold notarySigner
  dsimp only
  rw [if_pos rfl]

/-- Every put of a run that begins with the signing of the statement carries its signature. -/
theorem unforgeable_of_first {events : List Event}
    (hputs : ∀ p, .put p ∈ events → ∃ id, p = putting id) :
    Unforgeable notarySigner (.sign (.attestation (planStatement "a1")) :: events) := by
  intro before call after hevents _
  cases before with
  | nil => cases hevents
  | cons first before =>
      obtain ⟨rfl, rfl⟩ := List.cons.inj hevents
      obtain ⟨id, rfl⟩ := hputs call (List.mem_append_right _ List.mem_cons_self)
      refine ⟨_, List.mem_cons_self, ?_⟩
      show notarySigner.sign (signingPayload (planStatement "a1").signingParts) = planSignature
      rw [planPayload_eq, sign_planPayload]

theorem accepted_putting (id : String) : (putting id).Accepted notarySigner := by
  refine ⟨rfl, ?_⟩
  show decide (notarySigner.sign (signingPayload (planStatement id).signingParts) =
    planSignature) = true
  rw [planPayload_eq, sign_planPayload]
  exact decide_eq_true rfl

/-- A revoked statement that is put again under another id makes its check positive again. -/
theorem resubmitted_ok :
    CollisionFree notarySigner ∧ Unforgeable notarySigner resubmission ∧
    RevokedStatement notarySigner resubmission notary.scopeKey (planStatement "a1").signingParts ∧
    (verifyOne notarySigner (Runs.run (next notarySigner) init resubmission) notary.scopeKey 86400
      signedAt (.plan, "fp")).ok = true ∧
    (found (Runs.run (next notarySigner) init resubmission) notary.scopeKey
      (.plan, "fp")).map Attestation.signingParts = some (planStatement "a1").signingParts := by
  refine ⟨notarySigner_collisionFree, unforgeable_of_first ?_, ?_, ?_, ?_⟩
  · intro p hp
    simp only [List.mem_cons, Event.put.injEq, reduceCtorEq, List.not_mem_nil, false_or,
      or_false] at hp
    rcases hp with rfl | rfl
    · exact ⟨"a1", rfl⟩
    · exact ⟨"a2", rfl⟩
  · refine ⟨putting "a1", ⟨notary, "a1"⟩, ?_, ?_, accepted_putting "a1", rfl, rfl, rfl, rfl⟩
    · simp [resubmission]
    · simp [resubmission]
  · decide +kernel
  · decide +kernel

/-- A signed statement that was put once and never revoked. -/
def submission : List Event :=
  [.sign (.attestation (planStatement "a1")), .put (putting "a1")]

theorem disciplined_submission : Disciplined notarySigner submission := by
  have hput : ∀ p, .put p ∈ submission → p = putting "a1" := by
    intro p hp
    simpa [submission] using hp
  refine ⟨?_, ?_, ?_, ?_⟩
  · intro statement hsign
    have hstatement : statement = .attestation (planStatement "a1") := by
      simpa [submission] using hsign
    rw [hstatement]
    show ∀ part ∈ (planStatement "a1").signingParts, '|' ∉ part.toList
    decide +kernel
  · intro p q hp hq _ _ _ _
    rw [hput p hp, hput q hq]
  · intro p q hp hq _ _ _ _
    rw [hput p hp, hput q hq]
  · intro p r _ hr
    simp [submission] at hr

/-- A signed statement that was put once makes its check positive, and that check is sound. -/
theorem submitted_sound :
    Sound submission (Runs.run (next notarySigner) init submission) notary.scopeKey 86400 signedAt
      (.plan, "fp") := by
  have hunforgeable : Unforgeable notarySigner submission := by
    refine unforgeable_of_first ?_
    intro p hp
    exact ⟨"a1", by simpa using hp⟩
  have hok : (verifyOne notarySigner (Runs.run (next notarySigner) init submission)
      notary.scopeKey 86400 signedAt (.plan, "fp")).ok = true := by decide +kernel
  exact ((attestations_sound notarySigner_collisionFree hunforgeable disciplined_submission).1
    verifying _ (if_neg (by decide)) 0 (.plan, "fp") _ rfl rfl hok).1

end MemoryAttestationStore

end Etlantic.ControlPlane.Governance
