import Etlantic.ControlPlane.Durable.RouteDrain

/-!
# The evidence of an effect

A committed effect stays committed, and an effect in doubt stays in doubt until a
call brings evidence.  The check looks at the redacted evidence; redaction leaves
blank text blank, so the evidence of the call itself was not.  The reconcile loop
writes effects without any check, but only ever puts them in doubt.
-/

namespace Etlantic.ControlPlane.Durable

/-- The effect that the call records under the key. -/
def Event.recordedEffect? (e : Event) (k : Key) : Option EffectRecord :=
  match e.call with
  | .recordEffect ctx effect | .recordAttemptEffect ctx effect _ =>
      if key ctx effect.effectId = k then some effect else none
  | _ => none

/-- The call records the effect with reconciliation evidence. -/
def Event.carriesReconciliation (e : Event) (k : Key) : Bool :=
  (e.recordedEffect? k).any (fun effect => isProven effect.reconciliationEvidence)

/-- The call records the effect with idempotency evidence. -/
def Event.carriesIdempotency (e : Event) (k : Key) : Bool :=
  (e.recordedEffect? k).any (fun effect => isProven effect.idempotencyEvidence)

/-- The outcome is known, and the effect did not commit. -/
def isUncommitted (status : EffectStatus) : Bool :=
  status = .none || status = .notCommitted || status = .failed

/-- What one call may make of the status of an effect. -/
structure EffectStep (e : Event) (k : Key) (old new : EffectStatus) : Prop where
  committed : old = .committed → new = .committed
  notPending : old = .unknown → new ≠ .pending
  reconciled : old = .unknown → isUncommitted new = true → e.carriesReconciliation k = true
  proven : old = .unknown → new = .committed →
    e.carriesReconciliation k = true ∨ e.carriesIdempotency k = true
  supported : old = .unknown → ∀ text, new ≠ .other text

/-- Effects stay, and each status takes a step. -/
def EffectsStep (e : Event) (s t : Store) : Prop :=
  ∀ k effect, s.effects.get? k = some effect → ∃ later, t.effects.get? k = some later ∧
    EffectStep e k effect.status later.status

variable {host : Host} {e : Event} {s₀ s t : Store} {ctx : ControlPlaneContext} {k : Key}

/-! ## Evidence -/

theorem isProven_of_redacted {u : Unicode} {evidence : Option String}
    (h : isProven (evidence.map (redactControlPlaneText u)) = true) : isProven evidence = true := by
  unfold isProven at *
  cases evidence with
  | none => exact h
  | some text =>
      by_contra hblank
      have hblank : isBlank text = true := by simpa using hblank
      rw [Option.map_some, Option.any_some, redactControlPlaneText, redactMessage_of_blank u hblank,
        hblank] at h
      cases h

theorem invalidEffect_supported {effect : EffectRecord} (h : invalidEffect ctx effect = none)
    (text : String) : effect.status ≠ .other text := by
  intro hother
  unfold invalidEffect at h
  rw [hother] at h
  cases h

/-- What an overwrite that is not refused keeps. -/
structure Overwrites (existing effect : EffectRecord) : Prop where
  submissionId : existing.submissionId = effect.submissionId
  authoritative : existing.authoritative = effect.authoritative
  committed : existing.status = .committed → effect.status = .committed
  evidence : existing.status = .unknown → lacksEvidence effect = false

theorem overwrites_of_refusal {existing effect : EffectRecord}
    (h : effectRefusal existing effect = none) : Overwrites existing effect := by
  unfold effectRefusal at h
  split at h
  · cases h
  · rename_i hsubmission
    split at h
    · cases h
    · rename_i hauthority
      split at h
      · cases h
      · rename_i hcommitted
        split at h
        · cases h
        · rename_i hevidence
          rw [not_not] at hsubmission hauthority
          push Not at hcommitted
          refine ⟨hsubmission, hauthority, hcommitted, fun hunknown => ?_⟩
          by_contra hlacks
          exact hevidence ⟨hunknown, by simpa using hlacks⟩

/-! ## One call -/

theorem EffectStep.refl (e : Event) (k : Key) (status : EffectStatus) :
    EffectStep e k status status where
  committed := id
  notPending := by
    rintro rfl
    exact EffectStatus.noConfusion
  reconciled := by
    rintro rfl huncommitted
    cases huncommitted
  proven := by
    rintro rfl hcommitted
    cases hcommitted
  supported := by
    rintro rfl text
    exact EffectStatus.noConfusion

/-- An effect that did not commit may be put in doubt. -/
theorem EffectStep.doubt (e : Event) (k : Key) {status : EffectStatus}
    (hopen : status ≠ .committed) : EffectStep e k status .unknown where
  committed := fun hcommitted => absurd hcommitted hopen
  notPending := fun _ => EffectStatus.noConfusion
  reconciled := fun _ huncommitted => nomatch huncommitted
  proven := fun _ hcommitted => nomatch hcommitted
  supported := fun _ _ => EffectStatus.noConfusion

theorem recordedEffect?_self {effect : EffectRecord}
    (hcall : e.call = .recordEffect ctx effect ∨
      ∃ claim, e.call = .recordAttemptEffect ctx effect claim) :
    e.recordedEffect? (key ctx effect.effectId) = some effect := by
  unfold Event.recordedEffect?
  rcases hcall with hcall | ⟨claim, hcall⟩ <;> rw [hcall] <;> exact if_pos rfl

theorem effectStep_record {existing effect : EffectRecord}
    (hcall : e.call = .recordEffect ctx effect ∨
      ∃ claim, e.call = .recordAttemptEffect ctx effect claim)
    (hvalid : invalidEffect ctx effect = none)
    (hover : Overwrites existing (safeEffect host effect)) :
    EffectStep e (key ctx effect.effectId) existing.status (safeEffect host effect).status := by
  have hrecorded := recordedEffect?_self hcall
  have hreconciliation : isProven (safeEffect host effect).reconciliationEvidence = true →
      e.carriesReconciliation (key ctx effect.effectId) = true := fun hproven => by
    rw [Event.carriesReconciliation, hrecorded]
    exact isProven_of_redacted hproven
  have hidempotency : isProven (safeEffect host effect).idempotencyEvidence = true →
      e.carriesIdempotency (key ctx effect.effectId) = true := fun hproven => by
    rw [Event.carriesIdempotency, hrecorded]
    exact isProven_of_redacted hproven
  constructor
  · exact hover.committed
  · intro hunknown hpending
    have hevidence := hover.evidence hunknown
    rw [lacksEvidence, hpending] at hevidence
    cases hevidence
  · intro hunknown huncommitted
    have hevidence := hover.evidence hunknown
    simp only [isUncommitted, Bool.or_eq_true, decide_eq_true_eq, or_assoc] at huncommitted
    rcases huncommitted with hstatus | hstatus | hstatus <;>
      exact hreconciliation (by simpa [lacksEvidence, hstatus] using hevidence)
  · intro hunknown hcommitted
    have hevidence := hover.evidence hunknown
    rw [lacksEvidence, hcommitted] at hevidence
    simp only [Bool.not_eq_false', Bool.or_eq_true] at hevidence
    exact hevidence.imp hreconciliation hidempotency
  · exact fun _ text => invalidEffect_supported hvalid text

theorem Write.effectsStep (hs : EffectsStep e s₀ s) (h : Write host e s₀ s t) :
    EffectsStep e s₀ t := by
  cases h with
  | recordUnknownEffect hsweep hran hget hsame hopen =>
      rename_i k submission at_
      intro k' effect heffect
      by_cases hk : (⟨k.scope, executionEffectId k.id⟩ : Key) = k'
      · subst hk
        exact ⟨_, Dict.get?_set_self _ _ _, .doubt e _ (hopen effect (hsame.trans heffect))⟩
      · obtain ⟨later, hlater, hstep⟩ := hs k' effect heffect
        exact ⟨later, (Dict.get?_set_ne _ _ hk).trans hlater, hstep⟩
  | recordEffect hcall hvalid hget hallowed =>
      rename_i ctx given submission
      intro k' effect heffect
      by_cases hk : key ctx given.effectId = k'
      · subst hk
        rw [heffect] at hallowed
        exact ⟨_, Dict.get?_set_self _ _ _,
          effectStep_record hcall hvalid (overwrites_of_refusal hallowed)⟩
      · exact ⟨effect, (Dict.get?_set_ne _ _ hk).trans heffect, .refl e k' _⟩
  | _ => exact hs

theorem next_effectsStep (host : Host) (e : Event) (hs : Linked s) :
    EffectsStep e s (next host s e) :=
  Runs.writes_invariant (I := EffectsStep e s) (fun _ _ hI hw => hw.effectsStep hI)
    (next_writes hs) fun k effect heffect => ⟨effect, heffect, .refl e k _⟩

/-- Without evidence an effect in doubt stays in doubt. -/
theorem EffectStep.unproven {old new : EffectStatus} (h : EffectStep e k old new)
    (hunknown : old = .unknown) (hreconciliation : e.carriesReconciliation k = false)
    (hidempotency : e.carriesIdempotency k = false) : new = .unknown := by
  have hnever := fun huncommitted => h.reconciled hunknown huncommitted
  rw [hreconciliation] at hnever
  cases hnew : new with
  | none => exact nomatch hnever (by rw [hnew]; rfl)
  | pending => exact absurd hnew (h.notPending hunknown)
  | committed =>
      rcases h.proven hunknown hnew with hproven | hproven
      · rw [hreconciliation] at hproven
        cases hproven
      · rw [hidempotency] at hproven
        cases hproven
  | notCommitted => exact nomatch hnever (by rw [hnew]; rfl)
  | failed => exact nomatch hnever (by rw [hnew]; rfl)
  | unknown => rfl
  | other text => exact absurd hnew (h.supported hunknown text)

/-! ## Runs -/

/-- The effect has this status. -/
def Store.EffectIs (s : Store) (k : Key) (status : EffectStatus) : Prop :=
  ∃ effect, s.effects.get? k = some effect ∧ effect.status = status

theorem run_committed (host : Host) (es : List Event) (hs : Linked s)
    (h : s.EffectIs k .committed) : (run host s es).EffectIs k .committed := by
  refine (Runs.invariant (I := fun s => Linked s ∧ s.EffectIs k .committed)
    (fun s e hI _ => ⟨next_linked host e hI.1, ?_⟩) ⟨hs, h⟩ (Runs.guarded_true s es)).2
  obtain ⟨effect, hget, hcommitted⟩ := hI.2
  obtain ⟨later, hlater, hstep⟩ := next_effectsStep host e hI.1 k effect hget
  exact ⟨later, hlater, hstep.committed hcommitted⟩

theorem run_unproven (host : Host) {es : List Event} (hs : Linked s) (h : s.EffectIs k .unknown)
    (hsilent : ∀ e ∈ es, e.carriesReconciliation k = false ∧ e.carriesIdempotency k = false) :
    (run host s es).EffectIs k .unknown := by
  have hguarded : Runs.Guarded (next host) (fun _ e =>
      e.carriesReconciliation k = false ∧ e.carriesIdempotency k = false) s es :=
    Runs.guarded_iff.mpr fun before e after hes => hsilent e (by simp [hes])
  refine (Runs.invariant (I := fun s => Linked s ∧ s.EffectIs k .unknown)
    (fun s e hI hguard => ⟨next_linked host e hI.1, ?_⟩) ⟨hs, h⟩ hguarded).2
  obtain ⟨effect, hget, hunknown⟩ := hI.2
  obtain ⟨later, hlater, hstep⟩ := next_effectsStep host e hI.1 k effect hget
  exact ⟨later, hlater, hstep.unproven hunknown hguard.1 hguard.2⟩

/-- A committed effect stays committed; an effect in doubt never becomes pending, is
known not to have committed only with reconciliation evidence, and to have committed
only with reconciliation or idempotency evidence; without evidence it stays in doubt. -/
theorem effect_evidence (host : Host) (limit : Option Int) (es : List Event) (k : Key) :
    ((reached host limit es).EffectIs k .committed → ∀ es',
      (reached host limit (es ++ es')).EffectIs k .committed) ∧
    ((reached host limit es).EffectIs k .unknown → ∀ e, ∃ status,
      (reached host limit (es ++ [e])).EffectIs k status ∧ status ≠ .pending ∧
        (status = .none ∨ status = .notCommitted ∨ status = .failed →
          e.carriesReconciliation k = true) ∧
        (status = .committed →
          e.carriesReconciliation k = true ∨ e.carriesIdempotency k = true)) ∧
    ((reached host limit es).EffectIs k .unknown → ∀ es',
      (∀ e ∈ es', e.carriesReconciliation k = false ∧ e.carriesIdempotency k = false) →
        (reached host limit (es ++ es')).EffectIs k .unknown) := by
  have hlinked : Linked (reached host limit es) := reached_linked host limit es
  refine ⟨fun hcommitted es' => ?_, fun hunknown e => ?_, fun hunknown es' hsilent => ?_⟩
  · rw [reached_append]
    exact run_committed host es' hlinked hcommitted
  · obtain ⟨effect, hget, hstatus⟩ := hunknown
    obtain ⟨later, hlater, hstep⟩ := next_effectsStep host e hlinked k effect hget
    rw [reached_append]
    refine ⟨later.status, ⟨later, hlater, rfl⟩, hstep.notPending hstatus, fun huncommitted => ?_,
      hstep.proven hstatus⟩
    exact hstep.reconciled hstatus (by simpa [isUncommitted, or_assoc] using huncommitted)
  · rw [reached_append]
    exact run_unproven host hlinked hunknown hsilent

section Sample

/-- A connector loses the answer to its write. -/
def doubtfulEffect : List Event :=
  [⟨sampleEnv 'a' 0, .accept sampleContext (sampleAccept "a" "local" none)⟩,
    ⟨sampleEnv 'b' 1, .recordEffect sampleContext (sampleEffect "write" "a" .unknown)⟩]

/-- It retries, and then claims that nothing happened. -/
def unprovenClaims : List Event :=
  [⟨sampleEnv 'c' 2, .recordEffect sampleContext (sampleEffect "write" "a" .pending)⟩,
    ⟨sampleEnv 'd' 3, .recordEffect sampleContext
      { sampleEffect "write" "a" .notCommitted with reconciliationEvidence := some "  " }⟩]

theorem effect_evidence_unproven :
    (reached sampleHost none (doubtfulEffect ++ unprovenClaims)).EffectIs
      (key sampleContext "write") .unknown :=
  (effect_evidence sampleHost none doubtfulEffect (key sampleContext "write")).2.2
    ⟨sampleEffect "write" "a" .unknown, rfl, rfl⟩ unprovenClaims (by decide)

end Sample

end Etlantic.ControlPlane.Durable
