import Etlantic.Base.Evolves
import Etlantic.ControlPlane.Durable.EffectEvidence

/-!
# The identity of an effect

`record_effect` refuses to change the submission and the authority of an effect,
and a shadow run is authorized on the authority its effects have at that moment.
The reconcile loop writes without asking: under the id it gives to the effect of an
execution a caller may have recorded an effect of its own, and the loop replaces it.
-/

namespace Etlantic.ControlPlane.Durable

/-- Effects stay, and keep their submission and their authority. -/
def EffectsKept (s t : Store) : Prop :=
  ∀ k effect, s.effects.get? k = some effect → ∃ later, t.effects.get? k = some later ∧
    later.submissionId = effect.submissionId ∧ later.authoritative = effect.authoritative

/-- Every effect that an authorized shadow run lists is there and is not authoritative. -/
def ShadowsIsolated (s : Store) : Prop :=
  ∀ k shadow, s.shadows.get? k = some shadow → ∀ effectId ∈ shadow.effectIds,
    ∃ effect, s.effects.get? ⟨shadow.scope, effectId⟩ = some effect ∧ effect.authoritative = false

/-- The effect under the execution id of the submission has not committed and is not
the one the store would put there. -/
def Store.occupied (s : Store) (k : Key) : Bool :=
  (s.effects.get? ⟨k.scope, executionEffectId k.id⟩).any fun effect =>
    effect.status ≠ .committed && (effect.submissionId ≠ k.id || !effect.authoritative)

/-- The sweep finalizes a submission with a running attempt whose execution id is
occupied. -/
def Event.overwrites (e : Event) (s : Store) : Bool :=
  match e.call with
  | .reconcileCancelledSubmissions ctx sweep =>
      sweep.isValid && (reconciledRows s ctx.scopeKey sweep (e.env.now [0])).any
        fun entry => s.hasRunningAttempt entry.1 && s.occupied entry.1
  | _ => false

variable {host : Host} {e : Event} {s₀ s t u : Store} {ctx : ControlPlaneContext} {k : Key}

/-! ## What the writes keep -/

theorem EffectsKept.refl (s : Store) : EffectsKept s s := Dict.Evolves.refl (fun _ => ⟨rfl, rfl⟩) _

theorem EffectsKept.trans (h : EffectsKept s t) (h' : EffectsKept t u) : EffectsKept s u :=
  Dict.Evolves.trans (fun _ _ _ hsame hsame' =>
    ⟨hsame'.1.trans hsame.1, hsame'.2.trans hsame.2⟩) h h'

/-- Replacing one effect by another one of the same submission and authority. -/
theorem EffectsKept.set {effect : EffectRecord}
    (hsame : ∀ existing, s.effects.get? k = some existing →
      effect.submissionId = existing.submissionId ∧
        effect.authoritative = existing.authoritative) :
    EffectsKept s { s with effects := s.effects.set k effect } :=
  Dict.Evolves.set (fun _ => ⟨rfl, rfl⟩) hsame

theorem overwrites_of_finalizes {submission : SubmissionRecord}
    (hsweep : e.Finalizes s k submission) (hran : s.hasRunningAttempt k = true)
    (hoccupied : s.occupied k = true) : e.overwrites s = true := by
  cases hsweep with
  | sweep hcall hvalid hrow =>
      unfold Event.overwrites
      rw [hcall]
      simp only [hvalid, Bool.true_and, List.any_eq_true, Bool.and_eq_true]
      exact ⟨_, hrow, hran, hoccupied⟩

theorem Write.effectsKept (hsafe : e.overwrites s₀ = false) (h : Write host e s₀ s t) :
    EffectsKept s t := by
  cases h with
  | recordUnknownEffect hsweep hran hget hsame hopen =>
      rename_i k submission at_
      refine .set fun existing hexisting => ?_
      have hfree : s₀.occupied k = false := by
        by_contra hoccupied
        rw [overwrites_of_finalizes hsweep hran (by simpa using hoccupied)] at hsafe
        cases hsafe
      unfold Store.occupied at hfree
      rw [← hsame, hexisting] at hfree
      have hidentity : existing.submissionId = k.id ∧ existing.authoritative = true := by
        simpa [hopen existing hexisting] using hfree
      exact ⟨hidentity.1.symm, hidentity.2.symm⟩
  | recordEffect hcall hvalid hget hallowed =>
      refine .set fun existing hexisting => ?_
      rw [hexisting] at hallowed
      have hover := overwrites_of_refusal hallowed
      exact ⟨hover.submissionId.symm, hover.authoritative.symm⟩
  | _ => exact .refl _

/-- An authorized shadow run found its effects without authority. -/
theorem shadowEffectRefusal_none {scope : Scope} : ∀ {effectIds : List String},
    shadowEffectRefusal s scope effectIds = none → ∀ effectId ∈ effectIds,
      ∃ effect, s.effects.get? ⟨scope, effectId⟩ = some effect ∧ effect.authoritative = false
  | [], _, _, hmem => absurd hmem List.not_mem_nil
  | first :: rest, h, effectId, hmem => by
      unfold shadowEffectRefusal at h
      split at h
      · cases h
      · rename_i effect hget
        split at h
        · cases h
        · rename_i hauthority
          rcases List.mem_cons.mp hmem with rfl | hmem
          · exact ⟨effect, hget, by simpa using hauthority⟩
          · exact shadowEffectRefusal_none h effectId hmem

theorem ShadowsIsolated.of_kept (h : ShadowsIsolated s) (hkept : EffectsKept s t)
    (hshadows : t.shadows = s.shadows) : ShadowsIsolated t := by
  intro k shadow hshadow effectId hmem
  rw [hshadows] at hshadow
  obtain ⟨effect, hget, hauthority⟩ := h k shadow hshadow effectId hmem
  obtain ⟨later, hlater, -, hsame⟩ := hkept _ effect hget
  exact ⟨later, hlater, hsame.trans hauthority⟩

theorem Write.shadowsIsolated (hsafe : e.overwrites s₀ = false) (hs : ShadowsIsolated s)
    (h : Write host e s₀ s t) : ShadowsIsolated t := by
  have hkept := h.effectsKept hsafe
  cases h with
  | authorizeShadow hscope heffects =>
      intro k shadow hshadow effectId hmem
      rw [Dict.get?_set] at hshadow
      split at hshadow
      · obtain rfl := Option.some.inj hshadow
        rw [hscope]
        exact shadowEffectRefusal_none heffects effectId hmem
      · exact hs k shadow hshadow effectId hmem
  | _ => exact hs.of_kept hkept rfl

theorem next_effectsKept (hs : Linked s) (hsafe : e.overwrites s = false) :
    EffectsKept s (next host s e) :=
  Runs.writes_related (I := fun _ => True) .refl .trans (fun _ _ _ _ => trivial)
    (fun _ _ _ hw => hw.effectsKept hsafe) (next_writes hs) trivial

theorem next_shadowsIsolated (hs : Linked s) (hsafe : e.overwrites s = false)
    (h : ShadowsIsolated s) : ShadowsIsolated (next host s e) :=
  Runs.writes_invariant (fun _ _ ha hw => hw.shadowsIsolated hsafe ha) (next_writes hs) h

/-! ## What an overwriting sweep changes -/

theorem ackSubmissionOutbox_effects (at_ : Nat → Instant) (scope : Scope) (submissionId : String)
    (s : Store) : (ackSubmissionOutbox at_ scope submissionId s).effects = s.effects := by
  obtain ⟨outbox, houtbox⟩ := ackRows_frame at_ scope submissionId 0 s.outbox.entries s
  unfold ackSubmissionOutbox
  rw [houtbox]

theorem cancelDispatch_effects (k : Key) (now : Instant) (s : Store) :
    (cancelDispatch k now s).effects = s.effects := by
  unfold cancelDispatch
  split
  · rfl
  · split <;> rfl

theorem loseRunningAttempts_effects (now : Instant) (k : Key) :
    ∀ (rows : List (Key × AttemptRecord)) (s : Store),
      (loseRunningAttempts now k rows s).effects = s.effects
  | [], _ => rfl
  | (attemptKey, attempt) :: rest, s => by
      unfold loseRunningAttempts
      split
      · rw [loseRunningAttempts_effects now k rest]
      · exact loseRunningAttempts_effects now k rest s

/-- Finalizing a cancellation touches no effect besides the one in doubt. -/
theorem finalizeCancellation_effects (env : Env) (row : Nat) (now : Instant)
    (acknowledgeOutbox : Bool) {submission : SubmissionRecord}
    (hkeyed : submission.submissionId = k.id) (s : Store) :
    (finalizeCancellation env row now acknowledgeOutbox k submission s).effects =
      (if s.hasRunningAttempt k = true then
        recordUnknownEffect k.scope k.id (env.now [1, row]) s else s).effects := by
  have hown : (⟨k.scope, k.id⟩ : Key) = k := rfl
  unfold finalizeCancellation
  simp only [hkeyed, hown]
  have hlost := loseRunningAttempts_effects now k s.attempts.entries s
  have hrecorded : (if s.hasRunningAttempt k = true then
      recordUnknownEffect k.scope k.id (env.now [1, row])
        (loseRunningAttempts now k s.attempts.entries s)
      else loseRunningAttempts now k s.attempts.entries s).effects =
      (if s.hasRunningAttempt k = true then
        recordUnknownEffect k.scope k.id (env.now [1, row]) s else s).effects := by
    split
    · unfold recordUnknownEffect
      dsimp only
      rw [hlost]
      split
      · exact hlost
      · rfl
    · exact hlost
  split
  · rw [ackSubmissionOutbox_effects, cancelDispatch_effects]
    exact hrecorded
  · rw [cancelDispatch_effects]
    exact hrecorded

/-- The loop leaves the execution effects of the other submissions as they are. -/
theorem reconcileCancelledRows_effect (env : Env) (now limit : Int) (acknowledgeOutbox : Bool) :
    ∀ (rows : List (Key × SubmissionRecord)) (done : List SubmissionRecord) (s : Store),
      (∀ k' row, (k', row) ∈ rows → row.submissionId = k'.id ∧ k' ≠ k) →
        (reconcileCancelledRows env now limit acknowledgeOutbox rows done s).2.effects.get?
          ⟨k.scope, executionEffectId k.id⟩ = s.effects.get? ⟨k.scope, executionEffectId k.id⟩
  | [], _, _, _ => rfl
  | (k', submission) :: rest, done, s, hrows => by
      have hrest := fun k'' row hmem => hrows k'' row (List.mem_cons_of_mem _ hmem)
      obtain ⟨hkeyed, hne⟩ := hrows k' submission List.mem_cons_self
      unfold reconcileCancelledRows
      split
      · rfl
      · split
        · exact reconcileCancelledRows_effect env now limit acknowledgeOutbox rest done s hrest
        · rw [reconcileCancelledRows_effect env now limit acknowledgeOutbox rest _ _ hrest,
            finalizeCancellation_effects _ _ _ _ hkeyed]
          split
          · unfold recordUnknownEffect
            dsimp only
            split
            · rfl
            · exact Dict.get?_set_ne _ _ fun heq => hne (executionKey_inj heq)
          · rfl

/-- The loop puts the execution effect of a finalized submission in doubt. -/
theorem reconcileCancelledRows_records (host : Host) {s₀ : Store} {sweep : CancellationSweep}
    (hcall : e.call = .reconcileCancelledSubmissions ctx sweep) (hvalid : sweep.isValid = true)
    (hkeyed : SubmissionsKeyed s₀) (hran : s₀.hasRunningAttempt k = true)
    (hopen : (s₀.effects.get? ⟨k.scope, executionEffectId k.id⟩).any
      (fun existing => existing.status = .committed) = false) :
    ∀ (rows : List (Key × SubmissionRecord)) (done : List SubmissionRecord) (s : Store)
      (submission : SubmissionRecord), (rows.map Prod.fst).Nodup →
      (∀ k' row, (k', row) ∈ rows →
        s₀.submissions.get? k' = some row ∧ row.status = .cancelRequested ∧ Untouched s₀ s k') →
      (∀ entry, entry ∈ (rows.filter
          (fun entry => !cancellationWaits s₀ entry.1 (e.env.now [0]))).take
            (sweep.limit.toNat - done.length) →
        entry ∈ reconciledRows s₀ ctx.scopeKey sweep (e.env.now [0])) →
      (k, submission) ∈ (rows.filter
          (fun entry => !cancellationWaits s₀ entry.1 (e.env.now [0]))).take
            (sweep.limit.toNat - done.length) →
      ∃ at_, (reconcileCancelledRows e.env (e.env.now [0]) sweep.limit sweep.acknowledgeOutbox
          rows done s).2.effects.get? ⟨k.scope, executionEffectId k.id⟩ =
        some (unknownExecutionEffect k.scope k.id at_)
  | [], _, _, _, _, _, _, hmem => by simp at hmem
  | (k', row) :: rest, done, s, submission, hnodup, hrows, hwithin, hmem => by
      have htail := (List.nodup_cons.mp hnodup).2
      obtain ⟨hget₀, hrequested, huntouched⟩ := hrows k' row List.mem_cons_self
      have hwaits := huntouched.waits (e.env.now [0])
      unfold reconcileCancelledRows
      split
      · rename_i hlimit
        rw [show sweep.limit.toNat - done.length = 0 by omega] at hmem
        cases hmem
      · rename_i hlimit
        split
        · rename_i hwaiting
          rw [List.filter_cons_of_neg (by simp [← hwaits, hwaiting])] at hwithin hmem
          exact reconcileCancelledRows_records host hcall hvalid hkeyed hran hopen rest done s submission
            htail (fun k'' row' h => hrows k'' row' (List.mem_cons_of_mem _ h)) hwithin hmem
        · rename_i hready
          rw [Bool.not_eq_true] at hready
          obtain ⟨budget, hbudget⟩ : ∃ n, sweep.limit.toNat - done.length = n + 1 :=
            ⟨sweep.limit.toNat - done.length - 1, by omega⟩
          rw [List.filter_cons_of_pos (by simp [← hwaits, hready]), hbudget,
            List.take_succ_cons] at hwithin hmem
          have hidentity := hkeyed k' row hget₀
          rcases List.mem_cons.mp hmem with heq | hmem
          · -- this row: the loop goes on with other submissions
            obtain ⟨rfl, rfl⟩ := Prod.mk.inj heq
            refine ⟨e.env.now [1, done.length], ?_⟩
            rw [reconcileCancelledRows_effect _ _ _ _ rest _ _ fun k'' row' h =>
                ⟨hkeyed k'' row' (hrows k'' row' (List.mem_cons_of_mem _ h)).1,
                  (Dict.ne_of_mem_tail hnodup h).symm⟩,
              finalizeCancellation_effects _ _ _ _ hidentity,
              if_pos (huntouched.running.trans hran)]
            unfold recordUnknownEffect
            dsimp only
            rw [huntouched.effect, hopen]
            exact Dict.get?_set_self _ _ _
          · have hfinal : Finalizing host e s₀ k' s (finalizeCancellation e.env done.length
                (e.env.now [0]) sweep.acknowledgeOutbox k' row s) :=
              finalizeCancellation_finalizing _ _ ⟨hcall, hvalid, hwithin _ List.mem_cons_self⟩
                hidentity hrequested hget₀ huntouched hready
            have hrest := reconcileCancelledRows_records host hcall hvalid hkeyed hran hopen rest
              (done ++ [row.withStatus .cancelled]) (finalizeCancellation e.env done.length
                (e.env.now [0]) sweep.acknowledgeOutbox k' row s) submission htail
              (fun k'' row' h => ?_)
            · rw [List.length_append, List.length_singleton, ← Nat.sub_sub, hbudget,
                Nat.add_sub_cancel] at hrest
              exact hrest (fun entry h => hwithin entry (List.mem_cons_of_mem _ h)) hmem
            · obtain ⟨hget', hrequested', huntouched'⟩ := hrows k'' row' (List.mem_cons_of_mem _ h)
              exact ⟨hget', hrequested',
                huntouched'.trans (hfinal.others k'' (Dict.ne_of_mem_tail hnodup h).symm)⟩

/-- An overwriting sweep changes the submission or the authority of an effect. -/
theorem overwrites_changes (hs : Linked s) (h : e.overwrites s = true) :
    ¬ EffectsKept s (next host s e) := by
  intro hkept
  unfold Event.overwrites at h
  split at h
  · rename_i ctx sweep hcall
    simp only [Bool.and_eq_true, List.any_eq_true] at h
    obtain ⟨hvalid, ⟨k, submission⟩, hrow, hran, hoccupied⟩ := h
    simp only [Store.occupied, Option.any_eq_true, Bool.and_eq_true, Bool.or_eq_true,
      decide_eq_true_eq, Bool.not_eq_true'] at hoccupied
    obtain ⟨effect, hget, hforeign⟩ := hoccupied
    obtain ⟨hid, hroute⟩ := CancellationSweep.isValid_iff.mp hvalid
    have hnext : next host s e = (reconcileCancelledRows e.env (e.env.now [0]) sweep.limit
        sweep.acknowledgeOutbox (cancellationCandidates s ctx.scopeKey sweep) [] s).2 := by
      unfold next Event.outcome
      rw [hcall]
      simp [Call.exec, reconcileCancelledSubmissions, hid, hroute]
    have hcandidates : ∀ k' row, (k', row) ∈ cancellationCandidates s ctx.scopeKey sweep →
        s.submissions.get? k' = some row ∧ row.status = .cancelRequested ∧ Untouched s s k' := by
      intro k' row hmem
      obtain ⟨-, hget', hrequested⟩ := cancellationCandidates_mem hmem
      exact ⟨hget', hrequested, .refl s k'⟩
    obtain ⟨at_, hafter⟩ := reconcileCancelledRows_records host hcall hvalid hs.keyed hran
      (by simp [hget, hforeign.1]) _ [] s submission (cancellationCandidates_nodup _ _)
      hcandidates (fun _ hmem => hmem) hrow
    obtain ⟨later, hlater, hsubmission, hauthority⟩ := hkept _ effect hget
    rw [hnext, hafter, Option.some.injEq] at hlater
    subst hlater
    rcases hforeign.2 with hother | hpowerless
    · exact hother hsubmission.symm
    · rw [hpowerless] at hauthority
      cases hauthority
  · cases h

/-! ## Runs -/

/-- Throughout a run effects keep their submission and their authority, and shadow runs
their isolation, exactly when no sweep of it overwrites an effect. -/
theorem effect_identity_iff (host : Host) (limit : Option Int) (es : List Event) :
    ((∀ before middle after, es = before ++ middle ++ after →
        EffectsKept (reached host limit before) (reached host limit (before ++ middle))) ∧
      ∀ before after, es = before ++ after → ShadowsIsolated (reached host limit before)) ↔
      Runs.Guarded (next host) (fun s e => e.overwrites s = false) (Store.init limit) es := by
  constructor
  · rintro ⟨hkept, -⟩
    refine Runs.guarded_iff.mpr fun before e after hes => ?_
    by_contra hoverwrites
    have hstep := hkept before [e] after (by rw [hes, List.append_assoc, List.singleton_append])
    rw [reached_append] at hstep
    exact overwrites_changes (reached_linked host limit before) (by simpa using hoverwrites) hstep
  · intro hsafe
    refine ⟨?_, ?_⟩
    · rintro before middle after rfl
      rw [reached_append]
      exact Runs.related (I := Linked) .refl .trans (fun s e hs _ => next_linked host e hs)
        (fun s e hs hguard => next_effectsKept hs hguard) (reached_linked host limit before)
        hsafe.left.right
    · rintro before after rfl
      refine (Runs.invariant (I := fun s => Linked s ∧ ShadowsIsolated s) (fun s e hI hguard =>
        ⟨next_linked host e hI.1, next_shadowsIsolated hI.1 hguard hI.2⟩)
        ⟨linked_init limit, fun k shadow hshadow => ?_⟩ hsafe.left).2
      cases hshadow

section Sample

/-- The sample host reads one expiry, the end of the first day of the sample clock. -/
def previewHost : Host :=
  { sampleHost with
    parse := fun text =>
      if text = "1970-01-02T00:00:00+00:00" then some (.aware (seconds 86400)) else none }

def samplePreview : PreviewWorkspace where
  previewId := "preview"
  scope := sampleContext.scopeKey
  baseRevisionId := "base"
  candidateRevisionId := "candidate"
  createdAt := "1970-01-01T00:00:00+00:00"
  expiresAt := "1970-01-02T00:00:00+00:00"
  quota := 1
  codeFingerprint := "code"
  planFingerprint := "plan"
  policyFingerprint := none
  environmentFingerprint := none
  commitRef := none
  pullRequestRef := none
  cleanedAt := none
  stale := false
  staleReason := none

def sampleShadow (effectId : String) : ShadowRunRecord where
  shadowRunId := "shadow"
  previewId := "preview"
  submissionId := "a"
  scope := sampleContext.scopeKey
  authorizedBy := "alice"
  createdAt := "1970-01-01T00:00:00+00:00"
  effectIds := [effectId]
  productionAuthority := false

/-- A shadow run of one submission lists an effect without authority, recorded under
the execution id of another one. -/
def shadowedEffect : List Event :=
  [⟨sampleEnv 'a' 0, .accept sampleContext (sampleAccept "a" "local" none)⟩,
    ⟨sampleEnv 'b' 1, .accept sampleContext (sampleAccept "b" "local" none)⟩,
    ⟨sampleEnv 'c' 2, .recordEffect sampleContext
      { sampleEffect "b:execution" "a" .pending with authoritative := false }⟩,
    ⟨sampleEnv 'd' 3, .createPreview sampleContext samplePreview⟩,
    ⟨sampleEnv 'e' 4, .authorizeShadowRun sampleContext (sampleShadow "b:execution")⟩]

/-- The other submission is cancelled while its worker is gone. -/
def sweptCancellation : List Event :=
  [⟨sampleEnv 'f' 5, .acquireLease sampleContext "b" "one" 60⟩,
    ⟨sampleEnv '0' 6, .startAttempt sampleContext "b" "one" 1 []⟩,
    ⟨sampleEnv '1' 7, .cancelSubmission sampleContext "b"⟩,
    ⟨sampleEnv '2' 100, .reconcileCancelledSubmissions sampleContext ⟨100, true, none, none⟩⟩]

/-- The effect moves to the other submission and becomes authoritative, and the shadow
run still lists it. -/
theorem shadowed_effect_overwritten :
    ¬ EffectsKept (reached previewHost none shadowedEffect)
        (reached previewHost none (shadowedEffect ++ sweptCancellation)) ∧
      ¬ ShadowsIsolated (reached previewHost none (shadowedEffect ++ sweptCancellation)) := by
  have hbefore : ((reached previewHost none shadowedEffect).effects.get?
      ⟨sampleContext.scopeKey, "b:execution"⟩).map
        (fun effect => (effect.submissionId, effect.authoritative)) = some ("a", false) := by
    decide
  have hafter : ((reached previewHost none (shadowedEffect ++ sweptCancellation)).effects.get?
      ⟨sampleContext.scopeKey, "b:execution"⟩).map
        (fun effect => (effect.submissionId, effect.authoritative)) = some ("b", true) := by
    decide
  have hshadow : (reached previewHost none (shadowedEffect ++ sweptCancellation)).shadows.get?
      (key sampleContext "shadow") = some (sampleShadow "b:execution") := by decide
  obtain ⟨new, hnew, hmoved⟩ := Option.map_eq_some_iff.mp hafter
  constructor
  · intro hkept
    obtain ⟨old, hold, hwas⟩ := Option.map_eq_some_iff.mp hbefore
    obtain ⟨later, hlater, hsubmission, -⟩ := hkept _ old hold
    rw [hnew, Option.some.injEq] at hlater
    subst hlater
    simp_all
  · intro hisolated
    obtain ⟨effect, hget, hauthority⟩ := hisolated _ _ hshadow "b:execution" List.mem_cons_self
    have hsame : new = effect := Option.some.inj (hnew.symm.trans hget)
    subst hsame
    simp_all

end Sample

end Etlantic.ControlPlane.Durable
