import Etlantic.ControlPlane.Durable.Invariants

/-!
# The admission limit

Only an acceptance adds to the submissions in flight, and it looks at the limit
first.  Every other write leaves a submission in flight that was, or ends it.
-/

namespace Etlantic.ControlPlane.Durable

variable {host : Host} {e : Event} {s₀ s t : Store} {limit : Int}

/-- No tenant has more submissions in flight than the limit of the store. -/
structure WithinLimit (limit : Int) (s : Store) : Prop where
  limited : s.admissionLimit = some limit
  within : ∀ tenantId, s.inFlight tenantId ≤ limit.toNat

theorem withinLimit_init (limit : Int) : WithinLimit limit (Store.init (some limit)) where
  limited := rfl
  within _ := Nat.zero_le _

/-- A status that is in flight only if the one before was. -/
theorem WithinLimit.setStatus (h : WithinLimit limit s) {k : Key} {row : SubmissionRecord}
    {status : SubmissionStatus} (hget : s.submissions.get? k = some row)
    (hstatus : status.isNonTerminal = true → row.status.isNonTerminal = true)
    (hlimit : t.admissionLimit = s.admissionLimit)
    (ht : t.submissions = s.submissions.set k (row.withStatus status)) : WithinLimit limit t where
  limited := hlimit.trans h.limited
  within tenantId := by
    have hle : t.inFlight tenantId ≤ s.inFlight tenantId := by
      unfold Store.inFlight
      rw [ht]
      apply Dict.count_set_of_imp hget
      intro hcounts
      rw [Bool.and_eq_true] at hcounts ⊢
      exact ⟨hcounts.1, hstatus hcounts.2⟩
    exact hle.trans (h.within tenantId)

theorem WithinLimit.of_same (h : WithinLimit limit s) (hlimit : t.admissionLimit = s.admissionLimit)
    (ht : t.submissions = s.submissions) : WithinLimit limit t where
  limited := hlimit.trans h.limited
  within tenantId := by
    unfold Store.inFlight
    rw [ht]
    exact h.within tenantId

/-- An acceptance under the limit adds one submission of its tenant. -/
theorem WithinLimit.accept (h : WithinLimit limit s) {ctx : ControlPlaneContext}
    {row : SubmissionRecord} {submissionId : String}
    (hfree : ¬ limit ≤ (s.inFlight ctx.tenant.tenantId : Int))
    (hlimit : t.admissionLimit = s.admissionLimit)
    (ht : t.submissions = s.submissions.set (key ctx submissionId) row) :
    WithinLimit limit t where
  limited := hlimit.trans h.limited
  within tenantId := by
    have hle := Dict.count_set_le s.submissions (key ctx submissionId) row
      (fun k row => k.scope.tenantId = tenantId && row.status.isNonTerminal)
    rw [← ht] at hle
    have hle : t.inFlight tenantId ≤ s.inFlight tenantId + _ := hle
    by_cases htenant : ctx.tenant.tenantId = tenantId
    · subst htenant
      split at hle <;> omega
    · have hother : (decide ((key ctx submissionId).scope.tenantId = tenantId) &&
          row.status.isNonTerminal) = false := by
        rw [Bool.and_eq_false_iff]
        exact .inl (decide_eq_false htenant)
      rw [hother] at hle
      exact hle.trans (h.within tenantId)

theorem Write.withinLimit (h : Write host e s₀ s t) (hs : WithinLimit limit s) :
    WithinLimit limit t := by
  cases h with
  | accept hcall hid hnew hidem hvalid hroute hlimit =>
      rw [hs.limited, Option.any_some, decide_eq_false_iff_not] at hlimit
      exact hs.accept hlimit rfl rfl
  | publish hcall hscope hrow hunpublished hget haccepted =>
      exact hs.setStatus hget (fun _ => by rw [haccepted]; rfl) rfl rfl
  | requestCancel hcall hscope hget hlive =>
      rename_i ctx k submission
      refine hs.setStatus hget (fun _ => ?_) rfl rfl
      cases hstatus : submission.status <;> rw [hstatus] at hlive <;> first | rfl | cases hlive
  | finishAttempt hcall hstatus hk hattempt hrunning hget hfence =>
      rename_i ctx attemptId ownerId text fencingToken status k attempt submission at_
      refine hs.setStatus hget (fun hflight => ?_) rfl rfl
      unfold finishStatuses at hflight
      split at hflight
      · cases hflight
      · dsimp only at hflight
        split at hflight <;> cases hflight
  | cancelSubmission hget hrequested hidle hready =>
      exact hs.setStatus hget (fun hflight => by cases hflight) rfl rfl
  | _ => exact hs.of_same rfl rfl

/-- In every reachable store of a limit no tenant has more submissions in flight. -/
theorem admission_limit_respected (host : Host) (limit : Int) (es : List Event)
    (tenantId : String) : (reached host (some limit) es).inFlight tenantId ≤ limit.toNat := by
  have hfree : Runs.Guarded (next host) (fun _ _ => True) (Store.init (some limit)) es :=
    Runs.guarded_true _ es
  have hrun := run_invariant (I := WithinLimit limit)
    (fun _ _ _ _ _ _ _ _ hs hwrite => hwrite.withinLimit hs) (linked_init (some limit))
    (withinLimit_init limit) hfree
  exact hrun.2.within tenantId

end Etlantic.ControlPlane.Durable
