import Etlantic.ControlPlane.Durable.AttemptFencing

/-!
# Submissions and their running attempts

No operation looks at the terminal status of a submission before it writes one.
That a terminal submission stays what it is follows from the attempts: only a
running attempt can be finished, a submission has at most one, and a terminal
submission has none (`Lifecycle`).
-/

namespace Etlantic.ControlPlane.Durable

/-- The attempt under `attemptKey` runs the submission under `k`. -/
def Store.Runs (s : Store) (k attemptKey : Key) : Prop :=
  ∃ attempt, s.attempts.get? attemptKey = some attempt ∧ attemptKey.scope = k.scope ∧
    attempt.submissionId = k.id ∧ attempt.status = .running

/-- A submission has at most one running attempt, and none once it is terminal. -/
structure Lifecycle (s : Store) : Prop where
  alone : ∀ k attemptKey attemptKey', s.Runs k attemptKey → s.Runs k attemptKey' →
    attemptKey = attemptKey'
  idle : ∀ k row, s.submissions.get? k = some row → row.status.isTerminal = true →
    ∀ attemptKey, ¬ s.Runs k attemptKey

/-- A terminal status is final, and a cancellation request can only be granted. -/
def SubmissionStatus.CanBecome (old new : SubmissionStatus) : Prop :=
  new = old ∨ old.isTerminal = false ∧ (old = .cancelRequested → new = .cancelled)

/-- Submissions stay, with their inputs, and their statuses advance. -/
def SubmissionsAdvance (s t : Store) : Prop :=
  ∀ k row, s.submissions.get? k = some row → ∃ status,
    t.submissions.get? k = some (row.withStatus status) ∧
      SubmissionStatus.CanBecome row.status status

variable {host : Host} {e : Event} {s₀ s t u : Store} {ctx : ControlPlaneContext} {k : Key}

/-! ## Statuses -/

theorem SubmissionStatus.isIneligible_of_isTerminal {status : SubmissionStatus}
    (h : status.isTerminal = true) : status.isIneligible = true := by
  cases status <;> first | rfl | cases h

theorem SubmissionStatus.CanBecome.trans {a b c : SubmissionStatus} (h : CanBecome a b)
    (h' : CanBecome b c) : CanBecome a c := by
  rcases h with rfl | ⟨hlive, hrequested⟩
  · exact h'
  · refine .inr ⟨hlive, fun ha => ?_⟩
    have hcancelled := hrequested ha
    rcases h' with rfl | ⟨hlive', -⟩
    · exact hcancelled
    · rw [hcancelled] at hlive'
      cases hlive'

theorem SubmissionsAdvance.refl (s : Store) : SubmissionsAdvance s s :=
  fun _ row h => ⟨row.status, h, .inl rfl⟩

theorem SubmissionsAdvance.trans (h : SubmissionsAdvance s t) (h' : SubmissionsAdvance t u) :
    SubmissionsAdvance s u := by
  intro k row hget
  obtain ⟨middle, hmiddle, hfirst⟩ := h k row hget
  obtain ⟨last, hlast, hsecond⟩ := h' k _ hmiddle
  exact ⟨last, hlast, hfirst.trans hsecond⟩

/-- One submission advances. -/
theorem submissionsAdvance_set {row : SubmissionRecord} {status : SubmissionStatus}
    (hget : s.submissions.get? k = some row)
    (hcan : SubmissionStatus.CanBecome row.status status) :
    SubmissionsAdvance s { s with submissions := s.submissions.set k (row.withStatus status) } := by
  intro k' row' hget'
  by_cases hk : k = k'
  · subst hk
    obtain rfl : row = row' := Option.some.inj (hget.symm.trans hget')
    exact ⟨status, Dict.get?_set_self _ _ _, hcan⟩
  · exact ⟨row'.status, (Dict.get?_set_ne _ _ hk).trans hget', .inl rfl⟩

/-! ## Running attempts -/

theorem Store.runs_iff {attemptKey : Key} :
    s.Runs k attemptKey ↔ ∃ attempt, s.attempts.get? attemptKey = some attempt ∧
      isRunningAttemptOf k attemptKey attempt = true := by
  simp only [isRunningAttemptOf_eq_true]
  exact Iff.rfl

theorem not_runs_of_idle (h : s.hasRunningAttempt k = false) (attemptKey : Key) :
    ¬ s.Runs k attemptKey := by
  rw [Store.runs_iff]
  rintro ⟨attempt, hget, hmine⟩
  rw [hasRunningAttempt_eq_false.mp h attemptKey attempt hget] at hmine
  cases hmine

/-- What still runs once the attempt under `attemptKey` is over. -/
theorem runs_of_finished {attemptKey attemptKey' : Key} {attempt : AttemptRecord}
    {status : AttemptStatus} {at_ : Instant} (hover : status ≠ .running)
    (h : Store.Runs { s with
      attempts := s.attempts.set attemptKey (attempt.finish status at_) } k attemptKey') :
    attemptKey ≠ attemptKey' ∧ s.Runs k attemptKey' := by
  obtain ⟨found, hget, hscope, hid, hrunning⟩ := h
  rcases Dict.get?_set_eq_some.mp hget with ⟨-, rfl⟩ | ⟨hne, hsame⟩
  · exact absurd hrunning hover
  · exact ⟨hne, found, hsame, hscope, hid, hrunning⟩

theorem ofTerminalText?_ne_running {text : String} {status : AttemptStatus}
    (h : AttemptStatus.ofTerminalText? text = some status) : status ≠ .running := by
  have hmem := List.mem_of_find?_eq_some h
  rintro rfl
  simp at hmem

theorem finishStatuses_ne_running {status : AttemptStatus} (submission : SubmissionRecord)
    (h : status ≠ .running) : (finishStatuses status submission).1 ≠ .running := by
  unfold finishStatuses
  split
  · exact AttemptStatus.noConfusion
  · exact h

theorem finishStatuses_cancelled {status : AttemptStatus} {submission : SubmissionRecord}
    (h : submission.status = .cancelRequested) :
    (finishStatuses status submission).2 = .cancelled := by
  unfold finishStatuses
  rw [if_pos (.inr h)]

/-! ## Every write keeps the lifecycle -/

theorem lifecycle_init (limit : Option Int) : Lifecycle (Store.init limit) where
  alone := by
    rintro _ _ _ ⟨attempt, hget, -⟩
    simp [Store.init] at hget
  idle := by
    intro k row hget
    simp [Store.init] at hget

/-- Filing a submission that is not terminal, or that nothing runs. -/
theorem Lifecycle.setSubmission (h : Lifecycle s) {row : SubmissionRecord}
    (hidle : row.status.isTerminal = true → ∀ attemptKey, ¬ s.Runs k attemptKey) :
    Lifecycle { s with submissions := s.submissions.set k row } where
  alone := h.alone
  idle := by
    intro k' row' hget hterminal
    rcases Dict.get?_set_eq_some.mp hget with ⟨rfl, rfl⟩ | ⟨-, hold⟩
    · exact hidle hterminal
    · exact h.idle k' row' hold hterminal

theorem Lifecycle.finish (h : Lifecycle s) {attemptKey : Key} {attempt : AttemptRecord}
    {status : AttemptStatus} {at_ : Instant} (hover : status ≠ .running) :
    Lifecycle { s with
      attempts := s.attempts.set attemptKey (attempt.finish status at_) } where
  alone := fun k first second hfirst hsecond =>
    h.alone k first second (runs_of_finished hover hfirst).2 (runs_of_finished hover hsecond).2
  idle := fun k row hget hterminal attemptKey hruns =>
    h.idle k row hget hterminal attemptKey (runs_of_finished hover hruns).2

/-- Starting the only attempt of a submission that may execute. -/
theorem Lifecycle.start (h : Lifecycle s) {attempt : AttemptRecord}
    {submission : SubmissionRecord}
    (hget : s.submissions.get? (key ctx attempt.submissionId) = some submission)
    (heligible : submission.status.isIneligible = false)
    (halone : s.hasRunningAttempt (key ctx attempt.submissionId) = false) :
    Lifecycle { s with attempts := s.attempts.set (key ctx attempt.attemptId) attempt } := by
  have hruns : ∀ k attemptKey, Store.Runs { s with
      attempts := s.attempts.set (key ctx attempt.attemptId) attempt } k attemptKey →
      attemptKey = key ctx attempt.attemptId ∧ k = key ctx attempt.submissionId ∨
        s.Runs k attemptKey := by
    rintro k attemptKey ⟨found, hfound, hscope, hid, hrunning⟩
    rcases Dict.get?_set_eq_some.mp hfound with ⟨rfl, rfl⟩ | ⟨-, hold⟩
    · left
      refine ⟨rfl, ?_⟩
      cases k
      simp_all [key]
    · exact .inr ⟨found, hold, hscope, hid, hrunning⟩
  constructor
  · intro k first second hfirst hsecond
    rcases hruns k first hfirst with ⟨rfl, rfl⟩ | hfirst
    · rcases hruns _ second hsecond with ⟨rfl, -⟩ | hsecond
      · rfl
      · exact absurd hsecond (not_runs_of_idle halone second)
    · rcases hruns k second hsecond with ⟨rfl, rfl⟩ | hsecond
      · exact absurd hfirst (not_runs_of_idle halone first)
      · exact h.alone k first second hfirst hsecond
  · intro k row hrow hterminal attemptKey hrunning
    rcases hruns k attemptKey hrunning with ⟨-, rfl⟩ | hrunning
    · obtain rfl : submission = row := Option.some.inj (hget.symm.trans hrow)
      rw [SubmissionStatus.isIneligible_of_isTerminal hterminal] at heligible
      cases heligible
    · exact h.idle k row hrow hterminal attemptKey hrunning

/-- Finishing the running attempt of a submission that becomes terminal with it. -/
theorem Lifecycle.finishRunning (h : Lifecycle s) {attemptKey : Key} {attempt : AttemptRecord}
    {status : AttemptStatus} {at_ : Instant} {row : SubmissionRecord}
    (hover : status ≠ .running) (hruns : s.Runs k attemptKey) :
    Lifecycle { s with
      attempts := s.attempts.set attemptKey (attempt.finish status at_)
      submissions := s.submissions.set k row } :=
  (h.finish hover).setSubmission fun _ attemptKey' hstill =>
    have hstill := runs_of_finished hover hstill
    hstill.1 (h.alone k attemptKey attemptKey' hruns hstill.2)

theorem runs_of_get {attemptId : String} {attempt : AttemptRecord}
    (hget : s.attempts.get? (key ctx attemptId) = some attempt)
    (hrunning : attempt.status = .running) :
    s.Runs (key ctx attempt.submissionId) (key ctx attemptId) :=
  ⟨attempt, hget, rfl, rfl, hrunning⟩

theorem Write.lifecycle (hs : Lifecycle s) (h : Write host e s₀ s t) : Lifecycle t := by
  cases h with
  | accept hcall hid hnew hidem hvalid hroute hlimit =>
      rename_i ctx request submissionId
      have hnext : Lifecycle { s₀ with
          submissions := s₀.submissions.set (key ctx submissionId) (acceptedSubmission ctx request
            (requestedInputs host ctx request) submissionId (e.env.now [0])) } :=
        hs.setSubmission fun hterminal => nomatch hterminal
      exact ⟨hnext.alone, hnext.idle⟩
  | publish hcall hscope hrow hunpublished hget haccepted =>
      rename_i ctx k row at_ submission
      have hnext : Lifecycle { s₀ with
          submissions := s₀.submissions.set ⟨k.scope, row.submissionId⟩
            (submission.withStatus .dispatched) } :=
        hs.setSubmission fun hterminal => nomatch hterminal
      exact ⟨hnext.alone, hnext.idle⟩
  | requestCancel hcall hscope hget hlive =>
      exact hs.setSubmission fun hterminal => nomatch hterminal
  | loseAttempt hget hrunning => exact hs.finish (by decide)
  | startAttempt ctx attempt hget heligible hlease howner htoken halone hscope hrunning =>
      exact hs.start hget heligible halone
  | finishAttempt hcall hstatus hk hattempt hrunning hget hfence =>
      subst hk
      exact hs.finishRunning
        (finishStatuses_ne_running _ (ofTerminalText?_ne_running hstatus))
        (runs_of_get hattempt hrunning)
  | cancelSubmission hget hrequested hidle hready =>
      exact hs.setSubmission fun _ => not_runs_of_idle hidle
  | _ => exact ⟨hs.alone, hs.idle⟩

/-- A fresh acceptance does not overwrite a submission. -/
theorem Event.Fresh.accepted_new (hfresh : e.Fresh s) {request : AcceptRequest}
    {submissionId : String} (hcall : e.call = .accept ctx request)
    (hid : request.submissionId = some submissionId ∨
      request.submissionId = none ∧ submissionId = e.env.generatedId "sub-" 16 0)
    (hnew : request.submissionId = some submissionId →
      s.submissions.get? (key ctx submissionId) = none) :
    s.submissions.get? (key ctx submissionId) = none := by
  rcases hid with hgiven | ⟨hnone, rfl⟩
  · exact hnew hgiven
  · unfold Event.Fresh Event.isFresh at hfresh
    rw [hcall] at hfresh
    simp only [hnone, Option.isSome_none, Bool.false_or, Bool.and_eq_true, Bool.not_eq_true'] at hfresh
    exact Dict.contains_eq_false.mp hfresh.1

theorem Write.submissionsAdvance (hfresh : e.Fresh s₀) (hs : Lifecycle s)
    (h : Write host e s₀ s t) : SubmissionsAdvance s t := by
  cases h with
  | accept hcall hid hnew hidem hvalid hroute hlimit =>
      intro k row hget
      exact ⟨row.status, Dict.get?_set_fresh (hfresh.accepted_new hcall hid hnew) hget, .inl rfl⟩
  | publish hcall hscope hrow hunpublished hget haccepted =>
      exact submissionsAdvance_set hget (.inr (by simp [haccepted, SubmissionStatus.isTerminal]))
  | requestCancel hcall hscope hget hlive =>
      rename_i ctx k submission
      by_cases hrequested : submission.status = .cancelRequested
      · exact submissionsAdvance_set hget (.inl hrequested.symm)
      · exact submissionsAdvance_set hget (.inr ⟨hlive, fun h => absurd h hrequested⟩)
  | finishAttempt hcall hstatus hk hattempt hrunning hget hfence =>
      subst hk
      refine submissionsAdvance_set hget (.inr ⟨?_, finishStatuses_cancelled⟩)
      rw [Bool.eq_false_iff]
      intro hterminal
      exact hs.idle _ _ hget hterminal _ (runs_of_get hattempt hrunning)
  | cancelSubmission hget hrequested hidle hready =>
      exact submissionsAdvance_set hget
        (.inr ⟨by simp [hrequested, SubmissionStatus.isTerminal], fun _ => rfl⟩)
  | _ => exact fun _ row hget => ⟨row.status, hget, .inl rfl⟩

/-! ## Runs -/

theorem reached_lifecycle (host : Host) (limit : Option Int) (es : List Event) :
    Lifecycle (reached host limit es) :=
  (run_invariant (I := Lifecycle) (fun _ _ _ _ _ _ _ _ hI hw => hw.lifecycle hI)
    (linked_init limit) (lifecycle_init limit) (Runs.guarded_true _ es)).2

theorem run_submissionsAdvance {es : List Event} (hs : Linked s) (hlife : Lifecycle s)
    (hrun : FreshRun host s es) : SubmissionsAdvance s (run host s es) :=
  run_related (I := Lifecycle) SubmissionsAdvance.refl SubmissionsAdvance.trans
    (fun _ _ _ _ _ _ _ _ hI hw => hw.lifecycle hI)
    (fun _ _ _ _ hfresh _ _ _ hI hw => hw.submissionsAdvance hfresh hI) hs hlife hrun

/-- In every reachable store a submission has at most one running attempt, and none
once it is cancelled, completed or failed; from there on its status never changes,
and a cancellation request can only be granted. -/
theorem submission_lifecycle (host : Host) (limit : Option Int) (es : List Event) :
    (∀ k first second, (reached host limit es).Runs k first →
      (reached host limit es).Runs k second → first = second) ∧
    (∀ k row, (reached host limit es).submissions.get? k = some row →
      row.status = .cancelled ∨ row.status = .completed ∨ row.status = .failed →
      ∀ attemptKey, ¬ (reached host limit es).Runs k attemptKey) ∧
    (∀ es', FreshRun host (reached host limit es) es' →
      ∀ k row, (reached host limit es).submissions.get? k = some row →
        ∃ later, (reached host limit (es ++ es')).submissions.get? k = some later ∧
          (row.status = .cancelled ∨ row.status = .completed ∨ row.status = .failed →
            later.status = row.status) ∧
          (row.status = .cancelRequested →
            later.status = .cancelRequested ∨ later.status = .cancelled)) := by
  have hlinked : Linked (reached host limit es) := reached_linked host limit es
  have hlife : Lifecycle (reached host limit es) := reached_lifecycle host limit es
  have hterminal : ∀ {status : SubmissionStatus},
      status = .cancelled ∨ status = .completed ∨ status = .failed → status.isTerminal = true := by
    rintro _ (rfl | rfl | rfl) <;> rfl
  refine ⟨hlife.alone, fun k row hget hstatus => hlife.idle k row hget (hterminal hstatus), ?_⟩
  intro es' hrun k row hget
  have hadvance : SubmissionsAdvance (reached host limit es) (reached host limit (es ++ es')) := by
    rw [reached_append]
    exact run_submissionsAdvance hlinked hlife hrun
  obtain ⟨status, hlater, hcan⟩ := hadvance k row hget
  refine ⟨_, hlater, fun hstatus => ?_, fun hrequested => ?_⟩
  · rcases hcan with hsame | ⟨hlive, -⟩
    · exact hsame
    · rw [hterminal hstatus] at hlive
      cases hlive
  · rcases hcan with hsame | ⟨-, hgranted⟩
    · exact .inl (hsame.trans hrequested)
    · exact .inr (hgranted hrequested)

section Sample

def finishedAttempt : List Event :=
  abandonedAttempt ++ [strangerFinishes]

def lateCancellation : List Event :=
  [⟨sampleEnv 'a' 200, .cancelSubmission sampleContext "a"⟩,
    ⟨sampleEnv 'b' 201, .reconcileCancelledSubmissions sampleContext ⟨100, true, none, none⟩⟩]

/-- A completed submission stays completed when its cancellation comes late. -/
theorem submission_lifecycle_late_cancellation :
    ∃ later, (reached sampleHost none (finishedAttempt ++ lateCancellation)).submissions.get?
      (key sampleContext "a") = some later ∧ later.status = .completed := by
  have hcompleted : ((reached sampleHost none finishedAttempt).submissions.get?
      (key sampleContext "a")).map SubmissionRecord.status = some .completed := by decide
  obtain ⟨row, hget, hstatus⟩ := Option.map_eq_some_iff.mp hcompleted
  obtain ⟨later, hlater, hfinal, -⟩ := (submission_lifecycle sampleHost none finishedAttempt).2.2
    lateCancellation (by decide) (key sampleContext "a") row hget
  exact ⟨later, hlater, (hfinal (.inr (.inl hstatus))).trans hstatus⟩

end Sample

end Etlantic.ControlPlane.Durable
