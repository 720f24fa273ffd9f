import Etlantic.ControlPlane.Durable.Calls

/-!
# The in-memory submission store

`MemorySubmissionStore` accepts work once for each idempotency tuple and keeps
a row for the status of every run.  The row is filed under the caller's scope
and the run's id, which the caller may choose: a second acceptance that names
the same run rewrites the row and queues the run again.

Every run belongs to one acceptance, stays cancelled once cancelled and is
polled once exactly as long as no new acceptance names a run that is there.
-/

namespace Etlantic.ControlPlane.Memory

open Durable (IdempotencyTuple idempotencyTuple Key)

structure AcceptReceipt where
  acceptanceId : String
  submissionId : String
  scope : Scope
  idempotencyKey : String
  createdAt : Instant
  resourceType : String
  resourceId : Option String

structure AcceptResult where
  receipt : AcceptReceipt
  created : Bool

inductive RunStatus where
  | accepted
  | cancelRequested
deriving DecidableEq

structure RunRecord where
  runId : String
  submissionId : String
  acceptanceId : String
  status : RunStatus
  scope : Scope
  definitionId : Option Json
  createdAt : Instant
  updatedAt : Instant
  idempotencyKey : String
  resourceType : String

def RunRecord.cancel (record : RunRecord) (now : Instant) : RunRecord :=
  { record with status := .cancelRequested, updatedAt := now }

abbrev Payload := List (String × Json)

/-- What the store uses besides its own code: `==` of two dictionaries is arbitrary. -/
structure SubmissionHost extends Durable.Host where
  sameDict : Payload → Payload → Bool

structure MemorySubmissionStore where
  byId : Dict IdempotencyTuple AcceptReceipt
  payloads : Dict IdempotencyTuple Payload
  runs : Dict Key RunRecord
  acceptedQueue : List Key

def MemorySubmissionStore.init : MemorySubmissionStore := ⟨.empty, .empty, .empty, []⟩

/-- The arguments of `accept`. -/
structure Acceptance where
  idempotencyKey : String
  payload : Payload
  resourceType : String
  resourceId : Option String
  submissionId : Option String
  operation : String

/-- `value or default` for a text. -/
def orElse (value : Option String) (default : String) : String :=
  match value with
  | some text => if text = "" then default else text
  | none => default

section Operations

variable (host : SubmissionHost) (env : Durable.Env) (ctx : ControlPlaneContext)

def safePayload (payload : Payload) : Payload :=
  let redacted := redactControlPlanePayload host.unicode payload
  match (Json.obj payload).field? "execution_envelope" with
  | some (.str text) =>
      Json.setField "execution_envelope"
        (((Durable.redactOrPreserveExecutionEnvelope host.toHost (some text)).map Json.str).getD
          .null) redacted
  | _ => redacted

/-- The `submission_id` of a new acceptance. -/
def submissionIdOf (request : Acceptance) : String :=
  orElse request.submissionId (env.generatedId "sub-" 16 1)

/-- The run that a new acceptance is filed under. -/
def runKeyOf (request : Acceptance) : Key :=
  Durable.key ctx (orElse request.resourceId (submissionIdOf env request))

def bound (submissionId : String) (s : MemorySubmissionStore) : Bool :=
  s.byId.any fun _ receipt => receipt.submissionId = submissionId

/-- The receipt of a new acceptance. -/
def newReceipt (request : Acceptance) : AcceptReceipt where
  acceptanceId := env.generatedId "acc-" 16 0
  submissionId := submissionIdOf env request
  scope := ctx.scopeKey
  idempotencyKey := request.idempotencyKey
  createdAt := env.now []
  resourceType := request.resourceType
  resourceId := some (runKeyOf env ctx request).id

def newRun (request : Acceptance) : RunRecord where
  runId := (runKeyOf env ctx request).id
  submissionId := submissionIdOf env request
  acceptanceId := env.generatedId "acc-" 16 0
  status := .accepted
  scope := ctx.scopeKey
  definitionId := (Json.obj (safePayload host request.payload)).field? "definition_id"
  createdAt := env.now []
  updatedAt := env.now []
  idempotencyKey := request.idempotencyKey
  resourceType := request.resourceType

def accept (request : Acceptance) (s : MemorySubmissionStore) :
    Reply MemorySubmissionStore AcceptResult :=
  let key := idempotencyTuple ctx request.operation request.idempotencyKey
  let safe := safePayload host request.payload
  match s.byId.get? key with
  | some existing =>
      if !(s.payloads.get? key).all (host.sameDict safe) then
        ⟨.error (conflictWith "Idempotency key reuse with a different payload"
          [("idempotency_key", .str request.idempotencyKey)]), s⟩
      else if request.submissionId.any (fun id => existing.submissionId ≠ id) then
        ⟨.error (conflict "Idempotency key is bound to a different submission"), s⟩
      else ⟨.ok ⟨existing, false⟩, s⟩
  | none =>
      if bound (submissionIdOf env request) s then
        ⟨.error (conflict "submission_id is already bound to an acceptance"), s⟩
      else
        ⟨.ok ⟨newReceipt env ctx request, true⟩,
          { byId := s.byId.set key (newReceipt env ctx request)
            payloads := s.payloads.set key safe
            runs := s.runs.set (runKeyOf env ctx request) (newRun host env ctx request)
            acceptedQueue := s.acceptedQueue ++ [runKeyOf env ctx request] }⟩

def getRun (runId : String) (s : MemorySubmissionStore) : Except PyError RunRecord :=
  match s.runs.get? (Durable.key ctx runId) with
  | none => .error .keyError
  | some record => .ok record

def cancelRun (runId : String) (s : MemorySubmissionStore) :
    Reply MemorySubmissionStore (RunRecord × Bool) :=
  match s.runs.get? (Durable.key ctx runId) with
  | none => ⟨.error .keyError, s⟩
  | some record =>
      if record.status = .accepted then
        let cancelled := record.cancel (env.now [])
        ⟨.ok (cancelled, true), { s with runs := s.runs.set (Durable.key ctx runId) cancelled }⟩
      else ⟨.ok (record, false), s⟩

/-- The row of a queued run, if it is the caller's and still accepted. -/
def polled (s : MemorySubmissionStore) (key : Key) : Option RunRecord :=
  if key.scope = ctx.scopeKey then (s.runs.get? key).filter (·.status = .accepted) else none

def pollAccepted (limit : Int) (s : MemorySubmissionStore) : List RunRecord :=
  if limit < 1 then [] else (s.acceptedQueue.filterMap (polled ctx s)).take limit.toNat

end Operations

/-! ## Runs -/

inductive SubmissionCall where
  | accept (ctx : ControlPlaneContext) (request : Acceptance)
  | cancelRun (ctx : ControlPlaneContext) (runId : String)

structure SubmissionEvent where
  env : Durable.Env
  call : SubmissionCall

variable (host : SubmissionHost)

def submissionNext (s : MemorySubmissionStore) (e : SubmissionEvent) : MemorySubmissionStore :=
  match e.call with
  | .accept ctx request => (accept host e.env ctx request s).state
  | .cancelRun ctx runId => (cancelRun e.env ctx runId s).state

/-- The store after the calls; the readers `get_run`, `poll_accepted` and the lookups
leave it as it is. -/
def reachedBy (es : List SubmissionEvent) : MemorySubmissionStore :=
  Runs.run (submissionNext host) .init es

/-- A run belongs to at most one acceptance. -/
def UniqueRuns (s : MemorySubmissionStore) : Prop :=
  ∀ key key' receipt receipt', s.byId.get? key = some receipt → s.byId.get? key' = some receipt' →
    receipt.scope = receipt'.scope → receipt.resourceId = receipt'.resourceId → key = key'

/-- A run that is cancelled in `s` is cancelled in `s'`. -/
def StaysCancelled (s s' : MemorySubmissionStore) : Prop :=
  ∀ k record, s.runs.get? k = some record → record.status = .cancelRequested →
    ∃ record', s'.runs.get? k = some record' ∧ record'.status = .cancelRequested

/-- No answer of `poll_accepted` has a run twice. -/
def PollsOnce (s : MemorySubmissionStore) : Prop :=
  ∀ ctx limit, ((pollAccepted ctx limit s).map (·.runId)).Nodup

/-- What the store promises of the runs of a history. -/
structure RunsOnce (es : List SubmissionEvent) : Prop where
  owned : ∀ before after, es = before ++ after → UniqueRuns (reachedBy host before)
  cancelled : ∀ before middle after, es = before ++ middle ++ after →
    StaysCancelled (reachedBy host before) (reachedBy host (before ++ middle))
  polled : ∀ before after, es = before ++ after → PollsOnce (reachedBy host before)

/-- An acceptance that is new names a run that is not there. -/
def NamesNewRun (s : MemorySubmissionStore) (e : SubmissionEvent) : Prop :=
  match e.call with
  | .accept ctx request =>
      s.byId.get? (idempotencyTuple ctx request.operation request.idempotencyKey) = none →
        bound (submissionIdOf e.env request) s = false →
          s.runs.get? (runKeyOf e.env ctx request) = none
  | .cancelRun .. => True

/-! ## Steps -/

section Steps

variable {host}

/-- What `accept` does: nothing, or file a new acceptance with its run. -/
theorem accept_cases (env : Durable.Env) (ctx : ControlPlaneContext) (request : Acceptance)
    (s : MemorySubmissionStore) :
    (accept host env ctx request s).state = s ∨
      s.byId.get? (idempotencyTuple ctx request.operation request.idempotencyKey) = none ∧
      bound (submissionIdOf env request) s = false ∧
      (accept host env ctx request s).state =
        { byId := s.byId.set (idempotencyTuple ctx request.operation request.idempotencyKey)
            (newReceipt env ctx request)
          payloads := s.payloads.set (idempotencyTuple ctx request.operation request.idempotencyKey)
            (safePayload host request.payload)
          runs := s.runs.set (runKeyOf env ctx request) (newRun host env ctx request)
          acceptedQueue := s.acceptedQueue ++ [runKeyOf env ctx request] } := by
  unfold accept
  cases hget : s.byId.get? (idempotencyTuple ctx request.operation request.idempotencyKey) with
  | some existing =>
      left
      simp only [hget]
      split
      · rfl
      · split
        · rfl
        · rfl
  | none =>
      simp only [hget]
      by_cases hbound : bound (submissionIdOf env request) s = true
      · rw [if_pos hbound]
        exact .inl rfl
      · rw [if_neg hbound]
        exact .inr ⟨trivial, by simpa using hbound, rfl⟩

/-- What `cancel_run` does: nothing, or cancel an accepted run. -/
theorem cancelRun_cases (env : Durable.Env) (ctx : ControlPlaneContext) (runId : String)
    (s : MemorySubmissionStore) :
    (cancelRun env ctx runId s).state = s ∨
      ∃ record, s.runs.get? (Durable.key ctx runId) = some record ∧
        (cancelRun env ctx runId s).state =
          { s with runs := s.runs.set (Durable.key ctx runId) (record.cancel (env.now [])) } := by
  unfold cancelRun
  cases hget : s.runs.get? (Durable.key ctx runId) with
  | none => exact .inl rfl
  | some record =>
      simp only
      split
      · exact .inr ⟨record, rfl, rfl⟩
      · exact .inl rfl

/-- Every row of the run table stands for an acceptance, under its own id. -/
structure Rows (s : MemorySubmissionStore) : Prop where
  receipt : ∀ k record, s.runs.get? k = some record →
    ∃ key receipt, s.byId.get? key = some receipt ∧ receipt.scope = k.scope ∧
      receipt.resourceId = some k.id
  named : ∀ k record, s.runs.get? k = some record → record.runId = k.id

theorem rows_init : Rows .init :=
  ⟨fun k record h => by simp [MemorySubmissionStore.init] at h,
    fun k record h => by simp [MemorySubmissionStore.init] at h⟩

theorem Rows.step {s : MemorySubmissionStore} (h : Rows s) (e : SubmissionEvent) :
    Rows (submissionNext host s e) := by
  obtain ⟨env, call⟩ := e
  cases call with
  | accept ctx request =>
      show Rows (accept host env ctx request s).state
      rcases accept_cases env ctx request s with hsame | ⟨hnew, -, hnext⟩
      · rw [hsame]
        exact h
      · rw [hnext]
        constructor
        · intro k record hget
          rcases Dict.get?_set_eq_some.mp hget with ⟨rfl, rfl⟩ | ⟨-, hget⟩
          · exact ⟨_, newReceipt env ctx request, Dict.get?_set_self _ _ _, rfl, rfl⟩
          · obtain ⟨key, receipt, hreceipt, hrest⟩ := h.receipt k record hget
            -- The new receipt is filed under a key of its own.
            exact ⟨key, receipt, Dict.get?_set_fresh hnew hreceipt, hrest⟩
        · intro k record hget
          rcases Dict.get?_set_eq_some.mp hget with ⟨rfl, rfl⟩ | ⟨-, hget⟩
          · rfl
          · exact h.named k record hget
  | cancelRun ctx runId =>
      show Rows (cancelRun env ctx runId s).state
      rcases cancelRun_cases env ctx runId s with hsame | ⟨found, hfound, hnext⟩
      · rw [hsame]
        exact h
      · rw [hnext]
        constructor
        · intro k record hget
          rcases Dict.get?_set_eq_some.mp hget with ⟨rfl, rfl⟩ | ⟨-, hget⟩
          · exact h.receipt _ found hfound
          · exact h.receipt k record hget
        · intro k record hget
          rcases Dict.get?_set_eq_some.mp hget with ⟨rfl, rfl⟩ | ⟨-, hget⟩
          · exact h.named _ found hfound
          · exact h.named k record hget

theorem rows_reachedBy (es : List SubmissionEvent) : Rows (reachedBy host es) :=
  Runs.invariant (fun _ e h _ => h.step e) rows_init (Runs.guarded_true _ es)

/-- The tables agree: an acceptance has its row, and the queue has every run once. -/
structure Agrees (s : MemorySubmissionStore) : Prop where
  rows : Rows s
  unique : UniqueRuns s
  accepted : ∀ key receipt, s.byId.get? key = some receipt →
    ∃ runId, receipt.resourceId = some runId ∧ s.runs.get? ⟨receipt.scope, runId⟩ ≠ none
  queue : s.acceptedQueue.Nodup
  queued : ∀ k ∈ s.acceptedQueue, s.runs.get? k ≠ none

theorem agrees_init : Agrees .init where
  rows := rows_init
  unique := fun key key' receipt receipt' h => by simp [MemorySubmissionStore.init] at h
  accepted := fun key receipt h => by simp [MemorySubmissionStore.init] at h
  queue := List.nodup_nil
  queued := fun k hk => absurd hk List.not_mem_nil

theorem Agrees.accept {s : MemorySubmissionStore} (h : Agrees s) (env : Durable.Env)
    (ctx : ControlPlaneContext) (request : Acceptance)
    (hnames : NamesNewRun s ⟨env, .accept ctx request⟩) :
    Agrees (submissionNext host s ⟨env, .accept ctx request⟩) := by
  have hrows : Rows (submissionNext host s ⟨env, .accept ctx request⟩) := h.rows.step _
  rcases accept_cases env ctx request s with hsame | ⟨hnew, hbound, hnext⟩
  · show Agrees (Memory.accept host env ctx request s).state
    rw [hsame]
    exact h
  · have hfresh : s.runs.get? (runKeyOf env ctx request) = none := hnames hnew hbound
    have hstate : submissionNext host s ⟨env, .accept ctx request⟩ = _ := hnext
    rw [hstate] at hrows ⊢
    -- No receipt so far names the new run.
    have hnobody : ∀ key receipt, s.byId.get? key = some receipt →
        receipt.scope = ctx.scopeKey → receipt.resourceId ≠ some (runKeyOf env ctx request).id := by
      intro key receipt hget hscope hid
      obtain ⟨runId, hrunId, hrow⟩ := h.accepted key receipt hget
      rw [hid] at hrunId
      obtain rfl := Option.some.inj hrunId
      rw [hscope] at hrow
      exact hrow hfresh
    refine ⟨hrows, ?_, ?_, ?_, ?_⟩
    · intro key key' receipt receipt' hget hget' hscope hid
      rcases Dict.get?_set_eq_some.mp hget with ⟨rfl, rfl⟩ | ⟨-, hget⟩
      · rcases Dict.get?_set_eq_some.mp hget' with ⟨rfl, rfl⟩ | ⟨-, hget'⟩
        · rfl
        · exact absurd hid.symm (hnobody key' receipt' hget' hscope.symm)
      · rcases Dict.get?_set_eq_some.mp hget' with ⟨rfl, rfl⟩ | ⟨-, hget'⟩
        · exact absurd hid (hnobody key receipt hget hscope)
        · exact h.unique key key' receipt receipt' hget hget' hscope hid
    · intro key receipt hget
      rcases Dict.get?_set_eq_some.mp hget with ⟨rfl, rfl⟩ | ⟨-, hget⟩
      · refine ⟨_, rfl, ?_⟩
        show Dict.get? (Dict.set _ _ _) (runKeyOf env ctx request) ≠ none
        rw [Dict.get?_set_self]
        simp
      · obtain ⟨runId, hrunId, hrow⟩ := h.accepted key receipt hget
        refine ⟨runId, hrunId, ?_⟩
        show Dict.get? (Dict.set _ _ _) _ ≠ none
        rw [Dict.get?_set]
        split
        · simp
        · exact hrow
    · show (s.acceptedQueue ++ [runKeyOf env ctx request]).Nodup
      rw [← List.concat_eq_append, List.nodup_concat]
      exact ⟨fun hmem => h.queued _ hmem hfresh, h.queue⟩
    · intro k hk
      show Dict.get? (Dict.set _ _ _) k ≠ none
      rw [Dict.get?_set]
      split
      · simp
      · rename_i hne
        rcases List.mem_append.mp hk with hk | hk
        · exact h.queued k hk
        · exact absurd (List.mem_singleton.mp hk).symm hne

theorem Agrees.cancelRun {s : MemorySubmissionStore} (h : Agrees s) (env : Durable.Env)
    (ctx : ControlPlaneContext) (runId : String) :
    Agrees (submissionNext host s ⟨env, .cancelRun ctx runId⟩) := by
  have hrows : Rows (submissionNext host s ⟨env, .cancelRun ctx runId⟩) := h.rows.step _
  rcases cancelRun_cases env ctx runId s with hsame | ⟨found, hfound, hnext⟩
  · show Agrees (Memory.cancelRun env ctx runId s).state
    rw [hsame]
    exact h
  · have hstate : submissionNext host s ⟨env, .cancelRun ctx runId⟩ = _ := hnext
    rw [hstate] at hrows ⊢
    have hkept : ∀ k record, s.runs.get? k ≠ none →
        (s.runs.set (Durable.key ctx runId) record).get? k ≠ none := by
      intro k record hk
      rw [Dict.get?_set]
      split
      · simp
      · exact hk
    refine ⟨hrows, h.unique, ?_, h.queue, ?_⟩
    · intro key receipt hget
      obtain ⟨runId', hrunId, hrow⟩ := h.accepted key receipt hget
      exact ⟨runId', hrunId, hkept _ _ hrow⟩
    · intro k hk
      exact hkept _ _ (h.queued k hk)

theorem Agrees.step {s : MemorySubmissionStore} {e : SubmissionEvent} (h : Agrees s)
    (hnames : NamesNewRun s e) : Agrees (submissionNext host s e) := by
  obtain ⟨env, call⟩ := e
  cases call with
  | accept ctx request => exact h.accept env ctx request hnames
  | cancelRun ctx runId => exact h.cancelRun env ctx runId

theorem StaysCancelled.step {s : MemorySubmissionStore} {e : SubmissionEvent}
    (hnames : NamesNewRun s e) : StaysCancelled s (submissionNext host s e) := by
  obtain ⟨env, call⟩ := e
  intro k record hget hcancelled
  cases call with
  | accept ctx request =>
      show ∃ record', (accept host env ctx request s).state.runs.get? k = some record' ∧ _
      rcases accept_cases env ctx request s with hsame | ⟨hnew, hbound, hnext⟩
      · rw [hsame]
        exact ⟨record, hget, hcancelled⟩
      · have hfresh : s.runs.get? (runKeyOf env ctx request) = none := hnames hnew hbound
        rw [hnext]
        exact ⟨record, Dict.get?_set_fresh hfresh hget, hcancelled⟩
  | cancelRun ctx runId =>
      show ∃ record', (cancelRun env ctx runId s).state.runs.get? k = some record' ∧ _
      rcases cancelRun_cases env ctx runId s with hsame | ⟨found, hfound, hnext⟩
      · rw [hsame]
        exact ⟨record, hget, hcancelled⟩
      · rw [hnext]
        by_cases hk : Durable.key ctx runId = k
        · subst hk
          exact ⟨_, Dict.get?_set_self _ _ _, rfl⟩
        · exact ⟨record, (Dict.get?_set_ne _ _ hk).trans hget, hcancelled⟩

theorem Agrees.pollsOnce {s : MemorySubmissionStore} (h : Agrees s) : PollsOnce s := by
  intro ctx limit
  unfold pollAccepted
  split
  · exact List.nodup_nil
  · rw [List.map_take]
    refine List.Nodup.sublist (List.take_sublist _ _) ?_
    rw [List.map_filterMap]
    refine List.Nodup.filterMap ?_ h.queue
    intro k k' runId hk hk'
    -- A polled row carries the id of its key, and the scope is the caller's.
    have hkey : ∀ k, runId ∈ (polled ctx s k).map (·.runId) → k = ⟨ctx.scopeKey, runId⟩ := by
      intro k hk
      obtain ⟨record, hrecord, rfl⟩ := Option.map_eq_some_iff.mp hk
      unfold polled at hrecord
      split at hrecord
      · rename_i hscope
        have hget := (Option.filter_eq_some_iff.mp hrecord).1
        rw [h.rows.named k record hget, ← hscope]
      · cases hrecord
    rw [hkey k hk, hkey k' hk']

end Steps

/-- A history keeps every promise about its runs exactly when each of its new
acceptances names a run that is not there yet. -/
theorem runs_once_iff (es : List SubmissionEvent) :
    RunsOnce host es ↔ Runs.Guarded (submissionNext host) NamesNewRun .init es := by
  constructor
  · intro h
    rw [Runs.guarded_iff]
    rintro before ⟨env, call⟩ after rfl
    cases call with
    | cancelRun ctx runId => exact trivial
    | accept ctx request =>
        intro hnew hbound
        by_contra htaken
        obtain ⟨record, hrecord⟩ := Option.ne_none_iff_exists'.mp htaken
        obtain ⟨key, receipt, hreceipt, hscope, hid⟩ :=
          (rows_reachedBy before).receipt _ record hrecord
        -- After the step two receipts name the run.
        have hunique := h.owned (before ++ [⟨env, .accept ctx request⟩]) after (by simp)
        have hstate : reachedBy host (before ++ [⟨env, .accept ctx request⟩]) =
            (accept host env ctx request (reachedBy host before)).state :=
          Runs.run_append_singleton _ _ _
        rw [hstate] at hunique
        rcases accept_cases env ctx request (reachedBy host before) with
          hsame | ⟨-, -, hnext⟩
        · unfold accept at hsame
          have hbyId := congrArg (fun s : MemorySubmissionStore => s.byId.get?
            (idempotencyTuple ctx request.operation request.idempotencyKey)) hsame
          have hnew' : (reachedBy host before).byId.get?
            (idempotencyTuple ctx request.operation request.idempotencyKey) = none := hnew
          have hbound' : bound (submissionIdOf env request) (reachedBy host before) = false := hbound
          simp only [hnew', hbound', Bool.false_eq_true, if_false, Dict.get?_set_self] at hbyId
          cases hbyId
        · rw [hnext] at hunique
          have hne : idempotencyTuple ctx request.operation request.idempotencyKey ≠ key := by
            rintro rfl
            have : (reachedBy host before).byId.get? _ = none := hnew
            rw [this] at hreceipt
            cases hreceipt
          exact hne (hunique _ _ _ receipt (Dict.get?_set_self _ _ _)
            ((Dict.get?_set_ne _ _ hne).trans hreceipt) hscope.symm hid.symm)
  · intro h
    have hagrees : ∀ before after, es = before ++ after → Agrees (reachedBy host before) := by
      rintro before after rfl
      exact Runs.invariant (fun s e hs hnames => hs.step hnames) agrees_init h.left
    refine ⟨fun before after hes => (hagrees before after hes).unique, ?_,
      fun before after hes => (hagrees before after hes).pollsOnce⟩
    rintro before middle after rfl
    have hmiddle := h.left.right
    have hrelated := Runs.related (I := fun _ => True) (R := StaysCancelled)
      (fun s k record hget hcancelled => ⟨record, hget, hcancelled⟩)
      (fun hab hbc k record hget hcancelled => by
        obtain ⟨record', hget', hcancelled'⟩ := hab k record hget hcancelled
        exact hbc k record' hget' hcancelled')
      (fun _ _ _ _ => trivial) (fun s e _ hnames => StaysCancelled.step hnames) trivial hmiddle
    have hrun : reachedBy host (before ++ middle) =
        Runs.run (submissionNext host) (reachedBy host before) middle :=
      Runs.run_append _ _ _
    rw [hrun]
    exact hrelated

/-! ## A run named twice -/

def sampleSubmissionHost : SubmissionHost where
  toHost := Durable.sampleHost
  sameDict a b := (Json.obj a).dumps Json.escapeAscii = (Json.obj b).dumps Json.escapeAscii

def sampleAcceptance (idempotencyKey runId : String) : Acceptance :=
  ⟨idempotencyKey, [], "run", some runId, none, "run.submit"⟩

def sampleSubmission (digit : Char) (idempotencyKey runId : String) : SubmissionEvent :=
  ⟨Durable.sampleEnv digit 0, .accept Durable.sampleContext (sampleAcceptance idempotencyKey runId)⟩

/-- A run is accepted and cancelled, and accepted again under another key. -/
def runNamedTwice : List SubmissionEvent :=
  [sampleSubmission 'a' "first" "nightly",
    ⟨Durable.sampleEnv 'b' 1, .cancelRun Durable.sampleContext "nightly"⟩,
    sampleSubmission 'c' "second" "nightly"]

/-- The run has two acceptances, is accepted again after its cancellation, and is polled
twice. -/
theorem run_named_twice :
    ¬ UniqueRuns (reachedBy sampleSubmissionHost runNamedTwice) ∧
      ¬ StaysCancelled (reachedBy sampleSubmissionHost (runNamedTwice.take 2))
        (reachedBy sampleSubmissionHost runNamedTwice) ∧
      ¬ PollsOnce (reachedBy sampleSubmissionHost runNamedTwice) := by
  have hkey : ∀ idempotencyKey ∈ ["first", "second"],
      ((reachedBy sampleSubmissionHost runNamedTwice).byId.get?
        (idempotencyTuple Durable.sampleContext "run.submit" idempotencyKey)).map
        (fun receipt => (receipt.scope, receipt.resourceId)) =
      some (Durable.sampleContext.scopeKey, some "nightly") := by decide +kernel
  refine ⟨?_, ?_, ?_⟩
  · intro h
    obtain ⟨first, hfirst, hfields⟩ := Option.map_eq_some_iff.mp (hkey "first" (by decide))
    obtain ⟨second, hsecond, hfields'⟩ := Option.map_eq_some_iff.mp (hkey "second" (by decide))
    obtain ⟨hscope, hid⟩ := Prod.mk.inj hfields
    obtain ⟨hscope', hid'⟩ := Prod.mk.inj hfields'
    have := h _ _ first second hfirst hsecond (hscope.trans hscope'.symm) (hid.trans hid'.symm)
    revert this
    decide
  · intro h
    have hbefore : ((reachedBy sampleSubmissionHost (runNamedTwice.take 2)).runs.get?
        (Durable.key Durable.sampleContext "nightly")).map (·.status) =
          some .cancelRequested := by decide +kernel
    have hafter : ((reachedBy sampleSubmissionHost runNamedTwice).runs.get?
        (Durable.key Durable.sampleContext "nightly")).map (·.status) =
          some .accepted := by decide +kernel
    obtain ⟨record, hrecord, hstatus⟩ := Option.map_eq_some_iff.mp hbefore
    obtain ⟨record', hrecord', hstatus'⟩ := h _ record hrecord hstatus
    rw [hrecord', Option.map_some, hstatus'] at hafter
    cases hafter
  · intro h
    have hpoll := h Durable.sampleContext 2
    revert hpoll
    decide +kernel

end Etlantic.ControlPlane.Memory
