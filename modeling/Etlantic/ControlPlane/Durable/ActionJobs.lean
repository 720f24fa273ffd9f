import Etlantic.Base.Checked
import Etlantic.ControlPlane.Durable.EffectIdentity

/-!
# The life of an action job

An action job is queued, claimed under ever larger tokens, and ends once; only a
repeated acceptance under its own key reopens it, and only while it holds no receipt.
As for the delivery of work, the calls are shown to make nothing but a few kinds of
writes, and what holds of every run is read off these.
-/

namespace Etlantic.ControlPlane.Durable

/-- The call is about action jobs. -/
def Call.isAction : Call → Bool
  | .acceptActionJob .. | .cancelActionJob .. | .claimActionJob .. | .heartbeatActionJob ..
  | .markActionJobAccepting .. | .finishActionJob .. | .cleanupExpiredActionResults .. => true
  | _ => false

/-- The job that a worker names, and the token it presents. -/
def Call.actionFence? : Call → Option (Key × Int)
  | .heartbeatActionJob ctx actionId _ fencingToken _ _
  | .markActionJobAccepting ctx actionId _ fencingToken _ => some (key ctx actionId, fencingToken)
  | .finishActionJob ctx actionId completion _ =>
      some (key ctx actionId, completion.fencingToken)
  | _ => none

/-- The job completed before its deadline. -/
def CompletedInTime (host : Host) (job : ActionJobRecord) : Prop :=
  ∃ completed deadline, job.completedAt = some completed ∧
    host.parse job.deadlineAt = some (.aware deadline) ∧ completed < deadline

/-- What holds of a stored job at any time. -/
structure JobSound (host : Host) (k : Key) (job : ActionJobRecord) : Prop where
  id : job.actionId = k.id
  live : isLiveAction job = true → job.resultJson = none
  inTime : job.status = .succeeded ∨ job.status = .failed → CompletedInTime host job

/-- A job moves on: its token never decreases, it keeps its intent, and it stays over. -/
structure JobMoves (old new : ActionJobRecord) : Prop where
  token : old.fencingToken ≤ new.fencingToken
  action : new.action = old.action
  idempotencyKey : new.idempotencyKey = old.idempotencyKey
  ended : isLiveAction old = false → new.status = old.status

/-- A provisioning job that timed out or failed without a result is queued again. -/
structure JobReopens (old new : ActionJobRecord) : Prop where
  action : old.action = "connector.provision" ∨ old.action = "connector.provision.cleanup"
  ended : old.status = .timedOut ∨ old.status = .failed
  unreceipted : old.resultJson = none
  queued : new.status = .queued
  token : new.fencingToken = old.fencingToken
  sameAction : new.action = old.action
  sameKey : new.idempotencyKey = old.idempotencyKey

/-- What an acceptance leaves: the store, a new job, or a job that is queued again. -/
inductive JobAccepted (host : Host) (e : Event) (s : Store) : Store → Prop
  | kept : JobAccepted host e s s
  | queued {ctx : ControlPlaneContext} {request : ActionRequest}
      {safeRequest : List (String × Json)} (at_ : Instant)
      (hcall : e.call = .acceptActionJob ctx request) :
      JobAccepted host e s { s with
        actionJobs := s.actionJobs.set (key ctx (e.env.generatedId "act-" 24 0))
          (queuedAction host ctx request safeRequest (e.env.generatedId "act-" 24 0) at_)
        actionIdempotency := s.actionIdempotency.set (actionIdem host ctx request)
          (e.env.generatedId "act-" 24 0) }
  | reopened {ctx : ControlPlaneContext} {request : ActionRequest} {k : Key}
      {old new : ActionJobRecord}
      (hcall : e.call = .acceptActionJob ctx request) (hscope : k.scope = ctx.scopeKey)
      (hprior : priorAction host ctx request s = some k.id)
      (hget : s.actionJobs.get? k = some old) (hreopens : JobReopens old new)
      (hid : new.actionId = old.actionId) (hresult : new.resultJson = none) :
      JobAccepted host e s { s with actionJobs := s.actionJobs.set k new }

/-- One job moves on. -/
inductive JobMove (host : Host) : Store → Store → Prop
  | move {s : Store} {k : Key} {old new : ActionJobRecord}
      (hget : s.actionJobs.get? k = some old) (hmoves : JobMoves old new)
      (hsound : JobSound host k old → JobSound host k new) :
      JobMove host s { s with actionJobs := s.actionJobs.set k new }

/-- The moves of one call, in order. -/
abbrev JobsMoved (host : Host) : Store → Store → Prop :=
  Relation.ReflTransGen (JobMove host)

variable {host : Host} {e : Event} {s t u : Store} {ctx : ControlPlaneContext} {k : Key}

theorem JobMoves.refl (job : ActionJobRecord) : JobMoves job job :=
  ⟨le_rfl, rfl, rfl, fun _ => rfl⟩

theorem isLiveAction_of_status {a b : ActionJobRecord} (h : a.status = b.status) :
    isLiveAction a = isLiveAction b := by
  unfold isLiveAction
  rw [h]

theorem JobMoves.trans {a b c : ActionJobRecord} (h : JobMoves a b) (h' : JobMoves b c) :
    JobMoves a c where
  token := h.token.trans h'.token
  action := h'.action.trans h.action
  idempotencyKey := h'.idempotencyKey.trans h.idempotencyKey
  ended := fun hover =>
    (h'.ended ((isLiveAction_of_status (h.ended hover)).trans hover)).trans (h.ended hover)

/-! ## What the calls write -/

theorem acceptActionJob_accepted {request : ActionRequest}
    (hcall : e.call = .acceptActionJob ctx request) :
    JobAccepted host e s (acceptActionJob host e.env ctx request s).store := by
  unfold acceptActionJob
  split
  · exact .kept
  · split
    · exact .kept
    · exact .kept
    · dsimp only
      split
      · exact .kept
      · split
        · exact .kept
        · split
          · rename_i priorId hprior
            split
            · exact .kept
            · rename_i prior hget
              split
              · exact .kept
              · split
                · rename_i hrecoverable
                  simp only [isRecoverable, Bool.and_eq_true, Bool.or_eq_true,
                    decide_eq_true_eq] at hrecoverable
                  obtain ⟨⟨⟨haction, hresult⟩, hended⟩, -⟩ := hrecoverable
                  exact .reopened hcall rfl hprior hget
                    ⟨haction, hended, hresult, rfl, rfl, rfl, rfl⟩ rfl hresult
                · exact .kept
          · exact .queued _ hcall

/-- A call that rewrites the job it found, if at all. -/
theorem jobsMoved_of_move {old new : ActionJobRecord} (hget : s.actionJobs.get? k = some old)
    (hmoves : JobMoves old new) (hsound : JobSound host k old → JobSound host k new) :
    JobsMoved host s { s with actionJobs := s.actionJobs.set k new } :=
  .single (.move hget hmoves hsound)

theorem isLiveAction_iff {job : ActionJobRecord} :
    isLiveAction job = true ↔
      job.status = .queued ∨ job.status = .running ∨ job.status = .cancelRequested := by
  simp [isLiveAction, or_assoc]

/-- A live job may move to any other status. -/
theorem jobMoves_of_live {old new : ActionJobRecord} (hlive : isLiveAction old = true)
    (htoken : old.fencingToken ≤ new.fencingToken) (haction : new.action = old.action)
    (hkey : new.idempotencyKey = old.idempotencyKey) : JobMoves old new :=
  ⟨htoken, haction, hkey, fun hover => absurd hlive (by simp [hover])⟩

/-- A job that is neither live nor completed needs its identity only. -/
theorem jobSound_of_ended {old new : ActionJobRecord} (h : JobSound host k old)
    (hid : new.actionId = old.actionId) (hended : new.status = .timedOut ∨ new.status = .cancelled) :
    JobSound host k new where
  id := hid.trans h.id
  live := fun hlive => by
    rcases hended with hended | hended <;> simp [isLiveAction, hended] at hlive
  inTime := fun hdone => by
    rcases hended with hended | hended <;> simp [hended] at hdone

/-- A live job without a result is sound. -/
theorem jobSound_of_live {old new : ActionJobRecord} (h : JobSound host k old)
    (hid : new.actionId = old.actionId) (hlive : isLiveAction new = true)
    (hresult : new.resultJson = none) : JobSound host k new where
  id := hid.trans h.id
  live := fun _ => hresult
  inTime := fun hdone => by
    rcases hdone with hdone | hdone <;> simp [isLiveAction, hdone] at hlive

theorem cancelActionJob_moved (env : Env) {actionId : String} :
    JobsMoved host s (cancelActionJob host env ctx actionId s).store := by
  unfold cancelActionJob
  dsimp only
  split
  · exact .refl
  · rename_i row hfound
    have hget : s.actionJobs.get? (key ctx actionId) = some row :=
      (Option.filter_eq_some_iff.mp hfound).1
    split
    · exact .refl
    · split
      · rename_i hqueued
        have hlive : isLiveAction row = true := isLiveAction_iff.mpr (.inl hqueued)
        exact jobsMoved_of_move hget (jobMoves_of_live hlive le_rfl rfl rfl)
          fun h => jobSound_of_ended h rfl (.inr rfl)
      · split
        · rename_i hrunning
          have hlive : isLiveAction row = true := isLiveAction_iff.mpr (.inr (.inl hrunning.1))
          exact jobsMoved_of_move hget (jobMoves_of_live hlive le_rfl rfl rfl)
            fun h => jobSound_of_live h rfl (isLiveAction_iff.mpr (.inr (.inr rfl))) (h.live hlive)
        · split
          · exact .refl
          · exact .refl

theorem sweepActions_moved (current : Instant) (scope : Scope) :
    ∀ (rows : List (Key × ActionJobRecord)) (s : Store), (rows.map Prod.fst).Nodup →
      (∀ k row, (k, row) ∈ rows → s.actionJobs.get? k = some row) →
      JobsMoved host s (sweepActions host current scope rows s).store
  | [], _, _, _ => .refl
  | (k, row) :: rest, s, hnodup, hrows => by
      have hget := hrows k row List.mem_cons_self
      have htail := (List.nodup_cons.mp hnodup).2
      have hskip := sweepActions_moved current scope rest s htail fun k' row' hmem =>
        hrows k' row' (List.mem_cons_of_mem _ hmem)
      have hwrite : ∀ new, isLiveAction row = true → row.fencingToken ≤ new.fencingToken →
          new.action = row.action → new.idempotencyKey = row.idempotencyKey →
          new.actionId = row.actionId → new.status = .timedOut ∨ new.status = .cancelled →
          JobsMoved host s (sweepActions host current scope rest
            { s with actionJobs := s.actionJobs.set k new }).store := by
        intro new hlive htoken haction hkey hid hended
        refine .head (.move hget (jobMoves_of_live hlive htoken haction hkey)
          fun h => jobSound_of_ended h hid hended) ?_
        refine sweepActions_moved current scope rest _ htail fun k' row' hmem => ?_
        exact (Dict.get?_set_of_mem_tail hnodup hmem).trans
          (hrows k' row' (List.mem_cons_of_mem _ hmem))
      unfold sweepActions
      split
      · rename_i hmine
        split
        · exact hwrite _ hmine.2 le_rfl rfl rfl rfl (.inr rfl)
        · split
          · exact .refl
          · exact hskip
          · exact hwrite _ hmine.2 le_rfl rfl rfl rfl (.inl rfl)
      · exact hskip

theorem claimableActions_mem {current : Instant} {scope : Scope} {row : ActionJobRecord}
    {rows : List (Key × ActionJobRecord)}
    (h : claimableActions host current scope s = .ok rows) (hmem : (k, row) ∈ rows) :
    k.scope = scope ∧ s.actionJobs.get? k = some row ∧
      (row.status = .queued ∨ row.status = .running) := by
  unfold claimableActions at h
  obtain ⟨checked, hchecked, rfl⟩ := Checked.map_eq_ok h
  rw [List.mem_insertionSort, List.mem_map] at hmem
  obtain ⟨⟨passed, entry⟩, hentry, heq⟩ := hmem
  obtain rfl : entry = (k, row) := heq
  obtain ⟨source, hsource, hparsed⟩ :=
    Checked.mem_of_mapM hchecked _ (List.mem_of_mem_filter hentry)
  obtain ⟨flag, -, hsame⟩ := Checked.map_eq_ok hparsed
  obtain ⟨-, rfl⟩ := Prod.mk.inj hsame
  rw [List.mem_filter] at hsource
  obtain ⟨hentries, hcond⟩ := hsource
  simp only [Bool.and_eq_true, Bool.or_eq_true, decide_eq_true_eq] at hcond
  exact ⟨hcond.1, Dict.mem_entries_iff.mp hentries, hcond.2⟩

/-- The job under its new claim. -/
def claimedAction (row : ActionJobRecord) (workerId : String) (leaseSeconds : Int)
    (current : Instant) : ActionJobRecord :=
  { row with
    status := .running
    attempt := row.attempt + 1
    fencingToken := row.fencingToken + 1
    workerId := some workerId
    leaseExpiresAt := some (current + seconds leaseSeconds)
    startedAt := some (row.startedAt.getD current)
    phase := if row.phase = .queued then .preparing else row.phase }

/-- The sweep of the claim in `s`. -/
def sweptActions (host : Host) (env : Env) (ctx : ControlPlaneContext) (now : Option Instant)
    (s : Store) : Outcome Unit :=
  sweepActions host (now.getD (env.now [0])) ctx.scopeKey s.actionJobs.entries s

theorem sweptActions_moved (env : Env) (now : Option Instant) :
    JobsMoved host s (sweptActions host env ctx now s).store :=
  sweepActions_moved _ _ _ s (Dict.nodup _) fun _ _ hmem => Dict.mem_entries_iff.mp hmem

/-- A claim leaves the swept store, or it claims one of its queued or running jobs. -/
theorem claimActionJob_cases (env : Env) (workerId : String) (leaseSeconds : Int)
    (now : Option Instant) :
    let outcome := claimActionJob host env ctx workerId leaseSeconds now s
    let swept := (sweptActions host env ctx now s).store
    outcome.store = s ∧ (∀ granted, outcome.result ≠ .ok (some granted)) ∨
      outcome.store = swept ∧ (∀ granted, outcome.result ≠ .ok (some granted)) ∨
      ∃ k row, k.scope = ctx.scopeKey ∧ swept.actionJobs.get? k = some row ∧
        (row.status = .queued ∨ row.status = .running) ∧
        outcome = ret (some (claimedAction row workerId leaseSeconds (now.getD (env.now [0]))))
          { swept with
            actionJobs := swept.actionJobs.set k
              (claimedAction row workerId leaseSeconds (now.getD (env.now [0]))) } := by
  intro outcome swept
  by_cases hargs : isBlank workerId ∨ leaseSeconds < 1
  · refine .inl ?_
    simp only [outcome, claimActionJob, if_pos hargs]
    exact ⟨rfl, fun _ h => by cases h⟩
  · have houtcome : outcome = claimActionJob host env ctx workerId leaseSeconds now s := rfl
    unfold claimActionJob at houtcome
    rw [if_neg hargs] at houtcome
    dsimp only at houtcome
    split at houtcome
    · rw [houtcome]
      exact .inr (.inl ⟨rfl, fun _ h => by cases h⟩)
    · split at houtcome
      · rw [houtcome]
        exact .inr (.inl ⟨rfl, fun _ h => by cases h⟩)
      · rw [houtcome]
        exact .inr (.inl ⟨rfl, fun _ h => by cases h⟩)
      · rename_i k row _ hrows
        obtain ⟨hscope, hget, hstatus⟩ := claimableActions_mem hrows List.mem_cons_self
        exact .inr (.inr ⟨k, row, hscope, hget, hstatus, houtcome⟩)

theorem claimActionJob_moved (env : Env) (workerId : String) (leaseSeconds : Int) (now : Option Instant) :
    JobsMoved host s (claimActionJob host env ctx workerId leaseSeconds now s).store := by
  rcases claimActionJob_cases env workerId leaseSeconds now
    with ⟨hstore, -⟩ | ⟨hstore, -⟩ | ⟨k, row, -, hget, hstatus, houtcome⟩
  · rw [hstore]
  · rw [hstore]
    exact sweptActions_moved env now
  · rw [houtcome]
    have hlive : isLiveAction row = true := isLiveAction_iff.mpr (by tauto)
    refine (sweptActions_moved env now).tail (.move hget (jobMoves_of_live hlive ?_ rfl rfl)
      fun h => jobSound_of_live h rfl (isLiveAction_iff.mpr (.inr (.inl rfl))) (h.live hlive))
    exact Int.le_add_one le_rfl

theorem heartbeatActionJob_moved (env : Env) {actionId workerId : String} {fencingToken leaseSeconds : Int}
    {now : Option Instant} :
    JobsMoved host s
      (heartbeatActionJob env ctx actionId workerId fencingToken leaseSeconds now s).store := by
  unfold heartbeatActionJob
  dsimp only
  split
  · exact .refl
  · split
    · exact .refl
    · rename_i row hget
      split
      · rename_i hheld
        have hlive : isLiveAction row = true := isLiveAction_iff.mpr (.inr hheld.1)
        exact jobsMoved_of_move hget (jobMoves_of_live hlive le_rfl rfl rfl)
          fun h => jobSound_of_live h rfl hlive (h.live hlive)
      · exact .refl

theorem markActionJobAccepting_moved (env : Env) {actionId workerId : String} {fencingToken : Int}
    {now : Option Instant} :
    JobsMoved host s
      (markActionJobAccepting env ctx actionId workerId fencingToken now s).store := by
  unfold markActionJobAccepting
  dsimp only
  split
  · exact .refl
  · rename_i row hget
    split
    · exact .refl
    · split
      · exact .refl
      · rename_i hheld
        push Not at hheld
        have hlive : isLiveAction row = true := isLiveAction_iff.mpr (.inr (.inl hheld.2.1))
        split
        · exact .refl
        · exact jobsMoved_of_move hget (jobMoves_of_live hlive le_rfl rfl rfl)
            fun h => jobSound_of_live h rfl hlive (h.live hlive)

/-- A worker that finishes under its lease ends the job: cancelled, timed out, or in time. -/
theorem finishedAction_sound {row finished : ActionJobRecord} {completion : ActionCompletion}
    {status : ActionJobStatus} {effectJson : Option String} {current : Instant}
    (hstatus : status ∈ [ActionJobStatus.succeeded, .failed, .timedOut, .cancelled])
    (h : finishedAction host row completion status effectJson current = .ok finished) :
    finished.fencingToken = row.fencingToken ∧ finished.action = row.action ∧
      finished.idempotencyKey = row.idempotencyKey ∧
      (JobSound host k row → JobSound host k finished) := by
  unfold finishedAction at h
  split at h
  · obtain rfl := Except.ok.inj h
    exact ⟨rfl, rfl, rfl, fun hrow => jobSound_of_ended hrow rfl (.inr rfl)⟩
  · rename_i hgoes
    push Not at hgoes
    split at h
    · split at h
      · cases h
      · split at h
        · cases h
        · cases h
        · obtain rfl := Except.ok.inj h
          exact ⟨rfl, rfl, rfl, fun hrow => jobSound_of_ended hrow rfl (.inl rfl)⟩
    · rename_i hintime
      split at h
      · cases h
      · obtain rfl := Except.ok.inj h
        exact ⟨rfl, rfl, rfl, fun hrow => jobSound_of_ended hrow rfl (.inl rfl)⟩
      · rename_i hparsed
        split at h
        · cases h
        · obtain rfl := Except.ok.inj h
          have hdone : status = .succeeded ∨ status = .failed := by
            simp only [List.mem_cons, List.not_mem_nil, or_false] at hstatus
            tauto
          refine ⟨rfl, rfl, rfl, fun hrow => ⟨hrow.id, fun hlive => ?_, fun _ => ?_⟩⟩
          · rcases hdone with rfl | rfl <;> cases hlive
          · unfold parsedBy at hparsed
            split at hparsed
            · cases hparsed
            · cases hparsed
            · rename_i deadline hdeadline
              exact ⟨current, deadline, rfl, hdeadline, by simpa using Except.ok.inj hparsed⟩

theorem completionStatus_mem {text : String} {status : ActionJobStatus}
    (h : ActionJobStatus.ofCompletionText? text = some status) :
    status ∈ [ActionJobStatus.succeeded, .failed, .timedOut, .cancelled] :=
  List.mem_of_find?_eq_some h

theorem finishActionJob_moved (env : Env) {actionId : String} {completion : ActionCompletion}
    {now : Option Instant} :
    JobsMoved host s (finishActionJob host env ctx actionId completion now s).store := by
  unfold finishActionJob
  split
  · exact .refl
  · rename_i status hstatus
    dsimp only
    split
    · exact .refl
    · split
      · exact .refl
      · rename_i row hget
        split
        · -- a receipt for a job that is over
          rename_i hover
          rw [if_pos hover.2.2.2]
          split
          · exact .refl
          · refine jobsMoved_of_move hget ⟨le_rfl, rfl, rfl, fun _ => rfl⟩
              fun h => jobSound_of_ended h rfl hover.1
        · split
          · exact .refl
          · rename_i hheld
            push Not at hheld
            split
            · exact .refl
            · rename_i finished hfinished
              obtain ⟨htoken, haction, hkey, hsound⟩ :=
                finishedAction_sound (k := key ctx actionId) (completionStatus_mem hstatus) hfinished
              have hlive : isLiveAction row = true := isLiveAction_iff.mpr (.inr (by tauto))
              exact jobsMoved_of_move hget
                (jobMoves_of_live hlive (le_of_eq htoken.symm) haction hkey) hsound

/-- The deletions of `cleanup_expired_action_results`. -/
theorem deleteResults_moved :
    ∀ (rows : List (Key × ActionJobRecord)) (s : Store), (rows.map Prod.fst).Nodup →
      (∀ k row, (k, row) ∈ rows → s.actionJobs.get? k = some row) →
      JobsMoved host s { s with
        actionJobs := rows.foldl
          (fun jobs entry => jobs.set entry.1 { entry.2 with resultJson := none }) s.actionJobs }
  | [], _, _, _ => .refl
  | (k, row) :: rest, s, hnodup, hrows => by
      have hdelete : JobMove host s { s with
          actionJobs := s.actionJobs.set k { row with resultJson := none } } :=
        .move (hrows k row List.mem_cons_self) ⟨le_rfl, rfl, rfl, fun _ => rfl⟩
          fun h => ⟨h.id, fun _ => rfl, h.inTime⟩
      refine .head hdelete ?_
      refine deleteResults_moved rest { s with
        actionJobs := s.actionJobs.set k { row with resultJson := none } }
        (List.nodup_cons.mp hnodup).2 fun k' row' hmem => ?_
      exact (Dict.get?_set_of_mem_tail hnodup hmem).trans
        (hrows k' row' (List.mem_cons_of_mem _ hmem))

theorem cleanupExpiredActionResults_moved (env : Env) {limit : Int} {now : Option Instant} :
    JobsMoved host s (cleanupExpiredActionResults env ctx limit now s).store := by
  unfold cleanupExpiredActionResults
  split
  · exact .refl
  · refine deleteResults_moved _ s ?_ fun k row hmem => ?_
    · refine ((List.take_sublist _ _).map Prod.fst).nodup ?_
      refine ((List.perm_insertionSort _ _).map Prod.fst).nodup_iff.mpr ?_
      exact s.actionJobs.nodup.sublist (List.filter_sublist.map _)
    · have hentry := List.mem_of_mem_take hmem
      rw [List.mem_insertionSort, List.mem_filter] at hentry
      exact Dict.mem_entries_iff.mp hentry.1

/-! ## The other calls leave the jobs alone -/

/-- `t` has the action jobs of `s`. -/
structure KeepsJobs (s t : Store) : Prop where
  jobs : t.actionJobs = s.actionJobs
  idempotency : t.actionIdempotency = s.actionIdempotency

theorem KeepsJobs.refl (s : Store) : KeepsJobs s s := ⟨rfl, rfl⟩

theorem KeepsJobs.trans (h : KeepsJobs s t) (h' : KeepsJobs t u) : KeepsJobs s u :=
  ⟨h'.jobs.trans h.jobs, h'.idempotency.trans h.idempotency⟩

theorem reconcileTerminalRows_keepsJobs (env : Env) (scope : Scope) (limit : Int) :
    ∀ (rows : List (Key × OutboxRecord)) (done : List OutboxRecord) (s : Store),
      KeepsJobs s (reconcileTerminalRows env scope limit rows done s).2
  | [], _, s => .refl s
  | (k, row) :: rest, done, s => by
      unfold reconcileTerminalRows
      split
      · exact .refl s
      · split
        · exact reconcileTerminalRows_keepsJobs env scope limit rest done s
        · split
          · exact reconcileTerminalRows_keepsJobs env scope limit rest done s
          · refine KeepsJobs.trans ?_ (reconcileTerminalRows_keepsJobs env scope limit rest _ _)
            exact ⟨rfl, rfl⟩

theorem loseRunningAttempts_keepsJobs (now : Instant) (k : Key) :
    ∀ (rows : List (Key × AttemptRecord)) (s : Store),
      KeepsJobs s (loseRunningAttempts now k rows s)
  | [], s => .refl s
  | (attemptKey, attempt) :: rest, s => by
      unfold loseRunningAttempts
      split
      · refine KeepsJobs.trans ?_ (loseRunningAttempts_keepsJobs now k rest _)
        exact ⟨rfl, rfl⟩
      · exact loseRunningAttempts_keepsJobs now k rest s

theorem cancelDispatch_keepsJobs (k : Key) (now : Instant) (s : Store) :
    KeepsJobs s (cancelDispatch k now s) := by
  unfold cancelDispatch
  split
  · exact .refl s
  · split <;> exact ⟨rfl, rfl⟩

theorem ackSubmissionOutbox_keepsJobs (at_ : Nat → Instant) (scope : Scope)
    (submissionId : String) (s : Store) :
    KeepsJobs s (ackSubmissionOutbox at_ scope submissionId s) := by
  obtain ⟨outbox, houtbox⟩ := ackRows_frame at_ scope submissionId 0 s.outbox.entries s
  unfold ackSubmissionOutbox
  rw [houtbox]
  exact ⟨rfl, rfl⟩

theorem recordUnknownEffect_keepsJobs (scope : Scope) (submissionId : String) (now : Instant)
    (s : Store) : KeepsJobs s (recordUnknownEffect scope submissionId now s) := by
  unfold recordUnknownEffect
  dsimp only
  split <;> exact ⟨rfl, rfl⟩

theorem finalizeCancellation_keepsJobs (env : Env) (row : Nat) (now : Instant)
    (acknowledgeOutbox : Bool) (k : Key) (submission : SubmissionRecord) (s : Store) :
    KeepsJobs s (finalizeCancellation env row now acknowledgeOutbox k submission s) := by
  unfold finalizeCancellation
  dsimp only
  have hlost := loseRunningAttempts_keepsJobs now ⟨k.scope, submission.submissionId⟩
    s.attempts.entries s
  generalize loseRunningAttempts now ⟨k.scope, submission.submissionId⟩ s.attempts.entries s = s₁
    at hlost ⊢
  have hdoubt : KeepsJobs s₁ (if s.hasRunningAttempt ⟨k.scope, submission.submissionId⟩ = true then
      recordUnknownEffect k.scope submission.submissionId (env.now [1, row]) s₁ else s₁) := by
    split
    · exact recordUnknownEffect_keepsJobs _ _ _ s₁
    · exact .refl s₁
  generalize (if s.hasRunningAttempt ⟨k.scope, submission.submissionId⟩ = true then
    recordUnknownEffect k.scope submission.submissionId (env.now [1, row]) s₁ else s₁) = s₂
    at hdoubt ⊢
  have hcancelled : KeepsJobs s (cancelDispatch k now { s₂ with
      submissions := s₂.submissions.set k (submission.withStatus .cancelled) }) := by
    refine (hlost.trans hdoubt).trans (KeepsJobs.trans ?_ (cancelDispatch_keepsJobs k now _))
    exact ⟨rfl, rfl⟩
  split
  · exact hcancelled.trans (ackSubmissionOutbox_keepsJobs _ _ _ _)
  · exact hcancelled

theorem reconcileCancelledRows_keepsJobs (env : Env) (now limit : Int)
    (acknowledgeOutbox : Bool) :
    ∀ (rows : List (Key × SubmissionRecord)) (done : List SubmissionRecord) (s : Store),
      KeepsJobs s (reconcileCancelledRows env now limit acknowledgeOutbox rows done s).2
  | [], _, s => .refl s
  | (k, submission) :: rest, done, s => by
      unfold reconcileCancelledRows
      split
      · exact .refl s
      · split
        · exact reconcileCancelledRows_keepsJobs env now limit acknowledgeOutbox rest done s
        · exact (finalizeCancellation_keepsJobs env done.length now acknowledgeOutbox k submission
            s).trans (reconcileCancelledRows_keepsJobs env now limit acknowledgeOutbox rest _ _)

theorem cleanupPreviewRows_keepsJobs (host : Host) (now : Instant) (scope : Scope) :
    ∀ (rows : List (Key × PreviewWorkspace)) (cleaned : List PreviewWorkspace) (s : Store),
      KeepsJobs s (cleanupPreviewRows host now scope rows cleaned s).store
  | [], _, s => .refl s
  | (k, preview) :: rest, cleaned, s => by
      unfold cleanupPreviewRows
      split
      · split
        · exact .refl s
        · exact cleanupPreviewRows_keepsJobs host now scope rest cleaned s
        · refine KeepsJobs.trans ?_ (cleanupPreviewRows_keepsJobs host now scope rest _ _)
          exact ⟨rfl, rfl⟩
      · exact cleanupPreviewRows_keepsJobs host now scope rest cleaned s

theorem loseOlderAttempts_keepsJobs (at_ : Nat → Instant) (k : Key) (fencingToken : Int) :
    ∀ (n : Nat) (rows : List (Key × AttemptRecord)) (s : Store),
      KeepsJobs s (loseOlderAttempts at_ k fencingToken n rows s).store
  | _, [], s => .refl s
  | n, (attemptKey, attempt) :: rest, s => by
      unfold loseOlderAttempts
      split
      · split
        · exact .refl s
        · refine KeepsJobs.trans ?_ (loseOlderAttempts_keepsJobs at_ k fencingToken _ rest _)
          exact ⟨rfl, rfl⟩
      · exact loseOlderAttempts_keepsJobs at_ k fencingToken _ rest s

theorem startAttempt_keepsJobs (env : Env) (submissionId ownerId : String) (fencingToken : Int)
    (context : List (String × Json)) :
    KeepsJobs s (startAttempt host env ctx submissionId ownerId fencingToken context s).store := by
  have holder := loseOlderAttempts_keepsJobs (fun n => env.now [1, n]) (key ctx submissionId)
    fencingToken 0 s.attempts.entries s
  unfold startAttempt
  dsimp only
  split
  · exact .refl s
  · split
    · exact .refl s
    · split
      · exact .refl s
      · split
        · exact .refl s
        · split
          · exact holder
          · refine holder.trans ?_
            exact ⟨rfl, rfl⟩

theorem replayAccept_keepsJobs (requested : RequestedInputs) (request : AcceptRequest)
    (existingId : String) (prior : SubmissionRecord) :
    KeepsJobs s (replayAccept requested request existingId prior s).store := by
  rw [replayAccept_store]
  exact .refl s

/-- Only the calls on action jobs touch action jobs. -/
theorem next_keepsJobs (h : e.call.isAction = false) : KeepsJobs s (next host s e) := by
  unfold next Event.outcome
  cases hcall : e.call with
  | accept ctx request =>
      simp only [Call.exec, Outcome.void_store, accept, insertAcceptance]
      repeat' split
      all_goals first | exact ⟨rfl, rfl⟩ | exact replayAccept_keepsJobs _ _ _ _
  | startAttempt ctx submissionId ownerId fencingToken context =>
      exact startAttempt_keepsJobs _ _ _ _ _
  | reconcileTerminalOutbox ctx limit => exact reconcileTerminalRows_keepsJobs _ _ _ _ _ s
  | reconcileCancelledSubmissions ctx sweep =>
      simp only [Call.exec, Outcome.void_store, reconcileCancelledSubmissions]
      repeat' split
      · exact .refl s
      · exact .refl s
      · exact reconcileCancelledRows_keepsJobs _ _ _ _ _ _ s
  | cleanupExpiredPreviews ctx => exact cleanupPreviewRows_keepsJobs _ _ _ _ _ s
  | cancelSubmission ctx submissionId =>
      simp only [Call.exec, Outcome.void_store, cancelSubmission, requestCancellation]
      repeat' split
      all_goals exact ⟨rfl, rfl⟩
  | recordEffect ctx effect | recordAttemptEffect ctx effect claim =>
      simp only [Call.exec, Outcome.void_store, recordEffect, recordAttemptEffect, recordEffectWith]
      repeat' split
      all_goals exact ⟨rfl, rfl⟩
  | rearmDispatchAfterRemoteFailure ctx submissionId remote flow now
  | rearmDispatchAfterRemoteMissing ctx submissionId remote flow minimumAge now =>
      simp only [Call.exec, Outcome.void_store, rearmDispatchAfterRemoteFailure,
        rearmDispatchAfterRemoteMissing, rearmDispatchIfUnclaimed]
      repeat' split
      all_goals exact ⟨rfl, rfl⟩
  | acceptActionJob ctx request => simp [hcall, Call.isAction] at h
  | cancelActionJob ctx actionId => simp [hcall, Call.isAction] at h
  | claimActionJob ctx workerId leaseSeconds now => simp [hcall, Call.isAction] at h
  | heartbeatActionJob ctx actionId workerId fencingToken leaseSeconds now =>
      simp [hcall, Call.isAction] at h
  | markActionJobAccepting ctx actionId workerId fencingToken now =>
      simp [hcall, Call.isAction] at h
  | finishActionJob ctx actionId completion now => simp [hcall, Call.isAction] at h
  | cleanupExpiredActionResults ctx limit now => simp [hcall, Call.isAction] at h
  | _ =>
      simp only [Call.exec, Outcome.void_store, reserveExecutionRouteReference,
        releaseExecutionRouteReference, releaseExecutionRouteReferenceId,
        transitionExecutionRouteState, prepareDispatch, claimDispatch, linkDispatch,
        releaseDispatch, rearmReconciliationRequiredDispatch, markPublished, acquireLease,
        heartbeat, releaseLease, finishAttempt, recordResultPublication,
        markResultPublicationPublished, compareAndSwapCheckpoint, diagnoseCheckpoint,
        acknowledgeBaseline, createPreview, markPreviewStale, recordPreviewDiff,
        authorizeShadowRun]
      repeat' split
      all_goals exact ⟨rfl, rfl⟩

/-! ## One call -/

/-- What a call leaves of the jobs: all of them, an acceptance, or moves. -/
theorem next_jobs (host : Host) (e : Event) (s : Store) :
    KeepsJobs s (next host s e) ∨ JobAccepted host e s (next host s e) ∨
      JobsMoved host s (next host s e) := by
  by_cases haction : e.call.isAction = true
  · refine .inr ?_
    unfold next Event.outcome
    cases hcall : e.call with
    | acceptActionJob ctx request => exact .inl (acceptActionJob_accepted hcall)
    | cancelActionJob ctx actionId => exact .inr (cancelActionJob_moved e.env)
    | claimActionJob ctx workerId leaseSeconds now => exact .inr (claimActionJob_moved e.env _ _ _)
    | heartbeatActionJob ctx actionId workerId fencingToken leaseSeconds now =>
        exact .inr (heartbeatActionJob_moved e.env)
    | markActionJobAccepting ctx actionId workerId fencingToken now =>
        exact .inr (markActionJobAccepting_moved e.env)
    | finishActionJob ctx actionId completion now => exact .inr (finishActionJob_moved e.env)
    | cleanupExpiredActionResults ctx limit now =>
        exact .inr (cleanupExpiredActionResults_moved e.env)
    | _ => simp [hcall, Call.isAction] at haction
  · exact .inl (next_keepsJobs (by simpa using haction))

/-- Every stored job is sound. -/
def JobsSound (host : Host) (s : Store) : Prop := s.actionJobs.All (JobSound host)

/-- An idempotency entry leads to a job of its action and key. -/
def JobsLinked (s : Store) : Prop :=
  s.actionIdempotency.All fun entry id => ∃ job, s.actionJobs.get? ⟨entry.scope, id⟩ = some job ∧
    job.actionId = id ∧ job.action = entry.action ∧ job.idempotencyKey = entry.idempotencyKey

theorem queuedAction_sound {request : ActionRequest} {safeRequest : List (String × Json)}
    {actionId : String} {at_ : Instant} :
    JobSound host (key ctx actionId) (queuedAction host ctx request safeRequest actionId at_) where
  id := rfl
  live := fun _ => rfl
  inTime := fun hdone => by rcases hdone with hdone | hdone <;> cases hdone

theorem JobMove.jobsSound (h : JobMove host s t) (hs : JobsSound host s) : JobsSound host t := by
  cases h with
  | move hget hmoves hsound => exact hs.set (hsound (hs _ _ hget))

theorem next_jobsSound (hs : JobsSound host s) : JobsSound host (next host s e) := by
  rcases next_jobs host e s with hkept | haccepted | hmoved
  · unfold JobsSound
    rw [hkept.jobs]
    exact hs
  · generalize next host s e = t at haccepted
    cases haccepted with
    | kept => exact hs
    | queued at_ hcall => exact hs.set queuedAction_sound
    | reopened hcall hscope hprior hget hreopens hid hresult =>
        refine hs.set ⟨hid.trans (hs _ _ hget).id, fun _ => hresult, fun hdone => ?_⟩
        rw [hreopens.queued] at hdone
        rcases hdone with hdone | hdone <;> cases hdone
  · exact Runs.writes_invariant (I := JobsSound host) (fun _ _ ha hw => hw.jobsSound ha) hmoved hs

theorem priorAction_linked {request : ActionRequest} {id : String} (hs : JobsLinked s)
    (h : priorAction host ctx request s = some id) :
    ∃ job, s.actionJobs.get? (key ctx id) = some job ∧ job.action = request.action ∧
      job.idempotencyKey = request.idempotencyKey := by
  unfold priorAction at h
  split at h
  · rename_i found hfound
    obtain rfl := Option.some.inj h
    obtain ⟨job, hget, -, haction, hkey⟩ := hs _ _ hfound
    exact ⟨job, hget, haction, hkey⟩
  · split at h
    · cases h
    · rename_i legacyId hfound
      obtain ⟨job, hget, hid, haction, hkey⟩ := hs _ _ hfound
      obtain ⟨owned, howned, rfl⟩ := Option.map_eq_some_iff.mp h
      have hsame := (Option.filter_eq_some_iff.mp howned).1
      obtain rfl : job = owned := Option.some.inj (hget.symm.trans hsame)
      exact ⟨job, hid ▸ hget, haction, hkey⟩

theorem JobMove.jobsLinked (h : JobMove host s t) (hs : JobsLinked s) (hsound : JobsSound host s) :
    JobsLinked t := by
  intro entry id hentry
  cases h with
  | move hget hmoves hkeeps =>
      rename_i k old new
      obtain ⟨job, hjob, hid, haction, hkey⟩ := hs entry id hentry
      by_cases hk : k = ⟨entry.scope, id⟩
      · subst hk
        obtain rfl : old = job := Option.some.inj (hget.symm.trans hjob)
        exact ⟨new, Dict.get?_set_self _ _ _, (hkeeps (hsound _ _ hget)).id,
          hmoves.action.trans haction, hmoves.idempotencyKey.trans hkey⟩
      · exact ⟨job, (Dict.get?_set_ne _ _ hk).trans hjob, hid, haction, hkey⟩

theorem next_jobsLinked (hfresh : e.Fresh s) (hsound : JobsSound host s) (hs : JobsLinked s) :
    JobsLinked (next host s e) := by
  rcases next_jobs host e s with hkept | haccepted | hmoved
  · unfold JobsLinked
    rw [hkept.jobs, hkept.idempotency]
    exact hs
  · generalize next host s e = t at haccepted
    cases haccepted with
    | kept => exact hs
    | queued at_ hcall =>
        rename_i ctx request safeRequest
        have hnew : s.actionJobs.get? (key ctx (e.env.generatedId "act-" 24 0)) = none := by
          unfold Event.Fresh Event.isFresh at hfresh
          rw [hcall] at hfresh
          simpa [Dict.contains_eq_false] using hfresh
        refine Dict.All.set (fun entry id hentry => ?_) ⟨_, Dict.get?_set_self _ _ _, rfl, rfl, rfl⟩
        obtain ⟨job, hjob, hrest⟩ := hs entry id hentry
        exact ⟨job, Dict.get?_set_fresh hnew hjob, hrest⟩
    | reopened hcall hscope hprior hget hreopens hid hresult =>
        rename_i ctx request k old new
        intro entry id hentry
        obtain ⟨job, hjob, hsame, haction, hkey⟩ := hs entry id hentry
        by_cases hk : k = ⟨entry.scope, id⟩
        · subst hk
          obtain rfl : old = job := Option.some.inj (hget.symm.trans hjob)
          exact ⟨new, Dict.get?_set_self _ _ _, hid.trans hsame, hreopens.sameAction.trans haction,
            hreopens.sameKey.trans hkey⟩
        · exact ⟨job, (Dict.get?_set_ne _ _ hk).trans hjob, hsame, haction, hkey⟩
  · exact (Runs.writes_invariant (I := fun s => JobsSound host s ∧ JobsLinked s)
      (fun _ _ ha hw => ⟨hw.jobsSound ha.1, hw.jobsLinked ha.2 ha.1⟩) hmoved ⟨hsound, hs⟩).2

/-- What one call makes of a job: it moves on, or an acceptance under its own key queues
it again. -/
inductive JobStep (e : Event) (k : Key) (old new : ActionJobRecord) : Prop
  | moves (h : JobMoves old new)
  | reopens {ctx : ControlPlaneContext} {request : ActionRequest}
      (hcall : e.call = .acceptActionJob ctx request) (hscope : k.scope = ctx.scopeKey)
      (haction : request.action = old.action)
      (hkey : request.idempotencyKey = old.idempotencyKey) (h : JobReopens old new)

/-- Jobs stay, and each moves on. -/
def JobsMove (s t : Store) : Prop :=
  ∀ k old, s.actionJobs.get? k = some old → ∃ new, t.actionJobs.get? k = some new ∧ JobMoves old new

theorem JobsMove.refl (s : Store) : JobsMove s s := Dict.Evolves.refl JobMoves.refl _

theorem JobsMove.trans (h : JobsMove s t) (h' : JobsMove t u) : JobsMove s u :=
  Dict.Evolves.trans (fun _ _ _ => JobMoves.trans) h h'

theorem JobMove.jobsMove (h : JobMove host s t) : JobsMove s t := by
  cases h with
  | move hget hmoves hkeeps => exact Dict.Evolves.replace JobMoves.refl hget hmoves

theorem JobsMoved.jobsMove (h : JobsMoved host s t) : JobsMove s t :=
  Runs.writes_related (I := fun _ => True) .refl .trans (fun _ _ _ _ => trivial)
    (fun _ _ _ hw => hw.jobsMove) h trivial

theorem next_jobStep (hfresh : e.Fresh s) (hs : JobsLinked s) {old : ActionJobRecord}
    (hold : s.actionJobs.get? k = some old) :
    ∃ new, (next host s e).actionJobs.get? k = some new ∧ JobStep e k old new := by
  rcases next_jobs host e s with hkept | haccepted | hmoved
  · exact ⟨old, by rw [hkept.jobs, hold], .moves (.refl old)⟩
  · generalize next host s e = t at haccepted
    cases haccepted with
    | kept => exact ⟨old, hold, .moves (.refl old)⟩
    | queued at_ hcall =>
        refine ⟨old, (Dict.get?_set_ne _ _ fun hk => ?_).trans hold, .moves (.refl old)⟩
        unfold Event.Fresh Event.isFresh at hfresh
        rw [hcall] at hfresh
        simp [hk, Dict.contains_eq_false, hold] at hfresh
    | reopened hcall hscope hprior hget hreopens hid hresult =>
        rename_i ctx request k' found new
        by_cases hk : k' = k
        · subst hk
          obtain rfl : found = old := Option.some.inj (hget.symm.trans hold)
          obtain ⟨job, hjob, haction, hkey⟩ := priorAction_linked hs hprior
          have hown : key ctx k'.id = k' := by
            rw [key, ← hscope]
          rw [hown, hget, Option.some.injEq] at hjob
          subst hjob
          exact ⟨new, Dict.get?_set_self _ _ _, .reopens hcall hscope haction.symm hkey.symm hreopens⟩
        · exact ⟨old, (Dict.get?_set_ne _ _ hk).trans hold, .moves (.refl old)⟩
  · obtain ⟨new, hnew, hmoves⟩ := hmoved.jobsMove k old hold
    exact ⟨new, hnew, .moves hmoves⟩

/-- A call under an older token changes nothing. -/
theorem stale_action (e : Event) {token : Int} {job : ActionJobRecord}
    (hfence : e.call.actionFence? = some (k, token)) (hget : s.actionJobs.get? k = some job)
    (hstale : token < job.fencingToken) : next host s e = s := by
  have hunheld : ∀ workerId current, holdsAction job workerId token current = false := by
    intro workerId current
    simp [holdsAction, hstale.ne']
  unfold next Event.outcome
  cases hcall : e.call with
  | heartbeatActionJob ctx actionId workerId fencingToken leaseSeconds now =>
      rw [hcall] at hfence
      obtain ⟨rfl, rfl⟩ := Prod.mk.inj (Option.some.inj hfence)
      simp only [Call.exec, Outcome.void_store, heartbeatActionJob, hget, hunheld]
      split <;> simp
  | markActionJobAccepting ctx actionId workerId fencingToken now =>
      rw [hcall] at hfence
      obtain ⟨rfl, rfl⟩ := Prod.mk.inj (Option.some.inj hfence)
      simp only [Call.exec, Outcome.void_store, markActionJobAccepting, hget, hunheld]
      split <;> simp
  | finishActionJob ctx actionId completion now =>
      rw [hcall] at hfence
      obtain ⟨rfl, rfl⟩ := Prod.mk.inj (Option.some.inj hfence)
      simp only [Call.exec, Outcome.void_store, finishActionJob, hget, hunheld, hstale.ne']
      split
      · rfl
      · split <;> simp
  | _ => simp [hcall, Call.actionFence?] at hfence

theorem JobMove.absent (h : JobMove host s t) (hs : s.actionJobs.get? k = none) :
    t.actionJobs.get? k = none := by
  cases h with
  | move hget hmoves hkeeps =>
      refine (Dict.get?_set_ne _ _ fun hk => ?_).trans hs
      rw [hk, hs] at hget
      cases hget

/-- A claim grants a job that was there, under a larger token. -/
theorem claimActionJob_granted (hs : JobsSound host s) {env : Env} {workerId : String}
    {leaseSeconds : Int} {now : Option Instant} {granted : ActionJobRecord}
    (h : (claimActionJob host env ctx workerId leaseSeconds now s).result = .ok (some granted)) :
    ∃ old, s.actionJobs.get? (key ctx granted.actionId) = some old ∧
      old.fencingToken < granted.fencingToken ∧
      (claimActionJob host env ctx workerId leaseSeconds now s).store.actionJobs.get?
        (key ctx granted.actionId) = some granted := by
  have hmoved : JobsMoved host s (sweptActions host env ctx now s).store :=
    sweptActions_moved env now
  have hswept : JobsSound host (sweptActions host env ctx now s).store :=
    Runs.writes_invariant (I := JobsSound host) (fun _ _ ha hw => hw.jobsSound ha) hmoved hs
  rcases claimActionJob_cases env workerId leaseSeconds now with
    ⟨-, hnone⟩ | ⟨-, hnone⟩ | ⟨k, row, hscope, hget, -, houtcome⟩
  · exact absurd h (hnone granted)
  · exact absurd h (hnone granted)
  · rw [houtcome] at h ⊢
    obtain rfl : claimedAction row workerId leaseSeconds (now.getD (env.now [0])) = granted :=
      Option.some.inj (Except.ok.inj h)
    have hk : key ctx (claimedAction row workerId leaseSeconds
        (now.getD (env.now [0]))).actionId = k := by
      rw [key, ← hscope]
      exact congrArg (Key.mk k.scope) (hswept k row hget).id
    rw [hk]
    cases hold : s.actionJobs.get? k with
    | none =>
        have hnone := Runs.writes_invariant (I := fun s => s.actionJobs.get? k = none)
          (fun _ _ ha hw => hw.absent ha) hmoved hold
        rw [hget] at hnone
        cases hnone
    | some old =>
        obtain ⟨later, hlater, hmoves⟩ := JobsMoved.jobsMove hmoved k old hold
        obtain rfl : row = later := Option.some.inj (hget.symm.trans hlater)
        refine ⟨old, rfl, ?_, Dict.get?_set_self _ _ _⟩
        exact Int.lt_add_one_of_le hmoves.token

/-! ## Runs -/

theorem reached_jobs {limit : Option Int} {es : List Event}
    (hrun : FreshRun host (Store.init limit) es) :
    JobsSound host (reached host limit es) ∧ JobsLinked (reached host limit es) :=
  Runs.invariant (I := fun s => JobsSound host s ∧ JobsLinked s)
    (fun _ _ hI hfresh => ⟨next_jobsSound hI.1, next_jobsLinked hfresh hI.1 hI.2⟩)
    ⟨Dict.all_empty _, Dict.all_empty _⟩ hrun

/-- Tokens never decrease, and settled jobs stay settled. -/
def JobsAdvance (s t : Store) : Prop :=
  ∀ k old, s.actionJobs.get? k = some old → ∃ new, t.actionJobs.get? k = some new ∧
    old.fencingToken ≤ new.fencingToken ∧
    (old.status = .succeeded ∨ old.status = .cancelled → new.status = old.status)

theorem JobsAdvance.trans (h : JobsAdvance s t) (h' : JobsAdvance t u) : JobsAdvance s u := by
  refine Dict.Evolves.trans ?_ h h'
  rintro old mid new ⟨htoken, hsettled⟩ ⟨htoken', hsettled'⟩
  refine ⟨htoken.trans htoken', fun hover => ?_⟩
  have hmiddle := hsettled hover
  exact (hsettled' (hmiddle.symm ▸ hover)).trans hmiddle

theorem JobStep.advance {old new : ActionJobRecord} (h : JobStep e k old new) :
    old.fencingToken ≤ new.fencingToken ∧
      (old.status = .succeeded ∨ old.status = .cancelled → new.status = old.status) := by
  cases h with
  | moves h =>
      refine ⟨h.token, fun hover => h.ended ?_⟩
      rcases hover with hover | hover <;> simp [isLiveAction, hover]
  | reopens hcall hscope haction hkey h =>
      refine ⟨le_of_eq h.token.symm, fun hover => ?_⟩
      rcases h.ended with hended | hended <;> simp [hended] at hover

theorem run_jobsAdvance {es : List Event} (hsound : JobsSound host s) (hlinked : JobsLinked s)
    (hrun : FreshRun host s es) : JobsAdvance s (run host s es) :=
  Runs.related (I := fun s => JobsSound host s ∧ JobsLinked s) (R := JobsAdvance)
    (fun _ _ old hold => ⟨old, hold, le_rfl, fun _ => rfl⟩) .trans
    (fun _ _ hI hfresh => ⟨next_jobsSound hI.1, next_jobsLinked hfresh hI.1 hI.2⟩)
    (fun _ _ hI hfresh _ _ hold => by
      obtain ⟨new, hnew, hstep⟩ := next_jobStep hfresh hI.2 hold
      exact ⟨new, hnew, hstep.advance⟩)
    ⟨hsound, hlinked⟩ hrun

/-- Every claim grants a larger token; tokens never decrease, and a job that is over
stays as it is, unless an acceptance under its own key queues a provisioning job again
that timed out or failed without a result; a call under an older token changes nothing;
a job succeeds or fails in time; and a live job holds no result. -/
theorem action_jobs (host : Host) (limit : Option Int) (es : List Event)
    (hrun : FreshRun host (Store.init limit) es) :
    (∀ env ctx workerId leaseSeconds now granted,
      (claimActionJob host env ctx workerId leaseSeconds now (reached host limit es)).result =
        .ok (some granted) →
      ∃ old, (reached host limit es).actionJobs.get? (key ctx granted.actionId) = some old ∧
        old.fencingToken < granted.fencingToken ∧
        (claimActionJob host env ctx workerId leaseSeconds now
          (reached host limit es)).store.actionJobs.get? (key ctx granted.actionId) =
            some granted) ∧
    (∀ e, e.Fresh (reached host limit es) → ∀ k old,
      (reached host limit es).actionJobs.get? k = some old →
      old.status = .succeeded ∨ old.status = .failed ∨ old.status = .timedOut ∨
        old.status = .cancelled →
      ∃ new, (reached host limit (es ++ [e])).actionJobs.get? k = some new ∧
        (new.status = old.status ∨ new.status = .queued ∧
          (old.action = "connector.provision" ∨ old.action = "connector.provision.cleanup") ∧
          (old.status = .timedOut ∨ old.status = .failed) ∧ old.resultJson = none ∧
          ∃ ctx request, e.call = .acceptActionJob ctx request ∧ k.scope = ctx.scopeKey ∧
            request.action = old.action ∧ request.idempotencyKey = old.idempotencyKey)) ∧
    (∀ es', FreshRun host (reached host limit es) es' → ∀ k old,
      (reached host limit es).actionJobs.get? k = some old →
      ∃ new, (reached host limit (es ++ es')).actionJobs.get? k = some new ∧
        old.fencingToken ≤ new.fencingToken ∧
        (old.status = .succeeded ∨ old.status = .cancelled → new.status = old.status)) ∧
    (∀ e k token job, e.call.actionFence? = some (k, token) →
      (reached host limit es).actionJobs.get? k = some job → token < job.fencingToken →
        reached host limit (es ++ [e]) = reached host limit es) ∧
    (∀ k job, (reached host limit es).actionJobs.get? k = some job →
      job.status = .succeeded ∨ job.status = .failed → CompletedInTime host job) ∧
    ∀ k job, (reached host limit es).actionJobs.get? k = some job →
      job.status = .queued ∨ job.status = .running ∨ job.status = .cancelRequested →
        job.resultJson = none := by
  obtain ⟨hsound, hlinked⟩ := reached_jobs hrun
  refine ⟨fun env ctx workerId leaseSeconds now granted hgranted =>
      claimActionJob_granted hsound hgranted, fun e hfresh k old hold hover => ?_,
    fun es' hrun' => ?_, fun e k token job hfence hget hstale => ?_,
    fun k job hget => (hsound k job hget).inTime,
    fun k job hget hlive => (hsound k job hget).live (isLiveAction_iff.mpr hlive)⟩
  · obtain ⟨new, hnew, hstep⟩ := next_jobStep hfresh hlinked hold
    rw [reached_append]
    refine ⟨new, hnew, ?_⟩
    cases hstep with
    | moves h =>
        refine .inl (h.ended ?_)
        rcases hover with hover | hover | hover | hover <;> simp [isLiveAction, hover]
    | reopens hcall hscope haction hkey h =>
        exact .inr ⟨h.queued, h.action, h.ended, h.unreceipted, _, _, hcall, hscope, haction, hkey⟩
  · rw [reached_append]
    exact run_jobsAdvance hsound hlinked hrun'
  · rw [reached_append]
    exact stale_action e hfence hget hstale

section Sample

/-- A provisioning action. -/
def sampleAction (deadlineAt : String) : ActionRequest where
  action := "connector.provision"
  idempotencyKey := "provision-1"
  request := []
  deadlineAt := deadlineAt

/-- The first worker loses its lease, and a second one claims the job. -/
def reclaimedAction : List Event :=
  [⟨sampleEnv 'a' 0, .acceptActionJob sampleContext (sampleAction "1970-01-02T00:00:00+00:00")⟩,
    ⟨sampleEnv 'b' 1, .claimActionJob sampleContext "one" 60 none⟩,
    ⟨sampleEnv 'c' 100, .claimActionJob sampleContext "two" 60 none⟩]

/-- The first worker reports on the job under its old token. -/
def staleReport : Event :=
  ⟨sampleEnv 'd' 101, .finishActionJob sampleContext "act-0aaaaaaaaaaa4aaa8aaaaaaa"
    ⟨"one", 1, "succeeded", some [], none, none⟩ none⟩

theorem action_jobs_reclaimed :
    reached previewHost none (reclaimedAction ++ [staleReport]) =
      reached previewHost none reclaimedAction := by
  have hsecond : ((reached previewHost none reclaimedAction).actionJobs.get?
      (key sampleContext "act-0aaaaaaaaaaa4aaa8aaaaaaa")).map ActionJobRecord.fencingToken =
        some 2 := by decide
  obtain ⟨job, hget, htoken⟩ := Option.map_eq_some_iff.mp hsecond
  exact (action_jobs previewHost none reclaimedAction (by decide)).2.2.2.1 staleReport _ 1
    job rfl hget (by omega)

end Sample

end Etlantic.ControlPlane.Durable
