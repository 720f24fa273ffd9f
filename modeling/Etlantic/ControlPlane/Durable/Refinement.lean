import Etlantic.ControlPlane.Durable.Writes

/-!
# The operations make nothing but writes

One lemma for each operation, each following the branches of its definition,
and their sum `outcome_writes`: the store a call leaves is reached from the
store it started in by writes of that call.
-/

namespace Etlantic.ControlPlane.Durable

variable {host : Host} {e : Event} {s : Store} {ctx : ControlPlaneContext}

/-! ## Calls outside the delivery of work -/

/-- `t` differs from `s` in the peripheral rows only. -/
def Peripheral (s t : Store) : Prop := t = s.withPeripheral t

theorem Peripheral.refl (s : Store) : Peripheral s s := rfl

theorem Peripheral.trans {s t u : Store} (h : Peripheral s t) (h' : Peripheral t u) :
    Peripheral s u := by
  unfold Peripheral at *
  rw [h', h]
  rfl

theorem Peripheral.writes {s₀ s t : Store} (h : Peripheral s t) : Writes host e s₀ s t := by
  rw [h]
  exact .single .peripheral

theorem compareAndSwapCheckpoint_peripheral (env : Env) (swap : CheckpointSwap) :
    Peripheral s (compareAndSwapCheckpoint env ctx swap s).store := by
  unfold compareAndSwapCheckpoint
  dsimp only
  repeat' split
  all_goals rfl

theorem diagnoseCheckpoint_peripheral (env : Env) (checkpointId kind detail : String) :
    Peripheral s (diagnoseCheckpoint host env ctx checkpointId kind detail s).store := by
  unfold diagnoseCheckpoint
  dsimp only
  repeat' split
  all_goals rfl

theorem acknowledgeBaseline_peripheral (env : Env) (baselineId fingerprint : String)
    (version : Option Int) (submissionId : Option String) :
    Peripheral s
      (acknowledgeBaseline env ctx baselineId fingerprint version submissionId s).store := by
  unfold acknowledgeBaseline
  dsimp only
  repeat' split
  all_goals rfl

theorem createPreview_peripheral (env : Env) (preview : PreviewWorkspace) :
    Peripheral s (createPreview host env ctx preview s).store := by
  unfold createPreview
  dsimp only
  repeat' split
  all_goals rfl

theorem markPreviewStale_peripheral (previewId : String) (given : PreviewFingerprints) :
    Peripheral s (markPreviewStale ctx previewId given s).store := by
  unfold markPreviewStale
  dsimp only
  repeat' split
  all_goals rfl

theorem recordPreviewDiff_peripheral (diff : DiffRecord) :
    Peripheral s (recordPreviewDiff ctx diff s).store := by
  unfold recordPreviewDiff
  repeat' split
  all_goals rfl

theorem cleanupPreviewRows_peripheral (now : Instant) (scope : Scope) :
    ∀ (rows : List (Key × PreviewWorkspace)) (cleaned : List PreviewWorkspace) (s : Store),
      Peripheral s (cleanupPreviewRows host now scope rows cleaned s).store
  | [], _, s => Peripheral.refl s
  | (k, preview) :: rest, cleaned, s => by
      unfold cleanupPreviewRows
      repeat' split
      · rfl
      · exact cleanupPreviewRows_peripheral now scope rest _ s
      · refine Peripheral.trans ?_ (cleanupPreviewRows_peripheral now scope rest _ _)
        rfl
      · exact cleanupPreviewRows_peripheral now scope rest _ s

theorem acceptActionJob_peripheral (env : Env) (request : ActionRequest) :
    Peripheral s (acceptActionJob host env ctx request s).store := by
  unfold acceptActionJob
  dsimp only
  repeat' split
  all_goals rfl

theorem cancelActionJob_peripheral (env : Env) (actionId : String) :
    Peripheral s (cancelActionJob host env ctx actionId s).store := by
  unfold cancelActionJob
  dsimp only
  repeat' split
  all_goals rfl

theorem sweepActions_peripheral (current : Instant) (scope : Scope) :
    ∀ (rows : List (Key × ActionJobRecord)) (s : Store),
      Peripheral s (sweepActions host current scope rows s).store
  | [], s => Peripheral.refl s
  | (k, row) :: rest, s => by
      unfold sweepActions
      repeat' split
      · refine Peripheral.trans ?_ (sweepActions_peripheral current scope rest _)
        rfl
      · rfl
      · exact sweepActions_peripheral current scope rest s
      · refine Peripheral.trans ?_ (sweepActions_peripheral current scope rest _)
        rfl
      · exact sweepActions_peripheral current scope rest s

theorem claimActionJob_peripheral (env : Env) (workerId : String) (leaseSeconds : Int)
    (now : Option Instant) :
    Peripheral s (claimActionJob host env ctx workerId leaseSeconds now s).store := by
  have hsweep : Peripheral s (sweepActions host (now.getD (env.now [0])) ctx.scopeKey
      s.actionJobs.entries s).store := sweepActions_peripheral _ _ _ _
  unfold claimActionJob
  split
  · rfl
  · dsimp only
    split
    · exact hsweep
    · split
      · exact hsweep
      · exact hsweep
      · exact hsweep.trans rfl

theorem heartbeatActionJob_peripheral (env : Env) (actionId workerId : String)
    (fencingToken leaseSeconds : Int) (now : Option Instant) :
    Peripheral s
      (heartbeatActionJob env ctx actionId workerId fencingToken leaseSeconds now s).store := by
  unfold heartbeatActionJob
  dsimp only
  repeat' split
  all_goals rfl

theorem markActionJobAccepting_peripheral (env : Env) (actionId workerId : String)
    (fencingToken : Int) (now : Option Instant) :
    Peripheral s (markActionJobAccepting env ctx actionId workerId fencingToken now s).store := by
  unfold markActionJobAccepting
  dsimp only
  repeat' split
  all_goals rfl

theorem finishActionJob_peripheral (env : Env) (actionId : String)
    (completion : ActionCompletion) (now : Option Instant) :
    Peripheral s (finishActionJob host env ctx actionId completion now s).store := by
  unfold finishActionJob
  dsimp only
  repeat' split
  all_goals rfl

theorem cleanupExpiredActionResults_peripheral (env : Env) (limit : Int) (now : Option Instant) :
    Peripheral s (cleanupExpiredActionResults env ctx limit now s).store := by
  unfold cleanupExpiredActionResults
  split
  · rfl
  · rfl

/-! ## Acceptance and the outbox -/

theorem AcceptRequest.route_valid {request : AcceptRequest} (h : request.invalid = none) :
    isExecutionRoute request.executionRoute = true := by
  unfold AcceptRequest.invalid at h
  split_ifs at h with _ _ _ _ _ hroute
  simpa using hroute

theorem replayAccept_store (requested : RequestedInputs) (request : AcceptRequest)
    (existingId : String) (prior : SubmissionRecord) :
    (replayAccept requested request existingId prior s).store = s := by
  unfold replayAccept
  repeat' split
  all_goals rfl

theorem accept_writes {request : AcceptRequest} (hcall : e.call = .accept ctx request) :
    Writes host e s s (accept host e.env ctx request s).store := by
  unfold accept
  split
  · exact .refl
  · rename_i hvalid
    have hroute := AcceptRequest.route_valid hvalid
    split
    · split
      · exact .refl
      · rw [replayAccept_store]
    · rename_i hidem
      dsimp only
      split
      · exact .refl
      · rename_i hactive
        split
        · exact .refl
        · rename_i hlimit
          rw [ne_eq, not_not] at hactive
          rw [Bool.not_eq_true] at hlimit
          split
          · rename_i hnone
            exact .single (.accept hcall (.inr ⟨hnone, rfl⟩) (by simp [hnone]) hidem hroute hactive
              hlimit)
          · rename_i submissionId hsome
            split
            · exact .refl
            · rename_i hnew
              rw [Bool.not_eq_true, Dict.contains_eq_false] at hnew
              exact .single (.accept hcall (.inl hsome) (fun _ => hnew) hidem hroute hactive hlimit)

theorem markPublished_writes {outboxId : String} (hcall : e.call = .markPublished ctx outboxId) :
    Writes host e s s (markPublished e.env ctx outboxId s).store := by
  unfold markPublished
  split
  · exact .refl
  · rename_i row hrow
    split
    · exact .refl
    · rename_i hunpublished
      rw [ne_eq, not_not] at hunpublished
      dsimp only
      split
      · rename_i hnone
        have hmissing : s.submissions.get? ⟨ctx.scopeKey, row.submissionId⟩ = none := hnone
        exact .single (.acknowledge _ hrow hunpublished
          (.published hcall rfl rfl (by simp [key, hmissing])))
      · rename_i submission hsome
        have hget : s.submissions.get? ⟨ctx.scopeKey, row.submissionId⟩ = some submission := hsome
        split
        · rename_i haccepted
          exact .single (.publish hcall rfl hrow hunpublished hget haccepted)
        · rename_i haccepted
          exact .single (.acknowledge _ hrow hunpublished
            (.published hcall rfl rfl (by simp [key, hget, haccepted])))

theorem unpublishedRows_mem {scope : Scope} {k : Key} {row : OutboxRecord}
    (h : (k, row) ∈ unpublishedRows s scope) :
    k.scope = scope ∧ s.outbox.get? k = some row ∧ row.publishedAt = none := by
  unfold unpublishedRows at h
  rw [List.mem_insertionSort, List.mem_filter] at h
  obtain ⟨hmem, hcond⟩ := h
  simp only [Bool.and_eq_true, decide_eq_true_eq] at hcond
  exact ⟨hcond.1, Dict.mem_entries_iff.mp hmem, hcond.2⟩

theorem unpublishedRows_nodup (scope : Scope) :
    ((unpublishedRows s scope).map Prod.fst).Nodup := by
  unfold unpublishedRows
  refine (List.Perm.map _ (List.perm_insertionSort _ _)).nodup_iff.mpr ?_
  exact s.outbox.nodup.sublist (List.filter_sublist.map _)

theorem reconcileTerminalRows_writes {limit : Int} {s₀ : Store}
    (hcall : e.call = .reconcileTerminalOutbox ctx limit) :
    ∀ (rows : List (Key × OutboxRecord)) (done : List OutboxRecord) (s : Store),
      s.submissions = s₀.submissions → s.dispatches = s₀.dispatches →
      (rows.map Prod.fst).Nodup →
      (∀ k row, (k, row) ∈ rows →
        k.scope = ctx.scopeKey ∧ s.outbox.get? k = some row ∧ row.publishedAt = none) →
      (∀ e, e ∈ (rows.filter (isTerminalRow s₀ ctx.scopeKey)).take (limit.toNat - done.length) →
        e ∈ terminalRows s₀ ctx.scopeKey limit) →
      Writes host e s₀ s (reconcileTerminalRows e.env ctx.scopeKey limit rows done s).2
  | [], _, s, _, _, _, _, _ => .refl
  | (k, row) :: rest, done, s, hsub, hdisp, hnodup, hrows, hwithin => by
      obtain ⟨hscope, hrow, hunpublished⟩ := hrows k row List.mem_cons_self
      have hskip := fun hother : isTerminalRow s₀ ctx.scopeKey (k, row) = false =>
        reconcileTerminalRows_writes hcall rest done s hsub hdisp (List.nodup_cons.mp hnodup).2
          (fun k' row' hmem => hrows k' row' (List.mem_cons_of_mem _ hmem))
          (by rwa [List.filter_cons_of_neg (by simp [hother])] at hwithin)
      unfold reconcileTerminalRows
      split
      · exact .refl
      · rename_i hlimit
        split
        · rename_i hmissing
          exact hskip (by simp [isTerminalRow, ← hsub, hmissing])
        · rename_i submission hget
          split
          · rename_i hlive
            exact hskip (by simp [isTerminalRow, ← hsub, hget, hlive])
          · rename_i hterminal
            rw [Bool.not_eq_false] at hterminal
            have hmine : isTerminalRow s₀ ctx.scopeKey (k, row) = true := by
              simp [isTerminalRow, ← hsub, hget, hterminal]
            obtain ⟨budget, hbudget⟩ : ∃ n, limit.toNat - done.length = n + 1 :=
              ⟨limit.toNat - done.length - 1, by omega⟩
            rw [List.filter_cons_of_pos hmine, hbudget, List.take_succ_cons] at hwithin
            refine .head (.acknowledge (e.env.now [done.length]) hrow hunpublished (.terminal hcall
              hscope (hwithin _ List.mem_cons_self) (hscope ▸ hget) hterminal hsub hdisp)) ?_
            refine reconcileTerminalRows_writes hcall rest _ _ hsub hdisp
              (List.nodup_cons.mp hnodup).2 (fun k' row' hmem => ?_) fun e hmem => ?_
            · obtain ⟨hscope', hrow', hunpublished'⟩ := hrows k' row' (List.mem_cons_of_mem _ hmem)
              exact ⟨hscope', (Dict.get?_set_of_mem_tail hnodup hmem).trans hrow', hunpublished'⟩
            · refine hwithin e (List.mem_cons_of_mem _ ?_)
              rwa [List.length_append, List.length_singleton, ← Nat.sub_sub, hbudget,
                Nat.add_sub_cancel] at hmem

theorem reconcileTerminalOutbox_writes {limit : Int}
    (hcall : e.call = .reconcileTerminalOutbox ctx limit) :
    Writes host e s s (reconcileTerminalOutbox e.env ctx limit s).store :=
  reconcileTerminalRows_writes hcall _ _ s rfl rfl (unpublishedRows_nodup _)
    (fun _ _ hmem => unpublishedRows_mem hmem) fun _ hmem => hmem

/-- The acknowledgement loop of a finalized cancellation. -/
theorem ackRows_writes {s₀ : Store} {k : Key} {submission : SubmissionRecord}
    (at_ : Nat → Instant) (hcancelled : submission.status = .cancelled) :
    ∀ (n : Nat) (rows : List (Key × OutboxRecord)) (s : Store),
      s.submissions.get? k = some submission →
      (∀ d, s.dispatches.get? k = some d → d.status ≠ .uncertain ∨ d.prefectFlowRunId ≠ none) →
      (rows.map Prod.fst).Nodup → (∀ k' row, (k', row) ∈ rows → s.outbox.get? k' = some row) →
      Writes host e s₀ s (ackRows at_ k.scope k.id n rows s)
  | _, [], s, _, _, _, _ => .refl
  | n, (k', row) :: rest, s, hget, hresolved, hnodup, hrows => by
      unfold ackRows
      split
      · rename_i hmatch
        obtain ⟨hscope, hid, hunpublished⟩ := hmatch
        have hk : (⟨k'.scope, row.submissionId⟩ : Key) = k := by rw [hscope, hid]
        refine .head (.acknowledge (at_ n) (hrows k' row List.mem_cons_self) hunpublished
          (.cancelled (hk ▸ hget) hcancelled (hk ▸ hresolved))) ?_
        refine ackRows_writes at_ hcancelled (n + 1) rest _ hget hresolved
          (List.nodup_cons.mp hnodup).2 fun k'' row' hmem => ?_
        exact (Dict.get?_set_of_mem_tail hnodup hmem).trans
          (hrows k'' row' (List.mem_cons_of_mem _ hmem))
      · exact ackRows_writes at_ hcancelled n rest s hget hresolved
          (List.nodup_cons.mp hnodup).2 fun k'' row' hmem =>
            hrows k'' row' (List.mem_cons_of_mem _ hmem)

theorem ackRows_frame (at_ : Nat → Instant) (scope : Scope) (submissionId : String) :
    ∀ (n : Nat) (rows : List (Key × OutboxRecord)) (s : Store),
      ∃ outbox, ackRows at_ scope submissionId n rows s = { s with outbox := outbox }
  | _, [], s => ⟨s.outbox, rfl⟩
  | n, (k', row) :: rest, s => by
      unfold ackRows
      split
      · obtain ⟨outbox, h⟩ := ackRows_frame at_ scope submissionId (n + 1) rest
          { s with outbox := s.outbox.set k' (row.acknowledge (at_ n)) }
        exact ⟨outbox, h⟩
      · exact ackRows_frame at_ scope submissionId n rest s

theorem cancelSubmission_writes {submissionId : String}
    (hcall : e.call = .cancelSubmission ctx submissionId) :
    Writes host e s s (cancelSubmission e.env ctx submissionId s).store := by
  unfold cancelSubmission
  dsimp only
  split
  · exact .refl
  · rename_i submission hget
    split
    · exact .refl
    · rename_i hterminal
      rw [Bool.not_eq_true] at hterminal
      have hfirst : Writes host e s s (requestCancellation (key ctx submissionId) submission s) := by
        unfold requestCancellation
        split
        · exact .refl
        · exact .single (.requestCancel hcall rfl hget hterminal)
      split
      · exact hfirst
      · rename_i lease hlease
        split
        · exact hfirst.tail (.touchLease hlease rfl rfl rfl rfl)
        · exact hfirst

/-! ## Leases -/

theorem acquireLease_writes {submissionId ownerId : String} {ttlSeconds : Int} :
    Writes host e s s (acquireLease e.env ctx submissionId ownerId ttlSeconds s).store := by
  unfold acquireLease
  dsimp only
  split
  · exact .refl
  · split
    · exact .refl
    · rename_i submission hget
      split
      · exact .refl
      · rename_i heligible
        split
        · exact .refl
        · rename_i hother
          rw [Bool.not_eq_true] at heligible hother
          exact .single (.grantLease (show _ = ctx.scopeKey from rfl) hget heligible rfl rfl rfl hother)

theorem heartbeat_writes {submissionId ownerId : String} {fencingToken ttlSeconds : Int} :
    Writes host e s s
      (heartbeat e.env ctx submissionId ownerId fencingToken ttlSeconds s).store := by
  unfold heartbeat
  dsimp only
  split
  · exact .refl
  · split
    · exact .refl
    · split
      · exact .refl
      · split
        · exact .refl
        · rename_i old hlease
          exact .single (.touchLease (Store.requireLease_eq_ok.mp hlease).1 rfl rfl rfl rfl)

theorem releaseLease_writes {submissionId ownerId : String} {fencingToken : Int} :
    Writes host e s s (releaseLease e.env ctx submissionId ownerId fencingToken s).store := by
  unfold releaseLease
  dsimp only
  split
  · exact .refl
  · rename_i old hlease
    exact .single (.touchLease (Store.requireLease_eq_ok.mp hlease).1 rfl rfl rfl rfl)

/-! ## Loops over the attempts of a submission -/

theorem isRunningAttemptOf_eq_true {k attemptKey : Key} {attempt : AttemptRecord} :
    isRunningAttemptOf k attemptKey attempt = true ↔
      attemptKey.scope = k.scope ∧ attempt.submissionId = k.id ∧ attempt.status = .running := by
  simp [isRunningAttemptOf, and_assoc]

theorem hasRunningAttempt_eq_false {k : Key} :
    s.hasRunningAttempt k = false ↔
      ∀ attemptKey attempt, s.attempts.get? attemptKey = some attempt →
        isRunningAttemptOf k attemptKey attempt = false :=
  Dict.any_eq_false

theorem hasRunningAttempt_eq_true {k : Key} :
    s.hasRunningAttempt k = true ↔
      ∃ attemptKey attempt, s.attempts.get? attemptKey = some attempt ∧
        isRunningAttemptOf k attemptKey attempt = true :=
  Dict.any_eq_true

/-- What a loop that loses running attempts of `k` did so far. -/
structure LostAttempts (host : Host) (e : Event) (s₀ : Store) (k : Key) (s t : Store) : Prop where
  writes : Writes host e s₀ s t
  frame : t = { s with attempts := t.attempts }
  kept : ∀ attemptKey attempt, s.attempts.get? attemptKey = some attempt →
    isRunningAttemptOf k attemptKey attempt = false → t.attempts.get? attemptKey = some attempt
  origin : ∀ attemptKey attempt, t.attempts.get? attemptKey = some attempt →
    attempt.status = .running → s.attempts.get? attemptKey = some attempt

theorem LostAttempts.refl (s₀ : Store) (k : Key) (s : Store) : LostAttempts host e s₀ k s s where
  writes := .refl
  frame := rfl
  kept := fun _ _ h _ => h
  origin := fun _ _ h _ => h

/-- One more attempt is lost, before the rest of the loop. -/
theorem LostAttempts.lose {s₀ s t : Store} {k attemptKey : Key} {attempt : AttemptRecord}
    {at_ : Instant} (hget : s.attempts.get? attemptKey = some attempt)
    (hmine : isRunningAttemptOf k attemptKey attempt = true)
    (h : LostAttempts host e s₀ k
      { s with attempts := s.attempts.set attemptKey (attempt.finish .lost at_) } t) :
    LostAttempts host e s₀ k s t where
  writes := .head (.loseAttempt hget (isRunningAttemptOf_eq_true.mp hmine).2.2) h.writes
  frame := h.frame
  kept := by
    intro otherKey other hother hnot
    refine h.kept otherKey other ?_ hnot
    refine (Dict.get?_set_ne _ _ fun heq => ?_).trans hother
    subst heq
    rw [hget, Option.some.injEq] at hother
    subst hother
    rw [hmine] at hnot
    exact absurd hnot (by decide)
  origin := by
    intro otherKey other hother hrunning
    have hbefore := h.origin otherKey other hother hrunning
    rcases Dict.get?_set_eq_some.mp hbefore with ⟨-, hlost⟩ | ⟨-, hsame⟩
    · rw [← hlost] at hrunning
      exact absurd hrunning (by simp)
    · exact hsame

theorem LostAttempts.hasRunningAttempt_ne {s₀ s t : Store} {k k' : Key} (hne : k ≠ k')
    (h : LostAttempts host e s₀ k s t) : t.hasRunningAttempt k' = s.hasRunningAttempt k' := by
  rw [Bool.eq_iff_iff, hasRunningAttempt_eq_true, hasRunningAttempt_eq_true]
  constructor
  · rintro ⟨attemptKey, attempt, hget, hmine⟩
    exact ⟨attemptKey, attempt,
      h.origin _ _ hget (isRunningAttemptOf_eq_true.mp hmine).2.2, hmine⟩
  · rintro ⟨attemptKey, attempt, hget, hmine⟩
    refine ⟨attemptKey, attempt, h.kept _ _ hget ?_, hmine⟩
    obtain ⟨hscope, hid, -⟩ := isRunningAttemptOf_eq_true.mp hmine
    rw [Bool.eq_false_iff, ne_eq, isRunningAttemptOf_eq_true]
    rintro ⟨hscope', hid', -⟩
    refine hne ?_
    cases k
    cases k'
    simp_all

/-- The rows of a loop are the attempts as the loop finds them. -/
def AttemptRows (s : Store) (rows : List (Key × AttemptRecord)) : Prop :=
  (rows.map Prod.fst).Nodup ∧
    ∀ attemptKey attempt, (attemptKey, attempt) ∈ rows →
      s.attempts.get? attemptKey = some attempt

theorem AttemptRows.all (s : Store) : AttemptRows s s.attempts.entries :=
  ⟨s.attempts.nodup, fun _ _ h => Dict.mem_entries_iff.mp h⟩

theorem AttemptRows.tail {attemptKey : Key} {attempt : AttemptRecord}
    {rest : List (Key × AttemptRecord)} (h : AttemptRows s ((attemptKey, attempt) :: rest)) :
    AttemptRows s rest :=
  ⟨(List.nodup_cons.mp h.1).2, fun k a hmem => h.2 k a (List.mem_cons_of_mem _ hmem)⟩

theorem AttemptRows.set_tail {attemptKey : Key} {attempt lost : AttemptRecord}
    {rest : List (Key × AttemptRecord)} (h : AttemptRows s ((attemptKey, attempt) :: rest)) :
    AttemptRows { s with attempts := s.attempts.set attemptKey lost } rest :=
  ⟨h.tail.1, fun k a hmem =>
    (Dict.get?_set_of_mem_tail h.1 hmem).trans (h.tail.2 k a hmem)⟩

theorem loseOlderAttempts_lost {s₀ : Store} (at_ : Nat → Instant) (k : Key)
    (fencingToken : Int) : ∀ (n : Nat) (rows : List (Key × AttemptRecord)) (s : Store),
      AttemptRows s rows →
      LostAttempts host e s₀ k s (loseOlderAttempts at_ k fencingToken n rows s).store
  | _, [], s, _ => .refl s₀ k s
  | n, (attemptKey, attempt) :: rest, s, h => by
      unfold loseOlderAttempts
      split
      · rename_i hmine
        split
        · exact .refl s₀ k s
        · exact .lose (h.2 _ _ List.mem_cons_self) hmine
            (loseOlderAttempts_lost at_ k fencingToken (n + 1) rest _ h.set_tail)
      · exact loseOlderAttempts_lost at_ k fencingToken n rest s h.tail

theorem loseRunningAttempts_lost {s₀ : Store} (now : Instant) (k : Key) :
    ∀ (rows : List (Key × AttemptRecord)) (s : Store), AttemptRows s rows →
      LostAttempts host e s₀ k s (loseRunningAttempts now k rows s)
  | [], s, _ => .refl s₀ k s
  | (attemptKey, attempt) :: rest, s, h => by
      unfold loseRunningAttempts
      split
      · rename_i hmine
        exact .lose (h.2 _ _ List.mem_cons_self) hmine
          (loseRunningAttempts_lost now k rest _ h.set_tail)
      · exact loseRunningAttempts_lost now k rest s h.tail

section Swept

variable {k rowKey attemptKey : Key} {row attempt : AttemptRecord}
  {rest : List (Key × AttemptRecord)}

/-- A running attempt of `k` is not a row the loop passed over. -/
theorem not_skipped (h : AttemptRows s ((rowKey, row) :: rest))
    (hrow : ¬ isRunningAttemptOf k rowKey row = true)
    (hmine : isRunningAttemptOf k attemptKey attempt = true)
    (hbefore : s.attempts.get? attemptKey = some attempt) : attemptKey ≠ rowKey := by
  rintro rfl
  have hsame := h.2 attemptKey row List.mem_cons_self
  rw [hbefore, Option.some.injEq] at hsame
  exact hrow (hsame ▸ hmine)

/-- A running attempt of `k` is not a row the loop has just lost. -/
theorem not_lost {at_ : Instant} (hmine : isRunningAttemptOf k attemptKey attempt = true)
    (hafter : (s.attempts.set rowKey (row.finish .lost at_)).get? attemptKey = some attempt) :
    attemptKey ≠ rowKey ∧ s.attempts.get? attemptKey = some attempt := by
  rcases Dict.get?_set_eq_some.mp hafter with ⟨-, hlost⟩ | ⟨hne, hsame⟩
  · have hrunning := (isRunningAttemptOf_eq_true.mp hmine).2.2
    rw [← hlost] at hrunning
    exact absurd hrunning (by simp)
  · exact ⟨hne.symm, hsame⟩

/-- A running attempt of `k` after the loop is not one of its rows. -/
theorem loseOlderAttempts_swept (at_ : Nat → Instant) (fencingToken : Int)
    (hmine : isRunningAttemptOf k attemptKey attempt = true) :
    ∀ (n : Nat) (rows : List (Key × AttemptRecord)) (s : Store), AttemptRows s rows →
      (loseOlderAttempts at_ k fencingToken n rows s).succeeded = true →
      (loseOlderAttempts at_ k fencingToken n rows s).store.attempts.get? attemptKey =
        some attempt →
      attemptKey ∉ rows.map Prod.fst ∧ s.attempts.get? attemptKey = some attempt
  | _, [], _, _, _, hget => ⟨List.not_mem_nil, hget⟩
  | n, (_, _) :: rest, s, h, hok, hget => by
      unfold loseOlderAttempts at hok hget
      split at hok
      · rename_i hrow
        rw [if_pos hrow] at hget
        split at hok
        · cases hok
        · rename_i holder
          rw [if_neg holder] at hget
          obtain ⟨hnot, hafter⟩ := loseOlderAttempts_swept at_ fencingToken hmine (n + 1) rest _
            h.set_tail hok hget
          obtain ⟨hne, hbefore⟩ := not_lost hmine hafter
          exact ⟨List.not_mem_cons_of_ne_of_not_mem hne hnot, hbefore⟩
      · rename_i hrow
        rw [if_neg hrow] at hget
        obtain ⟨hnot, hbefore⟩ := loseOlderAttempts_swept at_ fencingToken hmine n rest s
          h.tail hok hget
        exact ⟨List.not_mem_cons_of_ne_of_not_mem (not_skipped h hrow hmine hbefore) hnot, hbefore⟩

theorem loseRunningAttempts_swept (now : Instant)
    (hmine : isRunningAttemptOf k attemptKey attempt = true) :
    ∀ (rows : List (Key × AttemptRecord)) (s : Store), AttemptRows s rows →
      (loseRunningAttempts now k rows s).attempts.get? attemptKey = some attempt →
      attemptKey ∉ rows.map Prod.fst ∧ s.attempts.get? attemptKey = some attempt
  | [], _, _, hget => ⟨List.not_mem_nil, hget⟩
  | (_, _) :: rest, s, h, hget => by
      unfold loseRunningAttempts at hget
      split at hget
      · obtain ⟨hnot, hafter⟩ := loseRunningAttempts_swept now hmine rest _ h.set_tail hget
        obtain ⟨hne, hbefore⟩ := not_lost hmine hafter
        exact ⟨List.not_mem_cons_of_ne_of_not_mem hne hnot, hbefore⟩
      · rename_i hrow
        obtain ⟨hnot, hbefore⟩ := loseRunningAttempts_swept now hmine rest s h.tail hget
        exact ⟨List.not_mem_cons_of_ne_of_not_mem (not_skipped h hrow hmine hbefore) hnot, hbefore⟩

end Swept

/-- A sweep over all attempts leaves no running attempt of `k`. -/
theorem hasRunningAttempt_of_swept {t : Store} {k : Key}
    (h : ∀ attemptKey attempt, t.attempts.get? attemptKey = some attempt →
      isRunningAttemptOf k attemptKey attempt = true →
      attemptKey ∉ s.attempts.entries.map Prod.fst ∧ s.attempts.get? attemptKey = some attempt) :
    t.hasRunningAttempt k = false := by
  rw [hasRunningAttempt_eq_false]
  intro attemptKey attempt hget
  by_contra hmine
  obtain ⟨hnot, hbefore⟩ := h attemptKey attempt hget (by simpa using hmine)
  exact hnot (List.mem_map_of_mem (f := Prod.fst) (Dict.mem_entries_iff.mpr hbefore))

/-! ## Attempts, publications and effects -/

theorem startAttempt_writes {submissionId ownerId : String} {fencingToken : Int}
    {context : List (String × Json)} :
    Writes host e s s
      (startAttempt host e.env ctx submissionId ownerId fencingToken context s).store := by
  unfold startAttempt
  dsimp only
  split
  · exact .refl
  · rename_i lease hfence
    obtain ⟨hlease, howner, htoken, -⟩ := Store.requireLease_eq_ok.mp hfence
    split
    · exact .refl
    · rename_i submission hget
      split
      · exact .refl
      · rename_i hrequested
        split
        · exact .refl
        · rename_i hterminal
          have heligible : submission.status.isIneligible = false := by
            revert hrequested hterminal
            cases submission.status <;> decide
          have hlost : LostAttempts host e s (key ctx submissionId) s
              (loseOlderAttempts (fun n => e.env.now [1, n]) (key ctx submissionId) fencingToken 0
                s.attempts.entries s).store :=
            loseOlderAttempts_lost _ _ _ _ _ _ (AttemptRows.all s)
          have hsubmissions := congrArg Store.submissions hlost.frame
          have hleases := congrArg Store.leases hlost.frame
          split
          · exact hlost.writes
          · rename_i hok
            refine hlost.writes.tail (.startAttempt ctx (startedAttempt host e.env ctx submission
              submissionId ownerId fencingToken context) (by rw [hsubmissions]; exact hget)
              heligible (by rw [hleases]; exact hlease) howner.symm htoken.symm ?_ rfl rfl)
            refine hasRunningAttempt_of_swept (s := s) fun attemptKey attempt hafter hmine => ?_
            exact loseOlderAttempts_swept _ _ hmine 0 _ s (AttemptRows.all s)
              (congrArg Except.toBool hok) hafter

theorem finishAttempt_writes {attemptId ownerId text : String} {fencingToken : Int}
    (hcall : e.call = .finishAttempt ctx attemptId ownerId fencingToken text) :
    Writes host e s s (finishAttempt e.env ctx attemptId ownerId fencingToken text s).store := by
  unfold finishAttempt
  dsimp only
  split
  · exact .refl
  · rename_i status hstatus
    split
    · exact .refl
    · rename_i attempt hattempt
      split
      · exact .refl
      · rename_i submission hget
        split
        · exact .refl
        · rename_i hfence
          split
          · exact .refl
          · rename_i hrunning
            rw [ne_eq, not_not] at hrunning
            exact .single (.finishAttempt hcall hstatus rfl hattempt hrunning hget hfence)

theorem mergePublication_identity {prior record stored : ResultPublicationRecord}
    (h : mergePublication prior record = .ok stored) :
    stored.scope = record.scope ∧ stored.submissionId = record.submissionId := by
  unfold mergePublication at h
  split_ifs at h <;> cases h <;> exact ⟨rfl, rfl⟩

theorem recordResultPublication_writes {record : ResultPublicationRecord} {ownerId : String}
    {fencingToken : Int}
    (hcall : e.call = .recordResultPublication ctx record ownerId fencingToken) :
    Writes host e s s
      (recordResultPublication host e.env ctx record ownerId fencingToken s).store := by
  unfold recordResultPublication
  dsimp only
  split
  · exact .refl
  · rename_i hvalid
    have hscope : record.scope = ctx.scopeKey := by
      unfold invalidPublication at hvalid
      split_ifs at hvalid with h
      simpa using h
    split
    · exact .refl
    · rename_i lease hfence
      split
      · exact .refl
      · split
        · exact .refl
        · rename_i stored hstored
          have hidentity : stored.scope = record.scope ∧
              stored.submissionId = record.submissionId := by
            cases hprior : s.resultPublications.get?
                ⟨ctx.scopeKey, record.submissionId, record.attemptId⟩ with
            | none =>
                rw [hprior] at hstored
                cases hstored
                exact ⟨rfl, rfl⟩
            | some prior =>
                rw [hprior] at hstored
                exact mergePublication_identity hstored
          exact .single (.recordPublication hcall (hidentity.1.trans hscope) hidentity.2
            (Store.requireLease_eq_ok.mp hfence).1)

theorem markResultPublicationPublished_writes {submissionId attemptId reportSha256 : String} :
    Writes host e s s
      (markResultPublicationPublished e.env ctx submissionId attemptId reportSha256 s).store := by
  unfold markResultPublicationPublished
  dsimp only
  split
  · exact .refl
  · rename_i record hget
    split
    · exact .refl
    · split
      · exact .refl
      · exact .single (.publishPublication hget)

theorem recordEffectWith_writes {effect : EffectRecord} {claim : Option LeaseClaim}
    (hcall : e.call = .recordEffect ctx effect ∨
      ∃ claim, e.call = .recordAttemptEffect ctx effect claim) :
    Writes host e s s (recordEffectWith host e.env ctx effect claim s).store := by
  unfold recordEffectWith
  dsimp only
  split
  · exact .refl
  · rename_i hvalid
    split
    · exact .refl
    · rename_i submission hget
      split
      · exact .refl
      · split
        · exact .refl
        · rename_i hallowed
          exact .single (.recordEffect hcall hvalid hget hallowed)

/-! ## The cancellation reconcile -/

/-- The keys of the submissions are their own identities. -/
def SubmissionsKeyed (s : Store) : Prop :=
  ∀ k row, s.submissions.get? k = some row → row.submissionId = k.id

/-- The rows that decide a cancellation are still as the call found them. -/
structure Untouched (s₀ s : Store) (k : Key) : Prop where
  submission : s.submissions.get? k = s₀.submissions.get? k
  running : s.hasRunningAttempt k = s₀.hasRunningAttempt k
  effect : s.effects.get? ⟨k.scope, executionEffectId k.id⟩ =
    s₀.effects.get? ⟨k.scope, executionEffectId k.id⟩
  waits : ∀ now, cancellationWaits s k now = cancellationWaits s₀ k now

theorem Untouched.refl (s : Store) (k : Key) : Untouched s s k := ⟨rfl, rfl, rfl, fun _ => rfl⟩

theorem Untouched.trans {s₀ s t : Store} {k : Key} (h : Untouched s₀ s k)
    (h' : Untouched s t k) : Untouched s₀ t k :=
  ⟨h'.submission.trans h.submission, h'.running.trans h.running, h'.effect.trans h.effect,
    fun now => (h'.waits now).trans (h.waits now)⟩

theorem executionEffectId_inj {a b : String} (h : executionEffectId a = executionEffectId b) :
    a = b := by
  unfold executionEffectId at h
  have hlist := congrArg String.toList h
  rw [String.toList_append, String.toList_append] at hlist
  exact String.toList_inj.mp (List.append_cancel_right hlist)

theorem executionKey_inj {k k' : Key}
    (h : (⟨k.scope, executionEffectId k.id⟩ : Key) = ⟨k'.scope, executionEffectId k'.id⟩) :
    k = k' := by
  obtain ⟨hscope, hid⟩ := Key.mk.inj h
  have hsame := executionEffectId_inj hid
  cases k
  cases k'
  simp_all

/-- Finalizing the cancellation of `k` is a series of writes, and leaves the other
requests as they are. -/
structure Finalizing (host : Host) (e : Event) (s₀ : Store) (k : Key) (s t : Store) : Prop where
  writes : Writes host e s₀ s t
  others : ∀ k', k' ≠ k → Untouched s t k'

theorem Finalizing.refl (s₀ : Store) (k : Key) (s : Store) : Finalizing host e s₀ k s s where
  writes := .refl
  others := fun k' _ => .refl s k'

theorem Finalizing.trans {s₀ s t u : Store} {k : Key} (h : Finalizing host e s₀ k s t)
    (h' : Finalizing host e s₀ k t u) : Finalizing host e s₀ k s u where
  writes := h.writes.trans h'.writes
  others := fun k' hne => (h.others k' hne).trans (h'.others k' hne)

theorem loseRunningAttempts_finalizing {s₀ : Store} (now : Instant) (k : Key) (s : Store) :
    Finalizing host e s₀ k s (loseRunningAttempts now k s.attempts.entries s) := by
  have h : LostAttempts host e s₀ k s (loseRunningAttempts now k s.attempts.entries s) :=
    loseRunningAttempts_lost now k _ s (AttemptRows.all s)
  refine ⟨h.writes, fun k' hne => ⟨?_, h.hasRunningAttempt_ne hne.symm, ?_, fun now' => ?_⟩⟩
  · rw [h.frame]
  · rw [h.frame]
  · rw [h.frame]
    rfl

theorem recordUnknownEffect_finalizing {s₀ s : Store} {k : Key}
    {submission : SubmissionRecord} (at_ : Instant) (hsweep : e.Finalizes s₀ k submission)
    (hran : s₀.hasRunningAttempt k = true) (hget : s.submissions.get? k = some submission)
    (hsame : s.effects.get? ⟨k.scope, executionEffectId k.id⟩ =
      s₀.effects.get? ⟨k.scope, executionEffectId k.id⟩) :
    Finalizing host e s₀ k s (recordUnknownEffect k.scope k.id at_ s) := by
  unfold recordUnknownEffect
  dsimp only
  split
  · exact .refl s₀ k s
  · rename_i hopen
    refine ⟨.single (.recordUnknownEffect hsweep hran hget hsame ?_),
      fun k' hne => ⟨rfl, rfl, Dict.get?_set_ne _ _ fun heq => hne ?_, fun _ => rfl⟩⟩
    · intro existing hexisting hcommitted
      exact hopen (by simp [hexisting, hcommitted])
    · exact (executionKey_inj heq).symm

theorem cancelDispatch_finalizing {s₀ : Store} (k : Key) (now : Instant) (s : Store) :
    Finalizing host e s₀ k s (cancelDispatch k now s) := by
  unfold cancelDispatch
  split
  · exact .refl s₀ k s
  · rename_i dispatch hget
    split
    · rename_i hopen
      refine ⟨.single (.cancelDispatch hget hopen),
        fun k' hne => ⟨rfl, rfl, rfl, fun now' => ?_⟩⟩
      unfold cancellationWaits
      rw [Dict.get?_set_ne _ _ hne.symm]
      rfl
    · exact .refl s₀ k s

theorem cancelDispatch_frame (k : Key) (now : Instant) (s : Store) :
    (cancelDispatch k now s).submissions = s.submissions ∧
      ∀ d, (cancelDispatch k now s).dispatches.get? k = some d →
        d.status = .cancelled ∨ s.dispatches.get? k = some d := by
  unfold cancelDispatch
  split
  · exact ⟨rfl, fun d h => .inr h⟩
  · split
    · refine ⟨rfl, fun d h => .inl ?_⟩
      rw [Dict.get?_set_self, Option.some.injEq] at h
      rw [← h]
      rfl
    · exact ⟨rfl, fun d h => .inr h⟩

theorem finalizeCancellation_finalizing {s₀ s : Store} {k : Key}
    {submission : SubmissionRecord} (row : Nat) (acknowledgeOutbox : Bool)
    (hsweep : e.Finalizes s₀ k submission) (hkeyed : submission.submissionId = k.id)
    (hrequested : submission.status = .cancelRequested)
    (hget₀ : s₀.submissions.get? k = some submission) (huntouched : Untouched s₀ s k)
    (hready : cancellationWaits s k (e.env.now [0]) = false) :
    Finalizing host e s₀ k s
      (finalizeCancellation e.env row (e.env.now [0]) acknowledgeOutbox k submission s) := by
  have hown : (⟨k.scope, k.id⟩ : Key) = k := rfl
  have hget : s.submissions.get? k = some submission := huntouched.submission.trans hget₀
  unfold finalizeCancellation
  simp only [hkeyed, hown]
  -- the running attempts are lost
  generalize hs₁ : loseRunningAttempts (e.env.now [0]) k s.attempts.entries s = s₁
  have hlost : LostAttempts host e s₀ k s s₁ :=
    hs₁ ▸ loseRunningAttempts_lost _ k _ s (AttemptRows.all s)
  have hfinal₁ : Finalizing host e s₀ k s s₁ := hs₁ ▸ loseRunningAttempts_finalizing _ k s
  have hidle₁ : s₁.hasRunningAttempt k = false :=
    hasRunningAttempt_of_swept (s := s) fun attemptKey attempt hafter hmine =>
      loseRunningAttempts_swept _ hmine _ s (AttemptRows.all s) (hs₁.symm ▸ hafter)
  have hsubmissions₁ : s₁.submissions = s.submissions := by rw [hlost.frame]
  have heffects₁ : s₁.effects = s.effects := by rw [hlost.frame]
  have hwaits₁ : cancellationWaits s₁ k (e.env.now [0]) = false := by
    rw [hlost.frame]
    exact hready
  -- the effect of the execution is in doubt
  generalize hs₂ : (if s.hasRunningAttempt k = true then
    recordUnknownEffect k.scope k.id (e.env.now [1, row]) s₁ else s₁) = s₂
  have hstep₂ : Finalizing host e s₀ k s₁ s₂ := by
    rw [← hs₂]
    split
    · rename_i hran
      exact recordUnknownEffect_finalizing _ hsweep (huntouched.running.symm.trans hran)
        (by rw [hsubmissions₁, hget]) (by rw [heffects₁, huntouched.effect])
    · exact .refl s₀ k s₁
  have hframe₂ : s₂ = { s₁ with effects := s₂.effects } := by
    rw [← hs₂]
    unfold recordUnknownEffect
    dsimp only
    split_ifs <;> rfl
  have hget₂ : s₂.submissions.get? k = some submission := by
    rw [hframe₂]
    exact (congrArg (fun d => Dict.get? d k) hsubmissions₁).trans hget
  have hidle₂ : s₂.hasRunningAttempt k = false := by
    rw [hframe₂]
    exact hidle₁
  have hwaits₂ : cancellationWaits s₂ k (e.env.now [0]) = false := by
    rw [hframe₂]
    exact hwaits₁
  -- the submission is cancelled
  have hstep₃ : Finalizing host e s₀ k s₂ { s₂ with
      submissions := s₂.submissions.set k (submission.withStatus .cancelled) } :=
    ⟨.single (.cancelSubmission hget₂ hrequested hidle₂ hwaits₂), fun k' hne =>
      ⟨Dict.get?_set_ne _ _ hne.symm, rfl, rfl, fun _ => rfl⟩⟩
  generalize hs₃ : ({ s₂ with
    submissions := s₂.submissions.set k (submission.withStatus .cancelled) } : Store) = s₃ at hstep₃
  have hget₃ : s₃.submissions.get? k = some (submission.withStatus .cancelled) := by
    rw [← hs₃]
    exact Dict.get?_set_self _ _ _
  have hresolved₃ : ∀ d, s₃.dispatches.get? k = some d →
      d.status ≠ .uncertain ∨ d.prefectFlowRunId ≠ none := by
    intro d hd
    rw [← hs₃] at hd
    unfold cancellationWaits at hwaits₂
    have hd₂ : s₂.dispatches.get? k = some d := hd
    rw [hd₂] at hwaits₂
    by_contra hbad
    push Not at hbad
    simp [hbad.1, hbad.2] at hwaits₂
  -- its dispatch and its outbox rows follow
  obtain ⟨hsubmissions₄, hdispatches₄⟩ := cancelDispatch_frame k (e.env.now [0]) s₃
  have hthrough := ((hfinal₁.trans hstep₂).trans hstep₃).trans
    (cancelDispatch_finalizing k (e.env.now [0]) s₃)
  split
  · refine hthrough.trans ⟨?_, fun k' _ => ?_⟩
    · refine ackRows_writes _ rfl 0 _ _ (hsubmissions₄ ▸ hget₃) (fun d hd => ?_) (Dict.nodup _)
        fun _ _ hmem => Dict.mem_entries_iff.mp hmem
      rcases hdispatches₄ d hd with hcancelled | hbefore
      · exact .inl (by rw [hcancelled]; decide)
      · exact hresolved₃ d hbefore
    · obtain ⟨outbox, houtbox⟩ := ackRows_frame (fun n => e.env.now [2, row, n]) k.scope k.id 0
        (cancelDispatch k (e.env.now [0]) s₃).outbox.entries (cancelDispatch k (e.env.now [0]) s₃)
      unfold ackSubmissionOutbox
      rw [houtbox]
      exact ⟨rfl, rfl, rfl, fun _ => rfl⟩
  · exact hthrough

theorem cancellationCandidates_mem {scope : Scope} {sweep : CancellationSweep} {k : Key}
    {row : SubmissionRecord} (h : (k, row) ∈ cancellationCandidates s scope sweep) :
    k.scope = scope ∧ s.submissions.get? k = some row ∧ row.status = .cancelRequested := by
  unfold cancellationCandidates at h
  rw [List.mem_insertionSort, List.mem_filter] at h
  obtain ⟨hmem, hcond⟩ := h
  simp only [Bool.and_eq_true, decide_eq_true_eq] at hcond
  exact ⟨hcond.1.1.1, Dict.mem_entries_iff.mp hmem, hcond.1.1.2⟩

/-- A finalized cancellation was requested and is not held back. -/
theorem Event.Finalizes.requested {s : Store} {k : Key} {submission : SubmissionRecord}
    (h : e.Finalizes s k submission) :
    s.submissions.get? k = some submission ∧ submission.status = .cancelRequested := by
  cases h with
  | sweep hcall hvalid hrow =>
      obtain ⟨-, hget, hrequested⟩ :=
        cancellationCandidates_mem (List.mem_filter.mp (List.mem_of_mem_take hrow)).1
      exact ⟨hget, hrequested⟩

theorem cancellationCandidates_nodup (scope : Scope) (sweep : CancellationSweep) :
    ((cancellationCandidates s scope sweep).map Prod.fst).Nodup := by
  unfold cancellationCandidates
  refine (List.Perm.map _ (List.perm_insertionSort _ _)).nodup_iff.mpr ?_
  exact s.submissions.nodup.sublist (List.filter_sublist.map _)

theorem reconcileCancelledRows_writes {s₀ : Store} {sweep : CancellationSweep}
    (hcall : e.call = .reconcileCancelledSubmissions ctx sweep) (hvalid : sweep.isValid = true)
    (hkeyed : SubmissionsKeyed s₀) :
    ∀ (rows : List (Key × SubmissionRecord)) (done : List SubmissionRecord) (s : Store),
      (rows.map Prod.fst).Nodup →
      (∀ k row, (k, row) ∈ rows →
        s₀.submissions.get? k = some row ∧ row.status = .cancelRequested ∧ Untouched s₀ s k) →
      (∀ entry, entry ∈ (rows.filter
          (fun entry => !cancellationWaits s₀ entry.1 (e.env.now [0]))).take
            (sweep.limit.toNat - done.length) →
        entry ∈ reconciledRows s₀ ctx.scopeKey sweep (e.env.now [0])) →
      Writes host e s₀ s (reconcileCancelledRows e.env (e.env.now [0]) sweep.limit
        sweep.acknowledgeOutbox rows done s).2
  | [], _, _, _, _, _ => .refl
  | (k, submission) :: rest, done, s, hnodup, hrows, hwithin => by
      have htail := (List.nodup_cons.mp hnodup).2
      obtain ⟨hget₀, hrequested, huntouched⟩ := hrows k submission List.mem_cons_self
      have hwaits := huntouched.waits (e.env.now [0])
      unfold reconcileCancelledRows
      split
      · exact .refl
      · rename_i hlimit
        split
        · rename_i hwaiting
          refine reconcileCancelledRows_writes hcall hvalid hkeyed rest done s htail
            (fun k' row hmem => hrows k' row (List.mem_cons_of_mem _ hmem)) ?_
          rwa [List.filter_cons_of_neg (by simp [← hwaits, hwaiting])] at hwithin
        · rename_i hready
          rw [Bool.not_eq_true] at hready
          obtain ⟨budget, hbudget⟩ : ∃ n, sweep.limit.toNat - done.length = n + 1 :=
            ⟨sweep.limit.toNat - done.length - 1, by omega⟩
          rw [List.filter_cons_of_pos (by simp [← hwaits, hready]), hbudget,
            List.take_succ_cons] at hwithin
          have hfinal : Finalizing host e s₀ k s (finalizeCancellation e.env done.length
              (e.env.now [0]) sweep.acknowledgeOutbox k submission s) :=
            finalizeCancellation_finalizing _ _ ⟨hcall, hvalid, hwithin _ List.mem_cons_self⟩
              (hkeyed k submission hget₀) hrequested hget₀ huntouched hready
          refine hfinal.writes.trans (reconcileCancelledRows_writes hcall hvalid hkeyed rest _ _
            htail (fun k' row hmem => ?_) fun entry hmem => ?_)
          · obtain ⟨hget', hrequested', huntouched'⟩ := hrows k' row (List.mem_cons_of_mem _ hmem)
            exact ⟨hget', hrequested',
              huntouched'.trans (hfinal.others k' (Dict.ne_of_mem_tail hnodup hmem).symm)⟩
          · refine hwithin entry (List.mem_cons_of_mem _ ?_)
            rwa [List.length_append, List.length_singleton, ← Nat.sub_sub, hbudget,
              Nat.add_sub_cancel] at hmem

theorem CancellationSweep.isValid_iff {sweep : CancellationSweep} :
    sweep.isValid = true ↔ sweep.submissionId.any isBlank = false ∧
      sweep.executionRoute.any (fun route => !isExecutionRoute route) = false := by
  unfold CancellationSweep.isValid
  cases sweep.submissionId <;> cases sweep.executionRoute <;> simp

theorem reconcileCancelledSubmissions_writes {sweep : CancellationSweep}
    (hcall : e.call = .reconcileCancelledSubmissions ctx sweep) (hkeyed : SubmissionsKeyed s) :
    Writes host e s s (reconcileCancelledSubmissions e.env ctx sweep s).store := by
  unfold reconcileCancelledSubmissions
  split
  · exact .refl
  · rename_i hid
    split
    · exact .refl
    · rename_i hroute
      rw [Bool.not_eq_true] at hid hroute
      refine reconcileCancelledRows_writes hcall
        (CancellationSweep.isValid_iff.mpr ⟨hid, hroute⟩) hkeyed _ _ s
        (cancellationCandidates_nodup _ _) (fun k row hmem => ?_) fun _ hmem => hmem
      obtain ⟨-, hget, hrequested⟩ := cancellationCandidates_mem hmem
      exact ⟨hget, hrequested, .refl s k⟩

/-! ## Dispatches -/

theorem prepareDispatch_writes {submissionId : String}
    (hcall : e.call = .prepareDispatch ctx submissionId) :
    Writes host e s s (prepareDispatch host e.env ctx submissionId s).store := by
  unfold prepareDispatch
  dsimp only
  split
  · exact .refl
  · rename_i submission hget
    split
    · split
      · split
        · exact .refl
        · split
          · exact .refl
          · split
            · exact .refl
            · split
              · split
                · exact .refl
                · exact .refl
              · rename_i hnew
                exact .single (.prepareDispatch hcall hget hnew)
      · exact .refl
    · exact .refl

theorem claimDispatch_writes {submissionId ownerId : String} {leaseSeconds : Int}
    {now : Option Instant}
    (hcall : e.call = .claimDispatch ctx submissionId ownerId leaseSeconds now) :
    Writes host e s s (claimDispatch e.env ctx submissionId ownerId leaseSeconds now s).store := by
  unfold claimDispatch
  dsimp only
  split
  · exact .refl
  · rename_i howner
    split
    · exact .refl
    · rename_i hseconds
      split
      · rename_i record submission hrecord hget
        split
        · exact .refl
        · rename_i hclaimable
          rw [Bool.not_eq_true] at hclaimable
          exact .single (.claimDispatch hcall rfl hrecord hget hclaimable howner hseconds)
      · exact .refl

theorem holdsDispatchLease_leased {record : DispatchRecord} {ownerId : String}
    {fencingToken : Int} (h : holdsDispatchLease record ownerId fencingToken = true) :
    record.status = .leased := by
  unfold holdsDispatchLease at h
  simp only [Bool.and_eq_true, decide_eq_true_eq] at h
  exact h.1.1

theorem linkDispatch_writes {submissionId ownerId : String} {fencingToken : Int}
    {remoteRunId prefectFlowRunId : Option String} {now : Option Instant}
    (hcall : e.call = .linkDispatch ctx submissionId ownerId fencingToken remoteRunId
      prefectFlowRunId now) :
    Writes host e s s (linkDispatch e.env ctx submissionId ownerId fencingToken remoteRunId
      prefectFlowRunId now s).store := by
  unfold linkDispatch
  dsimp only
  split
  · exact .refl
  · split
    · exact .refl
    · rename_i record hrecord
      split
      · split
        · exact .refl
        · exact .refl
      · split
        · rename_i hlease
          exact .single (.linkDispatch hcall rfl hrecord
            (holdsDispatchLease_leased (Bool.and_eq_true_iff.mp hlease).1))
        · exact .refl

theorem releaseDispatch_writes {submissionId ownerId : String} {fencingToken : Int}
    {outcomeUncertain cancelled : Bool} {errorCode : Option String} {now : Option Instant}
    (hcall : e.call = .releaseDispatch ctx submissionId ownerId fencingToken outcomeUncertain
      cancelled errorCode now) :
    Writes host e s s (releaseDispatch host e.env ctx submissionId ownerId fencingToken
      outcomeUncertain cancelled errorCode now s).store := by
  unfold releaseDispatch
  dsimp only
  split
  · exact .refl
  · split
    · exact .refl
    · rename_i record hrecord
      split
      · exact .refl
      · split
        · rename_i hlease
          exact .single (.releaseDispatch hcall rfl hrecord (holdsDispatchLease_leased hlease))
        · exact .refl

theorem rearmDispatchIfUnclaimed_writes {submissionId reason : String}
    {expected : RemoteRunId} {minimumAge : Int} {now : Option Instant}
    (hcall : ∀ ctx submissionId expected remote flow evidence now, e.call ≠
      .rearmReconciliationRequiredDispatch ctx submissionId expected remote flow evidence now) :
    Writes host e s s (rearmDispatchIfUnclaimed host e.env ctx submissionId expected reason
      minimumAge now s).store := by
  unfold rearmDispatchIfUnclaimed
  dsimp only
  split
  · rename_i record submission hrecord hget
    split
    · exact .refl
    · rename_i hguard
      push Not at hguard
      obtain ⟨hdispatched, -, haccepted, -, -, hunbegun⟩ := hguard
      rw [ne_eq, Bool.not_eq_true] at hunbegun
      split
      · exact .single (.exhaustDispatch hrecord hget hdispatched haccepted)
      · rename_i hbound
        exact .single (.rearmDispatch hcall hrecord hget hdispatched haccepted hunbegun
          (Nat.lt_of_not_le hbound))
  · exact .refl

theorem rearmDispatchAfterRemoteFailure_writes {submissionId : String}
    {remote flow : Option String} {now : Option Instant}
    (hcall : e.call = .rearmDispatchAfterRemoteFailure ctx submissionId remote flow now) :
    Writes host e s s
      (rearmDispatchAfterRemoteFailure host e.env ctx submissionId remote flow now s).store := by
  unfold rearmDispatchAfterRemoteFailure
  split
  · exact .refl
  · exact rearmDispatchIfUnclaimed_writes (by simp [hcall])

theorem rearmDispatchAfterRemoteMissing_writes {submissionId : String}
    {remote flow : Option String} {minimumAge : Int} {now : Option Instant}
    (hcall : e.call =
      .rearmDispatchAfterRemoteMissing ctx submissionId remote flow minimumAge now) :
    Writes host e s s (rearmDispatchAfterRemoteMissing host e.env ctx submissionId remote flow
      minimumAge now s).store := by
  unfold rearmDispatchAfterRemoteMissing
  split
  · exact .refl
  · split
    · exact .refl
    · exact rearmDispatchIfUnclaimed_writes (by simp [hcall])

/-- An operator rearm raises and changes nothing, or it succeeds with one write. -/
theorem rearmReconciled_cases {submissionId evidence : String} {expected : Int}
    {remote flow : Option String} {now : Option Instant}
    (hcall : e.call = .rearmReconciliationRequiredDispatch ctx submissionId expected remote flow
      evidence now) :
    (rearmReconciliationRequiredDispatch host e.env ctx submissionId expected remote flow evidence
      now s).RefusedOr s
        fun t => (e.outcome host s).succeeded = true → Write host e s s t := by
  unfold rearmReconciliationRequiredDispatch
  dsimp only
  split
  · exact refusedOr_raise _ _ _
  · split
    · exact refusedOr_raise _ _ _
    · split
      · exact refusedOr_raise _ _ _
      · split
        · rename_i record submission hrecord hget
          split
          · exact refusedOr_raise _ _ _
          · rename_i hcurrent
            split
            · exact refusedOr_raise _ _ _
            · rename_i hroute
              split
              · exact refusedOr_raise _ _ _
              · split
                · exact refusedOr_raise _ _ _
                · rename_i hbegun
                  push Not at hcurrent hroute
                  rw [Bool.not_eq_true] at hbegun
                  exact refusedOr_ret _ fun hsucceeded => .rearmReconciled hcall rfl hsucceeded
                    hrecord hget hcurrent.1 hcurrent.2.2.2 hroute hbegun
        · exact refusedOr_raise _ _ _

theorem rearmReconciled_writes {submissionId evidence : String} {expected : Int}
    {remote flow : Option String} {now : Option Instant}
    (hcall : e.call = .rearmReconciliationRequiredDispatch ctx submissionId expected remote flow
      evidence now) :
    Writes host e s s (rearmReconciliationRequiredDispatch host e.env ctx submissionId expected
      remote flow evidence now s).store := by
  rcases rearmReconciled_cases (s := s) hcall with ⟨-, hstore⟩ | ⟨hok, hwrite⟩
  · rw [hstore]
  · refine .single (hwrite ?_)
    unfold Event.outcome
    rw [hcall]
    exact (Outcome.void_succeeded _).trans hok

/-! ## Routes and shadow runs -/

theorem reserveExecutionRouteReference_writes {route referenceId : String} :
    Writes host e s s (reserveExecutionRouteReference route referenceId s).store := by
  unfold reserveExecutionRouteReference
  dsimp only
  split
  · exact .refl
  · split
    · exact .refl
    · rename_i hprefect
      split
      · exact .refl
      · split
        · exact .refl
        · rename_i hroute
          rw [Bool.not_eq_false] at hprefect
          rw [ne_eq, not_not] at hroute
          exact .single (.reserveReference hprefect hroute)

/-- The table keeps no reference that was not there before. -/
def ReferencesShrink (before after : Dict String (Finset String)) : Prop :=
  ∀ route, (after.get? route).getD ∅ ⊆ (before.get? route).getD ∅

theorem discardReference_shrinks {route referenceId : String} {references : Finset String}
    {table : Dict String (Finset String)}
    (h : references ⊆ (table.get? route).getD ∅) :
    ReferencesShrink table (discardReference route referenceId references table) := by
  intro other
  unfold discardReference
  split
  · rw [Dict.get?_erase]
    split
    · exact Finset.empty_subset _
    · exact Finset.Subset.refl _
  · rw [Dict.get?_set]
    split
    · rename_i heq
      exact heq ▸ (Finset.erase_subset _ _).trans h
    · exact Finset.Subset.refl _

theorem releaseExecutionRouteReference_writes {route referenceId : String} :
    Writes host e s s (releaseExecutionRouteReference route referenceId s).store := by
  unfold releaseExecutionRouteReference
  split
  · exact .refl
  · split
    · exact .refl
    · split
      · exact .refl
      · split
        · exact .refl
        · rename_i references hreferences
          refine .single (.releaseReferences (discardReference_shrinks ?_))
          rw [hreferences]
          exact Finset.Subset.refl _

theorem discardRows_shrinks (referenceId : String) :
    ∀ (rows : List (String × Finset String)) (table : Dict String (Finset String)),
      (rows.map Prod.fst).Nodup →
      (∀ route references, (route, references) ∈ rows →
        references ⊆ (table.get? route).getD ∅) →
      ReferencesShrink table
        (rows.foldl (fun t e => discardReference e.1 referenceId e.2 t) table)
  | [], table, _, _ => fun _ => Finset.Subset.refl _
  | (route, references) :: rest, table, hnodup, hrows => by
      have hfirst : ReferencesShrink table (discardReference route referenceId references table) :=
        discardReference_shrinks (hrows route references List.mem_cons_self)
      have hrest := discardRows_shrinks referenceId rest
        (discardReference route referenceId references table) (List.nodup_cons.mp hnodup).2 ?_
      · exact fun other => (hrest other).trans (hfirst other)
      · intro other others hmem
        have hne : route ≠ other := Dict.ne_of_mem_tail hnodup hmem
        have hsame : (discardReference route referenceId references table).get? other =
            table.get? other := by
          unfold discardReference
          split
          · rw [Dict.get?_erase, if_neg hne]
          · exact Dict.get?_set_ne _ _ hne
        rw [hsame]
        exact hrows other others (List.mem_cons_of_mem _ hmem)

theorem releaseExecutionRouteReferenceId_writes {referenceId : String} :
    Writes host e s s (releaseExecutionRouteReferenceId referenceId s).store := by
  unfold releaseExecutionRouteReferenceId
  split
  · exact .refl
  · refine .single (.releaseReferences (discardRows_shrinks referenceId _ _ (Dict.nodup _) ?_))
    intro route references hmem
    rw [Dict.mem_entries_iff.mp hmem]
    exact Finset.Subset.refl _

/-- A lifecycle transition raises and changes nothing, or it returns with at most
one status change. -/
theorem transitionExecutionRouteState_cases (host : Host) (s : Store) {route text : String}
    {expectedRevision : Int} {now : Option Instant}
    (hcall : e.call = .transitionExecutionRouteState ctx route expectedRevision text now) :
    (transitionExecutionRouteState e.env ctx route expectedRevision text now s).RefusedOr s
      fun t => (e.outcome host s).succeeded = true → Writes host e s s t := by
  unfold transitionExecutionRouteState
  dsimp only
  split
  · exact refusedOr_raise _ _ _
  · split
    · exact refusedOr_raise _ _ _
    · rename_i hprefect
      rw [Bool.not_eq_false] at hprefect
      split
      · exact refusedOr_raise _ _ _
      · split
        · exact refusedOr_raise _ _ _
        · rename_i status hstatus
          split
          · exact refusedOr_raise _ _ _
          · split
            · exact refusedOr_ret _ fun _ => .refl
            · rename_i hchanged
              split
              · exact refusedOr_raise _ _ _
              · rename_i hallowed
                rw [not_not] at hallowed
                split
                · exact refusedOr_raise _ _ _
                · rename_i hrefusal
                  exact refusedOr_ret _ fun hsucceeded => .single (.transitionRoute hcall hstatus
                    hprefect hchanged hallowed hrefusal hsucceeded)

theorem transitionExecutionRouteState_writes {route text : String} {expectedRevision : Int}
    {now : Option Instant}
    (hcall : e.call = .transitionExecutionRouteState ctx route expectedRevision text now) :
    Writes host e s s
      (transitionExecutionRouteState e.env ctx route expectedRevision text now s).store := by
  rcases transitionExecutionRouteState_cases host s hcall with
    ⟨-, hstore⟩ | ⟨hok, hwrites⟩
  · rw [hstore]
  · refine hwrites ?_
    unfold Event.outcome
    rw [hcall]
    exact (Outcome.void_succeeded _).trans hok

theorem authorizeShadowRun_writes {shadow : ShadowRunRecord} :
    Writes host e s s (authorizeShadowRun ctx shadow s).store := by
  unfold authorizeShadowRun
  split
  · exact .refl
  · rename_i hscope
    rw [ne_eq, not_not] at hscope
    repeat' split
    all_goals first
      | exact .refl
      | exact .single (.authorizeShadow hscope (by assumption))

/-! ## Every call -/

/-- The store a call leaves is reached by writes of that call. -/
theorem outcome_writes (hkeyed : SubmissionsKeyed s) :
    Writes host e s s (e.outcome host s).store := by
  unfold Event.outcome
  cases hcall : e.call with
  | accept ctx request => exact accept_writes hcall
  | reserveExecutionRouteReference route referenceId =>
      exact reserveExecutionRouteReference_writes
  | releaseExecutionRouteReference route referenceId =>
      exact releaseExecutionRouteReference_writes
  | releaseExecutionRouteReferenceId referenceId =>
      exact releaseExecutionRouteReferenceId_writes
  | transitionExecutionRouteState ctx route expectedRevision status now =>
      exact transitionExecutionRouteState_writes hcall
  | prepareDispatch ctx submissionId => exact prepareDispatch_writes hcall
  | claimDispatch ctx submissionId ownerId leaseSeconds now => exact claimDispatch_writes hcall
  | linkDispatch ctx submissionId ownerId fencingToken remoteRunId prefectFlowRunId now =>
      exact linkDispatch_writes hcall
  | releaseDispatch ctx submissionId ownerId fencingToken outcomeUncertain cancelled errorCode
      now =>
      exact releaseDispatch_writes hcall
  | rearmDispatchAfterRemoteFailure ctx submissionId remote flow now =>
      exact rearmDispatchAfterRemoteFailure_writes hcall
  | rearmDispatchAfterRemoteMissing ctx submissionId remote flow minimumAge now =>
      exact rearmDispatchAfterRemoteMissing_writes hcall
  | rearmReconciliationRequiredDispatch ctx submissionId expected remote flow evidence now =>
      exact rearmReconciled_writes hcall
  | reconcileTerminalOutbox ctx limit => exact reconcileTerminalOutbox_writes hcall
  | reconcileCancelledSubmissions ctx sweep =>
      exact reconcileCancelledSubmissions_writes hcall hkeyed
  | markPublished ctx outboxId => exact markPublished_writes hcall
  | cancelSubmission ctx submissionId => exact cancelSubmission_writes hcall
  | acquireLease ctx submissionId ownerId ttlSeconds => exact acquireLease_writes
  | heartbeat ctx submissionId ownerId fencingToken ttlSeconds => exact heartbeat_writes
  | releaseLease ctx submissionId ownerId fencingToken => exact releaseLease_writes
  | startAttempt ctx submissionId ownerId fencingToken context => exact startAttempt_writes
  | finishAttempt ctx attemptId ownerId fencingToken status => exact finishAttempt_writes hcall
  | recordResultPublication ctx record ownerId fencingToken =>
      exact recordResultPublication_writes hcall
  | markResultPublicationPublished ctx submissionId attemptId reportSha256 =>
      exact markResultPublicationPublished_writes
  | compareAndSwapCheckpoint ctx swap => exact (compareAndSwapCheckpoint_peripheral _ _).writes
  | diagnoseCheckpoint ctx checkpointId kind detail =>
      exact (diagnoseCheckpoint_peripheral _ _ _ _).writes
  | acknowledgeBaseline ctx baselineId fingerprint version submissionId =>
      exact (acknowledgeBaseline_peripheral _ _ _ _ _).writes
  | recordEffect ctx effect => exact recordEffectWith_writes (.inl hcall)
  | recordAttemptEffect ctx effect claim => exact recordEffectWith_writes (.inr ⟨claim, hcall⟩)
  | createPreview ctx preview => exact (createPreview_peripheral _ _).writes
  | markPreviewStale ctx previewId given => exact (markPreviewStale_peripheral _ _).writes
  | recordPreviewDiff ctx diff => exact (recordPreviewDiff_peripheral _).writes
  | authorizeShadowRun ctx shadow => exact authorizeShadowRun_writes
  | cleanupExpiredPreviews ctx => exact (cleanupPreviewRows_peripheral _ _ _ _ _).writes
  | acceptActionJob ctx request => exact (acceptActionJob_peripheral _ _).writes
  | cancelActionJob ctx actionId => exact (cancelActionJob_peripheral _ _).writes
  | claimActionJob ctx workerId leaseSeconds now =>
      exact (claimActionJob_peripheral _ _ _ _).writes
  | heartbeatActionJob ctx actionId workerId fencingToken leaseSeconds now =>
      exact (heartbeatActionJob_peripheral _ _ _ _ _ _).writes
  | markActionJobAccepting ctx actionId workerId fencingToken now =>
      exact (markActionJobAccepting_peripheral _ _ _ _ _).writes
  | finishActionJob ctx actionId completion now =>
      exact (finishActionJob_peripheral _ _ _ _).writes
  | cleanupExpiredActionResults ctx limit now =>
      exact (cleanupExpiredActionResults_peripheral _ _ _).writes

end Etlantic.ControlPlane.Durable
