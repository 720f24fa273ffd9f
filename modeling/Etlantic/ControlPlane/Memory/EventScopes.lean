import Etlantic.ControlPlane.Memory.Events
import Etlantic.Base.Runs

/-!
# One scope of the event store

The rows of a scope are its events, its keys and its two counters.  A call
answers from the rows of its own scope and writes no others, so in every run
the calls of a scope get the answers they would get in a run of their own.
-/

namespace Etlantic.ControlPlane.Memory

open Durable (Host Env Key)

inductive EventAnswer where
  | event (event : ControlPlaneEvent)
  | count (count : Nat)
  | page (events : List ControlPlaneEvent)

def EventCall.scope : EventCall → Scope
  | .append ctx .. => ctx.scopeKey
  | .appendOnce ctx .. => ctx.scopeKey
  | .pruneExpiredIdempotency ctx .. => ctx.scopeKey
  | .pruneBeforeSequence ctx .. => ctx.scopeKey
  | .listAfterCursor ctx .. => ctx.scopeKey

/-- What a call returns or raises. -/
def EventCall.answer (host : Host) (env : Env) (call : EventCall) (s : MemoryEventStore) :
    Except PyError EventAnswer :=
  match call with
  | .append ctx correlationId kind payload =>
      (Memory.append host env ctx correlationId kind payload s).result.map .event
  | .appendOnce ctx correlationId eventKey kind payload =>
      (Memory.appendOnce host env ctx correlationId eventKey kind payload s).result.map .event
  | .pruneExpiredIdempotency ctx limit now =>
      (Memory.pruneExpiredIdempotency env ctx limit now s).result.map .count
  | .pruneBeforeSequence ctx beforeSequence =>
      (Memory.pruneBeforeSequence ctx beforeSequence s).result.map .count
  | .listAfterCursor ctx cursor limit =>
      (Memory.listAfterCursor env ctx cursor limit s).result.map .page

def isScope (scope owner : Scope) : Bool := owner = scope

def isScopeKey (scope : Scope) (key : Key) : Bool := key.scope = scope

theorem isScope_self (scope : Scope) : isScope scope scope = true := decide_eq_true rfl

theorem isScope_other {scope owner : Scope} (h : owner ≠ scope) : isScope scope owner = false :=
  decide_eq_false h

theorem isScopeKey_own {scope : Scope} {key : Key} (h : key.scope = scope) :
    isScopeKey scope key = true :=
  decide_eq_true h

theorem isScopeKey_other {scope : Scope} {key : Key} (h : key.scope ≠ scope) :
    isScopeKey scope key = false :=
  decide_eq_false h

/-- The rows of a scope. -/
def MemoryEventStore.within (scope : Scope) (s : MemoryEventStore) : MemoryEventStore :=
  { s with
    events := s.events.restrict (isScope scope)
    idempotentEvents := s.idempotentEvents.restrict (isScopeKey scope)
    eventSequences := s.eventSequences.restrict (isScope scope)
    eventIdempotencySweepCounts := s.eventIdempotencySweepCounts.restrict (isScope scope) }

section Rows

variable {s : MemoryEventStore} {scope : Scope}

@[simp] theorem bucket_within : (s.within scope).bucket scope = s.bucket scope := by
  unfold MemoryEventStore.bucket MemoryEventStore.within
  rw [Dict.get?_restrict (isScope_self scope)]

@[simp] theorem nextSequence_within :
    nextSequence (s.within scope) scope = nextSequence s scope := by
  unfold nextSequence
  rw [bucket_within]
  unfold MemoryEventStore.within
  rw [Dict.get?_restrict (isScope_self scope)]

@[simp] theorem setBucket_within (bucket : List ControlPlaneEvent) :
    (s.within scope).setBucket scope bucket = (s.setBucket scope bucket).within scope := by
  unfold MemoryEventStore.setBucket MemoryEventStore.within
  rw [Dict.restrict_set (isScope_self scope)]

theorem add_within {event : ControlPlaneEvent} (h : event.scope = scope) :
    (s.within scope).add event = (s.add event).within scope := by
  subst h
  have hevents : (s.within event.scope).bucket event.scope = s.bucket event.scope := bucket_within
  unfold MemoryEventStore.add
  rw [hevents]
  unfold MemoryEventStore.within
  rw [Dict.restrict_set (isScope_self event.scope), Dict.restrict_set (isScope_self event.scope)]

theorem add_within_other {event : ControlPlaneEvent} (h : event.scope ≠ scope) :
    (s.add event).within scope = s.within scope := by
  unfold MemoryEventStore.add MemoryEventStore.within
  rw [Dict.restrict_set_other (isScope_other h), Dict.restrict_set_other (isScope_other h)]

theorem erased_within {p : Key → Bool} (keys : List Key) (table : Dict Key IdempotentEventRecord) :
    (keys.foldl (fun table key => table.erase key) table).restrict p =
      keys.foldl (fun table key => table.erase key) (table.restrict p) := by
  induction keys generalizing table with
  | nil => rfl
  | cons key keys ih => rw [List.foldl_cons, List.foldl_cons, ih, Dict.restrict_erase]

theorem erased_within_other {p : Key → Bool} {keys : List Key} (h : ∀ key ∈ keys, p key = false)
    (table : Dict Key IdempotentEventRecord) :
    (keys.foldl (fun table key => table.erase key) table).restrict p = table.restrict p := by
  induction keys generalizing table with
  | nil => rfl
  | cons key keys ih =>
      rw [List.foldl_cons, ih fun k hk => h k (List.mem_cons_of_mem _ hk),
        Dict.restrict_erase_other (h key List.mem_cons_self)]

/-- The keys that a pruning removes. -/
def expiredKeys (scope : Scope) (now : Instant) (limit : Nat) (s : MemoryEventStore) : List Key :=
  ((s.idempotentEvents.entries.filter fun e =>
    e.1.scope = scope && isEventExpired e.2.expiresAt now).take limit).map Prod.fst

theorem pruneExpiredIdempotencyLocked_eq (now : Instant) (limit : Nat) :
    pruneExpiredIdempotencyLocked scope now limit s =
      ((expiredKeys scope now limit s).length,
        { s with
          idempotentEvents := (expiredKeys scope now limit s).foldl
            (fun table key => table.erase key) s.idempotentEvents }) := rfl

theorem mem_expiredKeys {now : Instant} {limit : Nat} {key : Key}
    (h : key ∈ expiredKeys scope now limit s) :
    key.scope = scope ∧ ∃ record, s.idempotentEvents.get? key = some record ∧
      isEventExpired record.expiresAt now = true := by
  unfold expiredKeys at h
  obtain ⟨e, he, rfl⟩ := List.mem_map.mp h
  obtain ⟨hmem, hp⟩ := List.mem_filter.mp (List.mem_of_mem_take he)
  rw [Bool.and_eq_true, decide_eq_true_eq] at hp
  exact ⟨hp.1, e.2, Dict.mem_entries_iff.mp hmem, hp.2⟩

@[simp] theorem expiredKeys_within (now : Instant) (limit : Nat) :
    expiredKeys scope now limit (s.within scope) = expiredKeys scope now limit s := by
  unfold expiredKeys MemoryEventStore.within
  rw [Dict.filter_restrict]
  intro e he
  exact (Bool.and_eq_true_iff.mp he).1

theorem pruned_within (now : Instant) (limit : Nat) :
    pruneExpiredIdempotencyLocked scope now limit (s.within scope) =
      ((pruneExpiredIdempotencyLocked scope now limit s).1,
        (pruneExpiredIdempotencyLocked scope now limit s).2.within scope) := by
  rw [pruneExpiredIdempotencyLocked_eq, pruneExpiredIdempotencyLocked_eq, expiredKeys_within]
  unfold MemoryEventStore.within
  rw [erased_within]

theorem pruned_within_other {other : Scope} (h : other ≠ scope) (now : Instant) (limit : Nat) :
    (pruneExpiredIdempotencyLocked other now limit s).2.within scope = s.within scope := by
  rw [pruneExpiredIdempotencyLocked_eq]
  unfold MemoryEventStore.within
  rw [erased_within_other]
  intro key hkey
  apply isScopeKey_other
  rw [(mem_expiredKeys hkey).1]
  exact h

theorem swept_within (now : Instant) :
    swept scope now (s.within scope) = (swept scope now s).within scope := by
  have hcount : (s.within scope).eventIdempotencySweepCounts.get? scope =
      s.eventIdempotencySweepCounts.get? scope := Dict.get?_restrict (isScope_self scope)
  have hcounted (count : Nat) :
      { s.within scope with
        eventIdempotencySweepCounts :=
          (s.within scope).eventIdempotencySweepCounts.set scope count } =
      MemoryEventStore.within scope { s with
        eventIdempotencySweepCounts := s.eventIdempotencySweepCounts.set scope count } := by
    unfold MemoryEventStore.within
    rw [Dict.restrict_set (isScope_self scope)]
  unfold swept
  rw [hcount]
  simp only [hcounted]
  split
  · rw [pruned_within]
  · rfl

theorem swept_within_other {other : Scope} (h : other ≠ scope) (now : Instant) :
    (swept other now s).within scope = s.within scope := by
  have hcounted (count : Nat) :
      MemoryEventStore.within scope { s with
        eventIdempotencySweepCounts := s.eventIdempotencySweepCounts.set other count } =
      s.within scope := by
    unfold MemoryEventStore.within
    rw [Dict.restrict_set_other (isScope_other h)]
  unfold swept
  simp only
  split
  · rw [pruned_within_other h, hcounted]
  · rw [hcounted]

theorem previousRecord_within {key : Key} (h : key.scope = scope) (now : Instant) :
    previousRecord key now (s.within scope) =
      ((previousRecord key now s).1, (previousRecord key now s).2.within scope) := by
  have hget : (s.within scope).idempotentEvents.get? key = s.idempotentEvents.get? key :=
    Dict.get?_restrict (isScopeKey_own h)
  unfold previousRecord
  rw [hget]
  cases s.idempotentEvents.get? key with
  | none => rfl
  | some record =>
      simp only
      split
      · unfold MemoryEventStore.within
        rw [Dict.restrict_erase]
      · rfl

theorem previousRecord_within_other {key : Key} (h : key.scope ≠ scope) (now : Instant) :
    (previousRecord key now s).2.within scope = s.within scope := by
  unfold previousRecord
  cases s.idempotentEvents.get? key with
  | none => rfl
  | some record =>
      simp only
      split
      · unfold MemoryEventStore.within
        rw [Dict.restrict_erase_other (isScopeKey_other h)]
      · rfl

end Rows

/-! ## Calls of a scope -/

section Calls

variable {host : Host} {env : Env} {ctx : ControlPlaneContext} {s : MemoryEventStore}
  {scope : Scope}

/-- The call answers from the scope's rows, and leaves the same rows of it. -/
structure Local (host : Host) (env : Env) (call : EventCall) (s : MemoryEventStore) : Prop where
  answer : call.answer host env (s.within call.scope) = call.answer host env s
  rows : (call.exec host env (s.within call.scope)).2 =
    (call.exec host env s).2.within call.scope

theorem newEvent_within (correlationId : Option String) (kind : String)
    (payload : List (String × Json)) :
    newEvent host env ctx correlationId kind payload (s.within ctx.scopeKey) =
      newEvent host env ctx correlationId kind payload s := by
  unfold newEvent
  rw [nextSequence_within]

theorem append_local (correlationId : Option String) (kind : String)
    (payload : List (String × Json)) :
    Local host env (.append ctx correlationId kind payload) s := by
  constructor
  · show Except.ok (EventAnswer.event (newEvent host env ctx correlationId kind payload _)) = _
    rw [EventCall.scope, newEvent_within]
    rfl
  · show (s.within ctx.scopeKey).add (newEvent host env ctx correlationId kind payload
        (s.within ctx.scopeKey)) =
      (s.add (newEvent host env ctx correlationId kind payload s)).within ctx.scopeKey
    rw [newEvent_within]
    exact add_within rfl

theorem replayed_within (record : IdempotentEventRecord) (kind payloadDigest : String) :
    replayed ctx record kind payloadDigest (s.within ctx.scopeKey) =
      replayed ctx record kind payloadDigest s := by
  unfold replayed
  rw [bucket_within]

theorem appendOnce_within (correlationId : Option String) (eventKey kind : String)
    (payload : List (String × Json)) :
    appendOnce host env ctx correlationId eventKey kind payload (s.within ctx.scopeKey) =
      ⟨(appendOnce host env ctx correlationId eventKey kind payload s).result,
        (appendOnce host env ctx correlationId eventKey kind payload s).state.within
          ctx.scopeKey⟩ := by
  have hkey : (Key.mk ctx.scopeKey (host.sha256 eventKey)).scope = ctx.scopeKey := rfl
  unfold appendOnce
  split
  · rfl
  · simp only [swept_within, previousRecord_within hkey]
    generalize previousRecord ⟨ctx.scopeKey, host.sha256 eventKey⟩ (env.now [0])
      (swept ctx.scopeKey (env.now [0]) s) = previous
    obtain ⟨record, base⟩ := previous
    cases record with
    | some record =>
        simp only
        rw [replayed_within]
    | none =>
        have hadd : (base.within ctx.scopeKey).add (newEvent host env ctx correlationId kind
              (redactControlPlanePayload host.unicode payload) base) =
            (base.add (newEvent host env ctx correlationId kind
              (redactControlPlanePayload host.unicode payload) base)).within ctx.scopeKey :=
          add_within rfl
        simp only [newEvent_within, hadd]
        unfold MemoryEventStore.within
        rw [Dict.restrict_set (isScopeKey_own hkey)]

theorem appendOnce_local (correlationId : Option String) (eventKey kind : String)
    (payload : List (String × Json)) :
    Local host env (.appendOnce ctx correlationId eventKey kind payload) s := by
  constructor
  · show (appendOnce host env ctx correlationId eventKey kind payload
      (s.within ctx.scopeKey)).result.map _ = _
    rw [appendOnce_within]
    rfl
  · show (appendOnce host env ctx correlationId eventKey kind payload
      (s.within ctx.scopeKey)).state = _
    rw [appendOnce_within]
    rfl

theorem pruneExpiredIdempotency_local (limit : Int) (now : Option Instant) :
    Local host env (.pruneExpiredIdempotency ctx limit now) s := by
  have hreply : pruneExpiredIdempotency env ctx limit now (s.within ctx.scopeKey) =
      ⟨(pruneExpiredIdempotency env ctx limit now s).result,
        (pruneExpiredIdempotency env ctx limit now s).state.within ctx.scopeKey⟩ := by
    unfold pruneExpiredIdempotency
    split
    · rfl
    · simp only [pruned_within]
  constructor
  · show (pruneExpiredIdempotency env ctx limit now (s.within ctx.scopeKey)).result.map _ = _
    rw [hreply]
    rfl
  · show (pruneExpiredIdempotency env ctx limit now (s.within ctx.scopeKey)).state = _
    rw [hreply]
    rfl

theorem pruneBeforeSequence_local (beforeSequence : Int) :
    Local host env (.pruneBeforeSequence ctx beforeSequence) s := by
  have hreply : pruneBeforeSequence ctx beforeSequence (s.within ctx.scopeKey) =
      ⟨(pruneBeforeSequence ctx beforeSequence s).result,
        (pruneBeforeSequence ctx beforeSequence s).state.within ctx.scopeKey⟩ := by
    unfold pruneBeforeSequence
    simp only [bucket_within, setBucket_within]
    split
    · rfl
    · split
      · rfl
      · split
        · rfl
        · rfl
  constructor
  · show (pruneBeforeSequence ctx beforeSequence (s.within ctx.scopeKey)).result.map _ = _
    rw [hreply]
    rfl
  · show (pruneBeforeSequence ctx beforeSequence (s.within ctx.scopeKey)).state = _
    rw [hreply]
    rfl

theorem listAfterCursor_local (cursor : Option String) (limit : Int) :
    Local host env (.listAfterCursor ctx cursor limit) s := by
  have hreply : listAfterCursor env ctx cursor limit (s.within ctx.scopeKey) =
      ⟨(listAfterCursor env ctx cursor limit s).result,
        (listAfterCursor env ctx cursor limit s).state.within ctx.scopeKey⟩ := by
    unfold listAfterCursor
    split
    · rfl
    · simp only [pruned_within, bucket_within]
      split
      · rfl
      · rfl
  constructor
  · show (listAfterCursor env ctx cursor limit (s.within ctx.scopeKey)).result.map _ = _
    rw [hreply]
    rfl
  · show (listAfterCursor env ctx cursor limit (s.within ctx.scopeKey)).state = _
    rw [hreply]
    rfl

theorem exec_local (call : EventCall) : Local host env call s := by
  cases call with
  | append ctx correlationId kind payload => exact append_local correlationId kind payload
  | appendOnce ctx correlationId eventKey kind payload =>
      exact appendOnce_local correlationId eventKey kind payload
  | pruneExpiredIdempotency ctx limit now => exact pruneExpiredIdempotency_local limit now
  | pruneBeforeSequence ctx beforeSequence => exact pruneBeforeSequence_local beforeSequence
  | listAfterCursor ctx cursor limit => exact listAfterCursor_local cursor limit

theorem setBucket_within_other {other : Scope} (h : other ≠ scope)
    (bucket : List ControlPlaneEvent) :
    (s.setBucket other bucket).within scope = s.within scope := by
  unfold MemoryEventStore.setBucket MemoryEventStore.within
  rw [Dict.restrict_set_other (isScope_other h)]

theorem appendOnce_within_other (h : ctx.scopeKey ≠ scope) (correlationId : Option String)
    (eventKey kind : String) (payload : List (String × Json)) :
    (appendOnce host env ctx correlationId eventKey kind payload s).state.within scope =
      s.within scope := by
  have hkey : (Key.mk ctx.scopeKey (host.sha256 eventKey)).scope ≠ scope := h
  have hbase := previousRecord_within_other (s := swept ctx.scopeKey (env.now [0]) s) hkey
    (env.now [0])
  rw [swept_within_other h] at hbase
  unfold appendOnce
  split
  · rfl
  · simp only
    generalize previousRecord ⟨ctx.scopeKey, host.sha256 eventKey⟩ (env.now [0])
      (swept ctx.scopeKey (env.now [0]) s) = previous at hbase
    obtain ⟨record, base⟩ := previous
    cases record with
    | some record => exact hbase
    | none =>
        have hadd : (base.add (newEvent host env ctx correlationId kind
            (redactControlPlanePayload host.unicode payload) base)).within scope =
              base.within scope := add_within_other h
        rw [← hbase, ← hadd]
        unfold MemoryEventStore.within
        rw [Dict.restrict_set_other (isScopeKey_other hkey)]

/-- A call leaves the rows of the other scopes alone. -/
theorem exec_within_other {call : EventCall} (h : call.scope ≠ scope) :
    (call.exec host env s).2.within scope = s.within scope := by
  cases call with
  | append ctx correlationId kind payload => exact add_within_other h
  | appendOnce ctx correlationId eventKey kind payload =>
      exact appendOnce_within_other h correlationId eventKey kind payload
  | pruneExpiredIdempotency ctx limit now =>
      show (pruneExpiredIdempotency env ctx limit now s).state.within scope = _
      unfold pruneExpiredIdempotency
      split
      · rfl
      · exact pruned_within_other h _ _
  | pruneBeforeSequence ctx beforeSequence =>
      show (pruneBeforeSequence ctx beforeSequence s).state.within scope = _
      unfold pruneBeforeSequence
      simp only
      split
      · rfl
      · split
        · rfl
        · split
          · rfl
          · exact setBucket_within_other h _
  | listAfterCursor ctx cursor limit =>
      show (listAfterCursor env ctx cursor limit s).state.within scope = _
      unfold listAfterCursor
      split
      · rfl
      · simp only
        split
        · exact pruned_within_other h _ _
        · exact pruned_within_other h _ _

end Calls

/-! ## Runs -/

/-- A call, with the clock readings and the identifiers it sees. -/
structure Turn where
  env : Env
  call : EventCall

def Turn.exec (host : Host) (s : MemoryEventStore) (turn : Turn) : MemoryEventStore :=
  (turn.call.exec host turn.env s).2

/-- The answers that the calls of a scope get. -/
def Turn.answerTo (host : Host) (scope : Scope) (s : MemoryEventStore) (turn : Turn) :
    Option (Except PyError EventAnswer) :=
  if turn.call.scope = scope then some (turn.call.answer host turn.env s) else none

/-- The calls of a scope are answered as if they were the only ones. -/
theorem answers_alone (host : Host) (scope : Scope) (s : MemoryEventStore) (turns : List Turn) :
    Runs.observe (Turn.exec host) (Turn.answerTo host scope) s turns =
      Runs.observe (Turn.exec host) (Turn.answerTo host scope) (s.within scope)
        (turns.filter fun turn => turn.call.scope = scope) := by
  refine Runs.part_observe ?_ ?_ ?_ ?_ s turns
  · intro s turn hown
    obtain rfl : turn.call.scope = scope := by simpa using hown
    exact (exec_local turn.call).rows.symm
  · intro s turn hother
    exact exec_within_other (by simpa using hother)
  · intro s turn hown
    obtain rfl : turn.call.scope = scope := by simpa using hown
    unfold Turn.answerTo
    rw [if_pos rfl, if_pos rfl, (exec_local turn.call).answer]
  · intro s turn hother
    exact if_neg (by simpa using hother)

end Etlantic.ControlPlane.Memory
