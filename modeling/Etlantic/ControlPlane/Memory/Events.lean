import Etlantic.ControlPlane.Durable.Calls

/-!
# The in-memory event store

`MemoryEventStore` keeps an event log for every scope.  Events are numbered
within their scope; a cursor is a digest of scope and number.  Old events are
dropped in two ways: an append beyond the configured count drops the oldest,
and `prune_before_sequence` drops those below a number, but never the newest.
`append_once` remembers the keys it was given until they expire.
-/

namespace Etlantic.ControlPlane.Memory

open Durable (Host Env Key)

structure ControlPlaneEvent where
  eventId : String
  sequence : Nat
  cursor : String
  kind : String
  createdAt : Instant
  payload : List (String × Json)
  correlationId : Option String
  scope : Scope

/-- What `append_once` keeps of a key: kind and payload of its event, the event's cursor,
and when the key may be forgotten. -/
structure IdempotentEventRecord where
  kind : String
  payloadDigest : String
  cursor : String
  expiresAt : Option Instant

structure MemoryEventStore where
  events : Dict Scope (List ControlPlaneEvent)
  idempotentEvents : Dict Key IdempotentEventRecord
  eventSequences : Dict Scope Nat
  eventIdempotencySweepCounts : Dict Scope Nat
  maxEventsPerScope : Option Nat
  idempotencyRetentionSeconds : Nat
  maxPositive : ∀ n ∈ maxEventsPerScope, 0 < n
  retentionPositive : 0 < idempotencyRetentionSeconds

/-- `_EVENT_IDEMPOTENCY_SWEEP_INTERVAL`. -/
def eventIdempotencySweepInterval : Nat := 64

def maxEventIdempotencyPruneBatch : Nat := 1000

/-- An empty store with a configuration that `__post_init__` accepts. -/
def MemoryEventStore.init (maxEventsPerScope : Option Nat) (idempotencyRetentionSeconds : Nat)
    (maxPositive : ∀ n ∈ maxEventsPerScope, 0 < n)
    (retentionPositive : 0 < idempotencyRetentionSeconds) : MemoryEventStore where
  events := .empty
  idempotentEvents := .empty
  eventSequences := .empty
  eventIdempotencySweepCounts := .empty
  maxEventsPerScope := maxEventsPerScope
  idempotencyRetentionSeconds := idempotencyRetentionSeconds
  maxPositive := maxPositive
  retentionPositive := retentionPositive

/-- `self._events.get(scope, [])`. -/
def MemoryEventStore.bucket (s : MemoryEventStore) (scope : Scope) : List ControlPlaneEvent :=
  (s.events.get? scope).getD []

/-- `self._events[scope] = bucket`. -/
def MemoryEventStore.setBucket (s : MemoryEventStore) (scope : Scope)
    (bucket : List ControlPlaneEvent) : MemoryEventStore :=
  { s with events := s.events.set scope bucket }

def gone (detail : String) (extensions : List (String × Json)) : PyError :=
  .controlPlane ⟨detail, "PMCP410", 410, "etlantic.control_plane/gone", "Gone", extensions⟩

/-- `max((event.sequence for event in bucket), default=0)`. -/
def latestSequence (bucket : List ControlPlaneEvent) : Nat :=
  (bucket.map (·.sequence)).foldr max 0

/-- `del bucket[: -limit]` for a bucket that is longer. -/
def truncated (limit : Option Nat) (bucket : List ControlPlaneEvent) : List ControlPlaneEvent :=
  match limit with
  | none => bucket
  | some n => if n < bucket.length then bucket.drop (bucket.length - n) else bucket

def isEventExpired (expiresAt : Option Instant) (now : Instant) : Bool :=
  expiresAt.any fun expires => expires ≤ now

section Operations

variable (host : Host) (env : Env) (ctx : ControlPlaneContext)

/-- The first 24 digits of the digest of scope and number. -/
def cursorOf (scope : Scope) (sequence : Nat) : String :=
  String.ofList ((host.sha256
    (scope.tenantId ++ ":" ++ scope.workspaceId ++ ":" ++ toString sequence)).toList.take 24)

/-- The number of the next event. -/
def nextSequence (s : MemoryEventStore) (scope : Scope) : Nat :=
  max ((s.eventSequences.get? scope).getD 0) (latestSequence (s.bucket scope)) + 1

/-- The event that `append` adds. The correlation id is the caller's. -/
def newEvent (correlationId : Option String) (kind : String) (payload : List (String × Json))
    (s : MemoryEventStore) : ControlPlaneEvent where
  eventId := env.generatedId "evt-" 16 0
  sequence := nextSequence s ctx.scopeKey
  cursor := cursorOf host ctx.scopeKey (nextSequence s ctx.scopeKey)
  kind := kind
  createdAt := env.now []
  payload := redactControlPlanePayload host.unicode payload
  correlationId := correlationId
  scope := ctx.scopeKey

/-- The store with one more event, which may push out the oldest. -/
def MemoryEventStore.add (s : MemoryEventStore) (event : ControlPlaneEvent) : MemoryEventStore :=
  { s with
    events := s.events.set event.scope
      (truncated s.maxEventsPerScope (s.bucket event.scope ++ [event]))
    eventSequences := s.eventSequences.set event.scope event.sequence }

def append (correlationId : Option String) (kind : String) (payload : List (String × Json))
    (s : MemoryEventStore) : Reply MemoryEventStore ControlPlaneEvent :=
  ⟨.ok (newEvent host env ctx correlationId kind payload s),
    s.add (newEvent host env ctx correlationId kind payload s)⟩

/-- `_prune_expired_idempotency_locked`: the number of the keys, and the store without them. -/
def pruneExpiredIdempotencyLocked (scope : Scope) (now : Instant) (limit : Nat)
    (s : MemoryEventStore) : Nat × MemoryEventStore :=
  let expired := ((s.idempotentEvents.entries.filter fun e =>
    e.1.scope = scope && isEventExpired e.2.expiresAt now).take limit).map Prod.fst
  (expired.length,
    { s with idempotentEvents := expired.foldl (fun table key => table.erase key) s.idempotentEvents })

/-- The sweep that every 64th `append_once` of a scope makes. -/
def swept (scope : Scope) (now : Instant) (s : MemoryEventStore) : MemoryEventStore :=
  let count := (s.eventIdempotencySweepCounts.get? scope).getD 0 + 1
  let s := { s with eventIdempotencySweepCounts := s.eventIdempotencySweepCounts.set scope count }
  if count % eventIdempotencySweepInterval = 0 then
    (pruneExpiredIdempotencyLocked scope now maxEventIdempotencyPruneBatch s).2
  else s

/-- The record of a key, if it has not expired; an expired one is deleted. -/
def previousRecord (key : Key) (now : Instant) (s : MemoryEventStore) :
    Option IdempotentEventRecord × MemoryEventStore :=
  match s.idempotentEvents.get? key with
  | none => (none, s)
  | some record =>
      if isEventExpired record.expiresAt now then
        (none, { s with idempotentEvents := s.idempotentEvents.erase key })
      else (some record, s)

/-- The answer to a key that is on record. -/
def replayed (record : IdempotentEventRecord) (kind payloadDigest : String)
    (s : MemoryEventStore) : Except PyError ControlPlaneEvent :=
  if record.kind ≠ kind ∨ record.payloadDigest ≠ payloadDigest then
    .error (conflictWith "Event idempotency key was reused with different content"
      [("operation", .str "event.append_once")])
  else
    match (s.bucket ctx.scopeKey).find? (·.cursor = record.cursor) with
    | none => .error (gone "Previously delivered event is outside retained history"
        [("hint", .str "event_expired"), ("operation", .str "event.append_once")])
    | some event => .ok event

def appendOnce (correlationId : Option String) (eventKey kind : String)
    (payload : List (String × Json)) (s : MemoryEventStore) :
    Reply MemoryEventStore ControlPlaneEvent :=
  if isBlank eventKey then ⟨.error (.valueError "event_key must not be empty"), s⟩
  else
    let safe := redactControlPlanePayload host.unicode payload
    let key : Key := ⟨ctx.scopeKey, host.sha256 eventKey⟩
    let payloadDigest := host.sha256 ((Json.obj safe).dumps Json.escapeUnicode)
    match previousRecord key (env.now [0]) (swept ctx.scopeKey (env.now [0]) s) with
    | (some record, s) => ⟨replayed ctx record kind payloadDigest s, s⟩
    | (none, s) =>
        let event := newEvent host env ctx correlationId kind safe s
        let record : IdempotentEventRecord := ⟨kind, payloadDigest, event.cursor,
          some (event.createdAt + seconds s.idempotencyRetentionSeconds)⟩
        let added := s.add event
        ⟨.ok event, { added with idempotentEvents := added.idempotentEvents.set key record }⟩

def pruneExpiredIdempotency (limit : Int) (now : Option Instant) (s : MemoryEventStore) :
    Reply MemoryEventStore Nat :=
  if limit < 1 ∨ (maxEventIdempotencyPruneBatch : Int) < limit then
    ⟨.error (.valueError "limit must be between 1 and 1000"), s⟩
  else
    let pruned :=
      pruneExpiredIdempotencyLocked ctx.scopeKey (now.getD (env.now [0])) limit.toNat s
    ⟨.ok pruned.1, pruned.2⟩

/-- The events that `prune_before_sequence` keeps. -/
def retainedFrom (beforeSequence : Int) (bucket : List ControlPlaneEvent) :
    List ControlPlaneEvent :=
  bucket.filter fun event => min beforeSequence (latestSequence bucket) ≤ event.sequence

def pruneBeforeSequence (beforeSequence : Int) (s : MemoryEventStore) :
    Reply MemoryEventStore Nat :=
  if beforeSequence < 1 then ⟨.error (.valueError "before_sequence must be at least 1"), s⟩
  else
    let bucket := s.bucket ctx.scopeKey
    if bucket.length < 2 then ⟨.ok 0, s⟩
    else
      let retained := retainedFrom beforeSequence bucket
      let pruned := bucket.length - retained.length
      if pruned = 0 then ⟨.ok 0, s⟩
      else ⟨.ok pruned, s.setBucket ctx.scopeKey retained⟩

/-- The events after a cursor, if it is a retained one. -/
def afterCursor (cursor : Option String) (bucket : List ControlPlaneEvent) :
    Option (List ControlPlaneEvent) :=
  match cursor with
  | none => some bucket
  | some text =>
      (bucket.findIdx? (·.cursor = text)).map fun i => bucket.drop (i + 1)

def listAfterCursor (cursor : Option String) (limit : Int) (s : MemoryEventStore) :
    Reply MemoryEventStore (List ControlPlaneEvent) :=
  if limit < 1 then ⟨.ok [], s⟩
  else
    let s := (pruneExpiredIdempotencyLocked ctx.scopeKey (env.now [0]) 1000 s).2
    match afterCursor cursor (s.bucket ctx.scopeKey) with
    | none => ⟨.error (gone ("SSE cursor expired or unknown; reconnect without " ++
        "cursor (or Last-Event-ID) to replay from the beginning")
        [("hint", .str "omit_cursor_or_last_event_id"),
          ("schema", .str "etlantic.control_plane.sse_cursor/1")]), s⟩
    | some rest => ⟨.ok (rest.take limit.toNat), s⟩

end Operations

/-! ## Calls -/

inductive EventCall where
  | append (ctx : ControlPlaneContext) (correlationId : Option String) (kind : String)
      (payload : List (String × Json))
  | appendOnce (ctx : ControlPlaneContext) (correlationId : Option String) (eventKey kind : String)
      (payload : List (String × Json))
  | pruneExpiredIdempotency (ctx : ControlPlaneContext) (limit : Int) (now : Option Instant)
  | pruneBeforeSequence (ctx : ControlPlaneContext) (beforeSequence : Int)
  | listAfterCursor (ctx : ControlPlaneContext) (cursor : Option String) (limit : Int)

/-- The store a call leaves, and the event it answers with. -/
def EventCall.exec (host : Host) (env : Env) (call : EventCall) (s : MemoryEventStore) :
    Option ControlPlaneEvent × MemoryEventStore :=
  match call with
  | .append ctx correlationId kind payload =>
      let reply := Memory.append host env ctx correlationId kind payload s
      (reply.result.toOption, reply.state)
  | .appendOnce ctx correlationId eventKey kind payload =>
      let reply := Memory.appendOnce host env ctx correlationId eventKey kind payload s
      (reply.result.toOption, reply.state)
  | .pruneExpiredIdempotency ctx limit now =>
      (none, (Memory.pruneExpiredIdempotency env ctx limit now s).state)
  | .pruneBeforeSequence ctx beforeSequence =>
      (none, (Memory.pruneBeforeSequence ctx beforeSequence s).state)
  | .listAfterCursor ctx cursor limit =>
      (none, (Memory.listAfterCursor env ctx cursor limit s).state)

end Etlantic.ControlPlane.Memory
