import Etlantic.ControlPlane.Memory.EventCursors
import Etlantic.ControlPlane.Memory.EventScopes
import Etlantic.Base.JsonCanonical
import Etlantic.ControlPlane.Durable.Generations

/-!
# At most one event for a key

A history of the event store with the events that `append_once` added, each with
its key.  Until the retention of such an event has passed, a call with its key
and its content gets the event back, or is told that the event has been pruned;
a call with other content is refused; neither adds an event.  Nothing that a
call removes, swept, expired or pruned, changes this.
-/

namespace Etlantic.ControlPlane.Memory

open Durable (Host Env Key)

/-! ## What a call removes from the keys -/

/-- Keys are removed only if they have expired. -/
structure Forgets (now : Instant) (table table' : Dict Key IdempotentEventRecord) : Prop where
  kept : ∀ key record, table.get? key = some record →
    isEventExpired record.expiresAt now = false → table'.get? key = some record
  known : ∀ key record, table'.get? key = some record → table.get? key = some record

section Keys

variable {now : Instant} {s : MemoryEventStore} {scope : Scope}

theorem Forgets.refl (now : Instant) (table : Dict Key IdempotentEventRecord) :
    Forgets now table table :=
  ⟨fun _ _ hget _ => hget, fun _ _ hget => hget⟩

theorem Forgets.trans {a b c : Dict Key IdempotentEventRecord} (hab : Forgets now a b)
    (hbc : Forgets now b c) : Forgets now a c := by
  constructor
  · intro key record hget hexpired
    exact hbc.kept key record (hab.kept key record hget hexpired) hexpired
  · intro key record hget
    exact hab.known key record (hbc.known key record hget)

theorem Forgets.erase {table : Dict Key IdempotentEventRecord} {key : Key}
    (h : ∀ record, table.get? key = some record → isEventExpired record.expiresAt now = true) :
    Forgets now table (table.erase key) := by
  constructor
  · intro other record hget hexpired
    rw [Dict.get?_erase, if_neg ?_]
    · exact hget
    · rintro rfl
      rw [h record hget] at hexpired
      cases hexpired
  · intro other record hget
    rw [Dict.get?_erase] at hget
    split at hget
    · cases hget
    · exact hget

theorem Forgets.eraseAll {table : Dict Key IdempotentEventRecord} {keys : List Key}
    (h : ∀ key ∈ keys, ∀ record, table.get? key = some record →
      isEventExpired record.expiresAt now = true) :
    Forgets now table (keys.foldl (fun table key => table.erase key) table) := by
  induction keys generalizing table with
  | nil => exact .refl now table
  | cons key keys ih =>
      have hfirst : Forgets now table (table.erase key) := .erase (h key List.mem_cons_self)
      rw [List.foldl_cons]
      refine hfirst.trans (ih ?_)
      intro other hother record hget
      exact h other (List.mem_cons_of_mem _ hother) record (hfirst.known other record hget)

theorem pruned_forgets (scope : Scope) (limit : Nat) :
    Forgets now s.idempotentEvents
      (pruneExpiredIdempotencyLocked scope now limit s).2.idempotentEvents := by
  rw [pruneExpiredIdempotencyLocked_eq]
  apply Forgets.eraseAll
  intro key hkey record hget
  obtain ⟨-, found, hfound, hexpired⟩ := mem_expiredKeys hkey
  rw [hget] at hfound
  obtain rfl := Option.some.inj hfound
  exact hexpired

theorem swept_forgets (scope : Scope) :
    Forgets now s.idempotentEvents (swept scope now s).idempotentEvents := by
  unfold swept
  simp only
  split
  · exact pruned_forgets scope _
  · exact .refl now _

theorem swept_retention (scope : Scope) :
    (swept scope now s).idempotencyRetentionSeconds = s.idempotencyRetentionSeconds := by
  unfold swept
  simp only
  split
  · rfl
  · rfl

/-- The record of a key that has not expired, or none in the table that is left. -/
theorem previousRecord_cases (key : Key) (now : Instant) (s : MemoryEventStore) :
    (∃ record, s.idempotentEvents.get? key = some record ∧
        isEventExpired record.expiresAt now = false ∧
        previousRecord key now s = (some record, s)) ∨
      (∀ record, s.idempotentEvents.get? key = some record →
          isEventExpired record.expiresAt now = true) ∧
        ∃ base, previousRecord key now s = (none, base) ∧ SameLogs s base ∧
          Forgets now s.idempotentEvents base.idempotentEvents ∧
          base.idempotencyRetentionSeconds = s.idempotencyRetentionSeconds := by
  unfold previousRecord
  cases hget : s.idempotentEvents.get? key with
  | none =>
      refine .inr ⟨fun record h => (by cases h), s, rfl, .refl s, .refl now _, rfl⟩
  | some record =>
      simp only
      cases hexpired : isEventExpired record.expiresAt now with
      | false => exact .inl ⟨record, rfl, hexpired, rfl⟩
      | true =>
          refine .inr ⟨?_, _, rfl, ⟨rfl, rfl, rfl⟩, .erase ?_, rfl⟩
          · intro found hfound
            obtain rfl := Option.some.inj hfound
            exact hexpired
          · intro found hfound
            rw [hget] at hfound
            obtain rfl := Option.some.inj hfound
            exact hexpired

end Keys

/-! ## The two ways of `append_once` -/

/-- What the payload digest is taken of. -/
def payloadText (payload : List (String × Json)) : String :=
  (Json.obj payload).dumps Json.escapeUnicode

/-- The key is known, and the call answers from its record; or it is not, and the call
adds an event and remembers the key. -/
inductive OnceCases (host : Host) (env : Env) (ctx : ControlPlaneContext)
    (correlationId : Option String) (eventKey kind : String) (payload : List (String × Json))
    (s : MemoryEventStore) : Reply MemoryEventStore ControlPlaneEvent → Prop
  | known (record : IdempotentEventRecord) (base : MemoryEventStore) (hbase : SameLogs s base)
      (hforgets : Forgets (env.now [0]) s.idempotentEvents base.idempotentEvents)
      (hretention : base.idempotencyRetentionSeconds = s.idempotencyRetentionSeconds)
      (hget : s.idempotentEvents.get? ⟨ctx.scopeKey, host.sha256 eventKey⟩ = some record)
      (hexpired : isEventExpired record.expiresAt (env.now [0]) = false) :
      OnceCases host env ctx correlationId eventKey kind payload s
        ⟨replayed ctx record kind (host.sha256 (payloadText payload)) base, base⟩
  | fresh (event : ControlPlaneEvent) (base : MemoryEventStore) (hbase : SameLogs s base)
      (hforgets : Forgets (env.now [0]) s.idempotentEvents base.idempotentEvents)
      (hretention : base.idempotencyRetentionSeconds = s.idempotencyRetentionSeconds)
      (hexpired : ∀ record,
        s.idempotentEvents.get? ⟨ctx.scopeKey, host.sha256 eventKey⟩ = some record →
          isEventExpired record.expiresAt (env.now [0]) = true)
      (hevent : event = newEvent host env ctx correlationId kind payload base) :
      OnceCases host env ctx correlationId eventKey kind payload s
        ⟨.ok event, { base.add event with
          idempotentEvents := base.idempotentEvents.set ⟨ctx.scopeKey, host.sha256 eventKey⟩
            ⟨kind, host.sha256 (payloadText payload), event.cursor,
              some (event.createdAt + seconds s.idempotencyRetentionSeconds)⟩ }⟩

theorem appendOnce_cases {host : Host} {env : Env} {ctx : ControlPlaneContext}
    {correlationId : Option String} {eventKey kind : String} {payload : List (String × Json)}
    {s : MemoryEventStore} (hkey : isBlank eventKey = false) :
    OnceCases host env ctx correlationId eventKey kind
      (redactControlPlanePayload host.unicode payload) s
      (appendOnce host env ctx correlationId eventKey kind payload s) := by
  have hsame := swept_same ctx.scopeKey (env.now [0]) s
  have hforgets : Forgets (env.now [0]) s.idempotentEvents
      (swept ctx.scopeKey (env.now [0]) s).idempotentEvents := swept_forgets ctx.scopeKey
  have hretention : (swept ctx.scopeKey (env.now [0]) s).idempotencyRetentionSeconds =
      s.idempotencyRetentionSeconds := swept_retention ctx.scopeKey
  unfold appendOnce
  rw [if_neg (by simp [hkey])]
  simp only
  generalize swept ctx.scopeKey (env.now [0]) s = base at hsame hforgets hretention
  rcases previousRecord_cases ⟨ctx.scopeKey, host.sha256 eventKey⟩ (env.now [0]) base with
    ⟨record, hget, hexpired, hprevious⟩ |
      ⟨hexpired, base', hprevious, hsame', hforgets', hretention'⟩
  · rw [hprevious]
    exact .known record base hsame hforgets hretention (hforgets.known _ _ hget) hexpired
  · rw [hprevious]
    simp only
    have hbase : SameLogs s base' := ⟨hsame'.events.trans hsame.events,
      hsame'.eventSequences.trans hsame.eventSequences,
      hsame'.maxEventsPerScope.trans hsame.maxEventsPerScope⟩
    have hsettled : ∀ record,
        s.idempotentEvents.get? ⟨ctx.scopeKey, host.sha256 eventKey⟩ = some record →
          isEventExpired record.expiresAt (env.now [0]) = true := by
      intro record hget
      by_contra hne
      have hlive : isEventExpired record.expiresAt (env.now [0]) = false := by simpa using hne
      have hleft := hforgets.kept _ record hget hlive
      rw [hexpired record hleft] at hlive
      cases hlive
    rw [hretention'.trans hretention]
    exact .fresh _ base' hbase (hforgets.trans hforgets') (hretention'.trans hretention) hsettled
      rfl

/-! ## Histories -/

/-- An event that `append_once` added, with the key and the content it was added for. -/
structure Delivery where
  scope : Scope
  eventKey : String
  kind : String
  payload : List (String × Json)
  event : ControlPlaneEvent

/-- A store, with the events added so far, those of keys, and the clock readings. -/
structure OnceHistory where
  store : MemoryEventStore
  log : List ControlPlaneEvent
  deliveries : List Delivery
  readings : List Instant

/-- When the key of a delivery may be forgotten. -/
def Delivery.expiry (retention : Nat) (d : Delivery) : Instant :=
  d.event.createdAt + seconds retention

/-- The delivery of a key whose retention has not passed. -/
def OnceHistory.inForce (h : OnceHistory) (scope : Scope) (eventKey : String) (now : Instant) :
    Option Delivery :=
  h.deliveries.find? fun d => d.scope = scope ∧ d.eventKey = eventKey ∧
    now < d.expiry h.store.idempotencyRetentionSeconds

/-- The clock readings of a call, in order. -/
def EventCall.clock (env : Env) : EventCall → List Instant
  | .append .. => [env.now []]
  | .appendOnce .. => [env.now [0], env.now []]
  | .pruneExpiredIdempotency _ _ none => [env.now [0]]
  | .pruneExpiredIdempotency _ _ (some _) => []
  | .pruneBeforeSequence .. => []
  | .listAfterCursor .. => [env.now [0]]

/-- The time that a caller gives. -/
def EventCall.given : EventCall → List Instant
  | .pruneExpiredIdempotency _ _ (some now) => [now]
  | _ => []

/-- The time at which a call judges whether keys have expired. -/
def EventCall.time (env : Env) : EventCall → Instant
  | .pruneExpiredIdempotency _ _ (some now) => now
  | _ => env.now [0]

variable (host : Host)

/-- The deliveries after a call: a new one where none was in force. -/
def OnceHistory.delivered (h : OnceHistory) (turn : Turn) : List Delivery :=
  match turn.call with
  | .appendOnce ctx _ eventKey kind payload =>
      match h.inForce ctx.scopeKey eventKey (turn.env.now [0]),
          (turn.call.exec host turn.env h.store).1 with
      | none, some event =>
          ⟨ctx.scopeKey, eventKey, kind, redactControlPlanePayload host.unicode payload,
            event⟩ :: h.deliveries
      | _, _ => h.deliveries
  | _ => h.deliveries

def OnceHistory.next (h : OnceHistory) (turn : Turn) : OnceHistory where
  store := turn.exec host h.store
  log := logged h.log (turn.call.exec host turn.env h.store).1
  deliveries := h.delivered host turn
  readings := h.readings ++ turn.call.clock turn.env ++ turn.call.given

/-- The clock does not go back, neither within the call nor behind a time that an earlier
call read or was given. -/
def Steady (h : OnceHistory) (turn : Turn) : Prop :=
  (turn.call.clock turn.env).Pairwise (· ≤ ·) ∧
    ∀ t ∈ h.readings, ∀ now ∈ turn.call.clock turn.env, t ≤ now

def keyReused : PyError :=
  conflictWith "Event idempotency key was reused with different content"
    [("operation", .str "event.append_once")]

def eventGone : PyError :=
  gone "Previously delivered event is outside retained history"
    [("hint", .str "event_expired"), ("operation", .str "event.append_once")]

/-- What a call with a key answers: where a delivery is in force, its event, or that it is
gone, or that the content is another; otherwise a new event. -/
def AnswersOnce (h : OnceHistory) (turn : Turn) (scope : Scope) (eventKey kind : String)
    (payload : List (String × Json)) : Prop :=
  match h.inForce scope eventKey (turn.env.now [0]) with
  | none => ∃ event, turn.call.answer host turn.env h.store = .ok (.event event) ∧
      (h.next host turn).log = h.log ++ [event]
  | some d =>
      (h.next host turn).log = h.log ∧
        (∀ other, (h.next host turn).store.bucket other = h.store.bucket other) ∧
        ((kind = d.kind ∧ payloadText payload = payloadText d.payload) →
          (d.event ∈ h.store.bucket scope →
              turn.call.answer host turn.env h.store = .ok (.event d.event)) ∧
            (d.event ∉ h.store.bucket scope →
              turn.call.answer host turn.env h.store = .error eventGone)) ∧
        (¬ (kind = d.kind ∧ payloadText payload = payloadText d.payload) →
          turn.call.answer host turn.env h.store = .error keyReused)

/-- The law of `append_once`; a blank key is refused. -/
def OnceLaw (h : OnceHistory) (turn : Turn) : Prop :=
  match turn.call with
  | .appendOnce ctx _ eventKey kind payload =>
      isBlank eventKey = false →
        AnswersOnce host h turn ctx.scopeKey eventKey kind
          (redactControlPlanePayload host.unicode payload)
  | _ => True

/-- The call removes and changes no key that has not expired. -/
def KeepsUnexpired (h : OnceHistory) (turn : Turn) : Prop :=
  ∀ key record, h.store.idempotentEvents.get? key = some record →
    isEventExpired record.expiresAt (turn.call.time turn.env) = false →
    (h.next host turn).store.idempotentEvents.get? key = some record

def OnceHistory.init (maxEventsPerScope : Option Nat) (idempotencyRetentionSeconds : Nat)
    (maxPositive : ∀ n ∈ maxEventsPerScope, 0 < n)
    (retentionPositive : 0 < idempotencyRetentionSeconds) : OnceHistory where
  store := .init maxEventsPerScope idempotencyRetentionSeconds maxPositive retentionPositive
  log := []
  deliveries := []
  readings := []

/-! ## What the store remembers -/

def Delivery.key (d : Delivery) : Key := ⟨d.scope, host.sha256 d.eventKey⟩

def Delivery.record (retention : Nat) (d : Delivery) : IdempotentEventRecord :=
  ⟨d.kind, host.sha256 (payloadText d.payload), d.event.cursor, some (d.expiry retention)⟩

/-- The store has the key of every delivery that no reading has passed, and no other keys. -/
structure Remembers (h : OnceHistory) : Prop where
  kept : Kept host h.store h.log
  retained : ∀ d ∈ h.deliveries,
    (∀ t ∈ h.readings, t < d.expiry h.store.idempotencyRetentionSeconds) →
      h.store.idempotentEvents.get? (d.key host) =
        some (d.record host h.store.idempotencyRetentionSeconds)
  traced : ∀ key record, h.store.idempotentEvents.get? key = some record →
    ∃ d ∈ h.deliveries,
      key = d.key host ∧ record = d.record host h.store.idempotencyRetentionSeconds
  recorded : ∀ d ∈ h.deliveries, d.event ∈ stream h.log d.scope

section Remembers

variable {host}

@[simp] theorem isEventExpired_record {d : Delivery} {retention : Nat} {now : Instant} :
    isEventExpired (d.record host retention).expiresAt now = false ↔ now < d.expiry retention := by
  simp [isEventExpired, Delivery.record]

/-- A call other than `append_once` removes expired keys at most. -/
theorem exec_forgets (host : Host) (env : Env) {call : EventCall} (s : MemoryEventStore)
    (hcall : ∀ ctx correlationId eventKey kind payload,
      call ≠ .appendOnce ctx correlationId eventKey kind payload) :
    Forgets (call.time env) s.idempotentEvents (call.exec host env s).2.idempotentEvents ∧
      (call.time env ∈ call.clock env ++ call.given ∨
        (call.exec host env s).2.idempotentEvents = s.idempotentEvents) ∧
      (call.exec host env s).2.idempotencyRetentionSeconds = s.idempotencyRetentionSeconds := by
  cases call with
  | append ctx correlationId kind payload => exact ⟨.refl _ _, .inr rfl, rfl⟩
  | appendOnce ctx correlationId eventKey kind payload => exact absurd rfl (hcall _ _ _ _ _)
  | pruneExpiredIdempotency ctx limit now =>
      have htime : (EventCall.pruneExpiredIdempotency ctx limit now).time env =
          now.getD (env.now [0]) := by
        cases now with
        | none => rfl
        | some now => rfl
      rw [htime]
      have hread : now.getD (env.now [0]) ∈
          (EventCall.pruneExpiredIdempotency ctx limit now).clock env ++
            (EventCall.pruneExpiredIdempotency ctx limit now).given := by
        cases now with
        | none => exact List.mem_cons_self
        | some now => exact List.mem_cons_self
      refine ⟨?_, .inl hread, ?_⟩
      · show Forgets _ _ (pruneExpiredIdempotency env ctx limit now s).state.idempotentEvents
        unfold pruneExpiredIdempotency
        split
        · exact .refl _ _
        · exact pruned_forgets _ _
      · show (pruneExpiredIdempotency env ctx limit now s).state.idempotencyRetentionSeconds = _
        unfold pruneExpiredIdempotency
        split
        · rfl
        · rfl
  | pruneBeforeSequence ctx beforeSequence =>
      have hstate : (pruneBeforeSequence ctx beforeSequence s).state.idempotentEvents =
            s.idempotentEvents ∧
          (pruneBeforeSequence ctx beforeSequence s).state.idempotencyRetentionSeconds =
            s.idempotencyRetentionSeconds := by
        unfold pruneBeforeSequence
        simp only
        split
        · exact ⟨rfl, rfl⟩
        · split
          · exact ⟨rfl, rfl⟩
          · split
            · exact ⟨rfl, rfl⟩
            · exact ⟨rfl, rfl⟩
      refine ⟨?_, .inr hstate.1, hstate.2⟩
      show Forgets _ _ (pruneBeforeSequence ctx beforeSequence s).state.idempotentEvents
      rw [hstate.1]
      exact .refl _ _
  | listAfterCursor ctx cursor limit =>
      refine ⟨?_, .inl List.mem_cons_self, ?_⟩
      · show Forgets _ _ (listAfterCursor env ctx cursor limit s).state.idempotentEvents
        unfold listAfterCursor
        split
        · exact .refl _ _
        · simp only
          split
          · exact pruned_forgets _ _
          · exact pruned_forgets _ _
      · show (listAfterCursor env ctx cursor limit s).state.idempotencyRetentionSeconds = _
        unfold listAfterCursor
        split
        · rfl
        · simp only
          split
          · rfl
          · rfl

variable {h : OnceHistory} {turn : Turn}

theorem next_kept (hh : Remembers host h) (turn : Turn) :
    Kept host (h.next host turn).store (h.next host turn).log ∧
      h.log <+: (h.next host turn).log :=
  hh.kept.exec turn.env turn.call

theorem Remembers.of_forgets (hh : Remembers host h)
    (hcall : ∀ ctx correlationId eventKey kind payload,
      turn.call ≠ .appendOnce ctx correlationId eventKey kind payload) :
    Remembers host (h.next host turn) := by
  obtain ⟨hkept, hlog⟩ := next_kept hh turn
  obtain ⟨hforgets, hread, hretention⟩ := exec_forgets host turn.env h.store hcall
  have hdeliveries : (h.next host turn).deliveries = h.deliveries := by
    show h.delivered host turn = _
    unfold OnceHistory.delivered
    split
    · rename_i ctx correlationId eventKey kind payload heq
      exact absurd heq (hcall _ _ _ _ _)
    · rfl
  have hstate : (h.next host turn).store = (turn.call.exec host turn.env h.store).2 := rfl
  refine ⟨hkept, ?_, ?_, ?_⟩
  · rw [hdeliveries, hstate, hretention]
    intro d hd hlive
    have hold := hh.retained d hd fun t ht =>
      hlive t (List.mem_append_left _ (List.mem_append_left _ ht))
    rcases hread with hread | hsame
    · refine hforgets.kept _ _ hold (isEventExpired_record.mpr (hlive _ ?_))
      show _ ∈ h.readings ++ _ ++ _
      rw [List.append_assoc]
      exact List.mem_append_right _ hread
    · rw [hsame]
      exact hold
  · rw [hdeliveries, hstate, hretention]
    intro key record hget
    exact hh.traced key record (hforgets.known key record hget)
  · rw [hdeliveries]
    intro d hd
    exact (prefix_stream hlog _).mem (hh.recorded d hd)

theorem inForce_spec {scope : Scope} {eventKey : String} {now : Instant} {d : Delivery}
    (hforce : h.inForce scope eventKey now = some d) :
    d ∈ h.deliveries ∧ d.scope = scope ∧ d.eventKey = eventKey ∧
      now < d.expiry h.store.idempotencyRetentionSeconds := by
  refine ⟨List.mem_of_find?_eq_some hforce, ?_⟩
  simpa using List.find?_some hforce

/-- The record of a delivery in force is on the table, as long as the clock has not gone back. -/
theorem Remembers.inForce_record (hh : Remembers host h) {scope : Scope} {eventKey : String}
    {now : Instant} {d : Delivery} (hforce : h.inForce scope eventKey now = some d)
    (hread : ∀ t ∈ h.readings, t ≤ now) :
    h.store.idempotentEvents.get? ⟨scope, host.sha256 eventKey⟩ =
      some (d.record host h.store.idempotencyRetentionSeconds) := by
  obtain ⟨hd, rfl, rfl, hlive⟩ := inForce_spec hforce
  exact hh.retained d hd fun t ht => (hread t ht).trans_lt hlive

/-- A record that has not expired is that of a delivery in force. -/
theorem Remembers.inForce_of_record (hh : Remembers host h)
    (hsha : Function.Injective host.sha256) {scope : Scope} {eventKey : String} {now : Instant}
    {record : IdempotentEventRecord}
    (hget : h.store.idempotentEvents.get? ⟨scope, host.sha256 eventKey⟩ = some record)
    (hexpired : isEventExpired record.expiresAt now = false) :
    h.inForce scope eventKey now ≠ none := by
  obtain ⟨d, hd, hkey, rfl⟩ := hh.traced _ record hget
  obtain ⟨hscope, hdigest⟩ := Key.mk.inj hkey
  intro hnone
  have hnot := List.find?_eq_none.mp hnone d hd
  apply hnot
  simp only [decide_eq_true_eq]
  exact ⟨hscope.symm, (hsha hdigest).symm, isEventExpired_record.mp hexpired⟩

/-! ### A call of `append_once` -/

/-- What the call does to a history that remembers its deliveries. -/
inductive OnceStep (host : Host) (h : OnceHistory) (turn : Turn) (ctx : ControlPlaneContext)
    (eventKey kind : String) (payload : List (String × Json)) : Prop
  | known (d : Delivery) (hforce : h.inForce ctx.scopeKey eventKey (turn.env.now [0]) = some d)
      (hsame : SameLogs h.store (h.next host turn).store)
      (hforgets : Forgets (turn.env.now [0]) h.store.idempotentEvents
        (h.next host turn).store.idempotentEvents)
      (hlog : (h.next host turn).log = h.log)
      (hdeliveries : (h.next host turn).deliveries = h.deliveries)
      (hanswer : turn.call.answer host turn.env h.store =
        (replayed ctx (d.record host h.store.idempotencyRetentionSeconds) kind
          (host.sha256 (payloadText payload)) (h.next host turn).store).map .event)
  | fresh (d : Delivery) (table : Dict Key IdempotentEventRecord)
      (hforce : h.inForce ctx.scopeKey eventKey (turn.env.now [0]) = none)
      (hcreated : d.event.createdAt = turn.env.now []) (hscope : d.event.scope = d.scope)
      (hexpired : ∀ record, h.store.idempotentEvents.get? (d.key host) = some record →
        isEventExpired record.expiresAt (turn.env.now [0]) = true)
      (hforgets : Forgets (turn.env.now [0]) h.store.idempotentEvents table)
      (htable : (h.next host turn).store.idempotentEvents =
        table.set (d.key host) (d.record host h.store.idempotencyRetentionSeconds))
      (hlog : (h.next host turn).log = h.log ++ [d.event])
      (hdeliveries : (h.next host turn).deliveries = d :: h.deliveries)
      (hanswer : turn.call.answer host turn.env h.store = .ok (.event d.event))

theorem Remembers.once_step (hh : Remembers host h) (hsha : Function.Injective host.sha256)
    (hsteady : Steady h turn) {ctx : ControlPlaneContext} {correlationId : Option String}
    {eventKey kind : String} {payload : List (String × Json)} (hkey : isBlank eventKey = false)
    (hturn : turn.call = .appendOnce ctx correlationId eventKey kind payload) :
    OnceStep host h turn ctx eventKey kind (redactControlPlanePayload host.unicode payload) ∧
      (h.next host turn).store.idempotencyRetentionSeconds =
        h.store.idempotencyRetentionSeconds := by
  obtain ⟨env, call⟩ := turn
  subst hturn
  have hread : ∀ t ∈ h.readings, t ≤ env.now [0] :=
    fun t ht => hsteady.2 t ht _ List.mem_cons_self
  have hcases : OnceCases host env ctx correlationId eventKey kind
      (redactControlPlanePayload host.unicode payload) h.store
      (Memory.appendOnce host env ctx correlationId eventKey kind payload h.store) :=
    appendOnce_cases hkey
  have hnext : (h.next host ⟨env, .appendOnce ctx correlationId eventKey kind payload⟩).store =
      (Memory.appendOnce host env ctx correlationId eventKey kind payload h.store).state := rfl
  have hlog : (h.next host ⟨env, .appendOnce ctx correlationId eventKey kind payload⟩).log =
      logged h.log (Memory.appendOnce host env ctx correlationId eventKey kind payload
        h.store).result.toOption := rfl
  have hanswer : EventCall.answer host env
        (.appendOnce ctx correlationId eventKey kind payload) h.store =
      (Memory.appendOnce host env ctx correlationId eventKey kind payload h.store).result.map
        .event := rfl
  have hdeliveries :
      (h.next host ⟨env, .appendOnce ctx correlationId eventKey kind payload⟩).deliveries =
        match h.inForce ctx.scopeKey eventKey (env.now [0]),
          (Memory.appendOnce host env ctx correlationId eventKey kind payload
            h.store).result.toOption with
        | none, some event =>
            ⟨ctx.scopeKey, eventKey, kind, redactControlPlanePayload host.unicode payload,
              event⟩ :: h.deliveries
        | _, _ => h.deliveries := rfl
  generalize Memory.appendOnce host env ctx correlationId eventKey kind payload h.store = reply
    at hcases hnext hlog hanswer hdeliveries
  cases hcases with
  | known record base hbase hforgets hretention hget hexpired =>
      cases hforce : h.inForce ctx.scopeKey eventKey (env.now [0]) with
      | none => exact absurd hforce (hh.inForce_of_record hsha hget hexpired)
      | some d =>
          have hrecord := hh.inForce_record hforce hread
          rw [hget] at hrecord
          obtain rfl := Option.some.inj hrecord
          rw [hforce] at hdeliveries
          refine ⟨.known d hforce ?_ ?_ ?_ hdeliveries ?_, ?_⟩
          · rw [hnext]
            exact hbase
          · rw [hnext]
            exact hforgets
          · rw [hlog]
            simp only
            cases hreplay : replayed ctx (d.record host h.store.idempotencyRetentionSeconds) kind
                (host.sha256 (payloadText (redactControlPlanePayload host.unicode payload)))
                base with
            | error error => rfl
            | ok event =>
                have hmem := replayed_mem hreplay
                rw [hbase.bucket] at hmem
                exact hh.kept.logged_retained hmem
          · rw [hanswer, hnext]
          · rw [hnext]
            exact hretention
  | fresh event base hbase hforgets hretention hexpired hevent =>
      cases hforce : h.inForce ctx.scopeKey eventKey (env.now [0]) with
      | some d =>
          -- The record of a delivery in force would not have expired.
          have hrecord := hexpired _ (hh.inForce_record hforce hread)
          have hlive : isEventExpired
              (d.record host h.store.idempotencyRetentionSeconds).expiresAt (env.now [0]) = false :=
            isEventExpired_record.mpr (inForce_spec hforce).2.2.2
          rw [hrecord] at hlive
          cases hlive
      | none =>
          rw [hforce] at hdeliveries
          refine ⟨.fresh ⟨ctx.scopeKey, eventKey, kind,
            redactControlPlanePayload host.unicode payload, event⟩ base.idempotentEvents hforce
            ?_ ?_ hexpired hforgets ?_ ?_ hdeliveries hanswer, ?_⟩
          · rw [hevent]
            rfl
          · rw [hevent]
            rfl
          · rw [hnext]
            rfl
          · rw [hlog]
            refine hh.kept.logged_added ?_
            rw [hevent]
            exact hbase.nextSequence _
          · rw [hnext]
            exact hretention

theorem Remembers.of_once (hh : Remembers host h)
    {ctx : ControlPlaneContext} {correlationId : Option String} {eventKey kind : String}
    {payload payload' : List (String × Json)}
    (hturn : turn.call = .appendOnce ctx correlationId eventKey kind payload)
    (hstep : OnceStep host h turn ctx eventKey kind payload')
    (hretention : (h.next host turn).store.idempotencyRetentionSeconds =
      h.store.idempotencyRetentionSeconds) : Remembers host (h.next host turn) := by
  obtain ⟨hkept, hprefixed⟩ := next_kept hh turn
  have hclock : turn.call.clock turn.env = [turn.env.now [0], turn.env.now []] := by
    rw [hturn]
    rfl
  have hread : ∀ t, t ∈ h.readings ∨ t ∈ turn.call.clock turn.env →
      t ∈ (h.next host turn).readings := by
    intro t ht
    exact List.mem_append_left _ (List.mem_append.mpr ht)
  have hnow : turn.env.now [0] ∈ (h.next host turn).readings := by
    refine hread _ (.inr ?_)
    rw [hclock]
    exact List.mem_cons_self
  cases hstep with
  | known d hforce hsame hforgets hlog hdeliveries hanswer =>
      refine ⟨hkept, ?_, ?_, ?_⟩
      · rw [hdeliveries, hretention]
        intro d hd hlive
        have hold := hh.retained d hd fun t ht => hlive t (hread t (.inl ht))
        exact hforgets.kept _ _ hold (isEventExpired_record.mpr (hlive _ hnow))
      · rw [hdeliveries, hretention]
        intro key record hget
        exact hh.traced key record (hforgets.known key record hget)
      · rw [hdeliveries, hlog]
        exact hh.recorded
  | fresh d table hforce hcreated hscope hexpired hforgets htable hlog hdeliveries hanswer =>
      refine ⟨hkept, ?_, ?_, ?_⟩
      · rw [hdeliveries, hretention, htable]
        intro d' hd' hlive
        rcases List.mem_cons.mp hd' with rfl | hd'
        · exact Dict.get?_set_self _ _ _
        · -- An older delivery that is still live has another key.
          have hold := hh.retained d' hd' fun t ht => hlive t (hread t (.inl ht))
          have hlater : isEventExpired
              (d'.record host h.store.idempotencyRetentionSeconds).expiresAt
              (turn.env.now [0]) = false := isEventExpired_record.mpr (hlive _ hnow)
          have hne : d.key host ≠ d'.key host := by
            intro heq
            rw [← heq] at hold
            rw [hexpired _ hold] at hlater
            cases hlater
          rw [Dict.get?_set_ne _ _ hne]
          exact hforgets.kept _ _ hold hlater
      · rw [hdeliveries, hretention, htable]
        intro key record hget
        rcases Dict.get?_set_eq_some.mp hget with ⟨rfl, rfl⟩ | ⟨-, hget⟩
        · exact ⟨d, List.mem_cons_self, rfl, rfl⟩
        · obtain ⟨d', hd', hkey, hrecord⟩ := hh.traced key record (hforgets.known key record hget)
          exact ⟨d', List.mem_cons_of_mem _ hd', hkey, hrecord⟩
      · rw [hdeliveries]
        intro d' hd'
        rcases List.mem_cons.mp hd' with rfl | hd'
        · rw [hlog, stream_append, if_pos hscope]
          exact List.mem_append_right _ List.mem_cons_self
        · exact (prefix_stream hprefixed _).mem (hh.recorded d' hd')

/-- A call with a blank key changes nothing. -/
theorem next_blank (host : Host) (h : OnceHistory) {ctx : ControlPlaneContext}
    {correlationId : Option String} {eventKey kind : String} {payload : List (String × Json)}
    (hturn : turn.call = .appendOnce ctx correlationId eventKey kind payload)
    (hkey : isBlank eventKey = true) :
    (h.next host turn).store = h.store ∧ (h.next host turn).log = h.log ∧
      (h.next host turn).deliveries = h.deliveries := by
  obtain ⟨env, call⟩ := turn
  subst hturn
  have hexec : EventCall.exec host env (.appendOnce ctx correlationId eventKey kind payload)
      h.store = (none, h.store) := by
    show ((Memory.appendOnce host env ctx correlationId eventKey kind payload
      h.store).result.toOption, _) = _
    unfold appendOnce
    rw [if_pos hkey]
    rfl
  refine ⟨congrArg Prod.snd hexec, ?_, ?_⟩
  · show logged h.log (EventCall.exec host env _ h.store).1 = _
    rw [hexec]
    rfl
  · unfold OnceHistory.next OnceHistory.delivered
    simp only
    rw [hexec]
    split
    · rename_i heq
      cases heq
    · rfl

theorem Remembers.step (hh : Remembers host h) (hsha : Function.Injective host.sha256)
    (hsteady : Steady h turn) : Remembers host (h.next host turn) := by
  by_cases hcall : ∀ ctx correlationId eventKey kind payload,
      turn.call ≠ .appendOnce ctx correlationId eventKey kind payload
  · exact hh.of_forgets hcall
  · simp only [not_forall, not_not] at hcall
    obtain ⟨ctx, correlationId, eventKey, kind, payload, hturn⟩ := hcall
    cases hkey : isBlank eventKey with
    | false =>
        obtain ⟨hstep, hretention⟩ := hh.once_step hsha hsteady hkey hturn
        exact hh.of_once hturn hstep hretention
    | true =>
        obtain ⟨hstore, hlog, hdeliveries⟩ := next_blank host h hturn hkey
        refine ⟨(next_kept hh turn).1, ?_, ?_, ?_⟩
        · rw [hstore, hdeliveries]
          intro d hd hlive
          exact hh.retained d hd fun t ht =>
            hlive t (List.mem_append_left _ (List.mem_append_left _ ht))
        · rw [hstore, hdeliveries]
          exact hh.traced
        · rw [hlog, hdeliveries]
          exact hh.recorded

theorem Remembers.keepsUnexpired (hh : Remembers host h) (hsha : Function.Injective host.sha256)
    (hsteady : Steady h turn) : KeepsUnexpired host h turn := by
  by_cases hcall : ∀ ctx correlationId eventKey kind payload,
      turn.call ≠ .appendOnce ctx correlationId eventKey kind payload
  · exact (exec_forgets host turn.env h.store hcall).1.kept
  · simp only [not_forall, not_not] at hcall
    obtain ⟨ctx, correlationId, eventKey, kind, payload, hturn⟩ := hcall
    have htime : turn.call.time turn.env = turn.env.now [0] := by
      rw [hturn]
      rfl
    unfold KeepsUnexpired
    rw [htime]
    intro key record hget hlive
    cases hkey : isBlank eventKey with
    | true =>
        rw [(next_blank host h hturn hkey).1]
        exact hget
    | false =>
        cases (hh.once_step hsha hsteady hkey hturn).1 with
        | known d hforce hsame hforgets hlog hdeliveries hanswer =>
            exact hforgets.kept key record hget hlive
        | fresh d table hforce hcreated hscope hexpired hforgets htable hlog hdeliveries hanswer =>
            rw [htable, Dict.get?_set_ne]
            · exact hforgets.kept key record hget hlive
            · rintro rfl
              rw [hexpired record hget] at hlive
              cases hlive

/-- Where cursors tell events apart, the cursor of an event finds that event or none. -/
theorem find?_cursor {events bucket : List ControlPlaneEvent}
    (hdistinct : (events.map (·.cursor)).Nodup) (hsuffix : bucket <:+ events)
    {event : ControlPlaneEvent} (hmem : event ∈ events) :
    (event ∈ bucket → bucket.find? (·.cursor = event.cursor) = some event) ∧
      (event ∉ bucket → bucket.find? (·.cursor = event.cursor) = none) := by
  have hfound : ∀ found, bucket.find? (·.cursor = event.cursor) = some found → found = event := by
    intro found hfind
    have hcursor : found.cursor = event.cursor := by simpa using List.find?_some hfind
    have hin : found ∈ events := hsuffix.mem (List.mem_of_find?_eq_some hfind)
    exact List.inj_on_of_nodup_map hdistinct hin hmem hcursor
  constructor
  · intro hretained
    cases hfind : bucket.find? (·.cursor = event.cursor) with
    | some found => rw [hfound found hfind]
    | none =>
        have hnot := List.find?_eq_none.mp hfind event hretained
        simp at hnot
  · intro hpruned
    cases hfind : bucket.find? (·.cursor = event.cursor) with
    | none => rfl
    | some found =>
        have hretained := List.mem_of_find?_eq_some hfind
        rw [hfound found hfind] at hretained
        exact absurd hretained hpruned

/-- A replay of the same content gives the event of the record, or says that it is gone. -/
theorem replayed_same {ctx : ControlPlaneContext} {record : IdempotentEventRecord}
    {kind digest : String} {s : MemoryEventStore} (hkind : record.kind = kind)
    (hdigest : record.payloadDigest = digest) : replayed ctx record kind digest s =
      ((s.bucket ctx.scopeKey).find? (·.cursor = record.cursor)).elim (.error eventGone) .ok := by
  unfold replayed
  rw [if_neg (by simp [hkind, hdigest])]
  cases (s.bucket ctx.scopeKey).find? (·.cursor = record.cursor) with
  | none => rfl
  | some event => rfl

theorem Remembers.onceLaw (hh : Remembers host h) (hsha : Function.Injective host.sha256)
    (hsteady : Steady h turn)
    (hdistinct : ∀ scope, ((stream h.log scope).map (·.cursor)).Nodup) :
    OnceLaw host h turn := by
  unfold OnceLaw
  split
  · rename_i ctx correlationId eventKey kind payload hturn
    intro hkey
    unfold AnswersOnce
    cases (hh.once_step hsha hsteady hkey hturn).1 with
    | fresh d table hforce hcreated hscope hexpired hforgets htable hlog hdeliveries hanswer =>
        rw [hforce]
        exact ⟨d.event, hanswer, hlog⟩
    | known d hforce hsame hforgets hlog hdeliveries hanswer =>
        obtain ⟨hd, hscope, -, -⟩ := inForce_spec hforce
        rw [hforce]
        refine ⟨hlog, hsame.bucket, ?_, ?_⟩
        · rintro ⟨hkind, htext⟩
          have hreplayed : replayed ctx (d.record host h.store.idempotencyRetentionSeconds) kind
              (host.sha256 (payloadText (redactControlPlanePayload host.unicode payload)))
              (h.next host turn).store =
                (((h.next host turn).store.bucket ctx.scopeKey).find?
                  (·.cursor = d.event.cursor)).elim (.error eventGone) .ok :=
            replayed_same hkind.symm (congrArg host.sha256 htext.symm)
          rw [hsame.bucket] at hreplayed
          have hrecorded := hh.recorded d hd
          rw [hscope] at hrecorded
          obtain ⟨hfound, hlost⟩ := find?_cursor (hdistinct ctx.scopeKey)
            (hh.kept ctx.scopeKey).suffix hrecorded
          rw [hanswer, hreplayed]
          constructor
          · intro hretained
            rw [hfound hretained]
            rfl
          · intro hpruned
            rw [hlost hpruned]
            rfl
        · intro hother
          have hreplayed : replayed ctx (d.record host h.store.idempotencyRetentionSeconds) kind
              (host.sha256 (payloadText (redactControlPlanePayload host.unicode payload)))
              (h.next host turn).store = .error keyReused := by
            apply if_pos
            by_contra hsame
            rw [not_or, not_not, not_not] at hsame
            exact hother ⟨hsame.1.symm, (hsha hsame.2).symm⟩
          rw [hanswer, hreplayed]
          rfl
  · exact trivial

end Remembers

theorem remembers_init (maxEventsPerScope : Option Nat) (idempotencyRetentionSeconds : Nat)
    (hmax : ∀ n ∈ maxEventsPerScope, 0 < n) (hretention : 0 < idempotencyRetentionSeconds) :
    Remembers host (.init maxEventsPerScope idempotencyRetentionSeconds hmax hretention) := by
  refine ⟨?_, ?_, ?_, ?_⟩
  · intro scope
    exact ⟨List.suffix_rfl, fun h => absurd rfl h, rfl, rfl,
      fun event hmem => absurd hmem List.not_mem_nil⟩
  · intro d hd
    exact absurd hd List.not_mem_nil
  · intro key record hget
    cases hget
  · intro d hd
    exact absurd hd List.not_mem_nil

instance (h : OnceHistory) (turn : Turn) : Decidable (Steady h turn) :=
  inferInstanceAs (Decidable (_ ∧ _))

def onceDigests : List (String × String) :=
  [("run-7.started", "60a3039008f1c601c126dba142027c51bb5ba4e901c836d00ded676355c6454e"),
    ("\x7b\x7d", "44136fa355b3678a1146ad16f7e8649e94fb4fc21fe77e8310c060f61caaff8a"),
    ("\x7b\"step\":1\x7d",
      "8565a568653654ae5b4d4444245fa76e8bdea8c7d0db4a75bcffbb60bd6a0452"),
    ("acme:main:1", "c3072b17125ee0781c0b7ca8a6a046836008f3e03a091203f8988e9038c636ae"),
    ("acme:main:2", "76e6dec66fc79dae09f9ac0cae1de2e75f4cf61d07664786126e774afaaf25ef"),
    ("acme:main:3", "04a343f4bee630d5410a1264b43c4f71e6c9cc579405aa5a79ba5db832206548")]

def onceHost : Host := { Durable.sampleHost with sha256 := Durable.digestBy onceDigests }

def startedOnce (digit : Char) (second : Int) (payload : List (String × Json)) : Turn :=
  ⟨Durable.sampleEnv digit second,
    .appendOnce Durable.sampleContext none "run-7.started" "run.started" payload⟩

/-- The key comes again within its retention of a minute: with its content, with other
content, and with its content after its event was pruned.  Then it comes a minute later. -/
def onceTurns : List Turn :=
  [startedOnce 'a' 0 [], startedOnce 'b' 10 [], startedOnce 'c' 20 [("step", .int 1)],
    ⟨Durable.sampleEnv 'd' 30, .append Durable.sampleContext none "run.finished" []⟩,
    ⟨Durable.sampleEnv 'e' 40, .pruneBeforeSequence Durable.sampleContext 2⟩,
    ⟨Durable.sampleEnv 'f' 50, .pruneExpiredIdempotency Durable.sampleContext 1000 none⟩,
    startedOnce '1' 59 [], startedOnce '2' 60 []]

def onceFirst : OnceHistory := .init none 60 (by simp) (Nat.succ_pos 59)

end Etlantic.ControlPlane.Memory
