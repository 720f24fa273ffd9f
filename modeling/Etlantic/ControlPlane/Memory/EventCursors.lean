import Etlantic.ControlPlane.Memory.Events

/-!
# Reading the event log by cursors

The log of a store's history is every event that a call added, in order; the
store retains an end of it for each scope.  A reader asks for pages, each after
the last cursor it was given.  However the appends and both kinds of pruning
fall between its pages, what it receives is what follows its start cursor in
the log, in order and without a gap, or an explicit error.

A reader without a cursor is answered from the oldest retained event on, so it
can miss what was pruned before its first event.
-/

namespace Etlantic.ControlPlane.Memory

open Durable (Host Env Key)

/-- A step of a history: a call by anybody, or the reader asking for its next page. -/
inductive Step where
  | call (env : Env) (call : EventCall)
  | poll (env : Env) (limit : Int)

structure Reader where
  position : Option String
  received : List ControlPlaneEvent
  gone : Bool

structure History where
  store : MemoryEventStore
  log : List ControlPlaneEvent
  reader : Reader

/-- The events of a scope, as they were added. -/
def stream (log : List ControlPlaneEvent) (scope : Scope) : List ControlPlaneEvent :=
  log.filter (·.scope = scope)

/-- The log with the event of an answer, unless it is an event from before. -/
def logged (log : List ControlPlaneEvent) : Option ControlPlaneEvent → List ControlPlaneEvent
  | none => log
  | some event =>
      if event.sequence ∈ (stream log event.scope).map (·.sequence) then log else log ++ [event]

/-- The reader with a page, or with the error it got for one. -/
def Reader.take (reader : Reader) : Except PyError (List ControlPlaneEvent) → Reader
  | .error _ => { reader with gone := true }
  | .ok page =>
      { reader with
        position := (page.getLast?.map (·.cursor)).or reader.position
        received := reader.received ++ page }

variable (host : Host) (ctx : ControlPlaneContext)

/-- The reader stops at an error. -/
def History.next (h : History) : Step → History
  | .call env call =>
      let answer := call.exec host env h.store
      { h with store := answer.2, log := logged h.log answer.1 }
  | .poll env limit =>
      if h.reader.gone then h
      else
        let reply := listAfterCursor env ctx h.reader.position limit h.store
        { h with store := reply.state, reader := h.reader.take reply.result }

/-- An empty store, and a reader that has not asked yet. -/
def History.init (maxEventsPerScope : Option Nat) (idempotencyRetentionSeconds : Nat)
    (maxPositive : ∀ n ∈ maxEventsPerScope, 0 < n)
    (retentionPositive : 0 < idempotencyRetentionSeconds) (start : Option String) : History where
  store := .init maxEventsPerScope idempotencyRetentionSeconds maxPositive retentionPositive
  log := []
  reader := ⟨start, [], false⟩

/-! ## What the store retains -/

/-- The store's rows for a scope with the given stream: the events are numbered from 1
on, and an end of them is retained, with the newest. -/
structure Retains (s : MemoryEventStore) (scope : Scope) (events : List ControlPlaneEvent) :
    Prop where
  suffix : s.bucket scope <:+ events
  anchored : events ≠ [] → s.bucket scope ≠ []
  numbered : events.map (·.sequence) = List.range' 1 events.length
  counted : (s.eventSequences.get? scope).getD 0 = events.length
  cursors : ∀ event ∈ events, event.cursor = cursorOf host scope event.sequence

theorem latestSequence_le {bucket : List ControlPlaneEvent} {n : Nat}
    (h : ∀ event ∈ bucket, event.sequence ≤ n) : latestSequence bucket ≤ n := by
  unfold latestSequence
  induction bucket with
  | nil => exact Nat.zero_le n
  | cons event rest ih =>
      rw [List.map_cons, List.foldr_cons]
      refine max_le (h event List.mem_cons_self) (ih ?_)
      intro later hlater
      exact h later (List.mem_cons_of_mem _ hlater)

section Retention

variable {host} {s : MemoryEventStore} {scope : Scope} {events : List ControlPlaneEvent}

theorem Retains.sequence_le (h : Retains host s scope events) {event : ControlPlaneEvent}
    (hmem : event ∈ events) : event.sequence ≤ events.length := by
  have hseq : event.sequence ∈ events.map (·.sequence) := List.mem_map_of_mem hmem
  rw [h.numbered, List.mem_range'_1] at hseq
  omega

/-- A new event has the next number: those of pruned events are not given again. -/
theorem Retains.nextSequence (h : Retains host s scope events) :
    nextSequence s scope = events.length + 1 := by
  unfold Memory.nextSequence
  rw [h.counted]
  have hlatest : latestSequence (s.bucket scope) ≤ events.length :=
    latestSequence_le fun event hmem => h.sequence_le (h.suffix.mem hmem)
  omega

theorem truncated_suffix (limit : Option Nat) (bucket : List ControlPlaneEvent) :
    truncated limit bucket <:+ bucket := by
  unfold truncated
  cases limit with
  | none => exact List.suffix_rfl
  | some n =>
      simp only
      split
      · exact List.drop_suffix _ _
      · exact List.suffix_rfl

theorem truncated_ne_nil {limit : Option Nat} (hlimit : ∀ n ∈ limit, 0 < n)
    {bucket : List ControlPlaneEvent} (hbucket : bucket ≠ []) : truncated limit bucket ≠ [] := by
  unfold truncated
  cases limit with
  | none => exact hbucket
  | some n =>
      have hn := hlimit n rfl
      simp only
      split
      · intro hnil
        have := List.drop_eq_nil_iff.mp hnil
        omega
      · exact hbucket

/-- A pruned log is an end of the log, because the numbers increase along it. -/
theorem Retains.retainedFrom_suffix (h : Retains host s scope events) (beforeSequence : Int) :
    retainedFrom beforeSequence (s.bucket scope) <:+ s.bucket scope := by
  have hincreasing : (s.bucket scope).Pairwise fun a b => a.sequence < b.sequence := by
    have hall : (events.map (·.sequence)).Pairwise (· < ·) := by
      rw [h.numbered]
      exact List.pairwise_lt_range'
    exact (List.pairwise_map.mp hall).sublist h.suffix.sublist
  unfold retainedFrom
  generalize min beforeSequence (latestSequence (s.bucket scope)) = cutoff
  revert hincreasing
  generalize s.bucket scope = bucket
  intro hincreasing
  induction bucket with
  | nil => exact List.suffix_rfl
  | cons event rest ih =>
      obtain ⟨hbelow, hrest⟩ := List.pairwise_cons.mp hincreasing
      rw [List.filter_cons]
      by_cases hkept : cutoff ≤ event.sequence
      · -- The first event is kept, so all are.
        have hall : rest.filter (fun event => decide (cutoff ≤ event.sequence)) = rest := by
          rw [List.filter_eq_self]
          intro later hlater
          have := hbelow later hlater
          simp only [decide_eq_true_eq]
          omega
        rw [if_pos (by simpa using hkept), hall]
      · rw [if_neg (by simpa using hkept)]
        exact (ih hrest).trans (List.suffix_cons _ _)

theorem Retains.retainedFrom_ne_nil {beforeSequence : Int} {bucket : List ControlPlaneEvent}
    (hbucket : bucket ≠ []) : retainedFrom beforeSequence bucket ≠ [] := by
  have hlatest : ∃ event ∈ bucket, event.sequence = latestSequence bucket := by
    unfold latestSequence
    induction bucket with
    | nil => exact absurd rfl hbucket
    | cons first rest ih =>
        rw [List.map_cons, List.foldr_cons]
        by_cases hrest : rest = []
        · subst hrest
          exact ⟨first, List.mem_cons_self, by simp⟩
        · obtain ⟨event, hmem, heq⟩ := ih hrest
          rw [← heq]
          rcases le_total first.sequence event.sequence with hle | hle
          · exact ⟨event, List.mem_cons_of_mem _ hmem, (max_eq_right hle).symm⟩
          · exact ⟨first, List.mem_cons_self, (max_eq_left hle).symm⟩
  obtain ⟨event, hmem, heq⟩ := hlatest
  apply List.ne_nil_of_mem (a := event)
  unfold retainedFrom
  rw [List.mem_filter, decide_eq_true_eq, heq]
  exact ⟨hmem, min_le_right _ _⟩

end Retention

/-! ## What a call does to the log -/

/-- The logs and the counters are as before. -/
structure SameLogs (s s' : MemoryEventStore) : Prop where
  events : s'.events = s.events
  eventSequences : s'.eventSequences = s.eventSequences
  maxEventsPerScope : s'.maxEventsPerScope = s.maxEventsPerScope

theorem SameLogs.refl (s : MemoryEventStore) : SameLogs s s := ⟨rfl, rfl, rfl⟩

/-- A call leaves the logs alone and answers with a retained event at most, or adds
the event it answers with, or prunes. -/
inductive Changes (s : MemoryEventStore) : Option ControlPlaneEvent → MemoryEventStore → Prop
  | quiet (answer : Option ControlPlaneEvent) (s' : MemoryEventStore) (h : SameLogs s s')
      (hanswer : ∀ event ∈ answer, ∃ scope, event ∈ s.bucket scope) : Changes s answer s'
  | added (ctx : ControlPlaneContext) (event : ControlPlaneEvent) (base s' : MemoryEventStore)
      (hbase : SameLogs s base) (hscope : event.scope = ctx.scopeKey)
      (hsequence : event.sequence = nextSequence s ctx.scopeKey)
      (hcursor : event.cursor = cursorOf host ctx.scopeKey event.sequence)
      (h : SameLogs (base.add event) s') : Changes s (some event) s'
  | pruned (scope : Scope) (beforeSequence : Int) (s' : MemoryEventStore)
      (hbucket : s.bucket scope ≠ [])
      (h : SameLogs (s.setBucket scope (retainedFrom beforeSequence (s.bucket scope))) s') :
      Changes s none s'

section Calls

variable {host}

theorem SameLogs.nextSequence {s base : MemoryEventStore} (h : SameLogs s base) (scope : Scope) :
    nextSequence base scope = Memory.nextSequence s scope := by
  unfold Memory.nextSequence MemoryEventStore.bucket
  rw [h.events, h.eventSequences]

theorem SameLogs.bucket {s s' : MemoryEventStore} (h : SameLogs s s') (scope : Scope) :
    s'.bucket scope = s.bucket scope := by
  unfold MemoryEventStore.bucket
  rw [h.events]

theorem swept_same (scope : Scope) (now : Instant) (s : MemoryEventStore) :
    SameLogs s (swept scope now s) := by
  unfold swept
  simp only
  split
  · exact ⟨rfl, rfl, rfl⟩
  · exact ⟨rfl, rfl, rfl⟩

theorem previousRecord_same (key : Key) (now : Instant) (s : MemoryEventStore) :
    SameLogs s (previousRecord key now s).2 := by
  unfold previousRecord
  split
  · exact SameLogs.refl s
  · split
    · exact ⟨rfl, rfl, rfl⟩
    · exact SameLogs.refl s

theorem replayed_mem {ctx : ControlPlaneContext} {record : IdempotentEventRecord}
    {kind payloadDigest : String} {s : MemoryEventStore} {event : ControlPlaneEvent}
    (h : replayed ctx record kind payloadDigest s = .ok event) : event ∈ s.bucket ctx.scopeKey := by
  unfold replayed at h
  split at h
  · cases h
  · split at h
    · cases h
    · rename_i found hfound
      obtain rfl := Except.ok.inj h
      exact List.mem_of_find?_eq_some hfound

theorem appendOnce_changes (env : Env) (ctx : ControlPlaneContext) (correlationId : Option String)
    (eventKey kind : String) (payload : List (String × Json)) (s : MemoryEventStore) :
    Changes host s (appendOnce host env ctx correlationId eventKey kind payload s).result.toOption
      (appendOnce host env ctx correlationId eventKey kind payload s).state := by
  unfold appendOnce
  split
  · exact .quiet none s (.refl s) fun event h => by cases h
  · simp only
    have hswept := swept_same ctx.scopeKey (env.now [0]) s
    have hprevious := previousRecord_same ⟨ctx.scopeKey, host.sha256 eventKey⟩ (env.now [0])
      (swept ctx.scopeKey (env.now [0]) s)
    generalize previousRecord ⟨ctx.scopeKey, host.sha256 eventKey⟩ (env.now [0])
      (swept ctx.scopeKey (env.now [0]) s) = previous at hprevious
    obtain ⟨record, base⟩ := previous
    have hbase : SameLogs s base := ⟨hprevious.events.trans hswept.events,
      hprevious.eventSequences.trans hswept.eventSequences,
      hprevious.maxEventsPerScope.trans hswept.maxEventsPerScope⟩
    cases record with
    | some record =>
        refine .quiet _ base hbase ?_
        intro event hevent
        refine ⟨ctx.scopeKey, ?_⟩
        rw [← hbase.bucket]
        simp only at hevent
        cases hanswer : replayed ctx record kind
            (host.sha256 ((Json.obj (redactControlPlanePayload host.unicode payload)).dumps
              Json.escapeUnicode)) base with
        | error error =>
            rw [hanswer] at hevent
            cases hevent
        | ok found =>
            rw [hanswer] at hevent
            obtain rfl : found = event := Option.some.inj hevent
            exact replayed_mem hanswer
    | none =>
        exact .added ctx _ base _ hbase rfl (hbase.nextSequence _) rfl ⟨rfl, rfl, rfl⟩

theorem exec_changes (env : Env) (call : EventCall) (s : MemoryEventStore) :
    Changes host s (call.exec host env s).1 (call.exec host env s).2 := by
  cases call with
  | append ctx correlationId kind payload =>
      exact .added ctx _ s _ (.refl s) rfl rfl rfl (.refl _)
  | appendOnce ctx correlationId eventKey kind payload =>
      exact appendOnce_changes env ctx correlationId eventKey kind payload s
  | pruneExpiredIdempotency ctx limit now =>
      refine .quiet none _ ?_ fun event h => by cases h
      show SameLogs s (pruneExpiredIdempotency env ctx limit now s).state
      unfold pruneExpiredIdempotency
      split
      · exact .refl s
      · exact ⟨rfl, rfl, rfl⟩
  | pruneBeforeSequence ctx beforeSequence =>
      show Changes host s none (pruneBeforeSequence ctx beforeSequence s).state
      unfold pruneBeforeSequence
      simp only
      split
      · exact .quiet none s (.refl s) fun event h => by cases h
      · split
        · exact .quiet none s (.refl s) fun event h => by cases h
        · rename_i hlength
          split
          · exact .quiet none s (.refl s) fun event h => by cases h
          · refine .pruned ctx.scopeKey beforeSequence _ ?_ (.refl _)
            intro hnil
            rw [hnil] at hlength
            simp at hlength
  | listAfterCursor ctx cursor limit =>
      refine .quiet none _ ?_ fun event h => by cases h
      show SameLogs s (listAfterCursor env ctx cursor limit s).state
      unfold listAfterCursor
      split
      · exact .refl s
      · simp only
        split
        · exact ⟨rfl, rfl, rfl⟩
        · exact ⟨rfl, rfl, rfl⟩

end Calls

/-! ## The log and the store together -/

/-- Every scope's rows are an end of its stream. -/
def Kept (s : MemoryEventStore) (log : List ControlPlaneEvent) : Prop :=
  ∀ scope, Retains host s scope (stream log scope)

section Kept

variable {host} {s s' : MemoryEventStore} {log : List ControlPlaneEvent}

theorem Retains.same {scope : Scope} {events : List ControlPlaneEvent}
    (h : Retains host s scope events) (hs : SameLogs s s') : Retains host s' scope events := by
  constructor
  · rw [hs.bucket]
    exact h.suffix
  · rw [hs.bucket]
    exact h.anchored
  · exact h.numbered
  · rw [hs.eventSequences]
    exact h.counted
  · exact h.cursors

theorem stream_append (log : List ControlPlaneEvent) (event : ControlPlaneEvent) (scope : Scope) :
    stream (log ++ [event]) scope =
      if event.scope = scope then stream log scope ++ [event] else stream log scope := by
  unfold stream
  rw [List.filter_append]
  split
  · rename_i h
    rw [List.filter_cons_of_pos (by simpa using h), List.filter_nil]
  · rename_i h
    rw [List.filter_cons_of_neg (by simpa using h), List.filter_nil, List.append_nil]

theorem Kept.add (h : Kept host s log) {ctx : ControlPlaneContext} {event : ControlPlaneEvent}
    (hscope : event.scope = ctx.scopeKey) (hsequence : event.sequence = nextSequence s ctx.scopeKey)
    (hcursor : event.cursor = cursorOf host ctx.scopeKey event.sequence) :
    Kept host (s.add event) (log ++ [event]) := by
  intro scope
  have hrows := h scope
  rw [stream_append]
  by_cases hhere : event.scope = scope
  · rw [if_pos hhere]
    have hbucket : (s.add event).bucket scope =
        truncated s.maxEventsPerScope (s.bucket scope ++ [event]) := by
      unfold MemoryEventStore.bucket MemoryEventStore.add
      rw [hhere, Dict.get?_set_self]
      rfl
    have hnumber : event.sequence = (stream log scope).length + 1 := by
      rw [hsequence, ← hscope, hhere]
      exact hrows.nextSequence
    constructor
    · rw [hbucket]
      refine (truncated_suffix _ _).trans ?_
      obtain ⟨before, hbefore⟩ := hrows.suffix
      exact ⟨before, by rw [← List.append_assoc, hbefore]⟩
    · intro _
      rw [hbucket]
      exact truncated_ne_nil s.maxPositive (by simp)
    · rw [List.map_append, hrows.numbered, List.length_append, List.length_singleton,
        List.range'_concat]
      simp [hnumber, add_comm]
    · show ((s.eventSequences.set event.scope event.sequence).get? scope).getD 0 = _
      rw [hhere, Dict.get?_set_self, hnumber]
      simp
    · intro e he
      rcases List.mem_append.mp he with he | he
      · exact hrows.cursors e he
      · obtain rfl := List.mem_singleton.mp he
        rw [hcursor, ← hscope, hhere]
  · rw [if_neg hhere]
    constructor
    · show ((s.events.set event.scope _).get? scope).getD [] <:+ _
      rw [Dict.get?_set_ne _ _ hhere]
      exact hrows.suffix
    · show _ → ((s.events.set event.scope _).get? scope).getD [] ≠ []
      rw [Dict.get?_set_ne _ _ hhere]
      exact hrows.anchored
    · exact hrows.numbered
    · show ((s.eventSequences.set event.scope event.sequence).get? scope).getD 0 = _
      rw [Dict.get?_set_ne _ _ hhere]
      exact hrows.counted
    · exact hrows.cursors

theorem Kept.prune (h : Kept host s log) {pruned : Scope} {beforeSequence : Int}
    (hbucket : s.bucket pruned ≠ []) :
    Kept host (s.setBucket pruned (retainedFrom beforeSequence (s.bucket pruned))) log := by
  intro scope
  have hrows := h scope
  by_cases hhere : pruned = scope
  · subst hhere
    constructor
    · show ((s.events.set pruned _).get? pruned).getD [] <:+ _
      rw [Dict.get?_set_self]
      exact (hrows.retainedFrom_suffix beforeSequence).trans hrows.suffix
    · intro _
      show ((s.events.set pruned _).get? pruned).getD [] ≠ []
      rw [Dict.get?_set_self]
      exact Retains.retainedFrom_ne_nil hbucket
    · exact hrows.numbered
    · exact hrows.counted
    · exact hrows.cursors
  · constructor
    · show ((s.events.set pruned _).get? scope).getD [] <:+ _
      rw [Dict.get?_set_ne _ _ hhere]
      exact hrows.suffix
    · show _ → ((s.events.set pruned _).get? scope).getD [] ≠ []
      rw [Dict.get?_set_ne _ _ hhere]
      exact hrows.anchored
    · exact hrows.numbered
    · exact hrows.counted
    · exact hrows.cursors

/-- A retained event is in the log already. -/
theorem Kept.logged_retained (h : Kept host s log) {scope : Scope} {event : ControlPlaneEvent}
    (hmem : event ∈ s.bucket scope) : logged log (some event) = log := by
  have hstream := (h scope).suffix.mem hmem
  obtain ⟨-, hscope⟩ := List.mem_filter.mp hstream
  obtain rfl : event.scope = scope := by simpa using hscope
  exact if_pos (List.mem_map_of_mem hstream)

theorem Kept.logged_added (h : Kept host s log) {event : ControlPlaneEvent}
    (hsequence : event.sequence = nextSequence s event.scope) :
    logged log (some event) = log ++ [event] := by
  refine if_neg ?_
  intro hmem
  obtain ⟨old, hold, heq⟩ := List.mem_map.mp hmem
  have hle := (h event.scope).sequence_le hold
  rw [heq, hsequence, (h event.scope).nextSequence] at hle
  omega

/-- A call keeps the store an end of the log, which it extends by one event at most. -/
theorem Kept.exec (h : Kept host s log) (env : Env) (call : EventCall) :
    Kept host (call.exec host env s).2 (logged log (call.exec host env s).1) ∧
      log <+: logged log (call.exec host env s).1 := by
  have hchanges : Changes host s (call.exec host env s).1 (call.exec host env s).2 :=
    exec_changes env call s
  generalize call.exec host env s = answer at hchanges
  obtain ⟨event, s'⟩ := answer
  cases hchanges with
  | quiet answer s' hsame hanswer =>
      have hlog : logged log event = log := by
        cases event with
        | none => rfl
        | some event =>
            obtain ⟨scope, hmem⟩ := hanswer event rfl
            exact h.logged_retained hmem
      rw [hlog]
      exact ⟨fun scope => (h scope).same hsame, List.prefix_rfl⟩
  | added ctx event base s' hbase hscope hsequence hcursor hsame =>
      rw [h.logged_added (by rw [hscope, hsequence])]
      have hkept : Kept host (base.add event) (log ++ [event]) :=
        Kept.add (fun scope => (h scope).same hbase) hscope
          (hsequence.trans (hbase.nextSequence _).symm) hcursor
      exact ⟨fun scope => (hkept scope).same hsame, List.prefix_append _ _⟩
  | pruned scope beforeSequence s' hbucket hsame =>
      exact ⟨fun other => ((h.prune hbucket) other).same hsame, List.prefix_rfl⟩

end Kept

/-! ## The reader -/

/-- What was received is an unbroken part of the stream, right after the event of the
start cursor if there is one. -/
def Reads (start : Option String) (events received : List ControlPlaneEvent) : Prop :=
  received = [] ∨ ∃ before after, events = before ++ received ++ after ∧
    ∀ cursor ∈ start, before.getLast?.map (·.cursor) = some cursor

/-- The law of a page that was asked for: an error, or the next events of the stream after
what was received. The first page of a reader without a cursor starts at the oldest
retained event. -/
def PageLaw (start : Option String) (h : History) : Step → Prop
  | .call .. => True
  | .poll env limit =>
      h.reader.gone = false → 1 ≤ limit →
        (History.next host ctx h (.poll env limit)).reader.gone = true ∨
        ∃ before after, stream h.log ctx.scopeKey = before ++ h.reader.received ++ after ∧
          (∀ cursor ∈ start, before.getLast?.map (·.cursor) = some cursor) ∧
          (History.next host ctx h (.poll env limit)).reader.gone = false ∧
          (History.next host ctx h (.poll env limit)).reader.received =
            h.reader.received ++ after.take limit.toNat ∧
          (start = none → h.reader.received = [] → after = h.store.bucket ctx.scopeKey)

/-- The cursors of the caller's scope tell its events apart. -/
def DistinctCursors (h : History) : Prop :=
  ((stream h.log ctx.scopeKey).map (·.cursor)).Nodup

structure Follows (start : Option String) (h : History) : Prop where
  position : h.reader.position = (h.reader.received.getLast?.map (·.cursor)).or start
  reads : Reads start (stream h.log ctx.scopeKey) h.reader.received

section Reading

variable {host ctx}

/-- An event's cursor fixes its place. -/
theorem split_unique {events before after before' after' : List ControlPlaneEvent}
    {event event' : ControlPlaneEvent} (hnodup : (events.map (·.cursor)).Nodup)
    (h : events = before ++ event :: after) (h' : events = before' ++ event' :: after')
    (hcursor : event.cursor = event'.cursor) :
    before = before' ∧ event = event' ∧ after = after' := by
  have hmem : event ∈ events := by simp [h]
  have hmem' : event' ∈ events := by simp [h']
  obtain rfl := List.inj_on_of_nodup_map hnodup hmem hmem' hcursor
  have hevents : events.Nodup := hnodup.of_map _
  have hfresh : event ∉ before ++ after := by
    rw [h, List.nodup_middle] at hevents
    exact (List.nodup_cons.mp hevents).1
  rw [List.mem_append, not_or] at hfresh
  obtain ⟨hbefore, -, hafter⟩ :=
    (List.append_cons_inj_of_notMem hfresh.1 hfresh.2).mp (h.symm.trans h')
  exact ⟨hbefore, rfl, hafter⟩

theorem prefix_stream {log log' : List ControlPlaneEvent} (h : log <+: log') (scope : Scope) :
    stream log scope <+: stream log' scope :=
  h.filter _

theorem Reads.mono {start : Option String} {events events' received : List ControlPlaneEvent}
    (h : Reads start events received) (hprefixed : events <+: events') :
    Reads start events' received := by
  obtain ⟨added, rfl⟩ := hprefixed
  rcases h with hnil | ⟨before, after, rfl, hstart⟩
  · exact .inl hnil
  · exact .inr ⟨before, after ++ added, by simp, hstart⟩

/-- The events after a retained cursor are those that follow its event in the stream. -/
theorem afterCursor_some {bucket rest : List ControlPlaneEvent} {cursor : String}
    (h : afterCursor (some cursor) bucket = some rest) :
    ∃ before event, bucket = before ++ event :: rest ∧ event.cursor = cursor := by
  obtain ⟨i, hi, rfl⟩ := Option.map_eq_some_iff.mp h
  obtain ⟨hlt, hcursor, -⟩ := List.findIdx?_eq_some_iff_getElem.mp hi
  refine ⟨bucket.take i, bucket[i], ?_, by simpa using hcursor⟩
  rw [List.getElem_cons_drop, List.take_append_drop]

/-- What a page is taken from. -/
theorem Follows.rest {start : Option String} {h : History} (hfollows : Follows ctx start h)
    (hkept : Kept host h.store h.log) (hdistinct : DistinctCursors ctx h)
    {rest : List ControlPlaneEvent}
    (hrest : afterCursor h.reader.position (h.store.bucket ctx.scopeKey) = some rest) :
    ∃ before, stream h.log ctx.scopeKey = before ++ h.reader.received ++ rest ∧
      (∀ cursor ∈ start, before.getLast?.map (·.cursor) = some cursor) ∧
      (start = none → h.reader.received = [] → rest = h.store.bucket ctx.scopeKey) := by
  obtain ⟨pruned, hpruned⟩ := (hkept ctx.scopeKey).suffix
  have hposition := hfollows.position
  rcases List.eq_nil_or_concat h.reader.received with hnil | ⟨earlier, last, hlast⟩
  · rw [hnil] at hposition ⊢
    rw [List.getLast?_nil, Option.map_none, Option.none_or] at hposition
    rw [hposition] at hrest
    cases start with
    | none =>
        obtain rfl : h.store.bucket ctx.scopeKey = rest := Option.some.inj hrest
        refine ⟨pruned, ?_, ?_, fun _ _ => rfl⟩
        · rw [List.append_nil]
          exact hpruned.symm
        · intro cursor hcursor
          cases hcursor
    | some cursor =>
        obtain ⟨before, event, hbucket, hcursor⟩ := afterCursor_some hrest
        refine ⟨pruned ++ before ++ [event], ?_, ?_, fun hnone => by cases hnone⟩
        · rw [← hpruned, hbucket]
          simp
        · intro cursor' hcursor'
          obtain rfl : cursor = cursor' := Option.some.inj hcursor'
          simp [hcursor]
  · -- The reader stands at the last event it received.
    rw [List.concat_eq_append] at hlast
    rw [hlast, List.getLast?_concat, Option.map_some, Option.some_or] at hposition
    rw [hposition] at hrest
    obtain ⟨before, event, hbucket, hcursor⟩ := afterCursor_some hrest
    rcases hfollows.reads with hnil | ⟨before', after', hstream, hstart⟩
    · rw [hnil] at hlast
      simp at hlast
    · have hhere : stream h.log ctx.scopeKey = (pruned ++ before) ++ event :: rest := by
        rw [← hpruned, hbucket, List.append_assoc]
      have hthere : stream h.log ctx.scopeKey = (before' ++ earlier) ++ last :: after' := by
        rw [hstream, hlast]
        simp
      obtain ⟨-, -, rfl⟩ := split_unique hdistinct hhere hthere hcursor
      refine ⟨before', hstream, hstart, ?_⟩
      intro _ hnil
      rw [hnil] at hlast
      simp at hlast

theorem poll_reply (env : Env) (limit : Int) (h : History) (hlimit : 1 ≤ limit) :
    (∃ error, (listAfterCursor env ctx h.reader.position limit h.store).result = .error error) ∨
      ∃ rest, afterCursor h.reader.position (h.store.bucket ctx.scopeKey) = some rest ∧
        (listAfterCursor env ctx h.reader.position limit h.store).result =
          .ok (rest.take limit.toNat) := by
  unfold listAfterCursor
  rw [if_neg (by omega)]
  simp only
  have hbucket : MemoryEventStore.bucket
      (pruneExpiredIdempotencyLocked ctx.scopeKey (env.now [0]) 1000 h.store).2 ctx.scopeKey =
        h.store.bucket ctx.scopeKey := rfl
  rw [hbucket]
  cases hafter : afterCursor h.reader.position (h.store.bucket ctx.scopeKey) with
  | none => exact .inl ⟨_, rfl⟩
  | some rest => exact .inr ⟨rest, rfl, rfl⟩

theorem next_poll {env : Env} {limit : Int} {h : History} (hgone : h.reader.gone = false) :
    (History.next host ctx h (.poll env limit)).reader =
      h.reader.take (listAfterCursor env ctx h.reader.position limit h.store).result := by
  show (if h.reader.gone then h else _ : History).reader = _
  rw [if_neg (by simp [hgone])]

theorem Follows.pageLaw {start : Option String} {h : History} (hfollows : Follows ctx start h)
    (hkept : Kept host h.store h.log) (hdistinct : DistinctCursors ctx h) (step : Step) :
    PageLaw host ctx start h step := by
  cases step with
  | call env call => exact trivial
  | poll env limit =>
      intro hgone hlimit
      rw [next_poll hgone]
      rcases poll_reply env limit h hlimit with ⟨error, herror⟩ | ⟨rest, hrest, hpage⟩
      · rw [herror]
        exact .inl rfl
      · obtain ⟨before, hstream, hstart, hfirst⟩ := hfollows.rest hkept hdistinct hrest
        rw [hpage]
        exact .inr ⟨before, rest, hstream, hstart, hgone, rfl, hfirst⟩

/-- A step extends the log. -/
theorem next_log {h : History} (hkept : Kept host h.store h.log) (step : Step) :
    Kept host (History.next host ctx h step).store (History.next host ctx h step).log ∧
      h.log <+: (History.next host ctx h step).log := by
  cases step with
  | call env call => exact hkept.exec env call
  | poll env limit =>
      show Kept host (if h.reader.gone then h else _ : History).store _ ∧ _
      unfold History.next
      simp only
      split
      · exact ⟨hkept, List.prefix_rfl⟩
      · have := hkept.exec env (.listAfterCursor ctx h.reader.position limit)
        exact ⟨this.1, List.prefix_rfl⟩

theorem Follows.step {start : Option String} {h : History} (hfollows : Follows ctx start h)
    (hkept : Kept host h.store h.log) (hdistinct : DistinctCursors ctx h) (step : Step) :
    Follows ctx start (History.next host ctx h step) := by
  have hlog : h.log <+: (History.next host ctx h step).log := (next_log hkept step).2
  cases step with
  | call env call =>
      exact ⟨hfollows.position, hfollows.reads.mono (prefix_stream hlog _)⟩
  | poll env limit =>
      cases hgone : h.reader.gone with
      | true =>
          have hsame : History.next host ctx h (.poll env limit) = h := if_pos hgone
          rw [hsame]
          exact hfollows
      | false =>
          have hsamelog : (History.next host ctx h (.poll env limit)).log = h.log := by
            show (if h.reader.gone then h else _ : History).log = _
            rw [if_neg (by simp [hgone])]
          have hreader : (History.next host ctx h (.poll env limit)).reader =
              h.reader.take (listAfterCursor env ctx h.reader.position limit h.store).result :=
            next_poll hgone
          by_cases hlimit : 1 ≤ limit
          · rcases poll_reply env limit h hlimit with ⟨error, herror⟩ | ⟨rest, hrest, hpage⟩
            · rw [herror] at hreader
              exact ⟨by rw [hreader]; exact hfollows.position,
                by rw [hreader, hsamelog]; exact hfollows.reads⟩
            · obtain ⟨before, hstream, hstart, -⟩ := hfollows.rest hkept hdistinct hrest
              rw [hpage] at hreader
              constructor
              · rw [hreader]
                show ((rest.take limit.toNat).getLast?.map _).or h.reader.position =
                  ((h.reader.received ++ rest.take limit.toNat).getLast?.map _).or start
                rw [hfollows.position, List.getLast?_append]
                cases (rest.take limit.toNat).getLast? with
                | none => rfl
                | some last => rfl
              · rw [hreader, hsamelog]
                refine .inr ⟨before, rest.drop limit.toNat, ?_, hstart⟩
                show _ = before ++ (h.reader.received ++ rest.take limit.toNat) ++ _
                rw [hstream, List.append_assoc, List.append_assoc, List.append_assoc,
                  List.take_append_drop]
          · have hpage :
                (listAfterCursor env ctx h.reader.position limit h.store).result = .ok [] := by
              unfold listAfterCursor
              rw [if_pos (by omega)]
            rw [hpage] at hreader
            constructor
            · rw [hreader]
              show _ = ((h.reader.received ++ []).getLast?.map _).or start
              rw [List.append_nil]
              exact hfollows.position
            · rw [hreader, hsamelog]
              show Reads start _ (h.reader.received ++ [])
              rw [List.append_nil]
              exact hfollows.reads

end Reading

/-- The store and its log, and the reader as long as cursors do not collide. -/
structure Consistent (start : Option String) (h : History) : Prop where
  kept : Kept host h.store h.log
  follows : DistinctCursors ctx h → Follows ctx start h

section Histories

variable {host ctx} {start : Option String}

theorem DistinctCursors.of_prefix {h h' : History} (hdistinct : DistinctCursors ctx h')
    (hprefixed : h.log <+: h'.log) : DistinctCursors ctx h :=
  hdistinct.sublist ((prefix_stream hprefixed _).sublist.map _)

theorem consistent_init (maxEventsPerScope : Option Nat) (idempotencyRetentionSeconds : Nat)
    (hmax : ∀ n ∈ maxEventsPerScope, 0 < n) (hretention : 0 < idempotencyRetentionSeconds) :
    Consistent host ctx start
      (.init maxEventsPerScope idempotencyRetentionSeconds hmax hretention start) := by
  constructor
  · intro scope
    exact ⟨List.suffix_rfl, fun h => absurd rfl h, rfl, rfl,
      fun event hmem => absurd hmem List.not_mem_nil⟩
  · intro _
    exact ⟨rfl, .inl rfl⟩

theorem Consistent.step {h : History} (hh : Consistent host ctx start h) (step : Step) :
    Consistent host ctx start (History.next host ctx h step) := by
  obtain ⟨hkept, hlog⟩ := next_log hh.kept step
  refine ⟨hkept, ?_⟩
  intro hdistinct
  have hbefore : DistinctCursors ctx h := hdistinct.of_prefix hlog
  exact (hh.follows hbefore).step hh.kept hbefore step

theorem run_log {h : History} (hh : Consistent host ctx start h) (steps : List Step) :
    h.log <+: (Runs.run (History.next host ctx) h steps).log :=
  Runs.related (I := Consistent host ctx start) (R := fun h h' => h.log <+: h'.log)
    (fun _ => List.prefix_rfl) (fun hab hbc => hab.trans hbc) (fun _ step hh _ => hh.step step)
    (fun _ step hh _ => (next_log hh.kept step).2) hh (Runs.guarded_true _ steps)

end Histories

/-- In every history the numbers of a stream run from 1 on without repetition, what the
reader received is an unbroken part of the stream from its start cursor on, and every
page it asks for is an error or the next events of the stream. -/
theorem reader_follows (maxEventsPerScope : Option Nat) (idempotencyRetentionSeconds : Nat)
    (hmax : ∀ n ∈ maxEventsPerScope, 0 < n) (hretention : 0 < idempotencyRetentionSeconds)
    (start : Option String) (steps : List Step)
    (hdistinct : DistinctCursors ctx (Runs.run (History.next host ctx)
      (.init maxEventsPerScope idempotencyRetentionSeconds hmax hretention start) steps)) :
    let first := History.init maxEventsPerScope idempotencyRetentionSeconds hmax hretention start
    let last := Runs.run (History.next host ctx) first steps
    (∀ scope, (stream last.log scope).map (·.sequence) =
        List.range' 1 (stream last.log scope).length) ∧
      Reads start (stream last.log ctx.scopeKey) last.reader.received ∧
      Runs.Guarded (History.next host ctx) (PageLaw host ctx start) first steps := by
  intro first last
  have hfirst : Consistent host ctx start first :=
    consistent_init maxEventsPerScope idempotencyRetentionSeconds hmax hretention
  have hreached : ∀ steps,
      Consistent host ctx start (Runs.run (History.next host ctx) first steps) :=
    fun steps => Runs.invariant (fun _ step hh _ => hh.step step) hfirst (Runs.guarded_true _ steps)
  refine ⟨fun scope => ((hreached steps).kept scope).numbered,
    ((hreached steps).follows hdistinct).reads, ?_⟩
  rw [Runs.guarded_iff]
  rintro before step after rfl
  -- The cursors told apart at the end were told apart before.
  have hlog := run_log (hreached before) (step :: after)
  rw [← Runs.run_append] at hlog
  have hbefore : DistinctCursors ctx (Runs.run (History.next host ctx) first before) :=
    hdistinct.of_prefix hlog
  exact ((hreached before).follows hbefore).pageLaw (hreached before).kept hbefore step

/-! ## Two readers -/

/-- The digests of the first three numbers of a stream. -/
def streamDigest (text : String) : String :=
  if text = "acme:main:1" then
    "c3072b17125ee0781c0b7ca8a6a046836008f3e03a091203f8988e9038c636ae"
  else if text = "acme:main:2" then
    "76e6dec66fc79dae09f9ac0cae1de2e75f4cf61d07664786126e774afaaf25ef"
  else if text = "acme:main:3" then
    "04a343f4bee630d5410a1264b43c4f71e6c9cc579405aa5a79ba5db832206548"
  else "~" ++ text

def streamHost : Host := { Durable.sampleHost with sha256 := streamDigest }

def sampleAppend (digit : Char) (kind : String) : Step :=
  .call (Durable.sampleEnv digit 0) (.append Durable.sampleContext none kind [])

def samplePoll (limit : Int) : Step := .poll (Durable.sampleEnv 'p' 1) limit

/-- The reader receives one event, and the next one is pruned together with it. -/
def prunedBehindReader : List Step :=
  [sampleAppend 'a' "run.accepted", sampleAppend 'b' "run.started", samplePoll 1,
    sampleAppend 'c' "run.finished",
    .call (Durable.sampleEnv 'd' 2) (.pruneBeforeSequence Durable.sampleContext 3), samplePoll 5]

def sampleHistory (limit : Option Nat) (hlimit : ∀ n ∈ limit, 0 < n) (start : Option String)
    (steps : List Step) : History :=
  Runs.run (History.next streamHost Durable.sampleContext)
    (.init limit 60 hlimit (by decide) start) steps

def firstCursor : Option String := some (cursorOf streamHost Durable.sampleContext.scopeKey 1)

theorem reader_follows_pruned :
    Reads firstCursor
        (stream (sampleHistory none (by simp) firstCursor prunedBehindReader).log
          Durable.sampleContext.scopeKey)
        (sampleHistory none (by simp) firstCursor prunedBehindReader).reader.received ∧
      (sampleHistory none (by simp) firstCursor prunedBehindReader).reader.received.map
        (·.sequence) = [2] ∧
      (sampleHistory none (by simp) firstCursor prunedBehindReader).reader.gone = true := by
  refine ⟨?_, by decide +kernel, by decide +kernel⟩
  exact (reader_follows streamHost Durable.sampleContext none 60 (by simp) (by decide)
    firstCursor prunedBehindReader (by unfold DistinctCursors; decide +kernel)).2.1

theorem retains_one : ∀ n ∈ some 1, 0 < n := by simp

/-- A reader without a cursor asks before the first event and after the second, of a store
that retains one: the first event, appended after it asked, never reaches it. -/
theorem reader_without_cursor_skips :
    (sampleHistory (some 1) retains_one none
        [samplePoll 5, sampleAppend 'a' "run.accepted", sampleAppend 'b' "run.started",
          samplePoll 5]).reader.received.map (·.sequence) = [2] ∧
      (sampleHistory (some 1) retains_one none
        [samplePoll 5, sampleAppend 'a' "run.accepted", sampleAppend 'b' "run.started",
          samplePoll 5]).reader.gone = false ∧
      (stream (sampleHistory (some 1) retains_one none
        [samplePoll 5, sampleAppend 'a' "run.accepted", sampleAppend 'b' "run.started",
          samplePoll 5]).log Durable.sampleContext.scopeKey).map (·.sequence) = [1, 2] := by
  decide +kernel

end Etlantic.ControlPlane.Memory
