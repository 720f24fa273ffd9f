import Etlantic.ControlPlane.Schedule.TriggerSteps

/-!
# Deliveries of one occurrence

The identity of an occurrence is derived three times: as the occurrence id of its
envelope, as the logical key of its firing and as the idempotency key of its
submission.  All three come from the same slot of the schedule, so deliveries meet
at one firing and one submission whatever stage they re-enter at.
-/

namespace Etlantic.ControlPlane.Schedule

open Durable (Key key Env)

variable {host : ScheduleHost} {env : Env} {ctx : ControlPlaneContext} {s t : Stores}
  {k : Key} {e : Event} {slot : TriggerSlot} {d : Delivery} {answer : Answer} {now : Instant}
  {record : ScheduleRecord} {firing : FiringRecord} {request : ClaimRequest}
  {envelope : TriggerEnvelope}

/-! ## The submissions of an occurrence -/

/-- The tuple under which a workload submits an occurrence. -/
def occurrenceTuple (host : ScheduleHost) (k : Key) (workload : Principal) :
    Durable.IdempotencyTuple where
  scope := k.scope
  issuer := workload.issuer.getD ""
  kind := workload.kind
  subject := workload.subject
  operation := "run.submit"
  idempotencyKey := scheduleIdempotencyKey host k.id

/-- The submissions accepted for an occurrence are of the workload that its schedule is
bound to. -/
def Owned (host : ScheduleHost) (scheduleId : String) (k : Key) (s : Stores) : Prop :=
  ∀ id row, s.durable.submissions.get? ⟨k.scope, id⟩ = some row → AcceptedFor host k row →
    ∃ record workload, s.schedules.get? ⟨k.scope, scheduleId⟩ = some record ∧
      record.workloadIdentity = some workload ∧
      Durable.rowTuple ⟨k.scope, id⟩ row = occurrenceTuple host k workload

/-- An occurrence has at most one submission. -/
theorem Owned.unique {scheduleId : String} (h : Owned host scheduleId k s)
    (hs : Durable.Inscribed s.durable) {id id' : String} {row row' : SubmissionRecord}
    (hget : s.durable.submissions.get? ⟨k.scope, id⟩ = some row)
    (hget' : s.durable.submissions.get? ⟨k.scope, id'⟩ = some row')
    (hfor : AcceptedFor host k row) (hfor' : AcceptedFor host k row') : id = id' := by
  obtain ⟨record, workload, hrecord, hidentity, htuple⟩ := h id row hget hfor
  obtain ⟨record', workload', hrecord', hidentity', htuple'⟩ := h id' row' hget' hfor'
  obtain rfl := Option.some.inj (hrecord.symm.trans hrecord')
  obtain rfl := Option.some.inj (hidentity.symm.trans hidentity')
  have hkeys := hs.key_eq hget hget' (htuple.trans htuple'.symm)
  exact congrArg Key.id hkeys

theorem acceptedFor_of_rowTuple {place : Key} {row row' : SubmissionRecord}
    (h : Durable.rowTuple place row = Durable.rowTuple place row') (hfor : AcceptedFor host k row') :
    AcceptedFor host k row := by
  have hoperation : row.operation = row'.operation :=
    congrArg Durable.IdempotencyTuple.operation h
  have hkey : row.idempotencyKey = row'.idempotencyKey :=
    congrArg Durable.IdempotencyTuple.idempotencyKey h
  unfold AcceptedFor
  rw [hoperation, hkey]
  exact hfor

/-- What a step must know of the rows it accepts. -/
theorem Owned.step {scheduleId : String} (event : Durable.Event)
    (h : Owned host scheduleId k s) (hkeeps : KeepsIdentities s t) (hrows : Durable.RowsFrom event s.durable t.durable)
    (haccept : ∀ ctx request id row, event.call = .accept ctx request →
      Durable.rowTuple ⟨k.scope, id⟩ row =
        Durable.idempotencyTuple ctx request.operation request.idempotencyKey →
      AcceptedFor host k row → ∃ record workload,
        s.schedules.get? ⟨k.scope, scheduleId⟩ = some record ∧
        record.workloadIdentity = some workload ∧
        Durable.rowTuple ⟨k.scope, id⟩ row = occurrenceTuple host k workload) :
    Owned host scheduleId k t := by
  intro id row hget hfor
  have hbefore : ∃ record workload, s.schedules.get? ⟨k.scope, scheduleId⟩ = some record ∧
      record.workloadIdentity = some workload ∧
      Durable.rowTuple ⟨k.scope, id⟩ row = occurrenceTuple host k workload := by
    rcases hrows _ row hget with ⟨old, hold, hsame⟩ | ⟨ctx, request, hcall, htuple⟩
    · obtain ⟨record, workload, hrecord, hidentity, htuple⟩ :=
        h id old hold (acceptedFor_of_rowTuple hsame hfor)
      exact ⟨record, workload, hrecord, hidentity, hsame.symm.trans htuple⟩
    · exact haccept ctx request id row hcall htuple hfor
  obtain ⟨record, workload, hrecord, hidentity, htuple⟩ := hbefore
  obtain ⟨record', hrecord', hsame⟩ := hkeeps _ record hrecord
  exact ⟨record', workload, hrecord', hsame.trans hidentity, htuple⟩

theorem Owned.of_durable_eq {scheduleId : String} (h : Owned host scheduleId k s)
    (hkeeps : KeepsIdentities s t) (hdurable : t.durable = s.durable) :
    Owned host scheduleId k t := by
  intro id row hget hfor
  rw [hdurable] at hget
  obtain ⟨record, workload, hrecord, hidentity, htuple⟩ := h id row hget hfor
  obtain ⟨record', hrecord', hsame⟩ := hkeeps _ record hrecord
  exact ⟨record', workload, hrecord', hsame.trans hidentity, htuple⟩

theorem claimFiring_durable (hadmits : request.admitSubmission = false) :
    (claimFiring host env ctx request s).stores.durable = s.durable := by
  rcases claimFiring_unadmitted hadmits with hsame |
    ⟨record, logical, firing, schedules, -, -, -, hstores⟩
  · rw [hsame]
  · rw [hstores]

theorem managedAccept_eq {acceptance : ManagedAcceptance} {accepted : Durable.AcceptRequest}
    (h : managedAccept host record firing envelope acceptance = .ok accepted) :
    accepted.operation = "run.submit" := by
  unfold managedAccept at h
  split at h
  · cases h
  · obtain rfl := Except.ok.inj h
    rfl

/-- A delivery accepts work only as the workload of its schedule. -/
theorem Calls.owned {call : Call} (h : Calls host d env call) (hs : Settled host s)
    (hsound : d.stage.Sound host d.ctx d.envelope s) (howned : Owned host d.envelope.scheduleId k s) :
    Owned host d.envelope.scheduleId k (next host s ⟨env, call⟩) := by
  have hkeeps : KeepsIdentities s (next host s ⟨env, call⟩) := h.keepsIdentities
  cases h with
  | @claim record claimedAt request hstage hrequest =>
      have hnext : next host s ⟨env, .claimFiring d.ctx request⟩ =
          (claimFiring host env d.ctx request s).stores := by
        simp only [next, Call.exec]
      rw [hnext] at hkeeps ⊢
      exact howned.of_durable_eq hkeeps (claimFiring_durable (externalRequest_eq hrequest).1)
  | @accept record firing acceptance accepted hbound hrequest =>
      refine Owned.step ⟨env, .accept d.ctx accepted⟩ howned hkeeps
        (Durable.next_rowsFrom hs.filed.durable.linked) ?_
      intro ctx request id row hcall htuple hfor
      obtain ⟨rfl, rfl⟩ := Durable.Call.accept.inj hcall
      obtain ⟨stored, hget, hidentity⟩ := (hbound s hsound).current
      have hscope : k.scope = d.ctx.scopeKey := congrArg Durable.IdempotencyTuple.scope htuple
      refine ⟨stored, d.ctx.principal, by rw [hscope]; exact hget, hidentity, ?_⟩
      have hoperation : row.operation = "run.submit" :=
        (congrArg Durable.IdempotencyTuple.operation htuple).trans (managedAccept_eq hrequest)
      -- The accepted key is that of the occurrence because the row is for it.
      have hkey : row.idempotencyKey = scheduleIdempotencyKey host k.id := by
        rcases hfor with ⟨hdirect, -⟩ | ⟨-, hkey⟩
        · rw [hoperation] at hdirect
          exact absurd hdirect (by decide)
        · exact hkey
      have hrow : row.idempotencyKey = accepted.idempotencyKey :=
        congrArg Durable.IdempotencyTuple.idempotencyKey htuple
      rw [htuple]
      unfold Durable.idempotencyTuple occurrenceTuple
      rw [managedAccept_eq hrequest, ← hrow, hkey, hscope]
  | firing hspares hnot =>
      rcases next_spared hspares with ⟨c, hcall⟩ | ⟨firings, hnext⟩
      · exact absurd hcall (hnot c)
      · exact howned.of_durable_eq hkeeps (by rw [hnext])

/-! ## Sessions -/

/-- The call accepts a submission. -/
def Event.accepts (e : Event) : Bool :=
  match e.call with
  | .durable (.accept _ _) => true
  | _ => false

/-- The deliveries carry the occurrence id of one slot, the identifiers they generate are
new, and everybody else leaves the schedules and the acceptance of work alone. -/
def Move.allowed (host : ScheduleHost) (slot : TriggerSlot) (σ : Gateways) : Move → Bool
  | .deliver _ content => content.occurrenceId = slot.occurrenceId host
  | .step i env _ answer => (σ.deliveries[i]?).all fun d =>
      (d.call host env answer).all fun call => (⟨env, call⟩ : Event).isNew σ.stores
  | .other e => e.sparesSchedules && !e.accepts && e.isNew σ.stores

/-- What a session keeps from its start on, for the occurrence of a slot in a scope. -/
structure Converges (host : ScheduleHost) (slot : TriggerSlot) (k : Key) (start : Stores)
    (σ : Gateways) : Prop where
  settled : Settled host σ.stores
  slots : ∀ d ∈ σ.deliveries, d.envelope.slot = slot
  sound : ∀ d ∈ σ.deliveries, d.stage.Sound host d.ctx d.envelope σ.stores
  owned : Owned host slot.scheduleId k σ.stores
  placed : ∀ place firing, σ.stores.firings.get? place = some firing →
    place.id = k.id ∨ ∃ old, start.firings.get? place = some old

variable {start : Stores} {σ : Gateways}

theorem firing_before (hspares : e.sparesSchedules = true)
    (hget : (next host s e).firings.get? k = some firing) :
    ∃ old, s.firings.get? k = some old := by
  cases hold : s.firings.get? k with
  | some old => exact ⟨old, rfl⟩
  | none =>
      rcases next_writes host s e with hsame | hwrite
      · rw [hsame, hold] at hget
        cases hget
      · rw [hwrite.firing_absent hspares hold] at hget
        cases hget

theorem Calls.placed {call : Call} (h : Calls host d env call)
    (hsound : d.stage.Sound host d.ctx d.envelope s)
    (hlogical : d.envelope.slot.logical host = .ok k.id) {place : Key}
    (hget : (next host s ⟨env, call⟩).firings.get? place = some firing) :
    place.id = k.id ∨ ∃ old, s.firings.get? place = some old := by
  cases h with
  | @claim record claimedAt request hstage hrequest =>
      rw [hstage] at hsound
      have hadmits := (externalRequest_eq hrequest).1
      have hnext : next host s ⟨env, .claimFiring d.ctx request⟩ =
          (claimFiring host env d.ctx request s).stores := by
        simp only [next, Call.exec]
      rw [hnext] at hget
      rcases claimFiring_unadmitted hadmits with hsame |
        ⟨record', logical, new, schedules, -, hkey, -, hstores⟩
      · rw [hsame] at hget
        exact .inr ⟨firing, hget⟩
      · rw [hstores] at hget
        rcases Dict.get?_set_eq_some.mp hget with ⟨rfl, -⟩ | ⟨-, hold⟩
        · rw [externalRequest_logical hrequest hsound, hlogical] at hkey
          exact .inl (Except.ok.inj hkey).symm
        · exact .inr ⟨firing, hold⟩
  | @accept record firing' acceptance accepted hbound hrequest =>
      have hnext : (next host s ⟨env, .durable (.accept d.ctx accepted)⟩).firings = s.firings := by
        simp only [next, Call.exec]
      rw [hnext] at hget
      exact .inr ⟨firing, hget⟩
  | firing hspares hnot => exact .inr (firing_before hspares hget)

/-- The stores of a session move on while its deliveries stay where they are. -/
theorem Converges.setStores (h : Converges host slot k start σ) (hsettled : Settled host t)
    (hsound : ∀ d ∈ σ.deliveries, d.stage.Sound host d.ctx d.envelope t)
    (howned : Owned host slot.scheduleId k t)
    (hplaced : ∀ place firing, t.firings.get? place = some firing →
      place.id = k.id ∨ ∃ old, σ.stores.firings.get? place = some old) :
    Converges host slot k start { σ with stores := t } where
  settled := hsettled
  slots := h.slots
  sound := hsound
  owned := howned
  placed := by
    intro place firing hget
    rcases hplaced place firing hget with hid | ⟨old, hold⟩
    · exact .inl hid
    · exact h.placed place old hold

theorem Converges.other (h : Converges host slot k start σ) (hspares : e.sparesSchedules = true)
    (haccepts : e.accepts = false) (hnew : e.isNew σ.stores = true) :
    Converges host slot k start { σ with stores := Schedule.next host σ.stores e } := by
  have hkeeps : KeepsIdentities σ.stores (Schedule.next host σ.stores e) :=
    keepsIdentities_spared hspares
  refine h.setStores (h.settled.next hnew) (fun d hd => (h.sound d hd).next hkeeps) ?_
    (fun place firing hget => .inr (firing_before hspares hget))
  rcases next_spared hspares with ⟨call, hcall⟩ | ⟨firings, hnext⟩
  · refine Owned.step ⟨e.env, call⟩ h.owned hkeeps ?_ ?_
    · have hrows : Durable.RowsFrom ⟨e.env, call⟩ σ.stores.durable
          (Durable.next host.durable σ.stores.durable ⟨e.env, call⟩) :=
        Durable.next_rowsFrom h.settled.filed.durable.linked
      unfold Schedule.next
      rw [hcall]
      exact hrows
    · intro ctx request id row haccept
      change call = .accept ctx request at haccept
      unfold Event.accepts at haccepts
      rw [hcall, haccept] at haccepts
      cases haccepts
  · exact h.owned.of_durable_eq hkeeps (by rw [hnext])

theorem Converges.step {i : Nat} (h : Converges host slot k start σ)
    (hlogical : slot.logical host = .ok k.id) (hd : σ.deliveries[i]? = some d)
    (hnew : ∀ call, d.call host env answer = some call →
      (⟨env, call⟩ : Event).isNew σ.stores = true) :
    Converges host slot k start {
      stores := callStores host env σ.stores (d.call host env answer)
      deliveries := σ.deliveries.set i
        { d with stage := d.after host env now answer σ.stores } } := by
  have hmem : d ∈ σ.deliveries := List.mem_of_getElem? hd
  have hslot : d.envelope.slot = slot := h.slots d hmem
  have hsound := h.sound d hmem
  have hafter : (d.after host env now answer σ.stores).Sound host d.ctx d.envelope
      (callStores host env σ.stores (d.call host env answer)) :=
    Delivery.after_sound h.settled hsound
  have hstores : Converges host slot k start
      { σ with stores := callStores host env σ.stores (d.call host env answer) } := by
    cases hcall : d.call host env answer with
    | none => exact h
    | some call =>
        have hcalls : Calls host d env call := d.calls hcall
        have howned : Owned host d.envelope.scheduleId k σ.stores := by
          rw [show d.envelope.scheduleId = slot.scheduleId from
            congrArg TriggerSlot.scheduleId hslot]
          exact h.owned
        refine h.setStores (h.settled.next (hnew call hcall))
          (fun d' hd' => (h.sound d' hd').next hcalls.keepsIdentities) ?_
          (fun place firing hget => hcalls.placed hsound (hslot ▸ hlogical) hget)
        have hnext := hcalls.owned h.settled hsound howned
        rw [show d.envelope.scheduleId = slot.scheduleId from
          congrArg TriggerSlot.scheduleId hslot] at hnext
        exact hnext
  refine ⟨hstores.settled, ?_, ?_, hstores.owned, hstores.placed⟩
  · intro d' hd'
    rcases List.mem_or_eq_of_mem_set hd' with hold | rfl
    · exact h.slots d' hold
    · exact hslot
  · intro d' hd'
    rcases List.mem_or_eq_of_mem_set hd' with hold | rfl
    · exact hstores.sound d' hold
    · exact hafter

theorem Converges.move (hsha : Function.Injective host.durable.sha256)
    (h : Converges host slot k start σ) (hlogical : slot.logical host = .ok k.id) {m : Move}
    (hallowed : m.allowed host slot σ = true) :
    Converges host slot k start (move host σ m) := by
  cases m with
  | deliver ctx content =>
      unfold Schedule.move
      dsimp only
      split
      · exact h
      · rename_i envelope hcontent
        refine ⟨h.settled, ?_, ?_, h.owned, h.placed⟩
        · intro d hd
          rcases List.mem_append.mp hd with hold | hnew
          · exact h.slots d hold
          · obtain rfl := List.mem_singleton.mp hnew
            exact content.envelope_slot hsha hcontent (by simpa [Move.allowed] using hallowed)
        · intro d hd
          rcases List.mem_append.mp hd with hold | hnew
          · exact h.sound d hold
          · obtain rfl := List.mem_singleton.mp hnew
            trivial
  | step i env now answer =>
      unfold Schedule.move
      dsimp only
      split
      · exact h
      · rename_i d hd
        refine h.step hlogical hd fun call hcall => ?_
        simp only [Move.allowed, hd, Option.all_some, hcall] at hallowed
        exact hallowed
  | other e =>
      simp only [Move.allowed, Bool.and_eq_true, Bool.not_eq_true'] at hallowed
      exact h.other hallowed.1.1 hallowed.1.2 hallowed.2

theorem settled_reached {limit : Option Int} {es : List Event}
    (h : Runs.Guarded (next host) (fun s e => e.isNew s = true) (.init (.init limit)) es) :
    Settled host (reached host limit es) :=
  Runs.invariant (I := Settled host) (fun _ _ hs hnew => hs.next hnew) (settled_init host limit) h

/-- The submission of a receipt is the one of the firing of its slot, and was accepted for
the occurrence. -/
theorem Converges.reported (h : Converges host slot k start σ)
    (hlogical : slot.logical host = .ok k.id) (hd : d ∈ σ.deliveries) {receipt : TriggerReceipt}
    (hanswered : d.stage = .answered receipt) {id : String} (hid : receipt.submissionId = some id) :
    ∃ stored row, σ.stores.firings.get? ⟨d.ctx.scopeKey, k.id⟩ = some stored ∧
      stored.submissionId = some id ∧
      σ.stores.durable.submissions.get? ⟨d.ctx.scopeKey, id⟩ = some row ∧
      AcceptedFor host ⟨d.ctx.scopeKey, k.id⟩ row := by
  have hsound := h.sound d hd
  rw [hanswered] at hsound
  obtain ⟨logical, stored, hslot, hget, hlinked⟩ := hsound id hid
  rw [h.slots d hd, hlogical] at hslot
  obtain rfl := Except.ok.inj hslot
  obtain ⟨row, hrow, hfor⟩ := h.settled.filed.backed _ stored hget id hlinked
  exact ⟨stored, row, hget, hlinked, hrow, hfor⟩

/-- Whatever deliveries of one occurrence id do, in any order and with any of them
stopping anywhere: the occurrence has at most one firing and at most one submission,
receipts that report a submission report the same one, and it was accepted for the
occurrence; and no firing is made but that of the occurrence. -/
theorem external_trigger_idempotent (host : ScheduleHost) (limit : Option Int) (es : List Event)
    (slot : TriggerSlot) (k : Key) (moves : List Move)
    (hsha : Function.Injective host.durable.sha256)
    (hrun : Runs.Guarded (next host) (fun s e => e.isNew s = true) (.init (.init limit)) es)
    (hlogical : slot.logical host = .ok k.id)
    (howned : Owned host slot.scheduleId k (reached host limit es))
    (h : Runs.Guarded (move host) (fun σ m => m.allowed host slot σ = true)
      ⟨reached host limit es, []⟩ moves) :
    let σ := Runs.run (move host) ⟨reached host limit es, []⟩ moves
    (∀ place firing, σ.stores.firings.get? place = some firing → firing.scope = k.scope →
      firing.scheduleId = slot.scheduleId → firing.revisionId = slot.revisionId →
      firing.nominalFireTime = host.iso slot.at_ → place = k) ∧
    (∀ id id' row row', σ.stores.durable.submissions.get? ⟨k.scope, id⟩ = some row →
      σ.stores.durable.submissions.get? ⟨k.scope, id'⟩ = some row' →
      AcceptedFor host k row → AcceptedFor host k row' → id = id') ∧
    (∀ d d', d ∈ σ.deliveries → d' ∈ σ.deliveries → d.ctx.scopeKey = d'.ctx.scopeKey →
      ∀ receipt receipt' id id', d.stage = .answered receipt → d'.stage = .answered receipt' →
        receipt.submissionId = some id → receipt'.submissionId = some id' → id = id' ∧
          ∃ row, σ.stores.durable.submissions.get? ⟨d.ctx.scopeKey, id⟩ = some row ∧
            AcceptedFor host ⟨d.ctx.scopeKey, k.id⟩ row) ∧
    (∀ place firing, σ.stores.firings.get? place = some firing →
      place.id = k.id ∨ ∃ old, (reached host limit es).firings.get? place = some old) := by
  intro σ
  have hstart : Converges host slot k (reached host limit es) ⟨reached host limit es, []⟩ :=
    ⟨settled_reached hrun, fun _ hd => (by cases hd), fun _ hd => (by cases hd), howned,
      fun _ firing hget => .inr ⟨firing, hget⟩⟩
  have hend : Converges host slot k (reached host limit es) σ :=
    Runs.invariant (I := Converges host slot k (reached host limit es))
      (fun _ _ hσ hallowed => hσ.move hsha hlogical hallowed) hstart h
  refine ⟨?_, ?_, ?_, hend.placed⟩
  · intro place firing hget hscope hschedule hrevision hnominal
    have hkey : firingKey firing.scheduleId firing.revisionId firing.nominalFireTime =
        .ok place.id := hend.settled.filed.keyed place firing hget
    have hhome : firing.scope = place.scope := hend.settled.filed.home place firing hget
    rw [hschedule, hrevision, hnominal] at hkey
    have hid : k.id = place.id := Except.ok.inj (hlogical.symm.trans hkey)
    rw [hhome] at hscope
    cases place
    cases k
    simp_all
  · exact fun id id' row row' hget hget' hfor hfor' =>
      hend.owned.unique hend.settled.inscribed hget hget' hfor hfor'
  · intro d d' hd hd' hscope receipt receipt' id id' hanswered hanswered' hid hid'
    obtain ⟨stored, row, hget, hlinked, hrow, hfor⟩ := hend.reported hlogical hd hanswered hid
    obtain ⟨stored', -, hget', hlinked', -⟩ := hend.reported hlogical hd' hanswered' hid'
    rw [← hscope] at hget'
    obtain rfl := Option.some.inj (hget.symm.trans hget')
    exact ⟨Option.some.inj (hlinked.symm.trans hlinked'), row, hrow, hfor⟩

section Sample

def sampleTimer : Principal := ⟨"timer", none, .workload⟩

def sampleTimerContext : ControlPlaneContext :=
  { Durable.sampleContext with principal := sampleTimer }

/-- The sample schedule in the hands of an external timer. -/
def sampleExternal : Event :=
  ⟨sampleScheduleEnv 'a', .create Durable.sampleContext
    { sampleCreate (sampleSpec .fireOnce .queue) with
      workloadIdentity := some sampleTimer
      timerOwner := .external }⟩

def sampleSlot : TriggerSlot := ⟨"nightly", sampleRevision, seconds 60⟩

def sampleOccurrenceId : String :=
  "occ-557a0a6737d409fd5844c042d7aa9d8f285623e9aa135436b922a813b7ab2c6a"

def sampleContent (attempt : String) : TriggerContent where
  scheduleId := "nightly"
  scheduleRevisionId := sampleRevision
  timerOwnerGeneration := 1
  occurrenceId := sampleOccurrenceId
  scheduledAt := sampleStamp 1
  deliveryAttemptId := attempt
  correlationId := "nightly"

/-- The texts of the sample deliveries that are hashed. -/
def sampleSlotJson : Json :=
  .arr [.str "nightly", .str sampleRevision, .str (sampleStamp 1)]

def sampleIntentJson : Json :=
  .obj [("schema", .str triggerEnvelopeSchema), ("schedule_id", .str "nightly"),
    ("schedule_revision_id", .str sampleRevision), ("occurrence_id", .str sampleOccurrenceId),
    ("scheduled_at", .str (sampleStamp 1))]

/-- SHA-256 of the logical key, of the accepted inputs and of these texts. -/
def sampleTriggerDigests : List (String × String) :=
  [((sampleFiringKey 1).id,
      "039e2d7bc6cc0f400f24afe1694c5fd38d0754e4419bd7458d14d1c8f41e4f36"),
    ("plan|def-1|||envelope|||prod|corp||local",
      "135433bb67455c55f196e59ff9ae320f83c6d4fe09291ab18bd5db2b619d95a1"),
    (sampleSlotJson.dumps Json.escapeUnicode,
      "557a0a6737d409fd5844c042d7aa9d8f285623e9aa135436b922a813b7ab2c6a"),
    (sampleIntentJson.dumps Json.escapeUnicode,
      "2095cfa840e5a94afd2c1ed576c14d2068df55676698cac412ec60a8dbd522ea")]

def sampleTriggerSha256 : String → String := Durable.digestBy sampleTriggerDigests

theorem sampleTriggerSha256_injective : Function.Injective sampleTriggerSha256 :=
  Durable.digestBy_injective (by decide +kernel) (by decide +kernel)

/-- A text that does not begin like another. -/
theorem ne_of_head {a b : String} (h : a.toList.head? ≠ b.toList.head?) : a ≠ b := by
  rintro rfl
  exact h rfl

def sampleTriggerHost : ScheduleHost :=
  { sampleScheduleHost with
    durable := { Durable.sampleHost with sha256 := sampleTriggerSha256 } }

theorem dumps_head {escape : Char → List Char} {json : Json} {c : Char} {rest : List Char}
    (h : Json.render escape json = c :: rest) : (json.dumps escape).toList.head? = some c := by
  unfold Json.dumps
  rw [h]
  simp

theorem sampleTriggerHost_iso : sampleTriggerHost.iso (seconds 60) = sampleStamp 1 := by
  simp [sampleStamp, ScheduleHost.iso, sampleTriggerHost]

theorem sampleFiringKey_head : (sampleFiringKey 1).id.toList.head? = some 'n' := by
  simp [sampleFiringKey, Durable.key, String.toList_append]

theorem sampleTriggerHost_sha256 : sampleTriggerHost.durable.sha256 = sampleTriggerSha256 := by
  simp only [sampleTriggerHost]

theorem sampleSlot_digest : sampleTriggerSha256 (sampleSlotJson.dumps Json.escapeUnicode) =
    "557a0a6737d409fd5844c042d7aa9d8f285623e9aa135436b922a813b7ab2c6a" := by
  have hhead : (sampleSlotJson.dumps Json.escapeUnicode).toList.head? = some '[' := dumps_head rfl
  have hkey : (sampleFiringKey 1).id ≠ sampleSlotJson.dumps Json.escapeUnicode :=
    ne_of_head (by rw [hhead, sampleFiringKey_head]; decide)
  have hinputs : "plan|def-1|||envelope|||prod|corp||local" ≠
      sampleSlotJson.dumps Json.escapeUnicode := ne_of_head (by rw [hhead]; simp)
  rw [sampleTriggerSha256, sampleTriggerDigests, Durable.digestBy_cons_ne hkey,
    Durable.digestBy_cons_ne hinputs, Durable.digestBy_cons_self]

theorem sampleContent_occurrence (attempt : String) : (sampleContent attempt).occurrenceId =
    externalOccurrenceId sampleTriggerHost (sampleContent attempt).scheduleId
      (sampleContent attempt).scheduleRevisionId (sampleContent attempt).scheduledAt := by
  have hjson : Json.arr [.str (sampleContent attempt).scheduleId,
      .str (sampleContent attempt).scheduleRevisionId,
      .str (sampleContent attempt).scheduledAt] = sampleSlotJson := by
    simp only [sampleContent, sampleSlotJson]
  unfold externalOccurrenceId
  rw [hjson, sampleTriggerHost_sha256, sampleSlot_digest]
  simp only [sampleContent]
  decide +kernel

def sampleTriggerEnvelope : TriggerEnvelope where
  scheduleId := "nightly"
  scheduleRevisionId := sampleRevision
  timerOwnerGeneration := 1
  occurrenceId := sampleOccurrenceId
  scheduledAt := seconds 60
  semanticFingerprint := "2095cfa840e5a94afd2c1ed576c14d2068df55676698cac412ec60a8dbd522ea"

theorem sampleContent_fingerprint (attempt : String) :
    (sampleContent attempt).semanticFingerprint sampleTriggerHost =
      "2095cfa840e5a94afd2c1ed576c14d2068df55676698cac412ec60a8dbd522ea" := by
  have hhead : (sampleIntentJson.dumps Json.escapeUnicode).toList.head? = some '{' :=
    dumps_head rfl
  have hslot : (sampleSlotJson.dumps Json.escapeUnicode).toList.head? = some '[' := dumps_head rfl
  have hjson : Json.obj [("schema", .str triggerEnvelopeSchema),
      ("schedule_id", .str (sampleContent attempt).scheduleId),
      ("schedule_revision_id", .str (sampleContent attempt).scheduleRevisionId),
      ("occurrence_id", .str (sampleContent attempt).occurrenceId),
      ("scheduled_at", .str (sampleContent attempt).scheduledAt)] = sampleIntentJson := by
    simp only [sampleContent, sampleIntentJson]
  unfold TriggerContent.semanticFingerprint
  rw [hjson, sampleTriggerHost_sha256]
  have hkey : (sampleFiringKey 1).id ≠ sampleIntentJson.dumps Json.escapeUnicode :=
    ne_of_head (by rw [hhead, sampleFiringKey_head]; decide)
  have hinputs : "plan|def-1|||envelope|||prod|corp||local" ≠
      sampleIntentJson.dumps Json.escapeUnicode := ne_of_head (by rw [hhead]; simp)
  have hother : sampleSlotJson.dumps Json.escapeUnicode ≠
      sampleIntentJson.dumps Json.escapeUnicode := ne_of_head (by rw [hhead, hslot]; decide)
  rw [sampleTriggerSha256, sampleTriggerDigests, Durable.digestBy_cons_ne hkey,
    Durable.digestBy_cons_ne hinputs, Durable.digestBy_cons_ne hother,
    Durable.digestBy_cons_self]

theorem utf8ByteSize_ofList_le (text : List Char) :
    (String.ofList text).utf8ByteSize ≤ 4 * text.length := by
  induction text with
  | nil => simp
  | cons c rest ih =>
      have hcons : String.ofList (c :: rest) = String.singleton c ++ String.ofList rest := by
        simp
      have hc : c.utf8Size ≤ 4 := c.utf8Size_le_four
      rw [hcons, String.utf8ByteSize_append, List.length_cons]
      simp only [String.utf8ByteSize_singleton]
      omega

theorem sampleContent_texts (attempt : String) :
    lengthError 512 [("schedule_id", (sampleContent attempt).scheduleId),
      ("schedule_revision_id", (sampleContent attempt).scheduleRevisionId),
      ("occurrence_id", (sampleContent attempt).occurrenceId),
      ("scheduled_at", (sampleContent attempt).scheduledAt)] = none := by
  have hnone : (lengthError 512 [("schedule_id", "nightly"),
      ("schedule_revision_id", sampleRevision), ("occurrence_id", sampleOccurrenceId),
      ("scheduled_at", sampleStamp 1)]).isNone = true := by decide +kernel
  simp only [sampleContent]
  exact Option.isNone_iff_eq_none.mp hnone

theorem sampleContent_envelope {attempt : String}
    (hids : lengthError 256 [("delivery_attempt_id", attempt), ("correlation_id", "nightly")] =
      none)
    (hsize : (Json.render Json.escapeUnicode (sampleContent attempt).toDict).length ≤ 4096) :
    (sampleContent attempt).envelope sampleTriggerHost = .ok sampleTriggerEnvelope := by
  have hcanonical : (sampleContent attempt).scheduledAt = sampleTriggerHost.iso (seconds 60) := by
    rw [sampleTriggerHost_iso]
    simp only [sampleContent]
  have hparse : sampleTriggerHost.fromisoformat (sampleContent attempt).scheduledAt =
      some ⟨seconds 60, some 0⟩ := by
    rw [hcanonical]
    exact sampleTriggerHost.fromisoformat_iso (seconds 60)
  have hbytes : ¬ maxTriggerEnvelopeBytes <
      ((sampleContent attempt).toDict.dumps Json.escapeUnicode).utf8ByteSize := by
    have hle := utf8ByteSize_ofList_le
      (Json.render Json.escapeUnicode (sampleContent attempt).toDict)
    unfold Json.dumps maxTriggerEnvelopeBytes
    omega
  have hgeneration : ¬ (sampleContent attempt).timerOwnerGeneration < 1 := by
    simp only [sampleContent]
    decide
  unfold TriggerContent.envelope
  rw [sampleContent_texts]
  dsimp only
  rw [if_neg hgeneration, show (sampleContent attempt).deliveryAttemptId = attempt by
    simp only [sampleContent], show (sampleContent attempt).correlationId = "nightly" by
    simp only [sampleContent], hids]
  dsimp only
  rw [hparse]
  dsimp only
  rw [if_neg (not_not.mpr hcanonical), if_neg (not_not.mpr (sampleContent_occurrence attempt)),
    if_neg hbytes, sampleContent_fingerprint]
  simp only [sampleContent, sampleTriggerEnvelope]

theorem move_deliver {host : ScheduleHost} {σ : Gateways} {ctx : ControlPlaneContext}
    {content : TriggerContent} {envelope : TriggerEnvelope}
    (h : content.envelope host = .ok envelope) : move host σ (.deliver ctx content) =
      ⟨σ.stores, σ.deliveries ++ [⟨ctx, envelope, .received⟩]⟩ := by
  simp only [move, h]

def sampleStep (delivery : Nat) (digit : Char) (answer : Answer) : Move :=
  .step delivery (sampleScheduleEnv digit) (seconds 60) answer

/-- The first delivery claims the firing and stops; the second finds it. -/
def sampleSteps : List Move :=
  [sampleStep 0 'b' .proceed, sampleStep 1 'c' .proceed, sampleStep 0 'b' .proceed,
    sampleStep 0 'b' .proceed, sampleStep 0 'b' .proceed, sampleStep 1 'c' .proceed,
    sampleStep 1 'c' .proceed]

def sampleDeliveries : List Move :=
  .deliver sampleTimerContext (sampleContent "first") ::
    .deliver sampleTimerContext (sampleContent "second") :: sampleSteps

/-- The two deliveries after their envelopes were accepted. -/
def sampleReceived : Gateways :=
  ⟨reached sampleTriggerHost none [sampleExternal],
    [⟨sampleTimerContext, sampleTriggerEnvelope, .received⟩,
      ⟨sampleTimerContext, sampleTriggerEnvelope, .received⟩]⟩

theorem sampleContent_first :
    (sampleContent "first").envelope sampleTriggerHost = .ok sampleTriggerEnvelope := by
  have hids : (lengthError 256 [("delivery_attempt_id", "first"),
      ("correlation_id", "nightly")]).isNone = true := by decide +kernel
  exact sampleContent_envelope (Option.isNone_iff_eq_none.mp hids) (by decide +kernel)

theorem sampleContent_second :
    (sampleContent "second").envelope sampleTriggerHost = .ok sampleTriggerEnvelope := by
  have hids : (lengthError 256 [("delivery_attempt_id", "second"),
      ("correlation_id", "nightly")]).isNone = true := by decide +kernel
  exact sampleContent_envelope (Option.isNone_iff_eq_none.mp hids) (by decide +kernel)

theorem sampleDeliveries_allowed : Runs.Guarded (move sampleTriggerHost)
    (fun σ m => m.allowed sampleTriggerHost sampleSlot σ = true)
    ⟨reached sampleTriggerHost none [sampleExternal], []⟩ sampleDeliveries := by
  have hid : ∀ attempt, (sampleContent attempt).occurrenceId =
      sampleSlot.occurrenceId sampleTriggerHost := by
    intro attempt
    rw [sampleContent_occurrence]
    unfold TriggerSlot.occurrenceId
    simp only [sampleContent, sampleSlot]
    rw [sampleTriggerHost_iso]
  have hsteps : Runs.Guarded (move sampleTriggerHost)
      (fun σ m => m.allowed sampleTriggerHost sampleSlot σ = true) sampleReceived sampleSteps := by
    decide +kernel
  have hfirst : move sampleTriggerHost ⟨reached sampleTriggerHost none [sampleExternal], []⟩
      (.deliver sampleTimerContext (sampleContent "first")) =
        ⟨reached sampleTriggerHost none [sampleExternal],
          [⟨sampleTimerContext, sampleTriggerEnvelope, .received⟩]⟩ :=
    move_deliver sampleContent_first
  have hsecond : move sampleTriggerHost ⟨reached sampleTriggerHost none [sampleExternal],
      [⟨sampleTimerContext, sampleTriggerEnvelope, .received⟩]⟩
      (.deliver sampleTimerContext (sampleContent "second")) = sampleReceived :=
    move_deliver sampleContent_second
  refine ⟨decide_eq_true (hid "first"), decide_eq_true (hid "second"), ?_⟩
  rw [hfirst, hsecond]
  exact hsteps

/-- Two deliveries of the first occurrence of the sample schedule. -/
theorem sample_deliveries_converge :
    let k : Key := ⟨(sampleFiringKey 1).scope, (sampleFiringKey 1).id⟩
    let σ := Runs.run (move sampleTriggerHost)
      ⟨reached sampleTriggerHost none [sampleExternal], []⟩ sampleDeliveries
    ∀ id id' row row', σ.stores.durable.submissions.get? ⟨k.scope, id⟩ = some row →
      σ.stores.durable.submissions.get? ⟨k.scope, id'⟩ = some row' →
      AcceptedFor sampleTriggerHost k row → AcceptedFor sampleTriggerHost k row' → id = id' := by
  have hsha : Function.Injective sampleTriggerHost.durable.sha256 := by
    rw [sampleTriggerHost_sha256]
    exact sampleTriggerSha256_injective
  have hlogical : sampleSlot.logical sampleTriggerHost = .ok (sampleFiringKey 1).id := by
    have hsome : (sampleSlot.logical sampleTriggerHost).toOption = some (sampleFiringKey 1).id := by
      decide +kernel
    cases hcase : sampleSlot.logical sampleTriggerHost with
    | error error =>
        rw [hcase] at hsome
        cases hsome
    | ok value =>
        rw [hcase] at hsome
        rw [Option.some.inj hsome]
  have howned : Owned sampleTriggerHost sampleSlot.scheduleId (sampleFiringKey 1)
      (reached sampleTriggerHost none [sampleExternal]) := by
    have hempty : (reached sampleTriggerHost none
        [sampleExternal]).durable.submissions.entries.length = 0 := by decide +kernel
    intro id row hget
    have hmem := Dict.mem_entries_iff.mpr hget
    rw [List.eq_nil_of_length_eq_zero hempty] at hmem
    cases hmem
  have hresult := external_trigger_idempotent sampleTriggerHost none [sampleExternal] sampleSlot
    (sampleFiringKey 1) sampleDeliveries hsha (by decide +kernel) hlogical howned
    sampleDeliveries_allowed
  exact hresult.2.1

end Sample

end Etlantic.ControlPlane.Schedule
