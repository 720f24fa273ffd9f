import Etlantic.ControlPlane.Durable.Inscribed
import Etlantic.ControlPlane.Schedule.ExactlyOnce
import Etlantic.ControlPlane.Schedule.ExternalTriggers
import Etlantic.ControlPlane.Schedule.Progress

/-!
# The steps of a delivery

What a delivery holds on to at each stage, and that a step of its own and a call of
anybody else leave it sound: the schedule it has read is bound to its principal, and
the firing it has at hand is the one stored for the slot of its occurrence id.
-/

namespace Etlantic.ControlPlane.Schedule

open Durable (Key key Env)

/-! ## Slots -/

/-- What an occurrence id stands for. -/
structure TriggerSlot where
  scheduleId : String
  revisionId : String
  at_ : Instant

def TriggerSlot.occurrenceId (host : ScheduleHost) (slot : TriggerSlot) : String :=
  externalOccurrenceId host slot.scheduleId slot.revisionId (host.iso slot.at_)

def TriggerSlot.logical (host : ScheduleHost) (slot : TriggerSlot) : Except PyError String :=
  firingKey slot.scheduleId slot.revisionId (host.iso slot.at_)

def TriggerEnvelope.slot (envelope : TriggerEnvelope) : TriggerSlot :=
  ⟨envelope.scheduleId, envelope.scheduleRevisionId, envelope.scheduledAt⟩

variable {host : ScheduleHost} {env : Env} {ctx : ControlPlaneContext} {s t : Stores}
  {k k' : Key} {e : Event} {slot : TriggerSlot} {d : Delivery} {answer : Answer} {now : Instant}
  {record : ScheduleRecord} {firing : FiringRecord} {request : ClaimRequest}
  {envelope : TriggerEnvelope}

theorem externalOccurrenceId_inj (hsha : Function.Injective host.durable.sha256)
    {a b c a' b' c' : String}
    (h : externalOccurrenceId host a b c = externalOccurrenceId host a' b' c') :
    a = a' ∧ b = b' ∧ c = c' := by
  unfold externalOccurrenceId at h
  have htext := hsha ((String.append_right_inj _).mp h)
  have hlist : [a, b, c] = [a', b', c'] :=
    Json.dumps_strings_inj Json.escapeUnicode_selfDelimiting htext
  simpa using hlist

theorem iso_injective (host : ScheduleHost) {a b : Instant} (h : host.iso a = host.iso b) :
    a = b := by
  have hparse := host.fromisoformat_iso a
  rw [h, host.fromisoformat_iso] at hparse
  exact (congrArg Datetime.instant (Option.some.inj hparse)).symm

/-- An envelope that is accepted under an occurrence id is for its slot, whatever else
it says. -/
theorem TriggerContent.envelope_slot (hsha : Function.Injective host.durable.sha256)
    {content : TriggerContent} (h : content.envelope host = .ok envelope)
    (hid : content.occurrenceId = slot.occurrenceId host) : envelope.slot = slot := by
  unfold TriggerContent.envelope at h
  repeat' split at h
  all_goals first | cases h; done | skip
  rename_i t offset hparse hcanonical hoccurrence hsize
  obtain rfl := Except.ok.inj h
  have hderived := not_not.mp hoccurrence
  have htext := not_not.mp hcanonical
  rw [hid, htext] at hderived
  obtain ⟨hschedule, hrevision, hat⟩ := externalOccurrenceId_inj hsha hderived
  have hinstant := iso_injective host hat
  unfold TriggerEnvelope.slot
  cases slot
  simp_all

/-! ## Stores between the calls -/

/-- A claim generates a firing id that is not in use. -/
def Event.newFiring (s : Stores) (e : Event) : Bool :=
  match e.call with
  | .claimFiring _ _ =>
      s.firings.entries.all fun entry => entry.2.firingId ≠ e.env.generatedId "fire-" 16 0
  | _ => true

/-- The generated identifiers of a call are new. -/
def Event.isNew (s : Stores) (e : Event) : Bool := e.isFresh s && e.newFiring s

/-- Each firing has an id of its own in its scope. -/
def IdsDistinct (s : Stores) : Prop :=
  ∀ k k' firing firing', s.firings.get? k = some firing → s.firings.get? k' = some firing' →
    k.scope = k'.scope → firing.firingId = firing'.firingId → k = k'

structure Settled (host : ScheduleHost) (s : Stores) : Prop where
  filed : Filed host s
  keyed : Keyed s
  inscribed : Durable.Inscribed s.durable
  ids : IdsDistinct s

theorem settled_init (host : ScheduleHost) (limit : Option Int) :
    Settled host (.init (.init limit)) where
  filed := filed_init host limit
  keyed := Dict.all_empty _
  inscribed := Durable.inscribed_init limit
  ids := by
    intro k k' firing firing' hget
    simp [Stores.init] at hget

theorem Write.idsDistinct (h : Write host e s t) (hnew : e.newFiring s = true)
    (hs : IdsDistinct s) : IdsDistinct t := by
  cases h with
  | @claim ctx request record logical nominal status submissionId durable schedules hcall hkey hrecord
      hfence hnone hoccurrence hstatus hadmits hschedules =>
      have hunused : ∀ k firing, s.firings.get? k = some firing →
          firing.firingId ≠ e.env.generatedId "fire-" 16 0 := by
        unfold Event.newFiring at hnew
        rw [hcall] at hnew
        intro k firing hget
        have hall := List.all_eq_true.mp hnew ⟨k, firing⟩ (Dict.mem_entries_iff.mpr hget)
        simpa using hall
      intro k k' firing firing' hget hget' hscope hid
      rcases Dict.get?_set_eq_some.mp hget with ⟨rfl, rfl⟩ | ⟨-, hold⟩
      · rcases Dict.get?_set_eq_some.mp hget' with ⟨rfl, rfl⟩ | ⟨-, hold'⟩
        · rfl
        · exact absurd hid.symm (hunused k' firing' hold')
      · rcases Dict.get?_set_eq_some.mp hget' with ⟨rfl, rfl⟩ | ⟨-, hold'⟩
        · exact absurd hid (hunused k firing hold)
        · exact hs k k' firing firing' hold hold' hscope hid
  | @firing key₀ old new hold hmove =>
      have hsame := hmove.same
      have horigin : ∀ k firing, (s.firings.set key₀ new).get? k = some firing →
          ∃ before, s.firings.get? k = some before ∧ before.firingId = firing.firingId := by
        intro k firing hget
        rcases Dict.get?_set_eq_some.mp hget with ⟨rfl, rfl⟩ | ⟨-, hold'⟩
        · exact ⟨old, hold, hsame.firingId.symm⟩
        · exact ⟨firing, hold', rfl⟩
      intro k k' firing firing' hget hget' hscope hid
      obtain ⟨before, hbefore, hfirst⟩ := horigin k firing hget
      obtain ⟨before', hbefore', hsecond⟩ := horigin k' firing' hget'
      exact hs k k' before before' hbefore hbefore' hscope (by rw [hfirst, hsecond, hid])
  | _ => exact hs

theorem Settled.next (h : Settled host s) (hnew : e.isNew s = true) :
    Settled host (next host s e) := by
  obtain ⟨hfresh, hfiring⟩ := Bool.and_eq_true_iff.mp hnew
  refine ⟨next_filed host e hfresh h.filed, next_keyed host e h.keyed, ?_, ?_⟩
  · rcases next_writes host s e with hsame | hwrite
    · rw [hsame]
      exact h.inscribed
    · rcases hwrite.durable_step hfresh with hsame | ⟨event, -, hnext⟩
      · rw [hsame]
        exact h.inscribed
      · rw [hnext]
        exact Durable.next_inscribed h.filed.durable.linked h.inscribed
  · rcases next_writes host s e with hsame | hwrite
    · rw [hsame]
      exact h.ids
    · exact hwrite.idsDistinct hfiring h.ids

/-! ## What the calls of a delivery do and return -/

/-- A claim that admits no work adds at most a firing and moves at most the cursor. -/
theorem claimFiring_unadmitted (hadmits : request.admitSubmission = false) :
    (claimFiring host env ctx request s).stores = s ∨
      ∃ record logical firing schedules,
        s.schedules.get? (key ctx request.scheduleId) = some record ∧
        firingKey request.scheduleId request.revisionId request.nominalFireTime = .ok logical ∧
        (schedules = s.schedules ∨ schedules = s.schedules.set (key ctx request.scheduleId)
          { record with nextFireAt := request.nextFireAt, updatedAt := env.now [3] }) ∧
        (claimFiring host env ctx request s).stores = { s with
          schedules := schedules
          firings := s.firings.set (key ctx logical) firing } := by
  unfold claimFiring
  split
  · exact .inl rfl
  · rename_i logical hkey
    split
    · exact .inl rfl
    · split
      · exact .inl rfl
      · rename_i record hget
        split
        · exact .inl rfl
        · split
          · exact .inl rfl
          · split
            · exact .inl rfl
            · unfold claimNew
              split
              · exact .inl rfl
              · split
                · exact .inl rfl
                · split
                  · exact .inl rfl
                  · split
                    · exact .inl rfl
                    · dsimp only
                      rw [if_neg (by simp [hadmits])]
                      rcases storeClaim_stores host env ctx request record logical _ s with h | h
                      · exact .inr ⟨record, logical, _, _, hget, hkey, .inl rfl, h⟩
                      · exact .inr ⟨record, logical, _, _, hget, hkey, .inr rfl, h⟩

theorem storeClaim_found {logical : String} {found : FiringRecord} {created : Bool}
    (h : (storeClaim host env ctx request record logical firing s).result = .ok (found, created)) :
    (storeClaim host env ctx request record logical firing s).stores.firings.get?
      (key ctx logical) = some found := by
  unfold storeClaim at h ⊢
  dsimp only at h ⊢
  split at h
  · cases h
  · obtain ⟨rfl, -⟩ := Prod.mk.inj (Except.ok.inj h)
    exact Dict.get?_set_self _ _ _

/-- The firing a new claim returns is stored, with its submission when it admits one. -/
theorem claimNew_found {logical : String} {created : Bool}
    (h : (claimNew host env ctx request record logical s).result = .ok (firing, created)) :
    (claimNew host env ctx request record logical s).stores.firings.get? (key ctx logical) =
      some firing := by
  unfold claimNew at h ⊢
  split at h
  · cases h
  · split at h
    · cases h
    · split at h
      · cases h
      · split at h
        · cases h
        · dsimp only at h ⊢
          split at h
          · rename_i hadmits
            rw [if_pos hadmits]
            split at h
            · cases h
            · exact storeClaim_found h
          · rename_i hadmits
            rw [if_neg hadmits]
            exact storeClaim_found h

/-- The firing a claim returns is stored under the logical key of the claim. -/
theorem claimFiring_found {created : Bool}
    (h : (claimFiring host env ctx request s).result = .ok (firing, created)) :
    ∃ logical, firingKey request.scheduleId request.revisionId request.nominalFireTime =
        .ok logical ∧
      (claimFiring host env ctx request s).stores.firings.get? (key ctx logical) =
        some firing := by
  unfold claimFiring at h ⊢
  split at h
  · cases h
  · rename_i logical hkey
    rw [hkey]
    refine ⟨logical, rfl, ?_⟩
    split at h
    · cases h
    · split at h
      · cases h
      · split at h
        · cases h
        · split at h
          · rename_i existing hexisting
            obtain ⟨rfl, -⟩ := Prod.mk.inj (Except.ok.inj h)
            exact hexisting
          · split at h
            · cases h
            · exact claimNew_found h

theorem acquireFiringPreparation_found {firingId ownerId : String} {ttlSeconds : Int}
    {acquired : Bool}
    (h : (acquireFiringPreparation env ctx firingId ownerId ttlSeconds s).result =
      .ok (firing, acquired)) :
    ∃ k old, findFiring s ctx firingId = some (k, old) ∧
      (acquireFiringPreparation env ctx firingId ownerId ttlSeconds s).stores.firings.get? k =
        some firing := by
  unfold acquireFiringPreparation at h ⊢
  split at h
  · cases h
  · rename_i howner
    rw [if_neg howner]
    split at h
    · cases h
    · rename_i hbound
      rw [if_neg hbound]
      split at h
      · cases h
      · rename_i k old hfind
        obtain ⟨hget, -⟩ := findFiring_eq_some hfind
        refine ⟨k, old, hfind, ?_⟩
        split at h
        · rename_i hstatus
          rw [if_pos hstatus]
          obtain ⟨rfl, -⟩ := Prod.mk.inj (Except.ok.inj h)
          exact hget
        · rename_i hstatus
          rw [if_neg hstatus]
          split at h
          · rename_i hlinked
            rw [if_pos hlinked]
            obtain ⟨rfl, -⟩ := Prod.mk.inj (Except.ok.inj h)
            exact hget
          · rename_i hlinked
            rw [if_neg hlinked]
            split at h
            · rename_i hheld
              rw [if_pos hheld]
              obtain ⟨rfl, -⟩ := Prod.mk.inj (Except.ok.inj h)
              exact hget
            · rename_i hheld
              rw [if_neg hheld]
              obtain ⟨rfl, -⟩ := Prod.mk.inj (Except.ok.inj h)
              exact Dict.get?_set_self _ _ _

theorem linkFiringSubmission_found {firingId : String} {link : LinkRequest}
    (h : (linkFiringSubmission host env ctx firingId link s).result = .ok firing) :
    ∃ k old, findFiring s ctx firingId = some (k, old) ∧
      (linkFiringSubmission host env ctx firingId link s).stores.firings.get? k =
        some firing := by
  unfold linkFiringSubmission at h ⊢
  split at h
  · cases h
  · rename_i k old hfind
    obtain ⟨hget, -⟩ := findFiring_eq_some hfind
    refine ⟨k, old, hfind, ?_⟩
    split at h
    · cases h
    · rename_i hstatus
      rw [if_neg hstatus]
      split at h
      · cases h
      · split at h
        · rename_i linked hlinked
          split at h
          · cases h
          · rename_i hsame
            rw [if_neg hsame]
            obtain rfl := Except.ok.inj h
            exact hget
        · split at h
          · cases h
          · split at h
            · cases h
            · split at h
              · cases h
              · rename_i hblank
                rw [if_neg hblank]
                obtain rfl := Except.ok.inj h
                exact Dict.get?_set_self _ _ _

/-! ## What a delivery holds on to -/

/-- The schedule a delivery has read is for its slot and bound to its principal. -/
structure Bound (ctx : ControlPlaneContext) (envelope : TriggerEnvelope)
    (record : ScheduleRecord) (s : Stores) : Prop where
  scheduleId : record.scheduleId = envelope.scheduleId
  revisionId : record.revisionId = envelope.scheduleRevisionId
  current : ∃ stored, s.schedules.get? (key ctx envelope.scheduleId) = some stored ∧
    stored.workloadIdentity = some ctx.principal

/-- The firing a delivery has at hand is an earlier version of the one stored for its
slot. -/
def Holds (host : ScheduleHost) (ctx : ControlPlaneContext) (envelope : TriggerEnvelope)
    (firing : FiringRecord) (s : Stores) : Prop :=
  ∃ logical stored, envelope.slot.logical host = .ok logical ∧
    s.firings.get? (key ctx logical) = some stored ∧ SameOccurrence firing stored

/-- A receipt reports the submission that the firing of its slot is linked to. -/
def Reports (host : ScheduleHost) (ctx : ControlPlaneContext) (envelope : TriggerEnvelope)
    (receipt : TriggerReceipt) (s : Stores) : Prop :=
  ∀ id, receipt.submissionId = some id → ∃ logical stored,
    envelope.slot.logical host = .ok logical ∧
      s.firings.get? (key ctx logical) = some stored ∧ stored.submissionId = some id

/-- What a stage may rely on. -/
def Stage.Sound (host : ScheduleHost) (ctx : ControlPlaneContext) (envelope : TriggerEnvelope)
    (s : Stores) : Stage → Prop
  | .read record | .checked record _ | .claiming record _ => Bound ctx envelope record s
  | .recovering record firing _ | .acquiring record firing _ | .preparing record firing _ _
  | .submitting record firing _ _ _ | .linking record firing _ _ | .replying record firing _ =>
      Bound ctx envelope record s ∧ Holds host ctx envelope firing s
  | .answered receipt => Reports host ctx envelope receipt s
  | .received | .abandoning _ _ _ | .releasing _ _ _ | .refused _ => True

/-- Schedules stay, bound to the same workload. -/
def KeepsIdentities (s t : Stores) : Prop :=
  ∀ k r, s.schedules.get? k = some r →
    ∃ r', t.schedules.get? k = some r' ∧ r'.workloadIdentity = r.workloadIdentity

theorem KeepsIdentities.of_eq (h : t.schedules = s.schedules) : KeepsIdentities s t :=
  fun _ r hget => ⟨r, by rw [h, hget], rfl⟩

theorem Bound.next (h : Bound ctx envelope record s) (hkeeps : KeepsIdentities s t) :
    Bound ctx envelope record t := by
  obtain ⟨stored, hget, hidentity⟩ := h.current
  obtain ⟨stored', hget', hsame⟩ := hkeeps _ stored hget
  exact ⟨h.scheduleId, h.revisionId, stored', hget', hsame.trans hidentity⟩

theorem Holds.next (host : ScheduleHost) (e : Event) (h : Holds host ctx envelope firing s) :
    Holds host ctx envelope firing (next host s e) := by
  obtain ⟨logical, stored, hlogical, hget, hsame⟩ := h
  obtain ⟨stored', hget', hsame'⟩ := next_firing_kept host e hget
  exact ⟨logical, stored', hlogical, hget', hsame.trans hsame'⟩

theorem Reports.next {receipt : TriggerReceipt} (host : ScheduleHost) (e : Event)
    (h : Reports host ctx envelope receipt s) :
    Reports host ctx envelope receipt (Schedule.next host s e) := by
  intro id hid
  obtain ⟨logical, stored, hlogical, hget, hlinked⟩ := h id hid
  obtain ⟨stored', hget', hsame⟩ := next_firing_kept host e hget
  exact ⟨logical, stored', hlogical, hget', hsame.submission id hlinked⟩

theorem Stage.Sound.next {stage : Stage} (h : stage.Sound host ctx envelope s)
    (hkeeps : KeepsIdentities s (Schedule.next host s e)) :
    stage.Sound host ctx envelope (Schedule.next host s e) := by
  cases stage with
  | received | abandoning | releasing | refused => trivial
  | read | checked | claiming => exact Bound.next h hkeeps
  | recovering | acquiring | preparing | submitting | linking | replying =>
      exact ⟨h.1.next hkeeps, h.2.next host e⟩
  | answered receipt => exact Reports.next host e h

/-- A call that finds the firing of a delivery by its id finds the one of its slot. -/
theorem Holds.found (h : Holds host ctx envelope firing s) (hs : IdsDistinct s)
    {old found : FiringRecord} (hfind : findFiring s ctx firing.firingId = some (k, old))
    (hget : t.firings.get? k = some found) : Holds host ctx envelope found t := by
  obtain ⟨logical, stored, hlogical, hstored, hsame⟩ := h
  obtain ⟨hold, hscope, hid⟩ := findFiring_eq_some hfind
  obtain rfl : k = key ctx logical :=
    hs k _ old stored hold hstored hscope (hid.trans hsame.firingId.symm)
  exact ⟨logical, found, hlogical, hget, .refl found⟩

/-- The firing that is listed for a slot is stored under its logical key. -/
theorem holds_existing (hs : Filed host s) (hbound : Bound ctx envelope record s)
    (h : existingFiring host ctx record envelope s = some firing) :
    Holds host ctx envelope firing s := by
  have hmatch := List.find?_some h
  simp only [Bool.and_eq_true, decide_eq_true_eq] at hmatch
  obtain ⟨entry, hentry, hlisted⟩ := List.mem_filterMap.mp (List.mem_of_find?_eq_some h)
  split at hlisted
  · rename_i hfields
    obtain rfl := Option.some.inj hlisted
    have hget : s.firings.get? entry.1 = some entry.2 := Dict.mem_entries_iff.mp hentry
    have hhome : entry.2.scope = entry.1.scope := hs.home _ _ hget
    have hkey : firingKey entry.2.scheduleId entry.2.revisionId entry.2.nominalFireTime =
        .ok entry.1.id := hs.keyed _ _ hget
    rw [hfields.1, hmatch.1, hmatch.2, hbound.scheduleId, hbound.revisionId] at hkey
    refine ⟨entry.1.id, entry.2, hkey, ?_, .refl _⟩
    have hplace : key ctx entry.1.id = entry.1 := by
      unfold key
      rw [← hfields.2, hhome]
    rw [hplace]
    exact hget
  · cases hlisted

/-! ## One step of a delivery -/

/-- The claim of a delivery is for the slot of the schedule it has read, and admits no
work itself. -/
theorem externalRequest_eq (h : externalRequest host record envelope now = .ok request) :
    request.admitSubmission = false ∧ request.scheduleId = record.scheduleId ∧
      request.revisionId = record.revisionId ∧
      request.nominalFireTime = host.iso envelope.scheduledAt := by
  unfold externalRequest at h
  dsimp only at h
  split at h
  · cases h
  · obtain rfl := Except.ok.inj h
    exact ⟨rfl, rfl, rfl, rfl⟩

theorem externalRequest_logical (h : externalRequest host record envelope now = .ok request)
    (hbound : Bound ctx envelope record s) :
    firingKey request.scheduleId request.revisionId request.nominalFireTime =
      envelope.slot.logical host := by
  obtain ⟨-, hschedule, hrevision, hnominal⟩ := externalRequest_eq h
  rw [hschedule, hrevision, hnominal, hbound.scheduleId, hbound.revisionId]
  rfl

/-- The calls of a delivery: its claim, the acceptance of its work, and calls on its
firing. -/
inductive Calls (host : ScheduleHost) (d : Delivery) (env : Env) : Call → Prop
  | claim {record : ScheduleRecord} {now : Instant} {request : ClaimRequest}
      (hstage : d.stage = .claiming record now)
      (hrequest : externalRequest host record d.envelope now = .ok request) :
      Calls host d env (.claimFiring d.ctx request)
  | accept {record : ScheduleRecord} {firing : FiringRecord} {acceptance : ManagedAcceptance}
      {request : Durable.AcceptRequest}
      (hbound : ∀ s, d.stage.Sound host d.ctx d.envelope s → Bound d.ctx d.envelope record s)
      (hrequest : managedAccept host record firing d.envelope acceptance = .ok request) :
      Calls host d env (.durable (.accept d.ctx request))
  | firing {call : Call} (hspares : (⟨env, call⟩ : Event).sparesSchedules = true)
      (hnot : ∀ c, call ≠ .durable c) : Calls host d env call

theorem Delivery.calls {call : Call} (h : d.call host env answer = some call) :
    Calls host d env call := by
  obtain ⟨ctx, envelope, stage⟩ := d
  unfold Delivery.call at h
  dsimp only at h
  split at h
  · split at h
    · cases h
    · rename_i request hrequest
      obtain rfl := Option.some.inj h
      exact .claim rfl hrequest
  · split at h
    · cases h
    · rename_i request hrequest
      obtain rfl := Option.some.inj h
      exact .accept (fun s hsound => hsound.1) hrequest
  · split at h
    · cases h
    · rename_i request hrequest
      obtain rfl := Option.some.inj h
      exact .accept (fun s hsound => hsound.1) hrequest
  all_goals first
    | (obtain rfl := Option.some.inj h
       exact .firing rfl fun c hc => by cases hc)
    | cases h

theorem keepsIdentities_claim (hadmits : request.admitSubmission = false) :
    KeepsIdentities s (claimFiring host env ctx request s).stores := by
  rcases claimFiring_unadmitted hadmits with hsame |
    ⟨record, logical, firing, schedules, hget, -, hschedules, hstores⟩
  · rw [hsame]
    exact .of_eq rfl
  · rw [hstores]
    rcases hschedules with rfl | rfl
    · exact .of_eq rfl
    · exact Dict.Evolves.replace (fun _ => rfl) hget rfl

theorem keepsIdentities_spared (h : e.sparesSchedules = true) :
    KeepsIdentities s (next host s e) := by
  rcases next_spared h with ⟨call, hcall⟩ | ⟨firings, hnext⟩
  · unfold next
    rw [hcall]
    exact .of_eq rfl
  · rw [hnext]
    exact .of_eq rfl

theorem Calls.keepsIdentities {call : Call} (h : Calls host d env call) :
    KeepsIdentities s (next host s ⟨env, call⟩) := by
  cases h with
  | claim hstage hrequest => exact keepsIdentities_claim (externalRequest_eq hrequest).1
  | accept hbound hrequest => exact .of_eq rfl
  | firing hspares hnot => exact keepsIdentities_spared hspares

theorem afterClaim_sound {created : Bool} (hbound : Bound ctx envelope record s)
    (hholds : Holds host ctx envelope firing s) :
    (afterClaim record firing created).Sound host ctx envelope s := by
  unfold afterClaim
  split <;> exact ⟨hbound, hholds⟩

theorem afterFailedPreparation_sound {ownerId : String} {error : PyError} :
    (afterFailedPreparation firing ownerId error).Sound host ctx envelope s := by
  unfold afterFailedPreparation
  split <;> trivial

theorem bound_of_recordError (hs : Keyed s)
    (hlive : s.live? ctx envelope.scheduleId = some record)
    (hchecks : recordError ctx record envelope = none) : Bound ctx envelope record s := by
  obtain ⟨hget, -⟩ := live?_eq_some hlive
  unfold recordError at hchecks
  repeat' split at hchecks
  all_goals first | cases hchecks; done | skip
  rename_i howner hrevision hgeneration hidentity
  have hid : record.scheduleId = (key ctx envelope.scheduleId).id := hs _ _ hget
  exact ⟨hid, not_not.mp hrevision, record, hget, not_not.mp hidentity⟩

/-- The firing that a claim of the delivery returns is the one of its slot. -/
theorem holds_claimed {created : Bool} (hbound : Bound ctx envelope record s)
    (hrequest : externalRequest host record envelope now = .ok request)
    (h : (claimFiring host env ctx request s).result = .ok (firing, created)) :
    Holds host ctx envelope firing (next host s ⟨env, .claimFiring ctx request⟩) := by
  obtain ⟨logical, hlogical, hget⟩ := claimFiring_found h
  rw [externalRequest_logical hrequest hbound] at hlogical
  exact ⟨logical, firing, hlogical, hget, .refl firing⟩

/-- What a step makes of its call rests on the stores after it. -/
theorem Delivery.after_sound (hs : Settled host s)
    (h : d.stage.Sound host d.ctx d.envelope s) :
    (d.after host env now answer s).Sound host d.ctx d.envelope
      (callStores host env s (d.call host env answer)) := by
  obtain ⟨ctx, envelope, stage⟩ := d
  dsimp only at h
  cases stage with
  | received =>
      cases answer with
      | proceed =>
          simp only [Delivery.after, Delivery.call, callStores]
          split
          · trivial
          · rename_i record hlive
            split
            · trivial
            · rename_i hchecks
              exact bound_of_recordError hs.keyed hlive hchecks
      | raises error => trivial
      | _ => trivial
  | read record =>
      cases answer with
      | proceed =>
          simp only [Delivery.after, Delivery.call, callStores]
          split
          · exact h
          · split
            · trivial
            · exact h
      | raises error => trivial
      | _ => exact h
  | checked record checkedAt =>
      cases answer with
      | proceed =>
          simp only [Delivery.after, Delivery.call, callStores]
          split
          · rename_i firing hexisting
            exact afterClaim_sound h (holds_existing hs.filed h hexisting)
          · exact h
      | _ => exact h
  | claiming record checkedAt =>
      cases answer with
      | proceed =>
          simp only [Delivery.after, Delivery.call]
          cases hrequest : externalRequest host record envelope checkedAt with
          | error error => trivial
          | ok request =>
              dsimp only [callStores]
              have hkeeps : KeepsIdentities s (next host s ⟨env, .claimFiring ctx request⟩) :=
                keepsIdentities_claim (externalRequest_eq hrequest).1
              split
              · trivial
              · rename_i firing created hresult
                exact afterClaim_sound (Bound.next h hkeeps) (holds_claimed h hrequest hresult)
      | _ => exact h
  | recovering record firing created =>
      cases answer with
      | raises error => trivial
      | nothing => exact h
      | submitted submissionId planFingerprint => exact h
      | accepts acceptance =>
          simp only [Delivery.after, Delivery.call]
          split
          · exact h
          · exact h.next (.of_eq rfl)
      | _ => exact h
  | acquiring record firing created =>
      cases answer with
      | proceed =>
          simp only [Delivery.after, Delivery.call, callStores]
          have hkeeps : KeepsIdentities s (next host s ⟨env, .acquireFiringPreparation ctx
              firing.firingId (preparationOwner env) 300⟩) := keepsIdentities_spared rfl
          split
          · trivial
          · rename_i leased hresult
            obtain ⟨k, old, hfind, hget⟩ := acquireFiringPreparation_found hresult
            exact ⟨h.1.next hkeeps, h.2.found hs.ids hfind hget⟩
          · rename_i held hresult
            obtain ⟨k, old, hfind, hget⟩ := acquireFiringPreparation_found hresult
            exact ⟨h.1.next hkeeps, h.2.found hs.ids hfind hget⟩
      | _ => exact h
  | preparing record firing created ownerId =>
      cases answer with
      | checkpoint values =>
          simp only [Delivery.after, Delivery.call, callStores]
          split
          · exact afterFailedPreparation_sound
          · exact h.next (keepsIdentities_spared rfl)
      | prepared snapshot =>
          simp only [Delivery.after, Delivery.call, callStores]
          split
          · exact afterFailedPreparation_sound
          · exact h.next (keepsIdentities_spared rfl)
      | raises error => exact afterFailedPreparation_sound
      | _ => exact h
  | submitting record firing created ownerId attemptId =>
      cases answer with
      | begins =>
          simp only [Delivery.after, Delivery.call, callStores]
          split
          · trivial
          · exact h.next (keepsIdentities_spared rfl)
      | raises error => trivial
      | submitted submissionId planFingerprint => exact h
      | accepts acceptance =>
          simp only [Delivery.after, Delivery.call]
          split
          · exact h
          · exact h.next (.of_eq rfl)
      | rejects =>
          cases attemptId with
          | none => exact h
          | some attemptId => exact h.next (keepsIdentities_spared rfl)
      | compensates =>
          cases attemptId with
          | none => exact h
          | some attemptId => exact h.next (keepsIdentities_spared rfl)
      | _ => exact h
  | linking record firing created link =>
      cases answer with
      | proceed =>
          simp only [Delivery.after, Delivery.call, callStores]
          have hkeeps : KeepsIdentities s (next host s ⟨env, .linkFiringSubmission ctx
              firing.firingId link⟩) := keepsIdentities_spared rfl
          split
          · rename_i linked hresult
            obtain ⟨k, old, hfind, hget⟩ := linkFiringSubmission_found hresult
            exact ⟨h.1.next hkeeps, h.2.found hs.ids hfind hget⟩
          · split <;> trivial
      | _ => exact h
  | abandoning firing ownerId error => cases answer <;> trivial
  | releasing firing ownerId error => cases answer <;> trivial
  | replying record firing created =>
      cases answer with
      | proceed =>
          simp only [Delivery.after, Delivery.call, callStores]
          obtain ⟨logical, stored, hlogical, hget, hsame⟩ := h.2
          split
          · rename_i hnone
            intro id hid
            have hlinked : firing.submissionId = some id := hid
            rw [hnone] at hlinked
            cases hlinked
          · split
            · trivial
            · intro id hid
              exact ⟨logical, stored, hlogical, hget, hsame.submission id hid⟩
      | _ => exact h
  | answered receipt => cases answer <;> exact h
  | refused error => cases answer <;> trivial

end Etlantic.ControlPlane.Schedule
