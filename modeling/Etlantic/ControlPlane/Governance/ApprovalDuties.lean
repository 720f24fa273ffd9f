import Etlantic.ControlPlane.Governance.PolicyGates

/-!
# Separation of duties over whole runs

Every step of the store changes an approval in one of four ways: a request is
created, a pending one is approved by another subject, an open one is ended, or
nothing happens.  From this follow who stands behind a satisfied approval, in
every run, and that an ended approval stays ended as long as its id is not
created again.
-/

namespace Etlantic.ControlPlane.Governance

namespace MemoryApprovalStore

/-- Records stand under their own key. -/
def Keyed (s : MemoryApprovalStore) : Prop :=
  ∀ key record, s.get? key = some record → record.key = key

/-! ## Expiry in passing -/

/-- Some open records have expired and nothing else has changed. -/
def Expires (s t : MemoryApprovalStore) : Prop :=
  ∀ key, t.get? key = s.get? key ∨ ∃ old, s.get? key = some old ∧ old.status.Open ∧
    t.get? key = some { old with status := .expired }

theorem Expires.refl (s : MemoryApprovalStore) : Expires s s := fun _ => .inl rfl

theorem Expires.trans {s t u : MemoryApprovalStore} (h : Expires s t) (h' : Expires t u) :
    Expires s u := by
  intro key
  rcases h' key with hsame' | ⟨old', hold', hopen', hset'⟩
  · rcases h key with hsame | ⟨old, hold, hopen, hset⟩
    · exact .inl (hsame'.trans hsame)
    · exact .inr ⟨old, hold, hopen, hsame'.trans hset⟩
  · rcases h key with hsame | ⟨old, hold, hopen, hset⟩
    · exact .inr ⟨old', hsame ▸ hold', hopen', hset'⟩
    · -- An expired record does not expire again.
      rw [hset] at hold'
      obtain rfl := Option.some.inj hold'
      rcases hopen' with hpending | happroved
      · cases hpending
      · cases happroved

theorem Expires.keyed {s t : MemoryApprovalStore} (h : Expires s t) (hkeyed : Keyed s) :
    Keyed t := by
  intro key record hrecord
  rcases h key with hsame | ⟨old, hold, -, hset⟩
  · exact hkeyed key record (hsame ▸ hrecord)
  · rw [hset] at hrecord
    obtain rfl := Option.some.inj hrecord
    exact hkeyed key old hold

/-- A refreshed record is in the store that `_refresh` leaves, and is not past its expiry while it
is open. -/
theorem refresh_spec {s : MemoryApprovalStore} (hkeyed : Keyed s) {key : Scope × String}
    {record : ApprovalRequest} (hget : s.get? key = some record) (now : Int) :
    Expires s (refresh s record now).2 ∧
      (refresh s record now).2.get? key = some (refresh s record now).1 ∧
      ((refresh s record now).1 = record ∧ record.expiresAt.any (· ≤ now) = false ∨
        ¬ (refresh s record now).1.status.Open) := by
  unfold refresh
  by_cases hpast : record.status.Open ∧ record.expiresAt.any (· ≤ now) = true
  · rw [if_pos hpast]
    have hkey : record.key = key := hkeyed key record hget
    refine ⟨?_, ?_, .inr ?_⟩
    · intro key'
      by_cases hsame : key = key'
      · refine .inr ⟨record, hsame ▸ hget, hpast.1, ?_⟩
        show Dict.get? (Dict.set _ record.key _) key' = _
        rw [hkey, hsame, Dict.get?_set_self]
      · refine .inl ?_
        show Dict.get? (Dict.set _ record.key _) key' = _
        rw [hkey, Dict.get?_set_ne _ _ hsame]
    · show Dict.get? (Dict.set _ record.key _) key = _
      rw [hkey, Dict.get?_set_self]
    · rintro (hpending | happroved)
      · cases hpending
      · cases happroved
  · rw [if_neg hpast]
    refine ⟨Expires.refl s, hget, ?_⟩
    by_cases hopen : record.status.Open
    · refine .inl ⟨rfl, ?_⟩
      rw [Bool.eq_false_iff]
      exact fun hany => hpast ⟨hopen, hany⟩
    · exact .inr hopen

/-- Writing a record again where it stands changes nothing. -/
theorem expires_rewrite {s : MemoryApprovalStore} {key : Scope × String}
    {record : ApprovalRequest} (hget : s.get? key = some record) : Expires s (s.set key record) := by
  intro key'
  refine .inl ?_
  by_cases hsame : key = key'
  · rw [← hsame, Dict.get?_set_self, hget]
  · rw [Dict.get?_set_ne _ _ hsame]

theorem refresh_approvalId (s : MemoryApprovalStore) (record : ApprovalRequest) (now : Int) :
    (refresh s record now).1.approvalId = record.approvalId := by
  unfold refresh
  split <;> rfl

theorem sweepOne_spec {s : MemoryApprovalStore} (hkeyed : Keyed s) {key : Scope × String}
    {record : ApprovalRequest} (hget : s.get? key = some record) (now : Int) :
    Expires s (sweepOne s key.1 record now).2 ∧
      (sweepOne s key.1 record now).2.get? key = some (sweepOne s key.1 record now).1 ∧
      ((sweepOne s key.1 record now).1 = record ∧ record.expiresAt.any (· ≤ now) = false ∨
        ¬ (sweepOne s key.1 record now).1.status.Open) := by
  obtain ⟨hexpires, hin, hcase⟩ := refresh_spec hkeyed hget now
  have hkey : (key.1, (refresh s record now).1.approvalId) = key := by
    rw [refresh_approvalId, ← hkeyed key record hget]
    rfl
  unfold sweepOne
  dsimp only
  rw [hkey]
  refine ⟨hexpires.trans (expires_rewrite hin), Dict.get?_set_self _ _ _, hcase⟩

/-- The entries that a loop has yet to visit, in a store where only visited ones have changed. -/
structure Ahead (s : MemoryApprovalStore) (rest : List ((Scope × String) × ApprovalRequest)) :
    Prop where
  nodup : (rest.map Prod.fst).Nodup
  unchanged : ∀ key record, (key, record) ∈ rest → s.get? key = some record

theorem ahead_entries (s : MemoryApprovalStore) : Ahead s s.entries :=
  ⟨s.nodup, fun _ _ hmem => Dict.mem_entries_iff.mp hmem⟩

theorem Ahead.tail {s : MemoryApprovalStore} {entry : (Scope × String) × ApprovalRequest}
    {rest : List ((Scope × String) × ApprovalRequest)} (h : Ahead s (entry :: rest)) :
    Ahead s rest :=
  ⟨(List.nodup_cons.mp h.nodup).2, fun key record hmem =>
    h.unchanged key record (List.mem_cons_of_mem _ hmem)⟩

theorem Ahead.set {s : MemoryApprovalStore} {key : Scope × String} {record new : ApprovalRequest}
    {rest : List ((Scope × String) × ApprovalRequest)} (h : Ahead s ((key, record) :: rest)) :
    Ahead (s.set key new) rest := by
  refine ⟨h.tail.nodup, ?_⟩
  intro key' record' hmem
  rw [Dict.get?_set_of_mem_tail h.nodup hmem]
  exact h.tail.unchanged key' record' hmem

theorem refresh_state {s : MemoryApprovalStore} (record : ApprovalRequest) (now : Int) :
    (refresh s record now).2 = s ∨
      (refresh s record now).2 = s.set record.key (refresh s record now).1 := by
  unfold refresh
  split
  · exact .inr rfl
  · exact .inl rfl

theorem sweepOne_state {s : MemoryApprovalStore} (hkeyed : Keyed s) {key : Scope × String}
    {record : ApprovalRequest} (hget : s.get? key = some record) (now : Int) :
    (sweepOne s key.1 record now).2 = s.set key (sweepOne s key.1 record now).1 ∨
      (sweepOne s key.1 record now).2 =
        (s.set key (sweepOne s key.1 record now).1).set key (sweepOne s key.1 record now).1 := by
  have hkey : record.key = key := hkeyed key record hget
  have hpair : (key.1, (refresh s record now).1.approvalId) = key := by
    rw [refresh_approvalId, ← hkey]
    rfl
  unfold sweepOne
  dsimp only
  rw [hpair]
  rcases refresh_state record now with hsame | hset
  · exact .inl (by rw [hsame])
  · refine .inr ?_
    conv_lhs => rw [hset, hkey]

theorem Ahead.swept {s : MemoryApprovalStore} (hkeyed : Keyed s) {key : Scope × String}
    {record : ApprovalRequest} {rest : List ((Scope × String) × ApprovalRequest)}
    (h : Ahead s ((key, record) :: rest)) (now : Int) :
    Ahead (sweepOne s key.1 record now).2 rest := by
  have hget := h.unchanged key record List.mem_cons_self
  rcases sweepOne_state hkeyed hget now with hstate | hstate
  · rw [hstate]
    exact h.set
  · rw [hstate]
    refine ⟨h.tail.nodup, ?_⟩
    intro key' record' hmem
    rw [Dict.get?_set_of_mem_tail h.nodup hmem, Dict.get?_set_of_mem_tail h.nodup hmem]
    exact h.tail.unchanged key' record' hmem

theorem listFrom_expires (call : ListPending) :
    ∀ {rest : List ((Scope × String) × ApprovalRequest)} {i : Nat} {items : List ApprovalRequest}
      {s : MemoryApprovalStore}, Keyed s → Ahead s rest →
        Expires s (listFrom call rest i items s).2
  | [], _, _, s, _, _ => Expires.refl s
  | (key, record) :: rest, i, items, s, hkeyed, hahead => by
      unfold listFrom
      split
      · exact listFrom_expires call hkeyed hahead.tail
      · obtain ⟨hexpires, -, -⟩ :=
          sweepOne_spec hkeyed (hahead.unchanged key record List.mem_cons_self) (call.now i)
        have hahead' := hahead.swept hkeyed (call.now i)
        dsimp only
        by_cases hlimit : call.limit ≤ (List.length
            (if (sweepOne s key.1 record (call.now i)).1.status = .pending then
              items ++ [(sweepOne s key.1 record (call.now i)).1] else items) : Int)
        · rw [if_pos hlimit]
          exact hexpires
        · rw [if_neg hlimit]
          exact hexpires.trans (listFrom_expires call (hexpires.keyed hkeyed) hahead')

/-- What a positive answer rests on: an approved record of the scope that answers the question and
is not past its expiry. -/
def Answered (call : IsSatisfied) (key : Scope × String) (record : ApprovalRequest) : Prop :=
  key.1 = call.ctx.scopeKey ∧ record.status = .approved ∧
    call.Asks record.hook record.planFingerprint record.policyFingerprint record.revisionId ∧
    ∃ i, ∀ expiry, record.expiresAt = some expiry → call.now i < expiry

theorem satisfiedFrom_spec (call : IsSatisfied) :
    ∀ {rest : List ((Scope × String) × ApprovalRequest)} {i : Nat} {s : MemoryApprovalStore},
      Keyed s → Ahead s rest → Expires s (satisfiedFrom call rest i s).2 ∧
        ((satisfiedFrom call rest i s).1 = true → ∃ key record,
          (satisfiedFrom call rest i s).2.get? key = some record ∧ Answered call key record)
  | [], _, s, _, _ => ⟨Expires.refl s, fun h => by cases h⟩
  | (key, record) :: rest, i, s, hkeyed, hahead => by
      unfold satisfiedFrom
      by_cases hscope : key.1 ≠ call.ctx.scopeKey
      · rw [if_pos hscope]
        exact satisfiedFrom_spec call hkeyed hahead.tail
      · rw [if_neg hscope]
        obtain ⟨hexpires, hin, hcase⟩ :=
          sweepOne_spec hkeyed (hahead.unchanged key record List.mem_cons_self) (call.now i)
        have hahead' := hahead.swept hkeyed (call.now i)
        dsimp only
        split
        · rename_i hfound
          refine ⟨hexpires, fun _ => ⟨key, _, hin, not_not.mp hscope, hfound.1, hfound.2, i, ?_⟩⟩
          intro expiry hexpiry
          rcases hcase with ⟨hsame, hfresh⟩ | hclosed
          · rw [hsame] at hexpiry
            rw [hexpiry] at hfresh
            simpa using hfresh
          · exact absurd (.inr hfound.1) hclosed
        · obtain ⟨hrest, hfound⟩ := satisfiedFrom_spec call (i := i + 1) (hexpires.keyed hkeyed)
            hahead'
          exact ⟨hexpires.trans hrest, hfound⟩

theorem listPending_expires {s : MemoryApprovalStore} (hkeyed : Keyed s) (call : ListPending) :
    Expires s (listPending s call).state :=
  listFrom_expires call hkeyed (ahead_entries s)

theorem isSatisfied_spec {s : MemoryApprovalStore} (hkeyed : Keyed s) (call : IsSatisfied) :
    Expires s (isSatisfied s call).state ∧
      ((isSatisfied s call).result = .ok true → ∃ key record,
        (isSatisfied s call).state.get? key = some record ∧ Answered call key record) := by
  obtain ⟨hexpires, hfound⟩ := satisfiedFrom_spec call (i := 0) hkeyed (ahead_entries s)
  exact ⟨hexpires, fun h => hfound (Except.ok.inj h)⟩

/-! ## What one step does -/

/-- What can happen to the record of a key in one step. -/
inductive Change (event : Event) (key : Scope × String) (old new : Option ApprovalRequest) : Prop
  | same (hnew : new = old)
  | created (call : Create) (hevent : event = .create call) (hkey : call.key = key)
      (hnew : new = some call.request)
  | approved (call : Decide) (record : ApprovalRequest) (hevent : event = .decide call)
      (hkey : call.key = key) (hold : old = some record) (hpending : record.status = .pending)
      (hsubject : record.requesterSubject ≠ call.ctx.principal.subject)
      (happrove : call.approve = true)
      (hnew : new = some { record with
        status := .approved, decisions := record.decisions ++ [call.decision] })
  | ended (record : ApprovalRequest) (status : ApprovalStatus)
      (decisions : List ApprovalDecisionRecord) (hold : old = some record)
      (hopen : record.status.Open) (hended : ¬ status.Open)
      (hnew : new = some { record with status := status, decisions := decisions })

theorem not_open_expired : ¬ ApprovalStatus.expired.Open := by decide

theorem Expires.change {s t : MemoryApprovalStore} (h : Expires s t) (event : Event)
    (key : Scope × String) : Change event key (s.get? key) (t.get? key) := by
  rcases h key with hsame | ⟨old, hold, hopen, hset⟩
  · exact .same hsame
  · exact .ended old .expired old.decisions hold hopen not_open_expired hset

/-- Writing one record changes that record only. -/
theorem change_set {s : MemoryApprovalStore} {event : Event} {key : Scope × String}
    {new : ApprovalRequest} (h : Change event key (s.get? key) (some new)) (key' : Scope × String) :
    Change event key' (s.get? key') ((s.set key new).get? key') := by
  by_cases hkey : key = key'
  · rw [← hkey, Dict.get?_set_self]
    exact h
  · rw [Dict.get?_set_ne _ _ hkey]
    exact .same rfl

/-- A record is refreshed to itself, in the same store, or to an expired one. -/
theorem refresh_cases {s : MemoryApprovalStore} (hkeyed : Keyed s) {key : Scope × String}
    {record : ApprovalRequest} (hget : s.get? key = some record) (now : Int) :
    refresh s record now = (record, s) ∨
      (refresh s record now).1.status = .expired ∧ Expires s (refresh s record now).2 := by
  obtain ⟨hexpires, -, -⟩ := refresh_spec hkeyed hget now
  by_cases hpast : record.status.Open ∧ record.expiresAt.any (· ≤ now) = true
  · refine .inr ⟨?_, hexpires⟩
    unfold refresh
    rw [if_pos hpast]
  · exact .inl (if_neg hpast)

theorem get_change {s : MemoryApprovalStore} (hkeyed : Keyed s) (call : Get)
    (key : Scope × String) :
    Change (.get call) key (s.get? key) ((get s call).state.get? key) := by
  unfold get
  cases hget : s.get? call.key with
  | none => exact .same rfl
  | some record => exact (refresh_spec hkeyed hget (call.now 0)).1.change _ key

theorem decide_change {s : MemoryApprovalStore} (hkeyed : Keyed s) (call : Decide)
    (key : Scope × String) :
    Change (.decide call) key (s.get? key) ((decide s call).state.get? key) := by
  unfold decide
  cases hget : s.get? call.key with
  | none => exact .same rfl
  | some record =>
      dsimp only
      rcases refresh_cases hkeyed hget (call.now 0) with hsame | ⟨hexpired, hexpires⟩
      · rw [hsame]
        dsimp only
        by_cases hpending : record.status = .pending
        · rw [if_neg (not_not.mpr hpending)]
          by_cases hsubject : record.requesterSubject = call.ctx.principal.subject
          · rw [if_pos hsubject]
            exact .same rfl
          · rw [if_neg hsubject]
            have hstale : ¬ ApprovalStatus.stale.Open := by decide
            have hdenied : ¬ ApprovalStatus.denied.Open := by decide
            split
            · refine change_set ?_ key
              exact .ended record .stale record.decisions hget (.inl hpending) hstale rfl
            · refine change_set ?_ key
              by_cases happrove : call.approve = true
              · rw [if_pos happrove]
                exact .approved call record rfl rfl hget hpending hsubject happrove rfl
              · rw [if_neg happrove]
                exact .ended record .denied _ hget (.inl hpending) hdenied rfl
        · rw [if_pos hpending]
          exact .same rfl
      · have hpending : (refresh s record (call.now 0)).1.status ≠ .pending := by
          rw [hexpired]
          decide
        rw [if_pos hpending]
        exact hexpires.change _ key

theorem revoke_change {s : MemoryApprovalStore} (hkeyed : Keyed s) (call : Revoke)
    (key : Scope × String) :
    Change (.revoke call) key (s.get? key) ((revoke s call).state.get? key) := by
  unfold revoke
  cases hget : s.get? call.key with
  | none => exact .same rfl
  | some record =>
      dsimp only
      rcases refresh_cases hkeyed hget (call.now 0) with hsame | ⟨hexpired, hexpires⟩
      · rw [hsame]
        dsimp only
        by_cases hopen : record.status.Open
        · rw [if_neg (not_not.mpr hopen)]
          have hrevoked : ¬ ApprovalStatus.revoked.Open := by decide
          exact change_set (.ended record .revoked _ hget hopen hrevoked rfl) key
        · rw [if_pos hopen]
          exact .same rfl
      · have hopen : ¬ (refresh s record (call.now 0)).1.status.Open := by
          rw [hexpired]
          exact not_open_expired
        rw [if_pos hopen]
        exact hexpires.change _ key

theorem next_change {s : MemoryApprovalStore} (hkeyed : Keyed s) (event : Event)
    (key : Scope × String) : Change event key (s.get? key) ((next s event).get? key) := by
  cases event with
  | create call => exact change_set (.created call rfl rfl rfl) key
  | get call => exact get_change hkeyed call key
  | decide call => exact decide_change hkeyed call key
  | revoke call => exact revoke_change hkeyed call key
  | listPending call => exact (listPending_expires hkeyed call).change _ key
  | isSatisfied call => exact (isSatisfied_spec hkeyed call).1.change _ key

theorem keyed_next {s : MemoryApprovalStore} (hkeyed : Keyed s) (event : Event) :
    Keyed (next s event) := by
  intro key record hrecord
  cases next_change hkeyed event key with
  | same hnew => exact hkeyed key record (hnew ▸ hrecord)
  | created call _ hkey hnew =>
      rw [hnew] at hrecord
      obtain rfl := Option.some.inj hrecord
      exact hkey
  | approved call old _ _ hold _ _ _ hnew =>
      rw [hnew] at hrecord
      obtain rfl := Option.some.inj hrecord
      exact hkeyed key old hold
  | ended old status decisions hold _ _ hnew =>
      rw [hnew] at hrecord
      obtain rfl := Option.some.inj hrecord
      exact hkeyed key old hold

theorem keyed_init : Keyed init := by
  intro key record hrecord
  cases hrecord

theorem keyed_run (events : List Event) : Keyed (Runs.run next init events) :=
  Runs.invariant (I := Keyed) (fun _ event h _ => keyed_next h event) keyed_init
    (Runs.guarded_true init events)

/-! ## Who stands behind an approval -/

/-- The record is the request of the call, whatever has been decided since. -/
def Create.Made (call : Create) (record : ApprovalRequest) : Prop :=
  record = { call.request with status := record.status, decisions := record.decisions }

/-- Since the request was made, another subject has approved it and it has stayed approved. -/
def ApprovedSince (start : MemoryApprovalStore) (events : List Event) (create : Create) : Prop :=
  ∃ before call after, events = before ++ .decide call :: after ∧ call.key = create.key ∧
    call.approve = true ∧ call.ctx.principal.subject ≠ create.ctx.principal.subject ∧
    (Runs.run next start before).status create.key = some .pending ∧
    ∀ mid, mid <+: after →
      (Runs.run next start (before ++ .decide call :: mid)).status create.key = some .approved

/-- The record was made by a call of the run, and approved after it if it is approved. -/
def Backed (events : List Event) (key : Scope × String) (record : ApprovalRequest) : Prop :=
  ∃ before create after, events = before ++ .create create :: after ∧ create.key = key ∧
    create.Made record ∧ (record.status = .approved →
      ApprovedSince (Runs.run next init (before ++ [.create create])) after create)

theorem status_of_get? {s : MemoryApprovalStore} {key : Scope × String}
    {record : ApprovalRequest} (h : s.get? key = some record) : s.status key = some record.status := by
  unfold status
  rw [h]
  rfl

theorem run_split (before : List Event) (event : Event) (after : List Event) :
    Runs.run next init (before ++ event :: after) =
      Runs.run next (Runs.run next init (before ++ [event])) after := by
  rw [← Runs.run_append, List.append_assoc, List.singleton_append]

theorem ApprovedSince.snoc {start : MemoryApprovalStore} {events : List Event} {create : Create}
    (h : ApprovedSince start events create) {event : Event}
    (hlast : (Runs.run next start (events ++ [event])).status create.key = some .approved) :
    ApprovedSince start (events ++ [event]) create := by
  obtain ⟨before, call, after, rfl, hkey, happrove, hsubject, hpending, hstays⟩ := h
  refine ⟨before, call, after ++ [event], by simp, hkey, happrove, hsubject, hpending, ?_⟩
  intro mid hmid
  rcases List.prefix_concat_iff.mp hmid with rfl | hmid
  · rw [List.append_assoc, List.cons_append] at hlast
    exact hlast
  · exact hstays mid hmid

/-- Every record of a run is backed. -/
theorem backed_run (events : List Event) : ∀ key record,
    (Runs.run next init events).get? key = some record → Backed events key record := by
  induction events using List.reverseRecOn with
  | nil =>
      intro key record hrecord
      cases hrecord
  | append_singleton events event ih =>
      intro key record hrecord
      have hlast := status_of_get? hrecord
      have hchange := next_change (keyed_run events) event key
      rw [Runs.run_append_singleton] at hrecord
      cases hchange with
      | same hnew =>
          rw [hnew] at hrecord
          obtain ⟨before, create, after, rfl, hkey, hmade, hsince⟩ := ih key record hrecord
          refine ⟨before, create, after ++ [event], by simp, hkey, hmade, ?_⟩
          intro happroved
          refine (hsince happroved).snoc ?_
          rw [List.append_assoc, List.cons_append, run_split, ← hkey, happroved] at hlast
          exact hlast
      | created call hevent hkey hnew =>
          rw [hnew] at hrecord
          obtain rfl := Option.some.inj hrecord
          subst hevent
          refine ⟨events, call, [], rfl, hkey, rfl, ?_⟩
          intro happroved
          cases happroved
      | approved call old hevent hkey hold hpending hsubject happrove hnew =>
          rw [hnew] at hrecord
          obtain rfl := Option.some.inj hrecord
          subst hevent
          obtain ⟨before, create, after, rfl, hcreate, hmade, -⟩ := ih key old hold
          refine ⟨before, create, after ++ [.decide call], by simp, hcreate, ?_, ?_⟩
          · unfold Create.Made at hmade ⊢
            rw [hmade]
          · intro _
            have hrequester : old.requesterSubject = create.ctx.principal.subject := by
              rw [hmade]
              rfl
            refine ⟨after, call, [], rfl, hkey.trans hcreate.symm, happrove, ?_, ?_, ?_⟩
            · rw [← hrequester]
              exact fun heq => hsubject heq.symm
            · have hstatus := status_of_get? hold
              rw [run_split, hpending, ← hcreate] at hstatus
              exact hstatus
            · intro mid hmid
              obtain rfl := List.prefix_nil.mp hmid
              rw [List.append_assoc, List.cons_append, run_split, ← hcreate] at hlast
              exact hlast
      | ended old status decisions hold hopen hended hnew =>
          rw [hnew] at hrecord
          obtain rfl := Option.some.inj hrecord
          obtain ⟨before, create, after, rfl, hkey, hmade, -⟩ := ih key old hold
          refine ⟨before, create, after ++ [event], by simp, hkey, ?_, ?_⟩
          · unfold Create.Made at hmade ⊢
            rw [hmade]
          · intro happroved
            exact absurd (.inr happroved) hended

/-- In the run that ends with the question, a request that answers it was made and approved by
another subject, has stayed approved up to the answer, and is not past its expiry there. -/
def SatisfiedBy (events : List Event) (call : IsSatisfied) : Prop :=
  ∃ before create after, events ++ [.isSatisfied call] = before ++ .create create :: after ∧
    create.ctx.scopeKey = call.ctx.scopeKey ∧
    call.Asks create.hook create.planFingerprint create.policyFingerprint create.revisionId ∧
    ApprovedSince (Runs.run next init (before ++ [.create create])) after create ∧
    ∃ i, ∀ expiry, create.expiresAt = some expiry → call.now i < expiry

theorem satisfiedBy_of_true {events : List Event} {call : IsSatisfied}
    (h : (isSatisfied (Runs.run next init events) call).result = .ok true) :
    SatisfiedBy events call := by
  obtain ⟨key, record, hrecord, hscope, happroved, hasks, hexpiry⟩ :=
    (isSatisfied_spec (keyed_run events) call).2 h
  have hget : (Runs.run next init (events ++ [.isSatisfied call])).get? key = some record := by
    rw [Runs.run_append_singleton]
    exact hrecord
  obtain ⟨before, create, after, hevents, hkey, hmade, hsince⟩ := backed_run _ key record hget
  refine ⟨before, create, after, hevents, ?_, ?_, hsince happroved, ?_⟩
  · rw [← hscope, ← hkey]
    rfl
  · rw [hmade] at hasks
    exact hasks
  · rw [hmade] at hexpiry
    exact hexpiry

/-! ## Ended approvals -/

/-- The approval was denied, revoked, expired or marked stale. -/
def Ended (s : MemoryApprovalStore) (key : Scope × String) : Prop :=
  ∃ status, s.status key = some status ∧ ¬ status.Open

/-- No request is created under the id of an ended approval. -/
def FreshId (s : MemoryApprovalStore) : Event → Prop
  | .create call => ¬ Ended s call.key
  | _ => True

theorem ended_next {s : MemoryApprovalStore} (hkeyed : Keyed s) {key : Scope × String}
    (h : Ended s key) {event : Event} (hfresh : FreshId s event) : Ended (next s event) key := by
  have hended := h
  obtain ⟨status, hstatus, hclosed⟩ := h
  obtain ⟨record, hrecord, rfl⟩ := Option.map_eq_some_iff.mp hstatus
  cases next_change hkeyed event key with
  | same hnew => exact ⟨record.status, status_of_get? (hnew.trans hrecord), hclosed⟩
  | created call hevent hkey hnew =>
      subst hevent
      exact absurd (hkey ▸ hended) hfresh
  | approved call old hevent hkey hold hpending hsubject happrove hnew =>
      rw [hrecord] at hold
      obtain rfl := Option.some.inj hold
      exact absurd (.inl hpending) hclosed
  | ended old status decisions hold hopen hended hnew =>
      rw [hrecord] at hold
      obtain rfl := Option.some.inj hold
      exact absurd hopen hclosed

theorem ended_run {before after : List Event}
    (h : Runs.Guarded next FreshId init (before ++ after)) {key : Scope × String}
    (hended : Ended (Runs.run next init before) key) :
    Ended (Runs.run next init (before ++ after)) key := by
  rw [Runs.run_append]
  have hboth : Keyed (Runs.run next (Runs.run next init before) after) ∧
      Ended (Runs.run next (Runs.run next init before) after) key :=
    Runs.invariant (I := fun s => Keyed s ∧ Ended s key)
      (fun _ event hs hfresh => ⟨keyed_next hs.1 event, ended_next hs.1 hs.2 hfresh⟩)
      ⟨keyed_run before, hended⟩ h.right
  exact hboth.2

/-! ## Gates -/

/-- The gate passes a decision that requires approval only where the store of the run satisfies
it. -/
def Guards {α : Type} (gate : Option MemoryApprovalStore → Reply (Option MemoryApprovalStore) α)
    (decisionOf : α → Option PolicyDecision) (ctx : ControlPlaneContext) (now : Readings) : Prop :=
  ∀ answer decision, decisionOf answer = some decision → decision.effect = .requireApproval →
    (gate none).result ≠ .ok answer ∧ ∀ events,
      (gate (some (Runs.run next init events))).result = .ok answer →
        SatisfiedBy events (approvalQuestion decision ctx now)

theorem enforce_requires {decision : PolicyDecision} (heffect : decision.effect = .requireApproval)
    {approvals : Option MemoryApprovalStore} {ctx : ControlPlaneContext} {now : Readings}
    {answer : Option PolicyDecision}
    (h : (enforcePolicyDecision (some decision) approvals (some ctx) now).result = .ok answer) :
    ∃ store, approvals = some store ∧
      (isSatisfied store (approvalQuestion decision ctx now)).result = .ok true := by
  unfold enforcePolicyDecision at h
  have hdeny : decision.effect ≠ .deny := by
    rw [heffect]
    decide
  have hrequires : decisionRequiresApproval decision = true := by
    unfold decisionRequiresApproval
    rw [heffect]
    rfl
  simp only [if_neg hdeny, hrequires, if_true] at h
  cases approvals with
  | none => cases h
  | some store =>
      refine ⟨store, rfl, ?_⟩
      dsimp only at h
      split at h
      · cases h
      · assumption
      · cases h

theorem enforcedThen_requires {α : Type} {decision : PolicyDecision}
    (heffect : decision.effect = .requireApproval) {approvals : Option MemoryApprovalStore}
    {ctx : ControlPlaneContext} {now : Readings} {rest : Except PyError α} {answer : α}
    (h : (enforcedThen (some decision) approvals ctx now rest).result = .ok answer) :
    ∃ store, approvals = some store ∧
      (isSatisfied store (approvalQuestion decision ctx now)).result = .ok true := by
  unfold enforcedThen at h
  dsimp only at h
  cases hresult : (enforcePolicyDecision (some decision) approvals (some ctx) now).result with
  | error raised =>
      rw [hresult] at h
      cases h
  | ok passed => exact enforce_requires heffect hresult

/-- A gate guards as soon as a pass of a decision that requires approval comes from a positive
answer of the store. -/
theorem guards_of {α : Type} {gate : Option MemoryApprovalStore →
      Reply (Option MemoryApprovalStore) α} {decisionOf : α → Option PolicyDecision}
    {ctx : ControlPlaneContext} {now : Readings}
    (h : ∀ approvals answer decision, decisionOf answer = some decision →
      decision.effect = .requireApproval → (gate approvals).result = .ok answer →
        ∃ store, approvals = some store ∧
          (isSatisfied store (approvalQuestion decision ctx now)).result = .ok true) :
    Guards gate decisionOf ctx now := by
  intro answer decision hdecision heffect
  constructor
  · intro hpass
    obtain ⟨store, hnone, -⟩ := h none answer decision hdecision heffect hpass
    cases hnone
  · intro events hpass
    obtain ⟨store, hstore, htrue⟩ := h _ answer decision hdecision heffect hpass
    obtain rfl := Option.some.inj hstore
    exact satisfiedBy_of_true htrue

theorem rest_decision {call : PreSubmit} {with_ : Collaborators}
    {decision : Option PolicyDecision} {answer : Option PolicyDecision × Option QuotaAnswer}
    (h : call.rest with_ decision = .ok answer) : answer.1 = decision := by
  unfold PreSubmit.rest at h
  cases hattest : call.verifyAttestations with_ decision with
  | error raised =>
      rw [hattest] at h
      cases h
  | ok done =>
      rw [hattest] at h
      simp only [bind, Except.bind, pure, Except.pure] at h
      repeat' split at h
      all_goals first
        | cases h; rfl
        | cases h

theorem gatePreSubmit_guards (with_ : Collaborators) (call : PreSubmit) :
    Guards (gatePreSubmit with_ · call) Prod.fst call.ctx call.now := by
  refine guards_of ?_
  intro approvals answer decision hdecision heffect hpass
  unfold gatePreSubmit at hpass
  split at hpass
  · cases hpass
  · rename_i evaluated _
    have hsame : answer.1 = evaluated := by
      unfold enforcedThen at hpass
      dsimp only at hpass
      split at hpass
      · cases hpass
      · exact rest_decision hpass
    rw [← hsame, hdecision] at hpass
    exact enforcedThen_requires heffect hpass

theorem gatePreExecution_guards (with_ : Collaborators) (call : PreExecution) :
    Guards (gatePreExecution with_ · call) id call.ctx call.now := by
  refine guards_of ?_
  intro approvals answer decision hdecision heffect hpass
  unfold gatePreExecution at hpass
  split at hpass
  · cases hpass
  · rename_i evaluated _
    split at hpass
    · cases hpass
    · have hsame : answer = evaluated := by
        unfold enforcedThen at hpass
        dsimp only at hpass
        split at hpass
        · cases hpass
        · exact (Except.ok.inj hpass).symm
      have hdecision : answer = some decision := hdecision
      rw [← hsame, hdecision] at hpass
      exact enforcedThen_requires heffect hpass

theorem gatePrePromote_guards (with_ : Collaborators) (call : PrePromote) :
    Guards (gatePrePromote with_ · call) some call.ctx call.now := by
  refine guards_of ?_
  intro approvals answer decision hdecision heffect hpass
  obtain rfl := Option.some.inj hdecision
  unfold gatePrePromote at hpass
  split at hpass
  · cases hpass
  · cases hpass
  · rename_i evaluated _
    have hmapped : ∀ entry, ((appendAudit with_ call.ctx entry).map fun _ => evaluated) =
        .ok answer → evaluated = answer := by
      intro entry hmap
      cases happend : appendAudit with_ call.ctx entry with
      | error raised =>
          rw [happend] at hmap
          cases hmap
      | ok done =>
          rw [happend] at hmap
          exact Except.ok.inj hmap
    split at hpass
    · rename_i hallows
      obtain rfl := hmapped _ hpass
      unfold decisionAllows at hallows
      rw [heffect] at hallows
      cases hallows
    · have hsame : evaluated = answer := by
        unfold enforcedThen at hpass
        dsimp only at hpass
        split at hpass
        · cases hpass
        · exact hmapped _ hpass
      obtain rfl := hsame
      exact enforcedThen_requires heffect hpass

/-- In every run a satisfied question was answered by another subject than the requester, and has
been since; the gates pass on nothing less; and where no id of an ended approval is created again,
an ended approval stays ended. -/
theorem duties_separated (events : List Event) :
    (∀ call, (isSatisfied (Runs.run next init events) call).result = .ok true →
      SatisfiedBy events call) ∧
    (∀ with_ call, Guards (gatePreSubmit with_ · call) Prod.fst call.ctx call.now) ∧
    (∀ with_ call, Guards (gatePreExecution with_ · call) id call.ctx call.now) ∧
    (∀ with_ call, Guards (gatePrePromote with_ · call) some call.ctx call.now) ∧
    (Runs.Guarded next FreshId init events → ∀ before after key, events = before ++ after →
      Ended (Runs.run next init before) key → Ended (Runs.run next init events) key) := by
  refine ⟨fun call h => satisfiedBy_of_true h, gatePreSubmit_guards, gatePreExecution_guards,
    gatePrePromote_guards, ?_⟩
  rintro hguarded before after key rfl hended
  exact ended_run hguarded hended

/-! ## An id created again -/

def ctxOf (subject : String) : ControlPlaneContext where
  principal := ⟨subject, none, .human⟩
  tenant := ⟨"acme"⟩
  workspace := ⟨"acme", "main"⟩
  environment := ⟨"prod"⟩
  securityDomain := ⟨"corp"⟩
  resourceOwnerId := none
  workspaceTenant := workspace_ofTenant "acme" "main"
  ownerNonEmpty := none_ownerNonEmpty

def asking : Create := ⟨ctxOf "alice", "pre_promote", "plan", "policy", none, none, some "a1", ""⟩

def deciding (subject : String) (approve : Bool) : Decide :=
  ⟨ctxOf subject, "a1", approve, none, none, none, fun _ => 0, "d1"⟩

/-- A denied approval is pending again once its id is created again, and then approved. -/
theorem denied_reopened :
    (Runs.run next init [.create asking, .decide (deciding "bob" false)]).status asking.key =
      some .denied ∧
    (Runs.run next init [.create asking, .decide (deciding "bob" false),
      .create asking]).status asking.key = some .pending ∧
    (Runs.run next init [.create asking, .decide (deciding "bob" false), .create asking,
      .decide (deciding "carol" true)]).status asking.key = some .approved := by
  decide +kernel

def promoting : IsSatisfied := ⟨ctxOf "alice", "plan", "policy", none, "pre_promote", fun _ => 0⟩

theorem denied_stays :
    SatisfiedBy [.create asking, .decide (deciding "bob" true)] promoting ∧
    Ended (Runs.run next init [.create asking, .decide (deciding "bob" false),
      .decide (deciding "carol" true)]) asking.key := by
  have hdenied : (Runs.run next init [.create asking, .decide (deciding "bob" false)]).status
      asking.key = some .denied := by decide +kernel
  have hfresh : ¬ Ended init asking.key := by
    rintro ⟨status, hstatus, -⟩
    cases hstatus
  have hfound : (satisfiedFrom promoting (Runs.run next init [.create asking,
      .decide (deciding "bob" true)]).entries 0 (Runs.run next init [.create asking,
      .decide (deciding "bob" true)])).1 = true := by decide +kernel
  refine ⟨(duties_separated _).1 promoting (congrArg Except.ok hfound), ?_⟩
  exact (duties_separated [.create asking, .decide (deciding "bob" false),
    .decide (deciding "carol" true)]).2.2.2.2 ⟨hfresh, trivial, trivial, trivial⟩
    [.create asking, .decide (deciding "bob" false)] [.decide (deciding "carol" true)] asking.key
    rfl ⟨.denied, hdenied, by decide⟩

end MemoryApprovalStore

end Etlantic.ControlPlane.Governance
