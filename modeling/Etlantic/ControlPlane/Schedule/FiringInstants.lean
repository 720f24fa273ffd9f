import Etlantic.ControlPlane.Schedule.Cursor

/-!
# One firing for each instant

The logical key of a firing is built from the text of its nominal time.  The
service writes that text in UTC, the scheduler with the offset of the time it has
at hand: two texts for one instant are two keys.
-/

namespace Etlantic.ControlPlane.Schedule

open Durable (Key key Env)

/-! ## Sessions in which schedules are amended -/

inductive Turn where
  | act (a : Action)
  | amend (env : Env) (ctx : ControlPlaneContext) (scheduleId : String) (amendment : Amendment)

def turn (host : ScheduleHost) (σ : Session) : Turn → Session
  | .act a => act host σ a
  | .amend env ctx scheduleId amendment =>
      { σ with stores := next host σ.stores ⟨env, .amend ctx scheduleId amendment⟩ }

/-- The texts of a schedule from which a tick at `now` takes a nominal time name it in
UTC.  Catching up counts in UTC from the cursor, unless the window opens after it. -/
def NamesUtc (host : ScheduleHost) (rec : ScheduleRecord) (now : Instant) : Prop :=
  ∀ cursor due, rec.nextFireAt = some cursor → host.fromisoformat cursor = some due →
    due.instant ≤ now →
      if rec.spec.misfire = .catchUp ∧ rec.spec.catchUpMax ≠ 0 then
        ∀ start ∈ rec.spec.windowStart, due.instant + seconds 1 ≤ start.instant →
          start.offset = some 0
      else due.offset = some 0

/-- A tick claims only from schedules whose times are written in UTC. -/
def Turn.OnUtc (host : ScheduleHost) (σ : Session) : Turn → Prop
  | .act (.poll _ _ i now _ _ _) =>
      ∀ reading, σ.readings[i]? = some reading → NamesUtc host reading.record now
  | _ => True

/-- The firing is under the key of its own fields, and its nominal time is the UTC
text of an instant. -/
structure Stamped (host : ScheduleHost) (k : Key) (firing : FiringRecord) : Prop where
  home : firing.scope = k.scope
  keyed : firingKey firing.scheduleId firing.revisionId firing.nominalFireTime = .ok k.id
  stamp : ∃ t, firing.nominalFireTime = host.iso t

variable {host : ScheduleHost} {e : Event} {s t : Stores} {k k' : Key} {spec : ScheduleSpec}
  {firing firing' : FiringRecord} {rec : ScheduleRecord} {claim : PlannedClaim}

/-! ## Firings keep their stamps -/

theorem Stamped.same (h : Stamped host k firing) (hsame : SameOccurrence firing firing') :
    Stamped host k firing' where
  home := hsame.scope.trans h.home
  keyed := by
    rw [hsame.scheduleId, hsame.revisionId, hsame.nominalFireTime]
    exact h.keyed
  stamp := by
    rw [hsame.nominalFireTime]
    exact h.stamp

/-- A firing has one place for each instant. -/
theorem Stamped.key_eq (h : Stamped host k firing) (h' : Stamped host k' firing')
    (hscope : firing.scope = firing'.scope) (hschedule : firing.scheduleId = firing'.scheduleId)
    (hrevision : firing.revisionId = firing'.revisionId) {d d' : Datetime}
    (hd : host.fromisoformat firing.nominalFireTime = some d)
    (hd' : host.fromisoformat firing'.nominalFireTime = some d')
    (hinstant : d.instant = d'.instant) : k = k' := by
  obtain ⟨t, ht⟩ := h.stamp
  obtain ⟨t', ht'⟩ := h'.stamp
  have hnominal : firing.nominalFireTime = firing'.nominalFireTime := by
    rw [ht, ScheduleHost.fromisoformat_iso] at hd
    rw [ht', ScheduleHost.fromisoformat_iso] at hd'
    obtain rfl := Option.some.inj hd
    obtain rfl := Option.some.inj hd'
    have hsame : t = t' := hinstant
    rw [ht, ht', hsame]
  have hkey := h.keyed
  rw [hschedule, hrevision, hnominal, h'.keyed] at hkey
  have hid : k.id = k'.id := (Except.ok.inj hkey).symm
  have hhome : k.scope = k'.scope := by rw [← h.home, ← h'.home, hscope]
  cases k
  cases k'
  simp_all

theorem Write.stamped (h : Write host e s t)
    (hclaims : ∀ ctx request, e.call = .claimFiring ctx request →
      ∃ t, request.nominalFireTime = host.iso t)
    (hs : s.firings.All (Stamped host)) : t.firings.All (Stamped host) := by
  cases h with
  | @claim ctx request record logical nominal status submissionId durable schedules hcall hkey hrecord
      hfence hnew hoccurrence hstatus hadmits hschedules =>
      exact hs.set ⟨rfl, hkey, hclaims ctx request hcall⟩
  | @firing k' old new hold hmove => exact hs.set ((hs k' old hold).same hmove.same)
  | _ => exact hs

theorem next_stamped (host : ScheduleHost) (e : Event)
    (hclaims : ∀ ctx request, e.call = .claimFiring ctx request →
      ∃ t, request.nominalFireTime = host.iso t)
    (hs : s.firings.All (Stamped host)) : (next host s e).firings.All (Stamped host) := by
  rcases next_writes host s e with h | h
  · rw [h]
    exact hs
  · exact h.stamped hclaims hs

/-! ## What the callers name -/

/-- Where the first occurrence that is caught up gets its offset from. -/
theorem offset_first_catchUp {due : Instant} {first : Datetime}
    (h : nextFireAfter host spec (catchUpStart spec due) (some (catchUpStart spec due)) =
      .ok (some first))
    (hstart : ∀ start ∈ spec.windowStart, due + seconds 1 ≤ start.instant →
      start.offset = some 0) : first.offset = some 0 := by
  obtain ⟨-, cursor, hcursor, ⟨n, hkind, rfl⟩ | ⟨_, _, _, rfl⟩⟩ := nextFireAfter_eq_some h
  · -- An interval schedule takes the time before the window when that is the later one.
    have hfrom : catchUpStart spec due = due - seconds n := by
      unfold catchUpStart
      rw [hkind]
    rw [Option.map_some, Option.getD_some]
    unfold intervalCandidate
    dsimp only
    split
    · rename_i hlater
      rcases searchCursor_cases hcursor with rfl | ⟨start, hopens, -, rfl⟩
      · rfl
      · refine hstart start hopens ?_
        rw [hfrom] at hlater
        unfold utc at hlater
        dsimp only at hlater
        lia
    · rfl
  · rfl

/-- Occurrences after the first one that is caught up are counted in UTC. -/
theorem offset_of_succeeds {t' t'' : Datetime} (hwindow : inWindow spec t'.instant = true)
    (h : Succeeds host spec t' t'') : t''.offset = some 0 := by
  obtain ⟨-, cursor, hcursor, ⟨n, -, rfl⟩ | ⟨_, _, _, rfl⟩⟩ := nextFireAfter_eq_some h
  · rw [searchCursor_of_inWindow hwindow] at hcursor
    obtain rfl := Option.some.inj hcursor
    unfold intervalCandidate
    dsimp only
    split <;> rfl
  · rfl

theorem offset_of_chain : ∀ {t' : Datetime} {found : List Datetime},
    inWindow spec t'.instant = true → List.IsChain (Succeeds host spec) (t' :: found) →
      ∀ t'' ∈ found, t''.offset = some 0
  | _, [], _, _, _, hmem => by cases hmem
  | t', first :: rest, hwindow, hchain, t'', hmem => by
      have hfirst : Succeeds host spec t' first := hchain.rel
      rcases List.mem_cons.mp hmem with rfl | hmem
      · exact offset_of_succeeds hwindow hfirst
      · exact offset_of_chain (nextFireAfter_inWindow hfirst) hchain.tail t'' hmem

theorem offset_of_catchUp {due now : Instant} {found : List Datetime}
    (hmisfire : spec.misfire = .catchUp)
    (h : catchUpNominals host spec (catchUpStart spec due) now = .ok found)
    (hstart : ∀ start ∈ spec.windowStart, due + seconds 1 ≤ start.instant →
      start.offset = some 0) : ∀ t' ∈ found, t'.offset = some 0 := by
  unfold catchUpNominals at h
  rw [if_pos hmisfire] at h
  have hchain := (catchUpLoop_chain_utc h).1
  cases found with
  | nil => exact fun _ hmem => by cases hmem
  | cons first rest =>
      have hfirst : Succeeds host spec (utc (catchUpStart spec due)) first := hchain.rel
      intro t' hmem
      rcases List.mem_cons.mp hmem with rfl | hmem
      · exact offset_first_catchUp hfirst hstart
      · exact offset_of_chain (nextFireAfter_inWindow hfirst) hchain.tail t' hmem

theorem firePlan_offset {now : Instant} {plan : List (Except PyError PlannedClaim)} {j : Nat}
    (h : firePlan host rec now = .ok plan) (hclaim : plan[j]? = some (.ok claim))
    (hutc : NamesUtc host rec now) : claim.nominal.offset = some 0 := by
  unfold firePlan at h
  split at h
  · obtain rfl := Except.ok.inj h
    cases hclaim
  · rename_i cursor hcursor
    split at h
    · cases h
    · cases h
    · rename_i due offset hdue
      split at h
      · obtain rfl := Except.ok.inj h
        cases hclaim
      · rename_i hpast
        have hnames := hutc cursor ⟨due, some offset⟩ hcursor hdue (not_lt.mp hpast)
        split at h
        · -- The occurrence that is dropped is named as the cursor has it.
          rename_i hdrops
          have hkind : ¬ (rec.spec.misfire = .catchUp ∧ rec.spec.catchUpMax ≠ 0) := by
            rintro ⟨hmisfire, hmax⟩
            simp [dropsOccurrence, hmisfire, hmax] at hdrops
          rw [if_neg hkind] at hnames
          split at h
          · cases h
          · obtain rfl := Except.ok.inj h
            cases j with
            | zero =>
                obtain rfl := Except.ok.inj (Option.some.inj hclaim)
                exact hnames
            | succ j => cases hclaim
        · rename_i hdrops
          split at h
          · rename_i hmisfire
            have hmax : rec.spec.catchUpMax ≠ 0 := by
              intro hzero
              simp [dropsOccurrence, hmisfire, hzero] at hdrops
            rw [if_pos ⟨hmisfire, hmax⟩] at hnames
            split at h
            · cases h
            · rename_i found hfound
              obtain rfl := Except.ok.inj h
              have hloop := hfound
              unfold catchUpNominals at hloop
              rw [if_pos hmisfire] at hloop
              obtain ⟨hget, -⟩ := plannedClaims_getElem?
                (catchUpLoop_chain_utc hloop).1.tail hclaim
              exact offset_of_catchUp hmisfire hfound hnames _ (List.mem_of_getElem? hget)
          · rename_i hmisfire
            rw [if_neg fun hboth => hmisfire hboth.1] at hnames
            obtain rfl := Except.ok.inj h
            obtain ⟨hget, -⟩ := plannedClaims_getElem? (.singleton _) hclaim
            obtain hnominal := List.mem_singleton.mp (List.mem_of_getElem? hget)
            rw [hnominal]
            exact hnames

theorem manualClaim_nominal {gateway : Gateway} {at_ : Instant} {request : ClaimRequest}
    (h : manualClaim host gateway rec at_ = .ok request) :
    request.nominalFireTime = host.iso at_ := by
  unfold manualClaim at h
  dsimp only at h
  split at h
  · cases h
  · split at h
    · obtain rfl := Except.ok.inj h
      rfl
    · split at h
      · cases h
      · obtain rfl := Except.ok.inj h
        rfl

theorem externalClaim_nominal {ctx : ControlPlaneContext} {envelope : TriggerEnvelope}
    {now : Instant} {request : ClaimRequest}
    (h : externalClaim host ctx rec envelope now = .ok request) :
    request.nominalFireTime = host.iso envelope.scheduledAt := by
  unfold externalClaim at h
  split at h
  · cases h
  · dsimp only at h
    split at h
    · cases h
    · obtain rfl := Except.ok.inj h
      rfl

/-- Every claim of a turn that is on UTC names its occurrence by the UTC text. -/
theorem attempt_nominal {σ : Session} {a : Action} {attempt : Attempt}
    (hutc : (Turn.act a).OnUtc host σ) (h : a.attempt host σ.readings = some attempt) :
    ∃ t, attempt.request.nominalFireTime = host.iso t := by
  cases a with
  | read ctx scheduleId => cases h
  | other e spares => cases h
  | poll env service i now j fencingToken metadata =>
      simp only [Action.attempt] at h
      split at h
      · cases h
      · rename_i reading hreading
        split at h
        · cases h
        · rename_i plan hplan
          split at h
          · rename_i claim hclaim
            obtain rfl := Option.some.inj h
            have hoffset := firePlan_offset hplan hclaim (hutc reading hreading)
            refine ⟨claim.nominal.instant, ?_⟩
            show host.isoformat claim.nominal = host.iso claim.nominal.instant
            unfold ScheduleHost.iso
            rw [← hoffset]
          · cases h
  | manual env gateway i at_ =>
      simp only [Action.attempt] at h
      split at h
      · cases h
      · split at h
        · cases h
        · rename_i request hrequest
          obtain rfl := Option.some.inj h
          exact ⟨at_, manualClaim_nominal hrequest⟩
  | external env i envelope now =>
      simp only [Action.attempt] at h
      split at h
      · cases h
      · split at h
        · cases h
        · rename_i request hrequest
          obtain rfl := Option.some.inj h
          exact ⟨envelope.scheduledAt, externalClaim_nominal hrequest⟩

/-! ## Sessions keep one firing for each instant -/

theorem act_stamped {σ : Session} {a : Action} (hutc : (Turn.act a).OnUtc host σ)
    (hs : σ.stores.firings.All (Stamped host)) :
    (act host σ a).stores.firings.All (Stamped host) := by
  unfold act
  split
  · split <;> exact hs
  · rename_i e spares
    refine next_stamped host e (fun ctx request hcall => ?_) hs
    unfold Event.sparesCursors at spares
    rw [hcall] at spares
    cases spares
  · split
    · exact hs
    · rename_i attempt hattempt
      refine next_stamped host _ (fun ctx request hcall => ?_) hs
      cases hcall
      exact attempt_nominal hutc hattempt

theorem turn_stamped {σ : Session} {a : Turn} (hutc : a.OnUtc host σ)
    (hs : σ.stores.firings.All (Stamped host)) :
    (turn host σ a).stores.firings.All (Stamped host) := by
  cases a with
  | act a => exact act_stamped hutc hs
  | amend env ctx scheduleId amendment =>
      exact next_stamped host _ (fun ctx request hcall => by cases hcall) hs

/-- A session before the first call. -/
def Session.empty (limit : Option Int) : Session := .start (.init (.init limit))

/-- No two firings of a revision are for one instant. -/
def OnePerInstant (host : ScheduleHost) (s : Stores) : Prop :=
  ∀ k k' firing firing' d d', s.firings.get? k = some firing → s.firings.get? k' = some firing' →
    firing.scope = firing'.scope → firing.scheduleId = firing'.scheduleId →
    firing.revisionId = firing'.revisionId →
    host.fromisoformat firing.nominalFireTime = some d →
    host.fromisoformat firing'.nominalFireTime = some d' → d.instant = d'.instant → k = k'

theorem onePerInstant_of_stamped (h : s.firings.All (Stamped host)) : OnePerInstant host s := by
  intro k k' firing firing' d d' hget hget' hscope hschedule hrevision hd hd' hinstant
  exact (h k firing hget).key_eq (h k' firing' hget') hscope hschedule hrevision hd hd' hinstant

section Sample

/-- The first minute of the sample times, one hour ahead of UTC. -/
def sampleAhead : Datetime := ⟨seconds 60, some (seconds 3600)⟩

def sampleAheadText : String := "2026-01-01T01:01:00+01:00"

theorem ahead_roundTrip (d : Datetime) :
    (if (if d = sampleAhead then sampleAheadText else sampleIsoformat d) = sampleAheadText then
        some sampleAhead
      else sampleFromisoformat
        (if d = sampleAhead then sampleAheadText else sampleIsoformat d)) = some d := by
  by_cases hd : d = sampleAhead
  · rw [if_pos hd, if_pos rfl, hd]
  · rw [if_neg hd]
    have hother : sampleIsoformat d ≠ sampleAheadText := by
      intro hsame
      have hparse := sample_roundTrip d
      rw [hsame, show sampleFromisoformat sampleAheadText = none by decide +kernel] at hparse
      cases hparse
    rw [if_neg hother]
    exact sample_roundTrip d

/-- The sample surroundings with one time that has an offset. -/
def sampleAheadHost : ScheduleHost :=
  { sampleScheduleHost with
    isoformat := fun d => if d = sampleAhead then sampleAheadText else sampleIsoformat d
    fromisoformat := fun text =>
      if text = sampleAheadText then some sampleAhead else sampleFromisoformat text
    roundTrip := fun t offset _ => ahead_roundTrip ⟨t, some offset⟩ }

/-- A tick and a manual trigger for the first minute of a schedule with a cursor. -/
def sampleInstant (cursor : String) : List Turn :=
  [.act (.other ⟨sampleScheduleEnv 'a', .create Durable.sampleContext
      { sampleCreate (sampleSpec .fireOnce .queue) with nextFireAt := some cursor }⟩ rfl),
    .act sampleRead, .act (.other sampleLeader sampleLeader_spares), .act samplePoll,
    .act (.manual (sampleScheduleEnv 't') .managed 0 (seconds 60))]

/-- The accepted firings after some turns, by schedule, revision and instant. -/
def sampleAccepted (turns : List Turn) : List (String × String × Option Instant) :=
  ((Runs.run (turn sampleAheadHost) (.empty none) turns).stores.firings.entries.filter
    fun entry => entry.2.status = .accepted).map fun entry =>
      (entry.2.scheduleId, entry.2.revisionId,
        (sampleAheadHost.fromisoformat entry.2.nominalFireTime).map (·.instant))

end Sample

end Etlantic.ControlPlane.Schedule
