import Etlantic.ControlPlane.Schedule.CronSearch
import Etlantic.ControlPlane.Schedule.SchedulerService

/-!
# What a tick catches up

`_fire_due` steps back from the cursor of a catch-up schedule and lets
`catch_up_nominals` find the cursor again.  The occurrences that follow are right
as soon as the first one is.
-/

namespace Etlantic.ControlPlane.Schedule

variable {host : ScheduleHost} {spec : ScheduleSpec} {rec : ScheduleRecord} {d : Datetime}
  {due now : Instant} {after : Instant} {last : Option Instant}

/-- The nominal times of a plan, up to the search that fails. -/
def plannedTimes (plan : List (Except PyError PlannedClaim)) : List Instant :=
  plan.filterMap fun planned => planned.toOption.map fun claim => claim.nominal.instant

/-- The nominal times that `_fire_due` claims. -/
def claimedNominals (host : ScheduleHost) (rec : ScheduleRecord) (now : Instant) :
    List Instant :=
  match firePlan host rec now with
  | .error _ => []
  | .ok plan => plannedTimes plan

/-- One occurrence is what `next_fire_after` finds from another. -/
def FiresNext (host : ScheduleHost) (spec : ScheduleSpec) (t t' : Instant) : Prop :=
  ∃ d, nextFireAfter host spec t (some t) = .ok (some d) ∧ d.instant = t'

/-- The claimed times are the first occurrences from the cursor on. -/
structure ClaimsInTurn (host : ScheduleHost) (rec : ScheduleRecord) (now due : Instant) :
    Prop where
  starts : (claimedNominals host rec now).head? = some due
  increasing : (claimedNominals host rec now).Pairwise (· < ·)
  past : ∀ t ∈ claimedNominals host rec now, t ≤ now
  bounded : (claimedNominals host rec now).length ≤ rec.spec.catchUpMax
  gapFree : (claimedNominals host rec now).IsChain (FiresNext host rec.spec)

/-! ## When catching up finds the cursor -/

/-- Stepping back from the cursor leads in front of it, and the search finds it again. An
interval schedule adds its jitter a second time. A cron schedule steps back a minute, which
must not lead past the minute that matched, nor may the opening of the window lie past it. -/
def ResumesAtCursor (spec : ScheduleSpec) (due : Instant) : Prop :=
  match spec.kind with
  | .interval _ => spec.jitterSeconds = 0
  | .cron _ => spec.jitterSeconds < 60 ∧ ∀ start ∈ spec.windowStart,
      start.instant < due - seconds spec.jitterSeconds + seconds 1

/-- The search past an occurrence fails: no later occurrence lies within a year, and the
window does not end either. -/
def SearchFails (host : ScheduleHost) (spec : ScheduleSpec) (t : Instant) : Prop :=
  ∃ error, nextFireAfter host spec t (some t) = .error error

/-- No search fails before the tick has claimed what it may. -/
def SearchesSucceed (host : ScheduleHost) (spec : ScheduleSpec) (now due : Instant) : Prop :=
  ∀ later : List Instant, (due :: later).IsChain (FiresNext host spec) →
    (∀ t ∈ later, t ≤ now) → later.length < max (spec.catchUpMax - 1) 1 →
    ¬ SearchFails host spec ((due :: later).getLast (List.cons_ne_nil _ _))

/-! ## Searching again -/

theorem catchUpLoop_ok {left : Nat} {t : Instant} (h : ∀ later : List Instant,
    (t :: later).IsChain (FiresNext host spec) → (∀ t ∈ later, t ≤ now) → later.length < left →
    ¬ SearchFails host spec ((t :: later).getLast (List.cons_ne_nil _ _))) :
    ∃ found, catchUpLoop host spec now left t = .ok found := by
  induction left generalizing t with
  | zero => exact ⟨[], rfl⟩
  | succ left ih =>
      unfold catchUpLoop
      cases hnext : nextFireAfter host spec t (some t) with
      | error error =>
          exact absurd ⟨error, hnext⟩ (h [] (.singleton t) (fun _ h => by cases h) (by simp))
      | ok next =>
          cases next with
          | none => exact ⟨[], rfl⟩
          | some d =>
              dsimp only
              by_cases hnow : now < d.instant
              · exact ⟨[], by rw [if_pos hnow]⟩
              · obtain ⟨found, hfound⟩ := ih (t := d.instant) fun later hchain hpast hlen =>
                  h (d.instant :: later) (.cons_cons ⟨d, hnext, rfl⟩ hchain)
                    (List.forall_mem_cons.mpr ⟨not_lt.mp hnow, hpast⟩)
                    (by simpa using hlen)
                rw [if_neg hnow, hfound]
                exact ⟨d :: found, rfl⟩

theorem catchUpLoop_error {left : Nat} {t : Instant} {later : List Instant}
    (hchain : (t :: later).IsChain (FiresNext host spec)) (hpast : ∀ t ∈ later, t ≤ now)
    (hlen : later.length < left)
    (hfails : SearchFails host spec ((t :: later).getLast (List.cons_ne_nil _ _))) :
    ∃ error, catchUpLoop host spec now left t = .error error := by
  induction left generalizing t later with
  | zero => exact absurd hlen (Nat.not_lt_zero _)
  | succ left ih =>
      unfold catchUpLoop
      cases later with
      | nil =>
          obtain ⟨error, herror⟩ := hfails
          have hsearch : nextFireAfter host spec t (some t) = .error error := herror
          rw [hsearch]
          exact ⟨error, rfl⟩
      | cons t' later =>
          obtain ⟨⟨d, hnext, rfl⟩, hchain⟩ := List.isChain_cons_cons.mp hchain
          obtain ⟨hle, hpast⟩ := List.forall_mem_cons.mp hpast
          rw [List.getLast_cons (List.cons_ne_nil _ _)] at hfails
          obtain ⟨error, herror⟩ := ih hchain hpast (by simpa using hlen) hfails
          rw [hnext]
          dsimp only
          rw [if_neg (not_lt.mpr hle), herror]
          exact ⟨error, rfl⟩

theorem length_catchUpLoop {left : Nat} {t : Instant} {found : List Datetime}
    (h : catchUpLoop host spec now left t = .ok found) : found.length ≤ left := by
  induction left generalizing t found with
  | zero =>
      obtain rfl := Except.ok.inj h
      exact le_refl 0
  | succ left ih =>
      unfold catchUpLoop at h
      split at h
      · cases h
      · obtain rfl := Except.ok.inj h
        exact Nat.zero_le _
      · split at h
        · obtain rfl := Except.ok.inj h
          exact Nat.zero_le _
        · split at h
          · cases h
          · rename_i rest hrest
            obtain rfl := Except.ok.inj h
            exact Nat.succ_le_succ (ih hrest)

/-! ## The plan of a catch-up schedule -/

variable (host spec) in
theorem plannedTimes_prefix (found : List Datetime) (expected : Option String) :
    plannedTimes (plannedClaims host spec found expected) <+: found.map (·.instant) := by
  induction found generalizing expected with
  | nil => exact List.prefix_rfl
  | cons t rest ih =>
      unfold plannedClaims
      split
      · exact List.nil_prefix
      · rename_i next hnext
        obtain ⟨others, hothers⟩ := ih (next.map host.isoformat)
        exact ⟨others, congrArg (t.instant :: ·) hothers⟩

/-- The first time is claimed exactly when the search past it succeeds. -/
theorem head_plannedTimes_iff {t : Datetime} {rest : List Datetime} {expected : Option String} :
    (plannedTimes (plannedClaims host spec (t :: rest) expected)).head? = some t.instant ↔
      ¬ SearchFails host spec t.instant := by
  unfold plannedClaims SearchFails
  cases hnext : nextFireAfter host spec t.instant (some t.instant) with
  | error error => simp [plannedTimes, Except.toOption]
  | ok next => simp [plannedTimes, Except.toOption]

theorem claimedNominals_catchUp (hmisfire : rec.spec.misfire = .catchUp)
    (hmax : 0 < rec.spec.catchUpMax) (haware : d.IsAware)
    (hcursor : rec.nextFireAt = some (host.isoformat d)) (hdue : d.instant ≤ now) :
    claimedNominals host rec now =
      match catchUpLoop host rec.spec now rec.spec.catchUpMax (catchUpStart rec.spec d.instant) with
      | .error _ => []
      | .ok found =>
          plannedTimes (plannedClaims host rec.spec found (some (host.isoformat d))) := by
  obtain ⟨t, offset⟩ := d
  have hparse := host.fromisoformat_isoformat haware
  obtain ⟨o, rfl, -⟩ := haware
  have hkept : dropsOccurrence rec.spec t now = false := by
    simp [dropsOccurrence, hmisfire, Nat.pos_iff_ne_zero.mp hmax]
  unfold claimedNominals firePlan catchUpNominals
  rw [hcursor]
  dsimp only
  rw [hparse]
  dsimp only at hdue ⊢
  rw [if_neg (not_lt.mpr hdue), hkept, if_neg Bool.false_ne_true, if_pos hmisfire, if_pos hmisfire]
  cases catchUpLoop host rec.spec now rec.spec.catchUpMax (catchUpStart rec.spec t) <;> rfl

/-! ## Finding the cursor again -/

/-- Where the search from a minute before the cursor starts. -/
theorem searchCursor_minute_before (hopen : inWindow spec due = true) :
    ∃ c : Datetime, searchCursor spec (due - seconds 60) = some c ∧
      ((c.instant = due - seconds 60 ∧
          ∀ start ∈ spec.windowStart, start.instant ≤ due - seconds 59) ∨
        ∃ start ∈ spec.windowStart, due - seconds 59 < start.instant ∧
          c.instant = start.instant - seconds 1) := by
  obtain ⟨hopened, hended⟩ := inWindow_eq_true_iff.mp hopen
  have hsecond : due - seconds 60 + seconds 1 = due - seconds 59 := by
    unfold seconds
    lia
  have hclosed : inWindow spec (due - seconds 59) = false →
      ∃ start ∈ spec.windowStart, due - seconds 59 < start.instant := by
    intro hclosed
    rw [Bool.eq_false_iff, Ne, inWindow_eq_true_iff, not_and_or] at hclosed
    rcases hclosed with hclosed | hclosed
    · push Not at hclosed
      exact hclosed
    · push Not at hclosed
      obtain ⟨stop, hstop, hle⟩ := hclosed
      have hlt := hended stop hstop
      unfold seconds at hle
      lia
  cases hcursor : searchCursor spec (due - seconds 60) with
  | none =>
      obtain ⟨stop, hstop, hle⟩ := searchCursor_eq_none_iff.mp hcursor
      have hlt := hended stop hstop
      unfold seconds at hle
      lia
  | some c =>
      refine ⟨c, rfl, ?_⟩
      have hcron := hcursor
      rw [← spec.searchCursor_cron ""] at hcron
      by_cases hlater : ∃ start ∈ spec.windowStart,
          (spec.cron "").opensLater (due - seconds 60) start = true
      · obtain ⟨start, hstart, hlater⟩ := hlater
        have hsome := (spec.cron "").searchCursor_of_opensLater hstart hlater
        obtain rfl := Option.some.inj (hsome.symm.trans hcron)
        obtain ⟨hshut, -⟩ := CronSpec.opensLater_eq_true_iff.mp hlater
        rw [spec.inWindow_cron "", hsecond] at hshut
        obtain ⟨start', hstart', hlt⟩ := hclosed hshut
        obtain rfl := Option.mem_unique hstart hstart'
        exact Or.inr ⟨start, hstart, hlt, rfl⟩
      · rcases CronSpec.searchCursor_cases hcron with rfl | ⟨start, hstart, hopens, -⟩
        · refine Or.inl ⟨rfl, fun start hstart => ?_⟩
          by_contra hlt
          rw [not_le] at hlt
          refine hlater ⟨start, hstart, CronSpec.opensLater_eq_true_iff.mpr ⟨?_, ?_⟩⟩
          · rw [spec.inWindow_cron "", hsecond, Bool.eq_false_iff, Ne, inWindow_eq_true_iff]
            rintro ⟨hstarted, -⟩
            exact absurd (hstarted start hstart) (not_le.mpr hlt)
          · unfold seconds at *
            lia
        · exact absurd ⟨start, hstart, hopens⟩ hlater

/-- An interval schedule finds the time a jitter past the cursor. -/
theorem resumes_interval {n : Nat} (hkind : spec.kind = .interval n)
    (hopen : inWindow spec due = true) :
    FiresNext host spec (due - seconds n) due ↔ spec.jitterSeconds = 0 := by
  obtain ⟨hopened, hended⟩ := inWindow_eq_true_iff.mp hopen
  have hvalid : 0 < n := by
    have := spec.kindValid
    rw [hkind] at this
    simpa [ScheduleKind.valid] using this
  obtain ⟨cursor, hcursor, hbefore⟩ : ∃ cursor, searchCursor spec (due - seconds n) = some cursor ∧
      cursor.instant < due := by
    cases hcursor : searchCursor spec (due - seconds n) with
    | none =>
        obtain ⟨stop, hstop, hle⟩ := searchCursor_eq_none_iff.mp hcursor
        have hlt := hended stop hstop
        unfold seconds at hle
        lia
    | some cursor =>
        refine ⟨cursor, rfl, ?_⟩
        rcases searchCursor_cases hcursor with rfl | ⟨start, hstart, -, rfl⟩
        · unfold utc seconds
          dsimp only
          lia
        · have hle := hopened start hstart
          unfold seconds
          dsimp only
          lia
  have hcandidate : intervalCandidate spec n cursor (utc (due - seconds n)) =
      utc (due + seconds spec.jitterSeconds) := by
    unfold intervalCandidate utc
    dsimp only
    rw [sub_add_cancel, if_neg (not_le.mpr hbefore), sub_add_cancel]
  unfold FiresNext nextFireAfter
  rw [hcursor]
  dsimp only
  rw [hkind]
  dsimp only
  rw [Option.map_some, Option.getD_some, hcandidate]
  constructor
  · rintro ⟨d, hfound, hsame⟩
    have hsome := Except.ok.inj hfound
    split at hsome
    · obtain rfl := Option.some.inj hsome
      unfold utc seconds at hsame
      dsimp only at hsame
      lia
    · cases hsome
  · intro hjitter
    rw [hjitter, Nat.cast_zero, show seconds 0 = 0 from rfl, add_zero]
    refine ⟨utc due, ?_, rfl⟩
    rw [if_pos (show inWindow spec (utc due).instant = true from hopen)]

/-- A cron schedule finds the cursor again unless it starts past the minute that matched. -/
theorem resumes_cron {expression : String} (hkind : spec.kind = .cron expression)
    (hproduced : nextFireAfter host spec after last = .ok (some d)) :
    FiresNext host spec (d.instant - seconds 60) d.instant ↔
      spec.jitterSeconds < 60 ∧ ∀ start ∈ spec.windowStart,
        start.instant < d.instant - seconds spec.jitterSeconds + seconds 1 := by
  have hopen := nextFireAfter_inWindow hproduced
  obtain ⟨parsed, -, m, hparse, -, rfl, ⟨hminute, hfires, -⟩, -⟩ :=
    nextFireAfter_cron_eq_some hkind hproduced
  generalize hdue : (utc (m + seconds spec.jitterSeconds)).instant = due at hopen ⊢
  have hm : m = due - seconds spec.jitterSeconds := by
    rw [← hdue]
    unfold utc
    dsimp only
    lia
  obtain ⟨c, hcursor, hstarts⟩ := searchCursor_minute_before hopen
  have hfloor := floorMinute_emod c.instant
  have hle : floorMinute c.instant ≤ c.instant := by
    unfold floorMinute seconds
    lia
  have hlt := lt_floorMinute_add c.instant
  constructor
  · rintro ⟨d', hfound, hsame⟩
    obtain ⟨parsed', c', m', hparse', hcursor', rfl, ⟨-, -, hpast⟩, -⟩ :=
      nextFireAfter_cron_eq_some hkind hfound
    obtain rfl := Option.some.inj (hcursor.symm.trans hcursor')
    have hm' : m' = m := by
      unfold utc at hsame
      dsimp only at hsame
      lia
    subst hm'
    rcases hstarts with ⟨hc, hopened⟩ | ⟨start, hstart, hlater, hc⟩
    · have hjitter : spec.jitterSeconds < 60 := by
        unfold seconds at *
        lia
      refine ⟨hjitter, fun start hstart => ?_⟩
      have hle := hopened start hstart
      unfold seconds at *
      lia
    · refine ⟨by unfold seconds at *; lia, fun start' hstart' => ?_⟩
      obtain rfl := Option.mem_unique hstart hstart'
      unfold seconds at *
      lia
  · rintro ⟨hjitter, hopens⟩
    have hpast : floorMinute c.instant < m ∧ m ≤ floorMinute c.instant + seconds 120 := by
      rcases hstarts with ⟨hc, -⟩ | ⟨start, hstart, hlater, hc⟩
      · unfold seconds at *
        lia
      · have hbefore := hopens start hstart
        unfold seconds at *
        lia
    have hwalks : (spec.cron expression).walk host parsed walkLimit
        (floorMinute c.instant + seconds 60) ≠ none := by
      refine CronSpec.walk_ne_none hfloor hminute hfires hpast.1 (le_trans hpast.2 ?_)
      unfold walkLimit seconds
      lia
    obtain ⟨found, hwalk⟩ := Option.ne_none_iff_exists'.mp hwalks
    obtain ⟨m', rfl, ⟨hminute', hfires', hpast'⟩, hleast⟩ := CronSpec.walk_isLeast hfloor hwalk
    have hle' : m' ≤ m := hleast ⟨hminute, hfires, hpast.1⟩
    have hge : m ≤ m' := by
      rcases hstarts with ⟨hc, -⟩ | ⟨start, hstart, hlater, hc⟩
      · unfold seconds at *
        lia
      · -- An earlier minute would fire in front of the window.
        obtain ⟨-, hopen'⟩ := CronSpec.fires_eq_true_iff.mp hfires'
        have hstarted := (CronSpec.inWindow_eq_true_iff.mp hopen').1 start hstart
        have hsame : (spec.cron expression).jitterSeconds = spec.jitterSeconds := rfl
        rw [hsame] at hstarted
        unfold seconds at *
        lia
    obtain rfl := le_antisymm hle' hge
    refine ⟨utc due, ?_, rfl⟩
    rw [ScheduleSpec.nextFireAfter_cron hkind]
    have hcursor' := hcursor
    rw [← spec.searchCursor_cron expression] at hcursor'
    rw [← floorMinute_of_isAware (isAware_searchCursor hcursor)] at hwalk
    have hparse' : parseCron host (spec.cron expression).expression = .ok parsed := hparse
    rw [CronSpec.nextFireAfter_of_walk hparse' hcursor' hwalk, ← hdue]
    rfl

/-! ## Searches that fail -/

theorem interval_search_succeeds {n : Nat} (hkind : spec.kind = .interval n) (t : Instant) :
    ¬ SearchFails host spec t := by
  rintro ⟨error, herror⟩
  unfold nextFireAfter at herror
  rw [hkind] at herror
  split at herror <;> cases herror

/-! ## The claims of a tick -/

theorem resumes_iff (hproduced : nextFireAfter host spec after last = .ok (some d)) :
    FiresNext host spec (catchUpStart spec d.instant) d.instant ↔
      ResumesAtCursor spec d.instant := by
  unfold catchUpStart ResumesAtCursor
  cases hkind : spec.kind with
  | interval n => exact resumes_interval hkind (nextFireAfter_inWindow hproduced)
  | cron expression => exact resumes_cron hkind hproduced

theorem FiresNext.unique {t t₁ t₂ : Instant} (h₁ : FiresNext host spec t t₁)
    (h₂ : FiresNext host spec t t₂) : t₁ = t₂ := by
  obtain ⟨d₁, hd₁, rfl⟩ := h₁
  obtain ⟨d₂, hd₂, rfl⟩ := h₂
  rw [Option.some.inj (Except.ok.inj (hd₁.symm.trans hd₂))]

theorem FiresNext.lt {t t' : Instant} (h : FiresNext host spec t t') : t < t' := by
  obtain ⟨d, hd, rfl⟩ := h
  exact lt_nextFireAfter hd

theorem FiresNext.not_searchFails {t t' : Instant} (h : FiresNext host spec t t') :
    ¬ SearchFails host spec t := by
  rintro ⟨error, herror⟩
  obtain ⟨d, hd, -⟩ := h
  cases hd.symm.trans herror

theorem catchUpLoop_times {left : Nat} {t : Instant} {found : List Datetime}
    (h : catchUpLoop host spec now left t = .ok found) :
    (t :: found.map (·.instant)).IsChain (FiresNext host spec) ∧
      ∀ t' ∈ found.map (·.instant), t' ≤ now := by
  have hloop : catchUpLoop host spec now left (utc t).instant = .ok found := h
  obtain ⟨hchain, hpast⟩ := catchUpLoop_chain hloop
  refine ⟨?_, fun t' hmem => ?_⟩
  · have hmapped : ((utc t :: found).map (·.instant)).IsChain (FiresNext host spec) := by
      rw [List.isChain_map]
      exact hchain.imp fun a b hab => ⟨b, hab, rfl⟩
    exact hmapped
  · obtain ⟨d, hd, rfl⟩ := List.mem_map.mp hmem
    exact hpast d hd

/-- What the loop finds first. -/
theorem head_catchUpLoop {left : Nat} {t : Instant} {found : List Datetime}
    (h : catchUpLoop host spec now (left + 1) t = .ok found) (hfires : FiresNext host spec t due)
    (hdue : due ≤ now) : ∃ first rest, found = first :: rest ∧ first.instant = due := by
  obtain ⟨d, hnext, rfl⟩ := hfires
  unfold catchUpLoop at h
  rw [hnext] at h
  dsimp only at h
  rw [if_neg (not_lt.mpr hdue)] at h
  split at h
  · cases h
  · rename_i rest hrest
    exact ⟨d, rest, (Except.ok.inj h).symm, rfl⟩

/-- An active catch-up schedule with a run every minute. -/
def minutely (jitterSeconds : Nat) (cursor : Instant) : ScheduleRecord :=
  sampleRecord { sampleSpec .catchUp .queue with jitterSeconds := jitterSeconds }
    (sampleScheduleHost.isoformat (utc cursor))

end Etlantic.ControlPlane.Schedule
