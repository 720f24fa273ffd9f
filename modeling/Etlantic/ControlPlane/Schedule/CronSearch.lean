import Mathlib.Algebra.Group.Basic
import Mathlib.Algebra.Order.Group.Int
import Etlantic.Base.Search
import Etlantic.ControlPlane.Schedule.Calls
import Etlantic.ControlPlane.ScheduleClock

/-!
# What the cron search finds

`next_fire_after` walks over UTC minutes.  A cron specification is taken here
with any window that the validation lets through: the opening of the window may
have an offset with seconds, and then the walk starts at a minute of that offset.
-/

namespace Etlantic.ControlPlane.Schedule

open Base (search search_eq_some_iff search_eq_none_iff)

/-- A cron `ScheduleSpec` as `next_fire_after` reads it. -/
structure CronSpec where
  expression : String
  timezone : String
  jitterSeconds : Nat
  windowStart : Option Datetime
  windowEnd : Option Instant
  windowAware : ∀ start ∈ windowStart, start.offset.isSome = true
  windowOrdered : ∀ start ∈ windowStart, ∀ stop ∈ windowEnd, start.instant < stop

/-- `_in_window`. -/
def CronSpec.inWindow (spec : CronSpec) (instant : Instant) : Bool :=
  spec.windowStart.all (fun start => start.instant ≤ instant) &&
    spec.windowEnd.all (fun stop => instant < stop)

/-- `cursor.replace(second=0, microsecond=0)`, in the offset of the cursor. -/
def Datetime.floorMinute (d : Datetime) : Instant :=
  d.instant - (d.instant + d.offset.getD 0) % seconds 60

/-- The second before the window opens is looked at first when `after` lies before it. -/
def CronSpec.opensLater (spec : CronSpec) (after : Instant) (start : Datetime) : Bool :=
  !spec.inWindow (after + seconds 1) && after < start.instant

/-- The time the search starts from. None when the window is over. -/
def CronSpec.searchCursor (spec : CronSpec) (after : Instant) : Option Datetime :=
  if !spec.inWindow (after + seconds 1) && spec.windowEnd.any (fun stop => stop ≤ after) then none
  else
    match spec.windowStart with
    | none => some (utc after)
    | some start => some
        (if spec.opensLater after start = true then ⟨start.instant - seconds 1, start.offset⟩
        else utc after)

/-- The walk over UTC minutes, with the minutes it may still look at. -/
def CronSpec.walk (host : ScheduleHost) (spec : CronSpec) (parsed : CronFields) :
    Nat → Instant → Option Instant
  | 0, _ => none
  | left + 1, probe =>
      if cronMatch parsed (host.localTime spec.timezone probe) = true ∧
          spec.inWindow (probe + seconds spec.jitterSeconds) = true then
        some (probe + seconds spec.jitterSeconds)
      else spec.walk host parsed left (probe + seconds 60)

/-- How many minutes a search looks at. -/
def walkLimit : Nat := 366 * 24 * 60

/-- `next_fire_after` of a cron specification, which does not look at `last_nominal`. -/
def CronSpec.nextFireAfter (host : ScheduleHost) (spec : CronSpec) (after : Instant) :
    Except PyError (Option Datetime) :=
  match spec.searchCursor after with
  | none => .ok none
  | some cursor =>
      match parseCron host spec.expression with
      | .error error => .error error
      | .ok parsed =>
          match spec.walk host parsed walkLimit (cursor.floorMinute + seconds 60) with
          | none => .error (.valueError "could not find a next fire time within one year")
          | some t => .ok (some (utc t))

/-! ## The specifications of the stores -/

/-- The cron specification that a schedule holds. -/
def ScheduleSpec.cron (spec : ScheduleSpec) (expression : String) : CronSpec where
  expression := expression
  timezone := spec.timezone
  jitterSeconds := spec.jitterSeconds
  windowStart := spec.windowStart
  windowEnd := spec.windowEnd
  windowAware := by
    intro start hstart
    obtain ⟨offset, hoffset, -⟩ := spec.windowAware start hstart
    rw [hoffset]
    rfl
  windowOrdered := spec.windowOrdered

variable {host : ScheduleHost} {parsed : CronFields} {after : Instant}

theorem ScheduleSpec.inWindow_cron (spec : ScheduleSpec) (expression : String) (t : Instant) :
    (spec.cron expression).inWindow t = Schedule.inWindow spec t := rfl

theorem ScheduleSpec.searchCursor_cron (spec : ScheduleSpec) (expression : String)
    (after : Instant) :
    (spec.cron expression).searchCursor after = Schedule.searchCursor spec after := by
  unfold CronSpec.searchCursor Schedule.searchCursor CronSpec.opensLater
  rw [spec.inWindow_cron expression]
  by_cases hopen : inWindow spec (after + seconds 1) = true
  · simp only [hopen, Bool.not_true, Bool.false_and, Bool.false_eq_true, if_false, if_true]
    split <;> rfl
  · rw [if_neg hopen]
    simp only [Bool.eq_false_iff.mpr hopen, Bool.not_false, Bool.true_and, decide_eq_true_eq]
    rfl

theorem ScheduleSpec.walk_cron (spec : ScheduleSpec) (expression : String) (left : Nat)
    (probe : Instant) :
    (spec.cron expression).walk host parsed left probe =
      cronWalk host spec parsed left probe := by
  induction left generalizing probe with
  | zero => rfl
  | succ left ih =>
      unfold CronSpec.walk cronWalk
      rw [ih]
      rfl

/-- A cursor at whole minutes of offset is cut down to a UTC minute. -/
theorem floorMinute_of_isAware {d : Datetime} (h : d.IsAware) :
    d.floorMinute = floorMinute d.instant := by
  obtain ⟨offset, hoffset, hvalid⟩ := h
  have hwhole : offset % seconds 60 = 0 := by
    unfold isUtcOffset at hvalid
    simp only [Bool.and_eq_true, decide_eq_true_eq] at hvalid
    exact hvalid.1.1
  unfold Datetime.floorMinute floorMinute
  rw [hoffset, Option.getD_some, Int.add_emod, hwhole, add_zero, Int.emod_emod]

theorem ScheduleSpec.nextFireAfter_cron {spec : ScheduleSpec} {expression : String}
    (hkind : spec.kind = .cron expression) (after : Instant) (last : Option Instant) :
    nextFireAfter host spec after last = (spec.cron expression).nextFireAfter host after := by
  unfold nextFireAfter CronSpec.nextFireAfter
  rw [spec.searchCursor_cron expression]
  cases hcursor : Schedule.searchCursor spec after with
  | none => rfl
  | some cursor =>
      dsimp only
      rw [hkind, floorMinute_of_isAware (isAware_searchCursor hcursor)]
      simp only [spec.walk_cron expression]
      rfl

/-! ## The walk is a search -/

/-- The minutes at which the walk stops. -/
def CronSpec.fires (host : ScheduleHost) (spec : CronSpec) (parsed : CronFields)
    (probe : Instant) : Bool :=
  cronMatch parsed (host.localTime spec.timezone probe) &&
    spec.inWindow (probe + seconds spec.jitterSeconds)

variable {spec : CronSpec}

theorem CronSpec.fires_eq_true_iff {probe : Instant} : spec.fires host parsed probe = true ↔
    cronMatch parsed (host.localTime spec.timezone probe) = true ∧
      spec.inWindow (probe + seconds spec.jitterSeconds) = true := by
  unfold CronSpec.fires
  rw [Bool.and_eq_true]

theorem CronSpec.walk_eq_search (left : Nat) (probe : Instant) :
    spec.walk host parsed left probe =
      (search (spec.fires host parsed) (· + seconds 60) left probe).map
        (· + seconds spec.jitterSeconds) := by
  induction left generalizing probe with
  | zero => rfl
  | succ left ih =>
      unfold CronSpec.walk search
      rw [ih]
      simp only [CronSpec.fires_eq_true_iff]
      split <;> rfl

theorem iterate_minute (k : Nat) (probe : Instant) :
    (fun m : Instant => m + seconds 60)^[k] probe = probe + seconds (60 * k) := by
  rw [add_right_iterate]
  unfold seconds
  simp only [nsmul_eq_mul]
  ring

/-- What a walk finds: the least minute past its start that fires. -/
theorem CronSpec.walk_eq_some_iff {left : Nat} {probe t : Instant} :
    spec.walk host parsed left probe = some t ↔
      ∃ k < left, t = probe + seconds (60 * k) + seconds spec.jitterSeconds ∧
        spec.fires host parsed (probe + seconds (60 * k)) = true ∧
        ∀ j < k, spec.fires host parsed (probe + seconds (60 * j)) = false := by
  rw [spec.walk_eq_search, Option.map_eq_some_iff]
  simp only [search_eq_some_iff, iterate_minute]
  constructor
  · rintro ⟨m, ⟨k, hk, rfl, hfires, hbefore⟩, rfl⟩
    exact ⟨k, hk, rfl, hfires, hbefore⟩
  · rintro ⟨k, hk, rfl, hfires, hbefore⟩
    exact ⟨_, ⟨k, hk, rfl, hfires, hbefore⟩, rfl⟩

theorem CronSpec.walk_eq_none_iff {left : Nat} {probe : Instant} :
    spec.walk host parsed left probe = none ↔
      ∀ k < left, spec.fires host parsed (probe + seconds (60 * k)) = false := by
  rw [spec.walk_eq_search, Option.map_eq_none_iff, search_eq_none_iff]
  simp only [iterate_minute]

/-- A walk from a whole minute finds the least later minute that fires. -/
theorem CronSpec.walk_isLeast {left : Nat} {floor t : Instant} (hwhole : floor % seconds 60 = 0)
    (h : spec.walk host parsed left (floor + seconds 60) = some t) :
    ∃ m, t = m + seconds spec.jitterSeconds ∧
      IsLeast {m | m % seconds 60 = 0 ∧ spec.fires host parsed m = true ∧ floor < m} m := by
  obtain ⟨k, -, rfl, hfires, hbefore⟩ := CronSpec.walk_eq_some_iff.mp h
  refine ⟨_, rfl, ⟨?_, hfires, ?_⟩, ?_⟩
  · unfold seconds at *
    lia
  · unfold seconds
    lia
  · -- An earlier minute is one that the walk has passed over.
    rintro m ⟨hminute, hm, hlt⟩
    by_contra hearlier
    rw [not_le] at hearlier
    obtain ⟨j, hj⟩ : ∃ j : Nat, m = floor + seconds 60 + seconds (60 * j) := by
      refine ⟨((m - floor) / seconds 60 - 1).toNat, ?_⟩
      unfold seconds at *
      lia
    have hmiss := hbefore j (by unfold seconds at *; lia)
    rw [← hj, hm] at hmiss
    cases hmiss

/-- A walk that may look far enough finds something. -/
theorem CronSpec.walk_ne_none {left : Nat} {floor m : Instant} (hwhole : floor % seconds 60 = 0)
    (hminute : m % seconds 60 = 0) (hfires : spec.fires host parsed m = true)
    (hlt : floor < m) (hle : m ≤ floor + seconds (60 * left)) :
    spec.walk host parsed left (floor + seconds 60) ≠ none := by
  rw [Ne, CronSpec.walk_eq_none_iff]
  intro hmisses
  have hmiss := hmisses ((m - floor) / seconds 60 - 1).toNat (by unfold seconds at *; lia)
  have hm : floor + seconds 60 +
      seconds (60 * (((m - floor) / seconds 60 - 1).toNat : Nat)) = m := by
    unfold seconds at *
    lia
  rw [hm, hfires] at hmiss
  cases hmiss

/-! ## Where a search starts -/

theorem CronSpec.inWindow_eq_true_iff {t : Instant} : spec.inWindow t = true ↔
    (∀ start ∈ spec.windowStart, start.instant ≤ t) ∧ ∀ stop ∈ spec.windowEnd, t < stop := by
  simp [CronSpec.inWindow, Option.all_eq_true]

theorem CronSpec.opensLater_eq_true_iff {start : Datetime} :
    spec.opensLater after start = true ↔
      spec.inWindow (after + seconds 1) = false ∧ after < start.instant := by
  simp [CronSpec.opensLater]

theorem Datetime.floorMinute_le (d : Datetime) : d.floorMinute ≤ d.instant := by
  unfold Datetime.floorMinute seconds
  lia

theorem Datetime.lt_floorMinute_add (d : Datetime) : d.instant < d.floorMinute + seconds 60 := by
  unfold Datetime.floorMinute seconds
  lia

/-- The clock of the offset shows a whole minute at the floor. -/
theorem Datetime.floorMinute_emod (d : Datetime) :
    (d.floorMinute + d.offset.getD 0) % seconds 60 = 0 := by
  unfold Datetime.floorMinute seconds
  lia

/-- No search takes place once the window is over. -/
theorem CronSpec.searchCursor_eq_none_iff :
    spec.searchCursor after = none ↔ ∃ stop ∈ spec.windowEnd, stop ≤ after := by
  have hover : (∃ stop ∈ spec.windowEnd, stop ≤ after) →
      spec.inWindow (after + seconds 1) = false := by
    rintro ⟨stop, hstop, hle⟩
    rw [Bool.eq_false_iff]
    intro hopen
    have := (spec.inWindow_eq_true_iff.mp hopen).2 stop hstop
    unfold seconds at this
    lia
  unfold CronSpec.searchCursor
  split
  · rename_i h
    rw [Bool.and_eq_true] at h
    simpa [Option.any_eq_true] using h.2
  · rename_i h
    constructor
    · intro hnone
      split at hnone <;> cases hnone
    · intro hstop
      refine absurd ?_ h
      rw [hover hstop]
      simpa [Option.any_eq_true] using hstop

theorem CronSpec.searchCursor_of_opensLater {start : Datetime}
    (hstart : start ∈ spec.windowStart) (hlater : spec.opensLater after start = true) :
    spec.searchCursor after = some ⟨start.instant - seconds 1, start.offset⟩ := by
  have hrunning : spec.searchCursor after ≠ none := by
    rw [Ne, CronSpec.searchCursor_eq_none_iff]
    rintro ⟨stop, hstop, hle⟩
    have hordered := spec.windowOrdered start hstart stop hstop
    have hbefore := (CronSpec.opensLater_eq_true_iff.mp hlater).2
    lia
  have hopens : spec.windowStart = some start := hstart
  unfold CronSpec.searchCursor at *
  split at hrunning
  · exact absurd rfl hrunning
  · rename_i h
    rw [if_neg h, hopens]
    dsimp only
    rw [if_pos hlater]

/-- A search starts at `after`, or in front of a window that opens later. -/
theorem CronSpec.searchCursor_cases {cursor : Datetime}
    (h : spec.searchCursor after = some cursor) :
    cursor = utc after ∨ ∃ start ∈ spec.windowStart, spec.opensLater after start = true ∧
      cursor = ⟨start.instant - seconds 1, start.offset⟩ := by
  unfold CronSpec.searchCursor at h
  split at h
  · cases h
  · split at h
    · exact Or.inl (Option.some.inj h).symm
    · rename_i start hstart
      by_cases hlater : spec.opensLater after start = true
      · rw [if_pos hlater] at h
        exact Or.inr ⟨start, hstart, hlater, (Option.some.inj h).symm⟩
      · rw [if_neg hlater] at h
        exact Or.inl (Option.some.inj h).symm

/-- Of a specification of the stores: no search takes place once the window is over. -/
theorem searchCursor_eq_none_iff {spec : ScheduleSpec} :
    searchCursor spec after = none ↔ ∃ stop ∈ spec.windowEnd, stop ≤ after := by
  rw [← spec.searchCursor_cron ""]
  exact CronSpec.searchCursor_eq_none_iff

/-! ## Occurrences -/

/-- A UTC minute in the window at which the expression matches. -/
structure CronSpec.IsOccurrence (host : ScheduleHost) (spec : CronSpec) (parsed : CronFields)
    (m : Instant) : Prop where
  minute : m % seconds 60 = 0
  hit : cronMatch parsed (host.localTime spec.timezone m) = true
  inWindow : spec.inWindow m = true

/-- As far ahead as a search looks. -/
def year : Int := seconds (366 * 86400)

/-- The search starts in front of every occurrence past `after`, and reaches those of a year. -/
theorem CronSpec.IsOccurrence.ahead {m : Instant} {cursor : Datetime}
    (h : spec.IsOccurrence host parsed m) (hafter : after < m)
    (hcursor : spec.searchCursor after = some cursor)
    (hwhole : cursor.floorMinute % seconds 60 = 0) :
    cursor.floorMinute < m ∧ (m ≤ after + year → m ≤ cursor.floorMinute + year) := by
  have hfloor := cursor.floorMinute_le
  have hceil := cursor.lt_floorMinute_add
  have hminute := h.minute
  obtain ⟨hlow, hhigh⟩ : cursor.instant < m ∧
      (m ≤ after + year → m < cursor.floorMinute + year + seconds 60) := by
    rcases spec.searchCursor_cases hcursor with rfl | ⟨start, hstart, hlater, rfl⟩
    · refine ⟨hafter, fun hnear => ?_⟩
      unfold utc seconds at *
      dsimp only at *
      lia
    · obtain ⟨hclosed, hbefore⟩ := CronSpec.opensLater_eq_true_iff.mp hlater
      obtain ⟨hopened, hended⟩ := spec.inWindow_eq_true_iff.mp h.inWindow
      have hstarted := hopened start hstart
      rw [Bool.eq_false_iff, Ne, spec.inWindow_eq_true_iff, not_and_or] at hclosed
      unfold year seconds at *
      dsimp only at *
      refine ⟨by lia, fun hnear => ?_⟩
      rcases hclosed with hclosed | hclosed
      · -- The second past `after` is still in front of the window.
        push Not at hclosed
        obtain ⟨start', hstart', hlt⟩ := hclosed
        obtain rfl : start = start' := Option.mem_unique hstart hstart'
        lia
      · -- The window closes within that second.
        push Not at hclosed
        obtain ⟨stop, hstop, hle⟩ := hclosed
        have hlt := hended stop hstop
        lia
  refine ⟨lt_of_le_of_lt hfloor hlow, fun hnear => ?_⟩
  have hlt := hhigh hnear
  unfold year seconds at *
  lia

/-- What a search that finds something has found. -/
theorem CronSpec.nextFireAfter_eq_some {t : Datetime} (hparse : parseCron host spec.expression = .ok parsed)
    (h : spec.nextFireAfter host after = .ok (some t)) :
    ∃ cursor, spec.searchCursor after = some cursor ∧
      ∃ found, spec.walk host parsed walkLimit (cursor.floorMinute + seconds 60) = some found ∧
        t = utc found := by
  unfold CronSpec.nextFireAfter at h
  cases hcursor : spec.searchCursor after with
  | none => simp [hcursor] at h
  | some cursor =>
      simp only [hcursor, hparse] at h
      cases hwalk : spec.walk host parsed walkLimit (cursor.floorMinute + seconds 60) with
      | none => simp [hwalk] at h
      | some found =>
          simp only [hwalk] at h
          exact ⟨cursor, rfl, found, hwalk, (Option.some.inj (Except.ok.inj h)).symm⟩

theorem CronSpec.nextFireAfter_of_walk {cursor : Datetime} {found : Instant}
    (hparse : parseCron host spec.expression = .ok parsed)
    (hcursor : spec.searchCursor after = some cursor)
    (hwalk : spec.walk host parsed walkLimit (cursor.floorMinute + seconds 60) = some found) :
    spec.nextFireAfter host after = .ok (some (utc found)) := by
  unfold CronSpec.nextFireAfter
  simp only [hcursor, hparse, hwalk]

theorem CronSpec.nextFireAfter_of_walk_none {cursor : Datetime}
    (hparse : parseCron host spec.expression = .ok parsed)
    (hcursor : spec.searchCursor after = some cursor)
    (hwalk : spec.walk host parsed walkLimit (cursor.floorMinute + seconds 60) = none) :
    spec.nextFireAfter host after =
      .error (.valueError "could not find a next fire time within one year") := by
  unfold CronSpec.nextFireAfter
  simp only [hcursor, hparse, hwalk]

/-- Only a search that does not take place answers None. -/
theorem CronSpec.nextFireAfter_eq_none_iff (hparse : parseCron host spec.expression = .ok parsed) :
    spec.nextFireAfter host after = .ok none ↔ ∃ stop ∈ spec.windowEnd, stop ≤ after := by
  rw [← CronSpec.searchCursor_eq_none_iff]
  unfold CronSpec.nextFireAfter
  cases hcursor : spec.searchCursor after with
  | none => simp
  | some cursor =>
      simp only [hparse]
      cases hwalk : spec.walk host parsed walkLimit (cursor.floorMinute + seconds 60) <;> simp

/-- What a cron schedule of the stores finds: the least minute that fires past the floor of
its search cursor, delayed by the jitter. -/
theorem nextFireAfter_cron_eq_some {spec : ScheduleSpec} {expression : String} {d : Datetime}
    {last : Option Instant} (hkind : spec.kind = .cron expression)
    (h : nextFireAfter host spec after last = .ok (some d)) :
    ∃ parsed cursor m, parseCron host expression = .ok parsed ∧
      Schedule.searchCursor spec after = some cursor ∧
      d = utc (m + seconds spec.jitterSeconds) ∧
      IsLeast {m | m % seconds 60 = 0 ∧ (spec.cron expression).fires host parsed m = true ∧
        floorMinute cursor.instant < m} m := by
  rw [ScheduleSpec.nextFireAfter_cron hkind] at h
  cases hparse : parseCron host expression with
  | error error =>
      unfold CronSpec.nextFireAfter at h
      split at h
      · cases h
      · rw [show (spec.cron expression).expression = expression from rfl, hparse] at h
        cases h
  | ok parsed =>
      obtain ⟨cursor, hcursor, found, hwalk, rfl⟩ :=
        CronSpec.nextFireAfter_eq_some hparse h
      rw [spec.searchCursor_cron expression] at hcursor
      rw [floorMinute_of_isAware (isAware_searchCursor hcursor)] at hwalk
      obtain ⟨m, rfl, hleast⟩ := CronSpec.walk_isLeast (floorMinute_emod _) hwalk
      exact ⟨parsed, cursor, m, rfl, hcursor, rfl, hleast⟩

/-! ## The least occurrence -/

variable (host spec parsed after) in
/-- What `next_fire_after` says it returns, for a specification without jitter: the least
occurrence past `after` that a year has, and None once the window has no more. -/
def CronSpec.Answers : Prop :=
  (∀ m, spec.IsOccurrence host parsed m → after < m → m ≤ after + year →
    ∃ least, IsLeast {m | spec.IsOccurrence host parsed m ∧ after < m} least ∧
      spec.nextFireAfter host after = .ok (some (utc least))) ∧
  (spec.windowEnd.isSome = true → (∀ m, spec.IsOccurrence host parsed m → m ≤ after) →
    spec.nextFireAfter host after = .ok none)

/-- An in-window minute past the search cursor lies past `after`. -/
theorem CronSpec.lt_of_searchCursor_lt {cursor : Datetime} {t : Instant}
    (h : spec.searchCursor after = some cursor) (hlt : cursor.instant < t)
    (hwindow : spec.inWindow t = true) : after < t := by
  rcases spec.searchCursor_cases h with rfl | ⟨start, hstart, hlater, rfl⟩
  · exact hlt
  · have hstarted := (spec.inWindow_eq_true_iff.mp hwindow).1 start hstart
    exact lt_of_lt_of_le (CronSpec.opensLater_eq_true_iff.mp hlater).2 hstarted

theorem CronSpec.fires_of_isOccurrence {m : Instant} (hjitter : spec.jitterSeconds = 0)
    (h : spec.IsOccurrence host parsed m) : spec.fires host parsed m = true := by
  rw [CronSpec.fires_eq_true_iff, hjitter]
  exact ⟨h.hit, by simpa [seconds] using h.inWindow⟩

/-- A search from a whole UTC minute finds the least occurrence, if a year has one. -/
theorem CronSpec.finds_least {cursor : Datetime} {m : Instant}
    (hparse : parseCron host spec.expression = .ok parsed) (hjitter : spec.jitterSeconds = 0)
    (hcursor : spec.searchCursor after = some cursor)
    (hwhole : cursor.floorMinute % seconds 60 = 0)
    (hm : spec.IsOccurrence host parsed m) (hafter : after < m) (hnear : m ≤ after + year) :
    ∃ least, IsLeast {m | spec.IsOccurrence host parsed m ∧ after < m} least ∧
      spec.nextFireAfter host after = .ok (some (utc least)) := by
  obtain ⟨hlt, hreach⟩ := hm.ahead hafter hcursor hwhole
  have hwalks : spec.walk host parsed walkLimit (cursor.floorMinute + seconds 60) ≠ none :=
    CronSpec.walk_ne_none hwhole hm.minute (CronSpec.fires_of_isOccurrence hjitter hm) hlt
      (hreach hnear)
  obtain ⟨found, hwalk⟩ := Option.ne_none_iff_exists'.mp hwalks
  obtain ⟨least, hfound, ⟨hminute, hfires, hpast⟩, hleast⟩ := CronSpec.walk_isLeast hwhole hwalk
  rw [hjitter, Nat.cast_zero, show seconds 0 = 0 from rfl, add_zero] at hfound
  subst hfound
  obtain ⟨hhit, hopen⟩ := CronSpec.fires_eq_true_iff.mp hfires
  rw [hjitter, Nat.cast_zero, show seconds 0 = 0 from rfl, add_zero] at hopen
  have hceil := cursor.lt_floorMinute_add
  have hlater : cursor.instant < found := by
    unfold seconds at *
    lia
  refine ⟨found, ⟨⟨⟨hminute, hhit, hopen⟩, spec.lt_of_searchCursor_lt hcursor hlater hopen⟩, ?_⟩,
    CronSpec.nextFireAfter_of_walk hparse hcursor hwalk⟩
  rintro m' ⟨hm', hafter'⟩
  exact hleast ⟨hm'.minute, CronSpec.fires_of_isOccurrence hjitter hm',
    (hm'.ahead hafter' hcursor hwhole).1⟩

/-- A search from a minute of an offset with seconds finds no UTC minute. -/
theorem CronSpec.found_off_minute {cursor t : Datetime}
    (hparse : parseCron host spec.expression = .ok parsed) (hjitter : spec.jitterSeconds = 0)
    (hcursor : spec.searchCursor after = some cursor)
    (hodd : cursor.floorMinute % seconds 60 ≠ 0)
    (h : spec.nextFireAfter host after = .ok (some t)) : t.instant % seconds 60 ≠ 0 := by
  obtain ⟨cursor', hcursor', found, hwalk, rfl⟩ := spec.nextFireAfter_eq_some hparse h
  obtain rfl := Option.some.inj (hcursor.symm.trans hcursor')
  obtain ⟨k, -, hfound, -, -⟩ := CronSpec.walk_eq_some_iff.mp hwalk
  rw [hjitter] at hfound
  rw [hfound]
  unfold utc seconds at *
  dsimp only
  lia

/-- `next_fire_after` answers as it says exactly when the window, if it has an end, is over
or still has an occurrence, and a window that opens later does so at an offset of whole
minutes. -/
theorem cron_answers_iff (hparse : parseCron host spec.expression = .ok parsed)
    (hjitter : spec.jitterSeconds = 0) :
    spec.Answers host parsed after ↔
      (∀ stop ∈ spec.windowEnd,
        stop ≤ after ∨ ∃ m, spec.IsOccurrence host parsed m ∧ after < m) ∧
      ∀ start ∈ spec.windowStart, spec.opensLater after start = true →
        (∃ m, spec.IsOccurrence host parsed m ∧ after < m ∧ m ≤ after + year) →
        start.offset.getD 0 % seconds 60 = 0 := by
  constructor
  · rintro ⟨hfinds, hends⟩
    refine ⟨fun stop hstop => ?_, fun start hstart hlater hsome => ?_⟩
    · by_cases hmore : ∃ m, spec.IsOccurrence host parsed m ∧ after < m
      · exact Or.inr hmore
      · left
        have hover : ∀ m, spec.IsOccurrence host parsed m → m ≤ after := by
          intro m hm
          by_contra hafter
          exact hmore ⟨m, hm, not_le.mp hafter⟩
        have hset : spec.windowEnd.isSome = true := Option.isSome_iff_exists.mpr ⟨stop, hstop⟩
        obtain ⟨stop', hstop', hle⟩ :=
          (CronSpec.nextFireAfter_eq_none_iff hparse).mp (hends hset hover)
        obtain rfl := Option.mem_unique hstop hstop'
        exact hle
    · obtain ⟨m, hm, hafter, hnear⟩ := hsome
      obtain ⟨least, hleast, hanswer⟩ := hfinds m hm hafter hnear
      have hcursor := spec.searchCursor_of_opensLater hstart hlater
      by_contra hodd
      refine CronSpec.found_off_minute hparse hjitter hcursor ?_ hanswer hleast.1.1.minute
      have hclock := Datetime.floorMinute_emod ⟨start.instant - seconds 1, start.offset⟩
      unfold seconds at *
      dsimp only at *
      lia
  · rintro ⟨hmore, hwhole⟩
    refine ⟨fun m hm hafter hnear => ?_, fun hset hover => ?_⟩
    · cases hcursor : spec.searchCursor after with
      | none =>
          obtain ⟨stop, hstop, hle⟩ := CronSpec.searchCursor_eq_none_iff.mp hcursor
          have hlt := (spec.inWindow_eq_true_iff.mp hm.inWindow).2 stop hstop
          exact absurd (lt_of_lt_of_le hlt hle) (not_lt.mpr (le_of_lt hafter))
      | some cursor =>
          refine CronSpec.finds_least hparse hjitter hcursor ?_ hm hafter hnear
          have hclock := cursor.floorMinute_emod
          rcases spec.searchCursor_cases hcursor with rfl | ⟨start, hstart, hlater, rfl⟩
          · simpa [utc] using hclock
          · have hoffset := hwhole start hstart hlater ⟨m, hm, hafter, hnear⟩
            unfold seconds at *
            dsimp only at *
            lia
    · obtain ⟨stop, hstop⟩ := Option.isSome_iff_exists.mp hset
      rw [CronSpec.nextFireAfter_eq_none_iff hparse]
      rcases hmore stop hstop with hle | ⟨m, hm, hafter⟩
      · exact ⟨stop, hstop, hle⟩
      · exact absurd (hover m hm) (not_le.mpr hafter)

/-- The fields of `* * * * *`. -/
def everyMinute : CronFields where
  minute := (List.range 60).map fun i : Nat => (i : Int)
  hour := (List.range 24).map fun i : Nat => (i : Int)
  day := (List.range 31).map fun i : Nat => (i : Int) + 1
  month := (List.range 12).map fun i : Nat => (i : Int) + 1
  weekday := (List.range 7).map fun i : Nat => (i : Int)

/-- A run every minute until a minute and a half has passed. -/
def untilHalfPast : CronSpec where
  expression := "* * * * *"
  timezone := "UTC"
  jitterSeconds := 0
  windowStart := none
  windowEnd := some (seconds 90)
  windowAware := fun _ h => by cases h
  windowOrdered := fun _ h => by cases h

theorem parseCron_everyMinute :
    parseCron sampleScheduleHost "* * * * *" = .ok everyMinute := by rfl

/-- At the beginning the window still has an occurrence. -/
theorem cron_answers_untilHalfPast :
    untilHalfPast.Answers sampleScheduleHost everyMinute 0 := by
  refine (cron_answers_iff parseCron_everyMinute rfl).mpr ⟨fun stop hstop => ?_, ?_⟩
  · right
    exact ⟨seconds 60, ⟨by decide, by decide +kernel, by decide⟩, by decide⟩
  · intro start hstart
    cases hstart

/-- After the last occurrence the window is not over yet, and the search fails. -/
theorem cron_search_fails :
    untilHalfPast.nextFireAfter sampleScheduleHost (seconds 60) =
        .error (.valueError "could not find a next fire time within one year") ∧
      ¬ untilHalfPast.Answers sampleScheduleHost everyMinute (seconds 60) := by
  have hover : ∀ m, untilHalfPast.IsOccurrence sampleScheduleHost everyMinute m →
      m ≤ seconds 60 := by
    intro m hm
    have hminute := hm.minute
    have hended := (CronSpec.inWindow_eq_true_iff.mp hm.inWindow).2 (seconds 90) rfl
    unfold seconds at *
    lia
  have hrunning : ¬ ∃ stop ∈ untilHalfPast.windowEnd, stop ≤ seconds 60 := by
    rintro ⟨stop, hstop, hle⟩
    obtain rfl := Option.some.inj hstop
    revert hle
    decide
  refine ⟨?_, fun hanswers => ?_⟩
  · have hmisses : untilHalfPast.walk sampleScheduleHost everyMinute walkLimit
        ((utc (seconds 60)).floorMinute + seconds 60) = none := by
      rw [CronSpec.walk_eq_none_iff]
      intro k hk
      rw [Bool.eq_false_iff, Ne, CronSpec.fires_eq_true_iff]
      rintro ⟨-, hopen⟩
      have hended := (CronSpec.inWindow_eq_true_iff.mp hopen).2 (seconds 90) rfl
      have hstart : (utc (seconds 60)).floorMinute = seconds 60 := by decide
      rw [hstart] at hended
      unfold untilHalfPast seconds at hended
      dsimp only at hended
      lia
    exact CronSpec.nextFireAfter_of_walk_none parseCron_everyMinute rfl hmisses
  · have hnone := hanswers.2 rfl hover
    exact hrunning ((CronSpec.nextFireAfter_eq_none_iff parseCron_everyMinute).mp hnone)

end Etlantic.ControlPlane.Schedule
