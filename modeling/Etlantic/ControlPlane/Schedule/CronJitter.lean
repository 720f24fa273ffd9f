import Etlantic.Base.Recurrence
import Etlantic.ControlPlane.Schedule.CronSearch

/-!
# Jitter and the occurrences of a cron schedule

An occurrence fires its jitter after the minute that matches, and the next search
starts from that firing.
-/

namespace Etlantic.ControlPlane.Schedule

open Base (ServesInTurn dueServices)

variable {host : ScheduleHost} {spec : ScheduleSpec} {parsed : CronFields} {expression : String}
  {start : Instant}

/-- The UTC minutes at which a cron expression matches. -/
def matchingMinutes (host : ScheduleHost) (spec : ScheduleSpec) (parsed : CronFields) :
    Set Instant :=
  {m | m % seconds 60 = 0 ∧ cronMatch parsed (host.localTime spec.timezone m) = true}

/-- From `start` on, the next match is never more than 366 days away. -/
def RecursWithinYear (host : ScheduleHost) (spec : ScheduleSpec) (parsed : CronFields)
    (start : Instant) : Prop :=
  ∀ t, start ≤ t → ∃ m ∈ matchingMinutes host spec parsed, t < m ∧ m ≤ t + year

/-- The times that asking for the next fire again and again yields. -/
def IsFireSequence (host : ScheduleHost) (spec : ScheduleSpec) (start : Instant)
    (fire : Nat → Instant) : Prop :=
  fire 0 = start ∧ ∀ n, nextFireAfter host spec (fire n) none = .ok (some (utc (fire (n + 1))))

/-- Asking again and again yields the jittered matches past `start`, in order and all of
them. -/
def FiresEveryMatch (host : ScheduleHost) (spec : ScheduleSpec) (parsed : CronFields)
    (start : Instant) : Prop :=
  ∃ fire, IsFireSequence host spec start fire ∧ StrictMono fire ∧
    Set.range (fun n => fire (n + 1)) =
      {t | ∃ m ∈ matchingMinutes host spec parsed,
        t = m + seconds spec.jitterSeconds ∧ start < t}

/-! ## One search -/

theorem inWindow_of_unbounded (hstart : spec.windowStart = none) (hend : spec.windowEnd = none)
    (t : Instant) : inWindow spec t = true := by
  simp [inWindow, hstart, hend]

/-- Without a window a search finds the next match and adds the jitter. -/
theorem nextFireAfter_unbounded {t : Instant} (hkind : spec.kind = .cron expression)
    (hparse : parseCron host expression = .ok parsed) (hstart : spec.windowStart = none)
    (hend : spec.windowEnd = none)
    (hsome : ∃ m ∈ matchingMinutes host spec parsed, t < m ∧ m ≤ t + year) :
    ∃ m, IsLeast {m | m ∈ matchingMinutes host spec parsed ∧ t < m} m ∧
      nextFireAfter host spec t none = .ok (some (utc (m + seconds spec.jitterSeconds))) := by
  have hopen := inWindow_of_unbounded hstart hend
  have hcursor : (spec.cron expression).searchCursor t = some (utc t) := by
    rw [spec.searchCursor_cron expression]
    exact searchCursor_of_inWindow (hopen t)
  have hfires : ∀ m, (spec.cron expression).fires host parsed m = true ↔
      cronMatch parsed (host.localTime spec.timezone m) = true := by
    intro m
    rw [CronSpec.fires_eq_true_iff]
    exact and_iff_left (hopen _)
  have hfloor : (utc t).floorMinute = floorMinute t := floorMinute_of_isAware (isAware_utc t)
  have hwhole : (utc t).floorMinute % seconds 60 = 0 := by
    rw [hfloor]
    exact floorMinute_emod t
  have hpast : ∀ m ∈ matchingMinutes host spec parsed, t < m ↔ (utc t).floorMinute < m := by
    intro m hm
    have hminute := hm.1
    rw [hfloor]
    unfold floorMinute seconds at *
    lia
  obtain ⟨m, hm, hlt, hle⟩ := hsome
  have hwalks : (spec.cron expression).walk host parsed walkLimit
      ((utc t).floorMinute + seconds 60) ≠ none := by
    refine CronSpec.walk_ne_none hwhole hm.1 ((hfires m).mpr hm.2) ((hpast m hm).mp hlt) ?_
    have hminute := hm.1
    rw [hfloor]
    unfold walkLimit year floorMinute seconds at *
    lia
  obtain ⟨found, hwalk⟩ := Option.ne_none_iff_exists'.mp hwalks
  obtain ⟨m, rfl, ⟨hminute, hfound, hlater⟩, hleast⟩ := CronSpec.walk_isLeast hwhole hwalk
  have hm : m ∈ matchingMinutes host spec parsed := ⟨hminute, (hfires m).mp hfound⟩
  refine ⟨m, ⟨⟨hm, (hpast m hm).mpr hlater⟩, ?_⟩, ?_⟩
  · rintro m' ⟨hm', hlt'⟩
    exact hleast ⟨hm'.1, (hfires m').mpr hm'.2, (hpast m' hm').mp hlt'⟩
  · rw [ScheduleSpec.nextFireAfter_cron hkind]
    exact CronSpec.nextFireAfter_of_walk hparse hcursor hwalk

/-! ## All occurrences -/

variable {fire : Nat → Instant}

/-- Asking again and again serves the matches in turn. -/
theorem IsFireSequence.servesInTurn (hkind : spec.kind = .cron expression)
    (hparse : parseCron host expression = .ok parsed) (hstart : spec.windowStart = none)
    (hend : spec.windowEnd = none) (hrecurs : RecursWithinYear host spec parsed start)
    (h : IsFireSequence host spec start fire) :
    ServesInTurn (matchingMinutes host spec parsed) (seconds spec.jitterSeconds) fire := by
  have hreached : ∀ n, start ≤ fire n := by
    intro n
    induction n with
    | zero => exact le_of_eq h.1.symm
    | succ n ih =>
        have hlater : fire n < fire (n + 1) := lt_nextFireAfter (h.2 n)
        exact le_of_lt (lt_of_le_of_lt ih hlater)
  intro n
  obtain ⟨m, hleast, hnext⟩ :=
    nextFireAfter_unbounded hkind hparse hstart hend (hrecurs (fire n) (hreached n))
  refine ⟨m, hleast, ?_⟩
  have hsame := Option.some.inj (Except.ok.inj ((h.2 n).symm.trans hnext))
  exact congrArg Datetime.instant hsame

/-- The time that the next search gives, while there is one. -/
def fireStep (host : ScheduleHost) (spec : ScheduleSpec) (t : Instant) : Instant :=
  match nextFireAfter host spec t none with
  | .ok (some d) => d.instant
  | _ => t

theorem exists_isFireSequence (hkind : spec.kind = .cron expression)
    (hparse : parseCron host expression = .ok parsed) (hstart : spec.windowStart = none)
    (hend : spec.windowEnd = none) (hrecurs : RecursWithinYear host spec parsed start) :
    ∃ fire, IsFireSequence host spec start fire := by
  have hstep : ∀ t, start ≤ t →
      nextFireAfter host spec t none = .ok (some (utc (fireStep host spec t))) := by
    intro t hle
    obtain ⟨m, -, hnext⟩ := nextFireAfter_unbounded hkind hparse hstart hend (hrecurs t hle)
    unfold fireStep
    rw [hnext]
    rfl
  have hreached : ∀ n, start ≤ (fireStep host spec)^[n] start := by
    intro n
    induction n with
    | zero => exact le_refl start
    | succ n ih =>
        rw [Function.iterate_succ_apply']
        exact le_of_lt (lt_of_le_of_lt ih (lt_nextFireAfter (hstep _ ih)))
  refine ⟨fun n => (fireStep host spec)^[n] start, rfl, fun n => ?_⟩
  dsimp only
  rw [Function.iterate_succ_apply']
  exact hstep _ (hreached n)

theorem seconds_nonneg (n : Nat) : 0 ≤ seconds n := by
  unfold seconds
  lia

/-- No occurrence is lost exactly when no match lies within the jitter in front of `start`,
and none within the jitter past another. -/
theorem fires_every_match_iff (hkind : spec.kind = .cron expression)
    (hparse : parseCron host expression = .ok parsed) (hstart : spec.windowStart = none)
    (hend : spec.windowEnd = none) (hrecurs : RecursWithinYear host spec parsed start) :
    FiresEveryMatch host spec parsed start ↔
      ∀ m ∈ matchingMinutes host spec parsed, start < m + seconds spec.jitterSeconds →
        start < m ∧ ∀ m' ∈ matchingMinutes host spec parsed,
          m < m' → m + seconds spec.jitterSeconds < m' := by
  have hdelay := seconds_nonneg spec.jitterSeconds
  constructor
  · rintro ⟨fire, hfire, -, hrange⟩
    have hserves := hfire.servesInTurn hkind hparse hstart hend hrecurs
    have hspaced := hserves.range_eq_iff hdelay
    rw [hfire.1] at hspaced
    exact hspaced.mp hrange
  · intro hspaced
    obtain ⟨fire, hfire⟩ := exists_isFireSequence hkind hparse hstart hend hrecurs
    have hserves := hfire.servesInTurn hkind hparse hstart hend hrecurs
    have hrange := hserves.range_eq_iff hdelay
    rw [hfire.1] at hrange
    exact ⟨fire, hfire, hserves.strictMono hdelay, hrange.mpr hspaced⟩

/-! ## Every minute, in UTC -/

/-- The month and the day of a date of the Gregorian calendar, counted in days from
2026-01-01. -/
def monthDay (days : Int) : Int × Int :=
  -- Years are counted from March on, so that a leap day is the last of its year.
  let dayOfEra := (days + 739922) % 146097
  let dayOfCentury := dayOfEra - 36524 * min (dayOfEra / 36524) 3
  let dayOfCycle := dayOfCentury % 1461
  let dayOfYear := dayOfCycle - 365 * min (dayOfCycle / 365) 3
  let month := (5 * dayOfYear + 2) / 153
  (if month < 10 then month + 3 else month - 9, dayOfYear - (153 * month + 2) / 5 + 1)

example : monthDay 0 = (1, 1) ∧ monthDay 58 = (2, 28) ∧ monthDay 59 = (3, 1) ∧
    monthDay 789 = (2, 29) ∧ monthDay (-1) = (12, 31) := by decide

/-- Local time of any zone at UTC. -/
def utcLocalTime (_timezone : String) (t : Instant) : LocalTime where
  minute := t / seconds 60 % 60
  hour := t / seconds 3600 % 24
  day := (monthDay (t / seconds 86400)).2
  month := (monthDay (t / seconds 86400)).1
  weekday := (t / seconds 86400 + 4) % 7

def utcScheduleHost : ScheduleHost := { sampleScheduleHost with localTime := utcLocalTime }

theorem monthDay_bounds (days : Int) : 1 ≤ (monthDay days).1 ∧ (monthDay days).1 ≤ 12 ∧
    1 ≤ (monthDay days).2 ∧ (monthDay days).2 ≤ 31 := by
  have hbounds : ∀ d : Int, 0 ≤ d → d ≤ 365 →
      0 ≤ (5 * d + 2) / 153 ∧ (5 * d + 2) / 153 ≤ 11 ∧
        1 ≤ d - (153 * ((5 * d + 2) / 153) + 2) / 5 + 1 ∧
        d - (153 * ((5 * d + 2) / 153) + 2) / 5 + 1 ≤ 31 := by
    intro d hlow hhigh
    omega
  unfold monthDay
  dsimp only
  generalize hcycle : ((days + 739922) % 146097 -
    36524 * min ((days + 739922) % 146097 / 36524) 3) % 1461 = cycle
  have hyear := hbounds (cycle - 365 * min (cycle / 365) 3) (by omega) (by omega)
  generalize cycle - 365 * min (cycle / 365) 3 = d at hyear
  split <;> omega

/-- In UTC, every minute matches `* * * * *`. -/
theorem mem_everyMinute (spec : ScheduleSpec) (m : Instant) :
    m ∈ matchingMinutes utcScheduleHost spec everyMinute ↔ m % seconds 60 = 0 := by
  have hrange : ∀ (n : Nat) (x : Int), 0 ≤ x → x < n →
      x ∈ (List.range n).map fun i : Nat => (i : Int) := by
    intro n x hlow hhigh
    exact List.mem_map.mpr ⟨x.toNat, List.mem_range.mpr (by lia), by lia⟩
  have hrange' : ∀ (n : Nat) (x : Int), 1 ≤ x → x ≤ n →
      x ∈ (List.range n).map fun i : Nat => (i : Int) + 1 := by
    intro n x hlow hhigh
    exact List.mem_map.mpr ⟨(x - 1).toNat, List.mem_range.mpr (by lia), by lia⟩
  obtain ⟨hmonth, hmonth', hday, hday'⟩ := monthDay_bounds (m / seconds 86400)
  refine and_iff_left ?_
  unfold cronMatch
  simp only [Bool.and_eq_true, decide_eq_true_eq]
  refine ⟨⟨⟨⟨?_, ?_⟩, ?_⟩, ?_⟩, ?_⟩
  · exact hrange 60 (m / seconds 60 % 60) (by lia) (by lia)
  · exact hrange 24 (m / seconds 3600 % 24) (by lia) (by lia)
  · exact hrange' 31 _ hday hday'
  · exact hrange' 12 _ hmonth hmonth'
  · exact hrange 7 ((m / seconds 86400 + 4) % 7) (by lia) (by lia)

/-- A run every minute, delayed by a jitter. -/
def jitteredSpec (jitterSeconds : Nat) : ScheduleSpec where
  kind := .cron "* * * * *"
  timezone := "UTC"
  misfire := .fireOnce
  catchUpMax := 10
  overlap := .skip
  jitterSeconds := jitterSeconds
  windowStart := none
  windowEnd := none
  kindValid := by decide
  windowAware := none_windowAware
  windowOrdered := none_windowOrdered

theorem parseCron_utc : parseCron utcScheduleHost "* * * * *" = .ok everyMinute := by rfl

theorem jitteredSpec_recurs (jitterSeconds : Nat) (start : Instant) :
    RecursWithinYear utcScheduleHost (jitteredSpec jitterSeconds) everyMinute start := by
  intro t _
  refine ⟨floorMinute t + seconds 60, (mem_everyMinute _ _).mpr ?_, lt_floorMinute_add t, ?_⟩
  · unfold floorMinute seconds
    lia
  · unfold floorMinute year seconds
    lia

/-- A jitter of half a minute loses nothing to a start at half past. -/
theorem fires_every_match_half_minute :
    FiresEveryMatch utcScheduleHost (jitteredSpec 30) everyMinute (seconds 30) := by
  refine (fires_every_match_iff rfl parseCron_utc rfl rfl (jitteredSpec_recurs 30 _)).mpr ?_
  intro m hm hdue
  rw [mem_everyMinute] at hm
  refine ⟨by unfold jitteredSpec seconds at *; dsimp only at *; lia, fun m' hm' hlt => ?_⟩
  rw [mem_everyMinute] at hm'
  unfold jitteredSpec seconds at *
  dsimp only
  lia

/-- With a jitter of a minute, every other occurrence is lost. -/
theorem jitter_loses_occurrences :
    ¬ FiresEveryMatch utcScheduleHost (jitteredSpec 60) everyMinute 0 := by
  rintro ⟨fire, hfire, -, hrange⟩
  have hserves : ServesInTurn (matchingMinutes utcScheduleHost (jitteredSpec 60) everyMinute)
      (seconds 60) fire :=
    hfire.servesInTurn rfl parseCron_utc rfl rfl (jitteredSpec_recurs 60 0)
  have hspaced := (hserves.range_eq_iff (seconds_nonneg _)).mp (by rw [hfire.1]; exact hrange)
  have hgap := (hspaced (seconds 60) ((mem_everyMinute _ _).mpr (by decide))
    (by rw [hfire.1]; decide)).2 (seconds 120) ((mem_everyMinute _ _).mpr (by decide)) (by decide)
  revert hgap
  decide

end Etlantic.ControlPlane.Schedule
