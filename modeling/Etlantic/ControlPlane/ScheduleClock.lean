import Etlantic.ControlPlane.Schedule.Store

/-!
# Next-fire evaluation

`next_fire_after` and `catch_up_nominals`, with the cron parser below them.  They
take instants, since they read what they are given in UTC, and return times: an
occurrence that is counted from the opening of the window has the offset of
`window_start`.  A cron expression is matched against the local time of the
schedule's zone.
-/

namespace Etlantic.ControlPlane.Schedule

/-! ## Cron expressions -/

/-- `range(start, stop, step)`. -/
def pyRange (start stop step : Int) : Except PyError (List Int) :=
  if step = 0 then .error (.valueError "range() arg 3 must not be zero")
  else
    let count := if 0 < step then (stop - start + step - 1) / step
      else (start - stop - step - 1) / -step
    .ok ((List.range count.toNat).map fun i : Nat => start + (i : Int) * step)

/-- `int(text)`. -/
def parseInt (host : ScheduleHost) (text : String) : Except PyError Int :=
  match host.int text with
  | none => .error (.valueError ("invalid literal for int() with base 10: " ++ host.repr text))
  | some value => .ok value

/-- The values one part of a field adds, after its step has been taken off. -/
def cronRange (host : ScheduleHost) (part : String) (step minimum maximum : Int) :
    Except PyError (List Int) :=
  if part = "*" then pyRange minimum (maximum + 1) step
  else
    match splitOnce '-' part with
    | some (startText, endText) => do
        let start ← parseInt host startText
        let stop ← parseInt host endText
        pyRange start (stop + 1) step
    | none => return [← parseInt host part]

/-- The values one comma-separated part of a field adds. -/
def cronPart (host : ScheduleHost) (part : String) (minimum maximum : Int) :
    Except PyError (List Int) :=
  match splitOnce '/' part with
  | some (base, stepText) => do
      let step ← parseInt host stepText
      cronRange host (if base = "" then "*" else base) step minimum maximum
  | none => cronRange host part 1 minimum maximum

/-- The values of all parts of a field; blank parts are passed over. -/
def cronParts (host : ScheduleHost) (minimum maximum : Int) :
    List String → Except PyError (List Int)
  | [] => .ok []
  | part :: rest =>
      if strip part = "" then cronParts host minimum maximum rest
      else do
        let values ← cronPart host (strip part) minimum maximum
        return values ++ (← cronParts host minimum maximum rest)

/-- `_parse_cron_field`. -/
def parseCronField (host : ScheduleHost) (field : String) (minimum maximum : Int) :
    Except PyError (List Int) :=
  if strip field = "*" then pyRange minimum (maximum + 1) 1
  else
    match cronParts host minimum maximum (splitAll ',' (strip field)) with
    | .error error => .error error
    | .ok values =>
        if values = [] then
          .error (.valueError ("empty cron field " ++ host.repr field))
        else if values.any (fun v => v < minimum ∨ maximum < v) then
          .error (.valueError ("cron field " ++ host.repr field ++ " outside " ++
            toString minimum ++ "-" ++ toString maximum))
        else .ok values

structure CronFields where
  minute : List Int
  hour : List Int
  day : List Int
  month : List Int
  weekday : List Int

/-- `parse_cron`. -/
def parseCron (host : ScheduleHost) (expr : String) : Except PyError CronFields :=
  match words expr with
  | [minute, hour, day, month, weekday] => do
      return {
        minute := ← parseCronField host minute 0 59
        hour := ← parseCronField host hour 0 23
        day := ← parseCronField host day 1 31
        month := ← parseCronField host month 1 12
        weekday := ← parseCronField host weekday 0 6 }
  | _ => .error (.valueError
      "PMFIRE120: cron expressions must have 5 fields (minute hour day month weekday)")

/-- `_cron_match`. -/
def cronMatch (parsed : CronFields) (localTime : LocalTime) : Bool :=
  localTime.minute ∈ parsed.minute && localTime.hour ∈ parsed.hour &&
    localTime.day ∈ parsed.day && localTime.month ∈ parsed.month &&
    localTime.weekday ∈ parsed.weekday

/-! ## The next occurrence -/

/-- `cursor.replace(second=0, microsecond=0)`. -/
def floorMinute (t : Instant) : Instant := t - t % seconds 60

/-- The time the search for an occurrence starts from: `after`, or the second
before the window opens. None when the window is over. -/
def searchCursor (spec : ScheduleSpec) (after : Instant) : Option Datetime :=
  if inWindow spec (after + seconds 1) then some (utc after)
  else if spec.windowEnd.any (fun stop => stop ≤ after) then none
  else
    match spec.windowStart with
    | none => some (utc after)
    | some start => some
        (if after < start.instant then ⟨start.instant - seconds 1, start.offset⟩ else utc after)

/-- The occurrence an interval schedule tries. -/
def intervalCandidate (spec : ScheduleSpec) (intervalSeconds : Nat) (cursor base : Datetime) :
    Datetime :=
  let first := if base.instant + seconds intervalSeconds ≤ cursor.instant then cursor else base
  ⟨first.instant + seconds intervalSeconds + seconds spec.jitterSeconds, first.offset⟩

/-- The walk over UTC minutes, with the minutes it may still look at. -/
def cronWalk (host : ScheduleHost) (spec : ScheduleSpec) (parsed : CronFields) :
    Nat → Instant → Option Instant
  | 0, _ => none
  | left + 1, probe =>
      if cronMatch parsed (host.localTime spec.timezone probe) = true ∧
          inWindow spec (probe + seconds spec.jitterSeconds) = true then
        some (probe + seconds spec.jitterSeconds)
      else cronWalk host spec parsed left (probe + seconds 60)

/-- `next_fire_after`. -/
def nextFireAfter (host : ScheduleHost) (spec : ScheduleSpec) (after : Instant)
    (lastNominal : Option Instant) : Except PyError (Option Datetime) :=
  match searchCursor spec after with
  | none => .ok none
  | some cursor =>
      match spec.kind with
      | .interval intervalSeconds =>
          let candidate := intervalCandidate spec intervalSeconds cursor
            ((lastNominal.map utc).getD cursor)
          .ok (if inWindow spec candidate.instant then some candidate else none)
      | .cron expression =>
          match parseCron host expression with
          | .error error => .error error
          | .ok parsed =>
              match cronWalk host spec parsed (366 * 24 * 60)
                  (floorMinute cursor.instant + seconds 60) with
              | none => .error (.valueError "could not find a next fire time within one year")
              | some t => .ok (some (utc t))

/-- The loop of `catch_up_nominals`, with the occurrences it may still find. -/
def catchUpLoop (host : ScheduleHost) (spec : ScheduleSpec) (now : Instant) :
    Nat → Instant → Except PyError (List Datetime)
  | 0, _ => .ok []
  | left + 1, cursor =>
      match nextFireAfter host spec cursor (some cursor) with
      | .error error => .error error
      | .ok none => .ok []
      | .ok (some t) =>
          if now < t.instant then .ok []
          else
            match catchUpLoop host spec now left t.instant with
            | .error error => .error error
            | .ok found => .ok (t :: found)

/-- `catch_up_nominals`. -/
def catchUpNominals (host : ScheduleHost) (spec : ScheduleSpec) (lastNominal now : Instant) :
    Except PyError (List Datetime) :=
  if spec.misfire = .catchUp then catchUpLoop host spec now spec.catchUpMax lastNominal
  else
    match nextFireAfter host spec lastNominal (some lastNominal) with
    | .error error => .error error
    | .ok (some t) => .ok (if t.instant ≤ now then [t] else [])
    | .ok none => .ok []

/-! ## Occurrences lie ahead -/

variable {host : ScheduleHost} {spec : ScheduleSpec} {after : Instant} {cursor t t' : Datetime}
  {last : Option Instant}

theorem inWindow_eq_true_iff {t : Instant} : inWindow spec t = true ↔
    (∀ start ∈ spec.windowStart, start.instant ≤ t) ∧ ∀ stop ∈ spec.windowEnd, t < stop := by
  simp [inWindow, Option.all_eq_true]

/-- Where a search can start: at `after`, or in front of the window. -/
theorem searchCursor_cases (h : searchCursor spec after = some cursor) :
    cursor = utc after ∨ ∃ start, spec.windowStart = some start ∧ after < start.instant ∧
      cursor = ⟨start.instant - seconds 1, start.offset⟩ := by
  unfold searchCursor at h
  split at h
  · exact Or.inl (Option.some.inj h).symm
  · split at h
    · cases h
    · split at h
      · exact Or.inl (Option.some.inj h).symm
      · rename_i start hopens
        by_cases hbefore : after < start.instant
        · rw [if_pos hbefore] at h
          exact Or.inr ⟨start, hopens, hbefore, (Option.some.inj h).symm⟩
        · rw [if_neg hbefore] at h
          exact Or.inl (Option.some.inj h).symm

theorem searchCursor_of_inWindow (h : inWindow spec after = true) :
    searchCursor spec after = some (utc after) := by
  rw [inWindow_eq_true_iff] at h
  obtain ⟨hstart, hstop⟩ := h
  unfold searchCursor
  split
  · rfl
  · split
    · rename_i hover
      obtain ⟨stop, hmem, hle⟩ : ∃ stop ∈ spec.windowEnd, stop ≤ after := by
        simpa [Option.any_eq_true] using hover
      exact absurd (hstop stop hmem) (by lia)
    · split
      · rfl
      · rename_i start hopens
        have := hstart start hopens
        rw [if_neg (by lia)]

/-- An occurrence in the window that lies past the search cursor lies past `after`. -/
theorem lt_of_searchCursor_lt {t : Instant} (h : searchCursor spec after = some cursor)
    (hlt : cursor.instant < t) (hwindow : inWindow spec t = true) : after < t := by
  rcases searchCursor_cases h with rfl | ⟨start, hopens, hbefore, rfl⟩
  · exact hlt
  · have hstart := (inWindow_eq_true_iff.mp hwindow).1 start hopens
    exact lt_of_lt_of_le hbefore hstart

theorem isAware_searchCursor (h : searchCursor spec after = some cursor) : cursor.IsAware := by
  rcases searchCursor_cases h with rfl | ⟨start, hopens, -, rfl⟩
  · exact isAware_utc after
  · exact spec.windowAware start hopens

variable (spec) in
theorem cursor_lt_intervalCandidate (intervalSeconds : Nat) (cursor base : Datetime)
    (hvalid : 0 < intervalSeconds) :
    cursor.instant < (intervalCandidate spec intervalSeconds cursor base).instant ∧
      base.instant + seconds intervalSeconds ≤
        (intervalCandidate spec intervalSeconds cursor base).instant := by
  unfold intervalCandidate seconds
  dsimp only
  split <;> constructor <;> lia

theorem lt_floorMinute_add (t : Instant) : t < floorMinute t + seconds 60 := by
  have : t % seconds 60 < seconds 60 := Int.emod_lt_of_pos t (by decide)
  unfold floorMinute
  lia

theorem floorMinute_emod (t : Instant) : floorMinute t % seconds 60 = 0 := by
  unfold floorMinute seconds
  lia

/-- What the walk finds: a minute at or past its start, delayed by the jitter. -/
theorem cronWalk_eq_some {parsed : CronFields} {left : Nat} {probe t : Instant}
    (h : cronWalk host spec parsed left probe = some t) :
    inWindow spec t = true ∧ ∃ n : Nat, t = probe + seconds (60 * n) +
      seconds spec.jitterSeconds := by
  induction left generalizing probe with
  | zero => cases h
  | succ left ih =>
      unfold cronWalk at h
      split at h
      · rename_i hmatch
        obtain rfl := Option.some.inj h
        exact ⟨hmatch.2, 0, by simp [seconds]⟩
      · obtain ⟨hwindow, n, hn⟩ := ih h
        refine ⟨hwindow, n + 1, ?_⟩
        rw [hn]
        unfold seconds
        push_cast
        ring

/-- What a found occurrence is, by the kind of the schedule. -/
theorem nextFireAfter_eq_some (h : nextFireAfter host spec after last = .ok (some t)) :
    inWindow spec t.instant = true ∧ ∃ cursor, searchCursor spec after = some cursor ∧
      ((∃ n, spec.kind = .interval n ∧
          t = intervalCandidate spec n cursor ((last.map utc).getD cursor)) ∨
        ∃ expression, spec.kind = .cron expression ∧ ∃ n : Nat,
          t = utc (floorMinute cursor.instant + seconds (60 * (n + 1)) +
            seconds spec.jitterSeconds)) := by
  unfold nextFireAfter at h
  split at h
  · cases h
  · rename_i cursor hcursor
    split at h
    · rename_i n hkind
      have hfound := Except.ok.inj h
      split at hfound
      · rename_i hwindow
        obtain rfl := Option.some.inj hfound
        exact ⟨hwindow, cursor, hcursor, .inl ⟨n, hkind, rfl⟩⟩
      · cases hfound
    · rename_i expression hkind
      split at h
      · cases h
      · split at h
        · cases h
        · rename_i found hwalk
          obtain rfl := Option.some.inj (Except.ok.inj h)
          obtain ⟨hwindow, n, hn⟩ := cronWalk_eq_some hwalk
          refine ⟨hwindow, cursor, hcursor, .inr ⟨expression, hkind, n, ?_⟩⟩
          rw [hn]
          unfold seconds
          congr 1
          ring

theorem nextFireAfter_inWindow (h : nextFireAfter host spec after last = .ok (some t)) :
    inWindow spec t.instant = true :=
  (nextFireAfter_eq_some h).1

/-- The next occurrence lies strictly after the instant asked about. -/
theorem lt_nextFireAfter (h : nextFireAfter host spec after last = .ok (some t)) :
    after < t.instant := by
  obtain ⟨hwindow, cursor, hcursor, ⟨n, hkind, rfl⟩ | ⟨_, _, n, rfl⟩⟩ := nextFireAfter_eq_some h
  · have hvalid : 0 < n := by
      have := spec.kindValid
      rw [hkind] at this
      simpa [ScheduleKind.valid] using this
    exact lt_of_searchCursor_lt hcursor
      (cursor_lt_intervalCandidate spec n cursor _ hvalid).1 hwindow
  · refine lt_of_searchCursor_lt hcursor ?_ hwindow
    have := lt_floorMinute_add cursor.instant
    unfold utc seconds at *
    dsimp only
    lia

/-- The next occurrence is in UTC or has the offset of the window. -/
theorem isAware_nextFireAfter (h : nextFireAfter host spec after last = .ok (some t)) :
    t.IsAware := by
  obtain ⟨-, cursor, hcursor, ⟨n, -, rfl⟩ | ⟨_, _, n, rfl⟩⟩ := nextFireAfter_eq_some h
  · have haware := isAware_searchCursor hcursor
    have hbase : ((last.map utc).getD cursor).IsAware := by
      cases last with
      | none => exact haware
      | some base => exact isAware_utc base
    unfold intervalCandidate
    dsimp only
    split
    · exact haware
    · exact hbase
  · exact isAware_utc _

end Etlantic.ControlPlane.Schedule
