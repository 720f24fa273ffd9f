import Etlantic.Base.IsoText
import Etlantic.ControlPlane.Schedule.FiringInstants

/-!
# Due schedules and the texts of their cursors

`due_schedules` compares the text of a cursor with the text that the clock
prints.  The validation of a record lets any spelling of a time with a zone
through, and the date and the time that a text shows are those of its offset.
-/

namespace Etlantic.ControlPlane.Schedule

open Durable (key)

/-- `_iso` of what the scheduler clock shows. -/
def clockText (now : IsoText.Datetime) : String := now.text "Z"

/-- The instant that a text with a zone denotes. -/
def instantOf (host : ScheduleHost) (text : String) : Option Instant :=
  match host.fromisoformat text with
  | some ⟨t, some _⟩ => some t
  | _ => none

/-- The date and the time at the beginning of a text, up to the second. -/
def shown (text : String) : List Char := text.toList.take 19

/-- The fraction and the zone. -/
def shownRest (text : String) : List Char := text.toList.drop 19

/-- What a cursor and the clock show stands in the order of their instants `t` and `n`. -/
structure ShownInOrder (cursor : String) (now : IsoText.Datetime) (t n : Instant) : Prop where
  earlier : shown cursor < shown (clockText now) → t ≤ n
  later : shown (clockText now) < shown cursor → n < t
  same : shown cursor = shown (clockText now) →
    (shownRest cursor ≤ shownRest (clockText now) ↔ t ≤ n)

/-- A stored schedule that the local timer runs, its cursor, and the instants of the cursor
and of the clock. -/
structure Timed (host : ScheduleHost) (ctx : ControlPlaneContext) (s : Stores)
    (rec : ScheduleRecord) (now : IsoText.Datetime) (cursor : String) (t n : Instant) : Prop where
  stored : ∃ k, (k, rec) ∈ s.schedules.entries ∧ k.scope = ctx.scopeKey
  active : rec.status = .active
  owned : rec.timerOwner = .local
  cursor_eq : rec.nextFireAt = some cursor
  due : instantOf host cursor = some t
  clock : instantOf host (clockText now) = some n

variable {host : ScheduleHost} {ctx : ControlPlaneContext} {s : Stores} {rec : ScheduleRecord}
  {now : IsoText.Datetime} {cursor : String} {t n : Instant}

theorem mem_dueSchedules_iff (h : Timed host ctx s rec now cursor t n) (text : String) :
    rec ∈ dueSchedules ctx text s ↔ cursor ≤ text := by
  obtain ⟨k, hstored, hscope⟩ := h.stored
  unfold dueSchedules
  rw [List.mem_filterMap]
  constructor
  · rintro ⟨e, -, hfound⟩
    split at hfound
    · rename_i hdue
      obtain rfl := Option.some.inj hfound
      have hbefore := hdue.2.2.2
      rw [h.cursor_eq] at hbefore
      simpa using hbefore
    · cases hfound
  · intro hle
    refine ⟨(k, rec), hstored, ?_⟩
    rw [if_pos]
    refine ⟨hscope, h.active, h.owned, ?_⟩
    dsimp only
    rw [h.cursor_eq]
    simpa using hle

/-- Texts are compared first by what they show up to the second. -/
theorem text_le_iff (cursor text : String) (hlong : 19 ≤ text.toList.length) :
    cursor ≤ text ↔ shown cursor < shown text ∨
      (shown cursor = shown text ∧ shownRest cursor ≤ shownRest text) := by
  have hparts : text.toList = text.toList.take 19 ++ text.toList.drop 19 :=
    (List.take_append_drop 19 text.toList).symm
  have hlen : (text.toList.take 19).length = 19 := by
    rw [List.length_take]
    omega
  unfold shown shownRest
  rw [String.le_iff_toList_le]
  nth_rewrite 1 [hparts]
  rw [IsoText.le_append_iff, hlen]

theorem length_clockText (now : IsoText.Datetime) : 19 ≤ (clockText now).toList.length := by
  unfold clockText IsoText.Datetime.text IsoText.Stamp.chars
  rw [String.toList_ofList, List.length_append, IsoText.Stamp.length_head]
  omega

section Sample

/-- The sample schedule with a cursor. -/
def dueRecord (cursor : String) : ScheduleRecord :=
  sampleRecord (sampleSpec .fireOnce .queue) cursor

def dueStores (cursor : String) : Stores :=
  { Stores.init (.init none) with
    schedules := Dict.empty.set (key Durable.sampleContext "nightly") (dueRecord cursor) }

/-- 2026-01-01T00:02:00 in UTC. -/
def secondMinute : IsoText.Datetime := ⟨⟨2026, 1, 1, 0, 2, 0, 0⟩, by decide⟩

theorem dueStores_timed {cursor : String} {t : Instant}
    (hdue : instantOf sampleAheadHost cursor = some t) :
    Timed sampleAheadHost Durable.sampleContext (dueStores cursor) (dueRecord cursor) secondMinute
      cursor t (seconds 120) where
  stored := ⟨key Durable.sampleContext "nightly", List.mem_singleton_self _, rfl⟩
  active := rfl
  owned := rfl
  cursor_eq := rfl
  due := hdue
  clock := by decide +kernel

end Sample

end Etlantic.ControlPlane.Schedule
