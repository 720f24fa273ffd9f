import Mathlib.Order.Basic
import Mathlib.Tactic.IntervalCases
import Mathlib.Data.String.Basic

/-!
# Instants and their ISO 8601 texts

A calendar instant in UTC by its fields, ordered field by field, and the text
`YYYY-MM-DDTHH:MM:SS` with a fraction of six digits where the microseconds are
not zero.  The order of the texts with a `Z` is the order of the instants except
within one second, where `.` stands before `Z`: there it is so only between texts
that both have a fraction or both have none.
-/

namespace Etlantic.IsoText

/-! ## Numbers of a fixed width -/

def digit (n : Nat) : Char := Char.ofNat (48 + n % 10)

/-- `f"{n:0{w}d}"` for a number of at most `w` digits. -/
def pad : Nat → Nat → List Char
  | 0, _ => []
  | w + 1, n => pad w (n / 10) ++ [digit n]

theorem digit_lt_digit {m n : Nat} (hm : m < 10) (hn : n < 10) : digit m < digit n ↔ m < n := by
  interval_cases m <;> interval_cases n <;> decide

theorem digit_inj {m n : Nat} (hm : m < 10) (hn : n < 10) : digit m = digit n ↔ m = n := by
  interval_cases m <;> interval_cases n <;> decide

theorem digit_mod (n : Nat) : digit (n % 10) = digit n := by
  unfold digit
  rw [Nat.mod_mod]

@[simp] theorem length_pad : ∀ w n : Nat, (pad w n).length = w
  | 0, _ => rfl
  | w + 1, n => by rw [pad, List.length_append, length_pad w, List.length_singleton]

/-! ## The order of texts -/

/-- Texts that go on after parts of one length are compared part by part. -/
theorem append_lt_append_iff : ∀ {a b x y : List Char}, a.length = b.length →
    (a ++ x < b ++ y ↔ a < b ∨ (a = b ∧ x < y))
  | [], [], x, y, _ => by simp
  | c :: a, d :: b, x, y, h => by
      have hlen : a.length = b.length := by simpa using h
      rw [List.cons_append, List.cons_append, List.cons_lt_cons_iff, List.cons_lt_cons_iff,
        append_lt_append_iff hlen, List.cons_eq_cons]
      tauto

theorem append_lt_iff : ∀ {a b text : List Char},
    a ++ b < text ↔ a < text.take a.length ∨ (text.take a.length = a ∧ b < text.drop a.length)
  | [], b, text => by simp
  | c :: a, b, [] => by simp
  | c :: a, b, d :: text => by
      rw [List.cons_append, List.length_cons, List.take_succ_cons, List.drop_succ_cons,
        List.cons_lt_cons_iff, List.cons_lt_cons_iff, List.cons_eq_cons, append_lt_iff]
      tauto

/-- Any text is compared with two parts one after the other. -/
theorem le_append_iff {a b text : List Char} : text ≤ a ++ b ↔ text.take a.length < a ∨
    (text.take a.length = a ∧ text.drop a.length ≤ b) := by
  rw [← not_lt, append_lt_iff, ← not_lt (a := b)]
  rcases lt_trichotomy (text.take a.length) a with hlt | heq | hgt
  · simp [hlt, not_lt_of_gt hlt, ne_of_lt hlt]
  · simp [heq]
  · simp [hgt, not_lt_of_gt hgt, ne_of_gt hgt]

theorem pad_eq_pad {w m n : Nat} (hm : m < 10 ^ w) (hn : n < 10 ^ w) :
    pad w m = pad w n ↔ m = n := by
  induction w generalizing m n with
  | zero =>
      rw [Nat.pow_zero, Nat.lt_one_iff] at hm hn
      simp [hm, hn]
  | succ w ih =>
      have hm' : m / 10 < 10 ^ w := by rw [Nat.pow_succ] at hm; omega
      have hn' : n / 10 < 10 ^ w := by rw [Nat.pow_succ] at hn; omega
      have hlast : [digit m] = [digit n] ↔ m % 10 = n % 10 := by
        rw [← digit_mod m, ← digit_mod n, List.singleton_inj,
          digit_inj (Nat.mod_lt _ (by decide)) (Nat.mod_lt _ (by decide))]
      unfold pad
      constructor
      · intro h
        obtain ⟨hinit, hend⟩ := List.append_inj' h rfl
        have hdiv := (ih hm' hn').mp hinit
        have hmod := hlast.mp hend
        omega
      · rintro rfl
        rfl

theorem pad_lt_pad {w m n : Nat} (hm : m < 10 ^ w) (hn : n < 10 ^ w) :
    pad w m < pad w n ↔ m < n := by
  induction w generalizing m n with
  | zero =>
      rw [Nat.pow_zero, Nat.lt_one_iff] at hm hn
      simp [hm, hn, pad]
  | succ w ih =>
      have hm' : m / 10 < 10 ^ w := by rw [Nat.pow_succ] at hm; omega
      have hn' : n / 10 < 10 ^ w := by rw [Nat.pow_succ] at hn; omega
      have hlast : [digit m] < [digit n] ↔ m % 10 < n % 10 := by
        rw [← digit_mod m, ← digit_mod n, List.cons_lt_cons_iff,
          digit_lt_digit (Nat.mod_lt _ (by decide)) (Nat.mod_lt _ (by decide))]
        simp
      unfold pad
      rw [append_lt_append_iff (by simp), ih hm' hn', pad_eq_pad hm' hn', hlast]
      omega

/-! ## Instants -/

/-- The fields of a date and a time. -/
structure Stamp where
  year : Nat
  month : Nat
  day : Nat
  hour : Nat
  minute : Nat
  second : Nat
  microsecond : Nat
deriving DecidableEq

namespace Stamp

def isLeap (year : Nat) : Bool := year % 4 = 0 && (year % 100 ≠ 0 || year % 400 = 0)

def daysInMonth (year month : Nat) : Nat :=
  if month = 2 then (if isLeap year then 29 else 28)
  else if month = 4 ∨ month = 6 ∨ month = 9 ∨ month = 11 then 30 else 31

/-- The fields name an instant of the years 1 to 9999. -/
def Valid (s : Stamp) : Prop :=
  (1 ≤ s.year ∧ s.year ≤ 9999) ∧ (1 ≤ s.month ∧ s.month ≤ 12) ∧
    (1 ≤ s.day ∧ s.day ≤ daysInMonth s.year s.month) ∧ s.hour < 24 ∧ s.minute < 60 ∧
    s.second < 60 ∧ s.microsecond < 10 ^ 6

instance (s : Stamp) : Decidable s.Valid :=
  inferInstanceAs (Decidable ((_ ∧ _) ∧ (_ ∧ _) ∧ (_ ∧ _) ∧ _ ∧ _ ∧ _ ∧ _))

/-- A number that orders the fields up to the second. -/
def seconds (s : Stamp) : Nat :=
  100 * (100 * (100 * (100 * (100 * s.year + s.month) + s.day) + s.hour) + s.minute) + s.second

/-- A number that orders the fields. -/
def rank (s : Stamp) : Nat := 10 ^ 6 * s.seconds + s.microsecond

theorem daysInMonth_le (year month : Nat) : daysInMonth year month ≤ 31 := by
  unfold daysInMonth
  split
  · split <;> omega
  · split <;> omega

theorem Valid.bounds {s : Stamp} (h : s.Valid) : s.year < 10 ^ 4 ∧ s.month < 10 ^ 2 ∧
    s.day < 10 ^ 2 ∧ s.hour < 10 ^ 2 ∧ s.minute < 10 ^ 2 ∧ s.second < 10 ^ 2 ∧
    s.microsecond < 10 ^ 6 := by
  obtain ⟨hyear, hmonth, hday, hhour, hminute, hsecond, hmicro⟩ := h
  have := daysInMonth_le s.year s.month
  omega

theorem rank_inj {a b : Stamp} (ha : a.Valid) (hb : b.Valid) (h : a.rank = b.rank) : a = b := by
  obtain ⟨hy, hm, hd, hh, hmi, hs, hus⟩ := ha.bounds
  obtain ⟨hy', hm', hd', hh', hmi', hs', hus'⟩ := hb.bounds
  unfold rank seconds at h
  cases a
  cases b
  simp only [mk.injEq]
  dsimp only at h hy hm hd hh hmi hs hus hy' hm' hd' hh' hmi' hs' hus'
  omega

/-! ### Text -/

/-- `YYYY-MM-DDTHH:MM:SS`. -/
def head (s : Stamp) : List Char :=
  pad 4 s.year ++ ('-' :: (pad 2 s.month ++ ('-' :: (pad 2 s.day ++ ('T' :: (pad 2 s.hour ++
    (':' :: (pad 2 s.minute ++ (':' :: pad 2 s.second)))))))))

def fraction (s : Stamp) : List Char :=
  if s.microsecond = 0 then [] else '.' :: pad 6 s.microsecond

/-- `isoformat()` with the zone at its end. -/
def chars (s : Stamp) (zone : List Char) : List Char := s.head ++ (s.fraction ++ zone)

theorem length_head (s : Stamp) : s.head.length = 19 := by simp [head]

/-- The texts up to the second are in the order of the instants. -/
theorem head_lt_head {a b : Stamp} (ha : a.Valid) (hb : b.Valid) :
    a.head < b.head ↔ a.seconds < b.seconds := by
  obtain ⟨hy, hm, hd, hh, hmi, hs, -⟩ := ha.bounds
  obtain ⟨hy', hm', hd', hh', hmi', hs', -⟩ := hb.bounds
  have hsep : ∀ (c : Char) (x y : List Char), c :: x < c :: y ↔ x < y := by
    intro c x y
    rw [List.cons_lt_cons_iff]
    simp
  unfold head seconds
  rw [append_lt_append_iff (by simp), hsep, append_lt_append_iff (by simp), hsep,
    append_lt_append_iff (by simp), hsep, append_lt_append_iff (by simp), hsep,
    append_lt_append_iff (by simp), hsep, pad_lt_pad hy hy', pad_lt_pad hm hm',
    pad_lt_pad hd hd', pad_lt_pad hh hh', pad_lt_pad hmi hmi', pad_lt_pad hs hs',
    pad_eq_pad hy hy', pad_eq_pad hm hm', pad_eq_pad hd hd', pad_eq_pad hh hh',
    pad_eq_pad hmi hmi']
  omega

theorem head_eq_head {a b : Stamp} (ha : a.Valid) (hb : b.Valid) :
    a.head = b.head ↔ a.seconds = b.seconds := by
  have hlt := head_lt_head ha hb
  have hgt := head_lt_head hb ha
  constructor
  · intro h
    rw [h] at hlt hgt
    have hle : ¬ a.seconds < b.seconds := fun hless => lt_irrefl _ (hlt.mpr hless)
    have hge : ¬ b.seconds < a.seconds := fun hless => lt_irrefl _ (hgt.mpr hless)
    omega
  · intro h
    have hnotlt : ¬ a.head < b.head := by rw [hlt]; omega
    have hnotgt : ¬ b.head < a.head := by rw [hgt]; omega
    exact le_antisymm (not_lt.mp hnotgt) (not_lt.mp hnotlt)

theorem fraction_of_zero {s : Stamp} (h : s.microsecond = 0) : s.fraction = [] := if_pos h

theorem fraction_of_pos {s : Stamp} (h : s.microsecond ≠ 0) :
    s.fraction = '.' :: pad 6 s.microsecond := if_neg h

/-- Where both texts of one second have a fraction or both have none, the texts are in the order
of the instants. -/
theorem chars_lt_chars {a b : Stamp} (ha : a.Valid) (hb : b.Valid) {zone : List Char}
    (h : a.seconds = b.seconds → (a.microsecond = 0 ↔ b.microsecond = 0)) :
    a.chars zone < b.chars zone ↔ a.rank < b.rank := by
  have hmicro : a.microsecond < 10 ^ 6 := ha.bounds.2.2.2.2.2.2
  have hmicro' : b.microsecond < 10 ^ 6 := hb.bounds.2.2.2.2.2.2
  unfold chars
  rw [append_lt_append_iff (by rw [length_head, length_head]), head_lt_head ha hb,
    head_eq_head ha hb]
  have htail : a.seconds = b.seconds →
      (a.fraction ++ zone < b.fraction ++ zone ↔ a.microsecond < b.microsecond) := by
    intro hsame
    by_cases hzero : a.microsecond = 0
    · have hzero' := (h hsame).mp hzero
      rw [fraction_of_zero hzero, fraction_of_zero hzero', hzero, hzero']
      simp
    · have hzero' : b.microsecond ≠ 0 := fun heq => hzero ((h hsame).mpr heq)
      rw [fraction_of_pos hzero, fraction_of_pos hzero', List.cons_append, List.cons_append,
        List.cons_lt_cons_iff, append_lt_append_iff (by simp), pad_lt_pad hmicro hmicro']
      simp
  unfold rank
  constructor
  · rintro (hless | ⟨hsame, hless⟩)
    · omega
    · have := (htail hsame).mp hless
      omega
  · intro hless
    rcases Nat.lt_trichotomy a.seconds b.seconds with hsec | hsec | hsec
    · exact .inl hsec
    · exact .inr ⟨hsec, (htail hsec).mpr (by omega)⟩
    · omega

/-! ### Duration -/

def daysBeforeYear (year : Nat) : Nat :=
  (year - 1) * 365 + (year - 1) / 4 - (year - 1) / 100 + (year - 1) / 400

def daysBeforeMonth (year : Nat) : Nat → Nat
  | 0 => 0
  | 1 => 0
  | month + 1 => daysBeforeMonth year month + daysInMonth year month

/-- Microseconds since the first instant of the year 1. -/
def micros (s : Stamp) : Int :=
  ((((daysBeforeYear s.year + daysBeforeMonth s.year s.month + s.day - 1 : Nat) : Int) * 24 +
    s.hour) * 60 + s.minute) * 60 * 1000000 + s.second * 1000000 + s.microsecond

end Stamp

/-- An instant of the years 1 to 9999. -/
structure Datetime where
  stamp : Stamp
  valid : stamp.Valid
deriving DecidableEq

namespace Datetime

theorem rank_injective : Function.Injective fun t : Datetime => t.stamp.rank := by
  rintro ⟨a, ha⟩ ⟨b, hb⟩ h
  obtain rfl := Stamp.rank_inj ha hb h
  rfl

instance : LinearOrder Datetime := LinearOrder.lift' _ rank_injective

theorem lt_iff_rank {a b : Datetime} : a < b ↔ a.stamp.rank < b.stamp.rank := Iff.rfl

/-- `isoformat()` of an instant in UTC, with a zone at its end. -/
def text (t : Datetime) (zone : String) : String := String.ofList (t.stamp.chars zone.toList)

theorem text_lt_text {a b : Datetime} {zone : String} (h : a.stamp.seconds = b.stamp.seconds →
    (a.stamp.microsecond = 0 ↔ b.stamp.microsecond = 0)) : a.text zone < b.text zone ↔ a < b := by
  rw [String.lt_iff_toList_lt, text, text, String.toList_ofList, String.toList_ofList,
    Stamp.chars_lt_chars a.valid b.valid h, lt_iff_rank]

end Datetime

end Etlantic.IsoText
