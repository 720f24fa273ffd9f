import Etlantic.Base.Json
import Mathlib.Data.List.TakeWhile

/-!
# Reading JSON text back

`encode` is `json.dumps` without key sorting, in the layout of its `indent` and
`separators`; `loads` is `json.loads`.  A document is read back from its text, whatever the
layout and the escaping, as long as its floats are numerals and no object has a key twice.
-/

namespace Etlantic

namespace Json

/-! ## Writing -/

/-- The white space of `json`. -/
def isWs (c : Char) : Bool := c = ' ' || c = '\n' || c = '\r' || c = '\t'

/-- The white space that `dumps` writes: by depth inside the brackets and after a comma, and
after a colon. -/
structure Layout where
  line : Nat → List Char
  gap : Nat → List Char
  colon : List Char
  line_blank : ∀ level, ∀ c ∈ line level, isWs c = true
  gap_blank : ∀ level, ∀ c ∈ gap level, isWs c = true
  colon_blank : ∀ c ∈ colon, isWs c = true

theorem line_blank_nil : ∀ _ : Nat, ∀ c ∈ ([] : List Char), isWs c = true := by simp

/-- `indent=None`. -/
def Layout.inline : Layout where
  line _ := []
  gap _ := [' ']
  colon := [' ']
  line_blank := by simp
  gap_blank := by simp [isWs]
  colon_blank := by simp [isWs]

/-- `indent=n`. -/
def Layout.indented (n : Nat) : Layout where
  line level := '\n' :: List.replicate (n * level) ' '
  gap level := '\n' :: List.replicate (n * level) ' '
  colon := [' ']
  line_blank := by simp +contextual [isWs]
  gap_blank := by simp +contextual [isWs]
  colon_blank := by simp [isWs]

section

variable (escape : Char → List Char) (layout : Layout)

mutual

/-- `json.dumps`. -/
def encode (level : Nat) : Json → List Char
  | null => "null".toList
  | bool true => "true".toList
  | bool false => "false".toList
  | int n => (toString n).toList
  | float text => text.toList
  | str s => quote escape s
  | arr [] => ['[', ']']
  | arr (item :: rest) =>
      '[' :: (layout.line (level + 1) ++ (encode (level + 1) item ++
        (encodeTail (level + 1) rest ++ (layout.line level ++ [']']))))
  | obj [] => ['{', '}']
  | obj ((key, value) :: rest) =>
      '{' :: (layout.line (level + 1) ++ (quote escape key ++ ':' :: (layout.colon ++
        (encode (level + 1) value ++
          (encodeFields (level + 1) rest ++ (layout.line level ++ ['}']))))))

def encodeTail (level : Nat) : List Json → List Char
  | [] => []
  | item :: rest => ',' :: (layout.gap level ++ (encode level item ++ encodeTail level rest))

def encodeFields (level : Nat) : List (String × Json) → List Char
  | [] => []
  | (key, value) :: rest =>
      ',' :: (layout.gap level ++ (quote escape key ++ ':' :: (layout.colon ++
        (encode level value ++ encodeFields level rest))))

end

end

/-! ## Reading -/

def skipWs (text : List Char) : List Char := text.dropWhile isWs

def hexValue (c : Char) : Option Nat :=
  if '0' ≤ c ∧ c ≤ '9' then some (c.toNat - 48)
  else if 'a' ≤ c ∧ c ≤ 'f' then some (c.toNat - 87)
  else if 'A' ≤ c ∧ c ≤ 'F' then some (c.toNat - 55)
  else none

/-- The code unit after `\u`. -/
def readHex4 : List Char → Option (Nat × List Char)
  | a :: b :: c :: d :: rest => do
      let a ← hexValue a
      let b ← hexValue b
      let c ← hexValue c
      let d ← hexValue d
      return (((a * 16 + b) * 16 + c) * 16 + d, rest)
  | _ => none

/-- The character of an escape other than `\u`. -/
def unescape (e : Char) : Option Char :=
  if e = '"' then some '"'
  else if e = '\\' then some '\\'
  else if e = '/' then some '/'
  else if e = 'n' then some '\n'
  else if e = 'r' then some '\r'
  else if e = 't' then some '\t'
  else if e = 'f' then some (Char.ofNat 12)
  else if e = 'b' then some (Char.ofNat 8)
  else none

/-- The rest of a `\u` escape.  A surrogate outside of a pair is no character. -/
def readUnicode (text : List Char) : Option (Char × List Char) := do
  let (high, text) ← readHex4 text
  if high < 0xD800 ∨ 0xDFFF < high then return (Char.ofNat high, text)
  else if 0xDBFF < high then none
  else
    match text with
    | '\\' :: 'u' :: text => do
        let (low, text) ← readHex4 text
        if 0xDC00 ≤ low ∧ low ≤ 0xDFFF then
          return (Char.ofNat (0x10000 + (high - 0xD800) * 0x400 + (low - 0xDC00)), text)
        else none
    | _ => none

/-- One character of a string, before its closing quote. -/
def readChar : List Char → Option (Char × List Char)
  | [] => none
  | c :: text =>
      if c = '"' then none
      else if c = '\\' then
        match text with
        | [] => none
        | e :: text => if e = 'u' then readUnicode text else (unescape e).map fun d => (d, text)
      else if c.toNat < 32 then none
      else some (c, text)

/-- The characters up to the closing quote. -/
def readString : Nat → List Char → Option (List Char × List Char)
  | 0, _ => none
  | fuel + 1, text =>
      match readChar text with
      | none => if text.head? = some '"' then some ([], text.tail) else none
      | some (c, text) => (readString fuel text).map fun (cs, rest) => (c :: cs, rest)

def isDigit (c : Char) : Bool := '0' ≤ c && c ≤ '9'

def isNumeralChar (c : Char) : Bool :=
  isDigit c || c = '-' || c = '+' || c = '.' || c = 'e' || c = 'E'

/-- Digits without leading zeros: those of their value. -/
def isNatNumeral (digits : List Char) : Bool :=
  digits.all isDigit && digits = Nat.toDigits 10 (Nat.ofDigitChars 10 digits 0)

/-- The value of an integer numeral. -/
def intValue (text : List Char) : Option Int :=
  match text with
  | '-' :: digits =>
      if isNatNumeral digits then some (-(Nat.ofDigitChars 10 digits 0 : Int)) else none
  | digits => if isNatNumeral digits then some (Nat.ofDigitChars 10 digits 0 : Int) else none

def isExponent : List Char → Bool
  | [] => false
  | e :: text =>
      (e = 'e' || e = 'E') &&
        (let digits := if text.head? = some '+' ∨ text.head? = some '-' then text.tail else text
         !digits.isEmpty && digits.all isDigit)

/-- The part of a numeral that makes it a float. -/
def isFraction : List Char → Bool
  | [] => false
  | c :: text =>
      if c = '.' then
        !(text.takeWhile isDigit).isEmpty &&
          ((text.dropWhile isDigit).isEmpty || isExponent (text.dropWhile isDigit))
      else isExponent (c :: text)

def isFloatNumeral (text : List Char) : Bool :=
  let whole := text.takeWhile fun c => isDigit c || c = '-'
  text.all isNumeralChar && (intValue whole).isSome && isFraction (text.drop whole.length)

def readNumber (text : List Char) : Option (Json × List Char) :=
  let numeral := text.takeWhile isNumeralChar
  match intValue numeral with
  | some n => some (.int n, text.drop numeral.length)
  | none =>
      if isFloatNumeral numeral then
        some (.float (String.ofList numeral), text.drop numeral.length)
      else none

/-- What is left of a text after a word. -/
def afterWord (word text : List Char) : Option (List Char) :=
  if word.isPrefixOf text then some (text.drop word.length) else none

/-- A key and its colon. -/
def readKey (text : List Char) : Option (String × List Char) :=
  match text with
  | [] => none
  | c :: text =>
      if c = '"' then
        match readString (text.length + 1) text with
        | some (key, text) =>
            match skipWs text with
            | [] => none
            | d :: text => if d = ':' then some (String.ofList key, skipWs text) else none
        | none => none
      else none

mutual

def readValue : Nat → List Char → Option (Json × List Char)
  | 0, _ => none
  | _ + 1, [] => none
  | fuel + 1, c :: text =>
      if c = '"' then
        (readString (text.length + 1) text).map fun (cs, rest) => (.str (String.ofList cs), rest)
      else if c = '[' then
        if (skipWs text).head? = some ']' then some (.arr [], (skipWs text).tail)
        else
          match readValue fuel (skipWs text) with
          | none => none
          | some (item, text) =>
              (readTail fuel text).map fun (items, rest) => (.arr (item :: items), rest)
      else if c = '{' then
        if (skipWs text).head? = some '}' then some (.obj [], (skipWs text).tail)
        else
          match readKey (skipWs text) with
          | none => none
          | some (key, text) =>
              match readValue fuel text with
              | none => none
              | some (value, text) =>
                  (readFields fuel text).map fun (fields, rest) =>
                    (.obj (update [] ((key, value) :: fields)), rest)
      else if c = 'n' then (afterWord "ull".toList text).map fun rest => (.null, rest)
      else if c = 't' then (afterWord "rue".toList text).map fun rest => (.bool true, rest)
      else if c = 'f' then (afterWord "alse".toList text).map fun rest => (.bool false, rest)
      else readNumber (c :: text)

/-- The items after the first, up to the closing bracket. -/
def readTail : Nat → List Char → Option (List Json × List Char)
  | 0, _ => none
  | fuel + 1, text =>
      match skipWs text with
      | [] => none
      | c :: text =>
          if c = ']' then some ([], text)
          else if c = ',' then
            match readValue fuel (skipWs text) with
            | none => none
            | some (item, text) =>
                (readTail fuel text).map fun (items, rest) => (item :: items, rest)
          else none

/-- The fields after the first, up to the closing brace. -/
def readFields : Nat → List Char → Option (List (String × Json) × List Char)
  | 0, _ => none
  | fuel + 1, text =>
      match skipWs text with
      | [] => none
      | c :: text =>
          if c = '}' then some ([], text)
          else if c = ',' then
            match readKey (skipWs text) with
            | none => none
            | some (key, text) =>
                match readValue fuel text with
                | none => none
                | some (value, text) =>
                    (readFields fuel text).map fun (fields, rest) => ((key, value) :: fields, rest)
          else none

end

/-- `json.loads`. -/
def loads (text : List Char) : Option Json :=
  match readValue (text.length + 1) (skipWs text) with
  | some (value, rest) => if (skipWs rest).isEmpty then some value else none
  | none => none

/-! ## What can be read back -/

mutual

/-- The floats are numerals, and no object has a key twice. -/
def WellFormed : Json → Prop
  | float text => isFloatNumeral text.toList = true
  | arr items => ItemsWellFormed items
  | obj fields => (fields.map Prod.fst).Nodup ∧ FieldsWellFormed fields
  | _ => True

def ItemsWellFormed : List Json → Prop
  | [] => True
  | item :: rest => WellFormed item ∧ ItemsWellFormed rest

def FieldsWellFormed : List (String × Json) → Prop
  | [] => True
  | (_, value) :: rest => WellFormed value ∧ FieldsWellFormed rest

end

/-! ### White space -/

theorem skipWs_append {blank text : List Char} (h : ∀ c ∈ blank, isWs c = true) :
    skipWs (blank ++ text) = skipWs text := by
  unfold skipWs
  rw [List.dropWhile_append_of_pos h]

theorem skipWs_cons {c : Char} {text : List Char} (h : isWs c = false) :
    skipWs (c :: text) = c :: text := by
  unfold skipWs
  rw [List.dropWhile_cons_of_neg (by simp [h])]

/-! ### Strings -/

theorem exists_fuel {n fuel : Nat} (h : n < fuel) : ∃ left, fuel = left + 1 :=
  Nat.exists_eq_succ_of_ne_zero (Nat.ne_of_gt (Nat.zero_lt_of_lt h))

/-- A character is read back from its escape. -/
def Readable (escape : Char → List Char) : Prop :=
  ∀ c rest, readChar (escape c ++ rest) = some (c, rest)

theorem readString_flatMap {escape : Char → List Char} (h : Readable escape) (rest : List Char) :
    ∀ (cs : List Char) (fuel : Nat), cs.length < fuel →
      readString fuel (cs.flatMap escape ++ '"' :: rest) = some (cs, rest) := by
  intro cs
  induction cs with
  | nil =>
      intro fuel hfuel
      obtain ⟨fuel, rfl⟩ := exists_fuel hfuel
      rfl
  | cons c cs ih =>
      intro fuel hfuel
      obtain ⟨fuel, rfl⟩ := exists_fuel hfuel
      have hrest := ih fuel (Nat.lt_of_succ_lt_succ hfuel)
      rw [List.flatMap_cons, List.append_assoc, readString, h]
      dsimp only
      rw [hrest]
      rfl

theorem hexValue_hexDigit (n : Nat) : hexValue (hexDigit n) = some (n % 16) := by
  have hall : ∀ i : Fin 16, hexValue (Nat.digitChar i) = some i.val := by decide
  exact hall ⟨n % 16, Nat.mod_lt _ (by decide)⟩

theorem readHex4_hex4 {n : Nat} (h : n < 0x10000) (rest : List Char) :
    readHex4 (hex4 n ++ rest) = some (n, rest) := by
  have hvalue : ((n / 4096 % 16 * 16 + n / 256 % 16) * 16 + n / 16 % 16) * 16 + n % 16 = n := by
    omega
  simp only [hex4, List.cons_append, List.nil_append, readHex4, hexValue_hexDigit,
    Option.bind_eq_bind, Option.bind_some, Option.pure_def, hvalue]

theorem readUnicode_unit {n : Nat} (h : n < 0xD800 ∨ 0xDFFF < n) (hn : n < 0x10000)
    (rest : List Char) : readUnicode (hex4 n ++ rest) = some (Char.ofNat n, rest) := by
  unfold readUnicode
  rw [readHex4_hex4 hn]
  simp only [Option.bind_eq_bind, Option.bind_some, if_pos h, Option.pure_def]

theorem readUnicode_pair {high low : Nat} (hhigh : 0xD800 ≤ high) (hhigh' : high ≤ 0xDBFF)
    (hlow : 0xDC00 ≤ low) (hlow' : low ≤ 0xDFFF) (rest : List Char) :
    readUnicode (hex4 high ++ '\\' :: 'u' :: (hex4 low ++ rest)) =
      some (Char.ofNat (0x10000 + (high - 0xD800) * 0x400 + (low - 0xDC00)), rest) := by
  have hpair : ¬(high < 0xD800 ∨ 0xDFFF < high) := by omega
  have hfirst : ¬0xDBFF < high := by omega
  unfold readUnicode
  rw [readHex4_hex4 (by omega)]
  simp only [Option.bind_eq_bind, Option.bind_some, if_neg hpair, if_neg hfirst,
    readHex4_hex4 (show low < 0x10000 by omega), if_pos (And.intro hlow hlow'), Option.pure_def]

theorem readUnicode_unicodeEscape (c : Char) (rest : List Char) :
    ∃ text, unicodeEscape c.toNat ++ rest = '\\' :: 'u' :: text ∧
      readUnicode text = some (c, rest) := by
  have hc := toNat_not_surrogate c
  unfold unicodeEscape
  split
  · rename_i hsmall
    refine ⟨hex4 c.toNat ++ rest, rfl, ?_⟩
    rw [readUnicode_unit (by omega) hsmall, Char.ofNat_toNat]
  · rename_i hlarge
    have hvalue : 0x10000 + (0xD800 + (c.toNat - 0x10000) / 0x400 - 0xD800) * 0x400 +
        (0xDC00 + (c.toNat - 0x10000) % 0x400 - 0xDC00) = c.toNat := by omega
    refine ⟨hex4 (0xD800 + (c.toNat - 0x10000) / 0x400) ++
      ('\\' :: 'u' :: (hex4 (0xDC00 + (c.toNat - 0x10000) % 0x400) ++ rest)), ?_, ?_⟩
    · simp only [List.cons_append, List.append_assoc]
    · rw [readUnicode_pair (by omega) (by omega) (by omega) (by omega), hvalue,
        Char.ofNat_toNat]

theorem unescape_of_shortEscape {c e : Char} (h : shortEscape c = some ['\\', e]) :
    unescape e = some c := by
  unfold shortEscape at h
  split_ifs at h with h1 h2 h3 h4 h5 h6 h7 <;>
    obtain rfl : _ = e := by simpa using h
  all_goals first
    | (subst c; rfl)
    | (rw [← Char.ofNat_toNat c, h6]; rfl)
    | (rw [← Char.ofNat_toNat c, h7]; rfl)

/-- An escape that leaves printable characters alone is read back. -/
theorem readable_of_escaped {escape : Char → List Char} (h : ∀ c, Escaped c (escape c))
    (hplain : ∀ c, escape c = [c] → 32 ≤ c.toNat) : Readable escape := by
  intro c rest
  rcases h c with ⟨e, hshort, hu, heq⟩ | ⟨hquote, hback, heq⟩ | heq
  · rw [heq]
    simp only [List.cons_append, List.nil_append, readChar]
    rw [if_neg (by decide), if_pos trivial, if_neg hu, unescape_of_shortEscape hshort]
    rfl
  · have hsize := hplain c heq
    rw [heq]
    simp only [List.cons_append, List.nil_append, readChar]
    rw [if_neg hquote, if_neg hback, if_neg (by omega)]
  · obtain ⟨text, htext, hread⟩ := readUnicode_unicodeEscape c rest
    rw [heq, htext]
    simp only [readChar]
    rw [if_neg (by decide), if_pos trivial, if_pos trivial, hread]

/-! ### Numbers -/

/-- A text that does not go on with a numeral. -/
def Fresh (rest : List Char) : Prop := ∀ c ∈ rest.head?, isNumeralChar c = false

theorem fresh_nil : Fresh [] := by
  intro c hc
  cases hc

theorem fresh_cons {c : Char} {rest : List Char} (h : isNumeralChar c = false) :
    Fresh (c :: rest) := by
  intro d hd
  obtain rfl := Option.some.inj hd
  exact h

theorem fresh_of_blank {c : Char} {rest : List Char} (h : isWs c = true) : Fresh (c :: rest) := by
  refine fresh_cons ?_
  simp only [isWs, Bool.or_eq_true, decide_eq_true_eq] at h
  rcases h with ((rfl | rfl) | rfl) | rfl <;> decide

theorem takeWhile_numeral {text rest : List Char} (h : ∀ c ∈ text, isNumeralChar c = true)
    (hrest : Fresh rest) : (text ++ rest).takeWhile isNumeralChar = text := by
  rw [List.takeWhile_append_of_pos h]
  cases rest with
  | nil => simp
  | cons c rest =>
      have hc := hrest c rfl
      rw [List.takeWhile_cons_of_neg (by simp [hc]), List.append_nil]

theorem isDigit_of_mem_toDigits {c : Char} {n : Nat} (h : c ∈ Nat.toDigits 10 n) :
    isDigit c = true := by
  have hdigit : c.isDigit = true := Nat.isDigit_of_mem_toDigits (by decide) (by decide) h
  simpa [isDigit, Char.isDigit, Char.le_def] using hdigit

theorem isNatNumeral_toDigits (n : Nat) : isNatNumeral (Nat.toDigits 10 n) = true := by
  have hdigits : (Nat.toDigits 10 n).all isDigit = true :=
    List.all_eq_true.mpr fun _ hc => isDigit_of_mem_toDigits hc
  simp only [isNatNumeral, hdigits, Nat.ofDigitChars_ten_toDigits, decide_true, Bool.and_self]

theorem intValue_toDigits (n : Nat) : intValue (Nat.toDigits 10 n) = some (n : Int) := by
  have hnumeral := isNatNumeral_toDigits n
  have hvalue := Nat.ofDigitChars_ten_toDigits (n := n)
  unfold intValue
  split
  · rename_i digits heq
    have hminus : isDigit '-' = true :=
      isDigit_of_mem_toDigits (n := n) (heq ▸ List.mem_cons_self)
    exact absurd hminus (by decide)
  · rw [if_pos hnumeral, hvalue]

theorem intValue_neg_toDigits (n : Nat) : intValue ('-' :: Nat.toDigits 10 n) = some (-(n : Int)) := by
  simp only [intValue]
  rw [if_pos (isNatNumeral_toDigits n), Nat.ofDigitChars_ten_toDigits]

theorem toString_natCast (n : Nat) : (toString (n : Int)).toList = Nat.toDigits 10 n := by
  simp [Int.repr_eq_if]

theorem toString_negSucc (n : Nat) :
    (toString (Int.negSucc n)).toList = '-' :: Nat.toDigits 10 (n + 1) := by
  simp [Int.repr_eq_if]

theorem toString_int_spec (n : Int) : intValue (toString n).toList = some n ∧
    ∀ c ∈ (toString n).toList, isNumeralChar c = true := by
  have hdigits : ∀ m : Nat, ∀ c ∈ Nat.toDigits 10 m, isNumeralChar c = true := by
    intro m c hc
    simp [isNumeralChar, isDigit_of_mem_toDigits hc]
  cases n with
  | ofNat m =>
      rw [Int.ofNat_eq_natCast, toString_natCast]
      exact ⟨intValue_toDigits m, hdigits m⟩
  | negSucc m =>
      rw [toString_negSucc]
      refine ⟨?_, ?_⟩
      · rw [intValue_neg_toDigits]
        rfl
      · intro c hc
        rcases List.mem_cons.mp hc with rfl | hc
        · decide
        · exact hdigits _ c hc

theorem readNumber_int (n : Int) {rest : List Char} (hrest : Fresh rest) :
    readNumber ((toString n).toList ++ rest) = some (.int n, rest) := by
  obtain ⟨hvalue, hchars⟩ := toString_int_spec n
  unfold readNumber
  dsimp only
  rw [takeWhile_numeral hchars hrest, hvalue]
  dsimp only
  rw [List.drop_left]

/-- A numeral is not both an integer and a float. -/
theorem intValue_of_isFloatNumeral {text : List Char} (h : isFloatNumeral text = true) :
    intValue text = none := by
  have hdigits : ∀ {digits : List Char}, isNatNumeral digits = true →
      digits.all isDigit = true := by
    intro digits hnat
    exact (Bool.and_eq_true_iff.mp hnat).1
  by_contra hsome
  have hall : text.all (fun c => isDigit c || c = '-') = true := by
    unfold intValue at hsome
    split at hsome
    · split at hsome
      · rename_i digits hnat
        have hrest : digits.all (fun c => isDigit c || c = '-') = true := by
          refine List.all_eq_true.mpr fun c hc => ?_
          simp [List.all_eq_true.mp (hdigits hnat) c hc]
        simp [hrest]
      · exact absurd rfl hsome
    · split at hsome
      · rename_i hnat
        refine List.all_eq_true.mpr fun c hc => ?_
        simp [List.all_eq_true.mp (hdigits hnat) c hc]
      · exact absurd rfl hsome
  have hwhole : text.takeWhile (fun c => isDigit c || c = '-') = text :=
    List.takeWhile_eq_self_iff.mpr fun c hc => List.all_eq_true.mp hall c hc
  unfold isFloatNumeral at h
  dsimp only at h
  rw [hwhole, List.drop_length] at h
  simp [isFraction] at h

theorem readNumber_float {text : String} (h : isFloatNumeral text.toList = true)
    {rest : List Char} (hrest : Fresh rest) :
    readNumber (text.toList ++ rest) = some (.float text, rest) := by
  have hchars : ∀ c ∈ text.toList, isNumeralChar c = true := by
    have hparts := h
    unfold isFloatNumeral at hparts
    simp only [Bool.and_eq_true] at hparts
    exact List.all_eq_true.mp hparts.1.1
  unfold readNumber
  dsimp only
  rw [takeWhile_numeral hchars hrest, intValue_of_isFloatNumeral h]
  dsimp only
  rw [if_pos h, List.drop_left, String.ofList_toList]

/-- What a numeral begins with. -/
def startsNumeral (c : Char) : Bool := isDigit c || c = '-'

theorem intValue_head {text : List Char} (h : (intValue text).isSome = true) :
    ∃ c rest, text = c :: rest := by
  cases text with
  | nil => cases h
  | cons c rest => exact ⟨c, rest, rfl⟩

theorem toString_int_head (n : Int) :
    ∃ c rest, (toString n).toList = c :: rest ∧ startsNumeral c = true := by
  cases n with
  | ofNat m =>
      rw [Int.ofNat_eq_natCast, toString_natCast]
      cases hdigits : Nat.toDigits 10 m with
      | nil => exact absurd hdigits Nat.toDigits_ne_nil
      | cons c rest =>
          have hc : isDigit c = true :=
            isDigit_of_mem_toDigits (n := m) (hdigits ▸ List.mem_cons_self)
          exact ⟨c, rest, rfl, by simp [startsNumeral, hc]⟩
  | negSucc m =>
      rw [toString_negSucc]
      exact ⟨'-', _, rfl, by decide⟩

theorem floatNumeral_head {text : List Char} (h : isFloatNumeral text = true) :
    ∃ c rest, text = c :: rest ∧ startsNumeral c = true := by
  unfold isFloatNumeral at h
  simp only [Bool.and_eq_true] at h
  obtain ⟨c, rest, hwhole⟩ := intValue_head h.1.2
  cases text with
  | nil => cases hwhole
  | cons d text =>
      by_cases hd : startsNumeral d = true
      · exact ⟨d, text, rfl, hd⟩
      · rw [List.takeWhile_cons_of_neg (by simpa [startsNumeral] using hd)] at hwhole
        cases hwhole

/-! ### Values -/

/-- A text that begins with a value does so with none of the characters between values. -/
def StartsValue (text : List Char) : Prop :=
  ∃ c rest, text = c :: rest ∧ isWs c = false ∧ c ≠ ']' ∧ c ≠ '}'

theorem StartsValue.append {text rest : List Char} (h : StartsValue text) :
    StartsValue (text ++ rest) := by
  obtain ⟨c, tail, rfl, hc⟩ := h
  exact ⟨c, tail ++ rest, rfl, hc⟩

theorem StartsValue.skipWs {text : List Char} (h : StartsValue text) : skipWs text = text := by
  obtain ⟨c, tail, rfl, hc, -⟩ := h
  exact skipWs_cons hc

theorem startsValue_numeral {c : Char} {rest : List Char} (h : startsNumeral c = true) :
    StartsValue (c :: rest) := by
  have hws : isWs c = false := by
    by_contra hblank
    simp only [isWs, Bool.not_eq_false, Bool.or_eq_true, decide_eq_true_eq] at hblank
    rcases hblank with ((rfl | rfl) | rfl) | rfl <;> exact absurd h (by decide)
  refine ⟨c, rest, rfl, hws, ?_, ?_⟩
  · rintro rfl
    exact absurd h (by decide)
  · rintro rfl
    exact absurd h (by decide)

section

variable {escape : Char → List Char} {layout : Layout}

theorem encode_starts {level : Nat} {value : Json} (h : WellFormed value) :
    StartsValue (encode escape layout level value) := by
  cases value with
  | null => exact ⟨'n', _, rfl, by decide⟩
  | bool b =>
      cases b with
      | true => exact ⟨'t', _, rfl, by decide⟩
      | false => exact ⟨'f', _, rfl, by decide⟩
  | int n =>
      obtain ⟨c, rest, htext, hc⟩ := toString_int_head n
      rw [encode, htext]
      exact startsValue_numeral hc
  | float text =>
      obtain ⟨c, rest, htext, hc⟩ := floatNumeral_head h
      rw [encode, htext]
      exact startsValue_numeral hc
  | str s => exact ⟨'"', _, rfl, by decide⟩
  | arr items =>
      cases items with
      | nil => exact ⟨'[', _, rfl, by decide⟩
      | cons item rest => exact ⟨'[', _, by rw [encode], by decide⟩
  | obj fields =>
      cases fields with
      | nil => exact ⟨'{', _, rfl, by decide⟩
      | cons field rest => exact ⟨'{', _, by rw [encode], by decide⟩

theorem readValue_numeral {fuel : Nat} {c : Char} {text : List Char}
    (h : startsNumeral c = true) :
    readValue (fuel + 1) (c :: text) = readNumber (c :: text) := by
  have hne : ∀ d : Char, startsNumeral d = false → c ≠ d := by
    rintro d hd rfl
    rw [h] at hd
    cases hd
  rw [readValue, if_neg (hne _ (by decide)), if_neg (hne _ (by decide)),
    if_neg (hne _ (by decide)), if_neg (hne _ (by decide)), if_neg (hne _ (by decide)),
    if_neg (hne _ (by decide))]

theorem length_flatMap_of_readable (h : Readable escape) :
    ∀ cs : List Char, cs.length ≤ (cs.flatMap escape).length := by
  intro cs
  induction cs with
  | nil => exact Nat.le_refl _
  | cons c cs ih =>
      have hpos : 0 < (escape c).length := by
        refine List.length_pos_iff.mpr fun hnil => ?_
        have hread := h c []
        rw [hnil] at hread
        cases hread
      rw [List.flatMap_cons, List.length_append, List.length_cons]
      omega

theorem readString_quoted (h : Readable escape) (s : String) (rest : List Char) :
    readString ((s.toList.flatMap escape ++ '"' :: rest).length + 1)
      (s.toList.flatMap escape ++ '"' :: rest) = some (s.toList, rest) := by
  refine readString_flatMap h rest s.toList _ ?_
  have hlength := length_flatMap_of_readable h s.toList
  rw [List.length_append]
  omega

theorem readKey_quote (layout : Layout) (h : Readable escape) (key : String) {text : List Char}
    (htext : StartsValue text) :
    readKey (quote escape key ++ ':' :: (layout.colon ++ text)) = some (key, text) := by
  have hquote : quote escape key ++ ':' :: (layout.colon ++ text) =
      '"' :: (key.toList.flatMap escape ++ '"' :: (':' :: (layout.colon ++ text))) := by
    simp only [quote, List.cons_append, List.append_assoc, List.nil_append]
  rw [hquote, readKey, if_pos rfl, readString_quoted h]
  dsimp only
  rw [skipWs_cons (by decide)]
  dsimp only
  rw [if_pos rfl, skipWs_append layout.colon_blank, htext.skipWs, String.ofList_toList]

/-- After a value comes a comma, white space or a bracket. -/
theorem fresh_blank_append {blank : List Char} (h : ∀ c ∈ blank, isWs c = true) {c : Char}
    {rest : List Char} (hc : isNumeralChar c = false) : Fresh (blank ++ c :: rest) := by
  cases blank with
  | nil => exact fresh_cons hc
  | cons d blank => exact fresh_of_blank (h d List.mem_cons_self)

theorem fresh_tail {level : Nat} {items : List Json} {c : Char} {rest : List Char}
    {blank : List Char} (h : ∀ c ∈ blank, isWs c = true) (hc : isNumeralChar c = false) :
    Fresh (encodeTail escape layout level items ++ (blank ++ c :: rest)) := by
  cases items with
  | nil => exact fresh_blank_append h hc
  | cons item items =>
      rw [encodeTail]
      exact fresh_cons (by decide)

theorem fresh_fields {level : Nat} {fields : List (String × Json)} {c : Char} {rest : List Char}
    {blank : List Char} (h : ∀ c ∈ blank, isWs c = true) (hc : isNumeralChar c = false) :
    Fresh (encodeFields escape layout level fields ++ (blank ++ c :: rest)) := by
  cases fields with
  | nil => exact fresh_blank_append h hc
  | cons field fields =>
      rw [encodeFields]
      exact fresh_cons (by decide)

theorem setField_new {key : String} {value : Json} : ∀ {fields : List (String × Json)},
    key ∉ fields.map Prod.fst → setField key value fields = fields ++ [(key, value)]
  | [], _ => rfl
  | field :: fields, h => by
      rw [List.map_cons, List.mem_cons, not_or] at h
      rw [setField, if_neg (Ne.symm h.1), setField_new h.2, List.cons_append]

theorem update_append (base : List (String × Json)) : ∀ {extra : List (String × Json)},
    ((base ++ extra).map Prod.fst).Nodup → update base extra = base ++ extra := by
  intro extra
  induction extra generalizing base with
  | nil =>
      intro _
      exact (List.append_nil base).symm
  | cons field extra ih =>
      intro h
      have hnew : field.1 ∉ base.map Prod.fst := by
        intro hmem
        rw [List.map_append, List.map_cons] at h
        exact (List.nodup_append.mp h).2.2 _ hmem _ List.mem_cons_self rfl
      have hstep : update base (field :: extra) = update (base ++ [field]) extra := by
        unfold update
        rw [List.foldl_cons, setField_new hnew]
      rw [hstep, ih (base ++ [field]) (by rwa [List.append_assoc]), List.append_assoc]
      rfl

mutual

theorem readValue_encode (h : Readable escape) : ∀ (value : Json) (level fuel : Nat)
    (rest : List Char), WellFormed value →
      (encode escape layout level value).length ≤ fuel → Fresh rest →
        readValue fuel (encode escape layout level value ++ rest) = some (value, rest)
  | .null, level, fuel, rest, _, hfuel, _ => by
      obtain ⟨fuel, rfl⟩ := exists_fuel hfuel
      rfl
  | .bool true, level, fuel, rest, _, hfuel, _ => by
      obtain ⟨fuel, rfl⟩ := exists_fuel hfuel
      rfl
  | .bool false, level, fuel, rest, _, hfuel, _ => by
      obtain ⟨fuel, rfl⟩ := exists_fuel hfuel
      rfl
  | .int n, level, fuel, rest, _, hfuel, hrest => by
      obtain ⟨c, text, htext, hc⟩ := toString_int_head n
      have hread := readNumber_int n hrest
      rw [encode] at hfuel ⊢
      rw [htext] at hfuel hread ⊢
      obtain ⟨fuel, rfl⟩ := exists_fuel hfuel
      rw [List.cons_append] at hread ⊢
      rw [readValue_numeral hc, hread]
  | .float text, level, fuel, rest, hvalue, hfuel, hrest => by
      obtain ⟨c, tail, htext, hc⟩ := floatNumeral_head hvalue
      have hread := readNumber_float hvalue hrest
      rw [encode] at hfuel ⊢
      rw [htext] at hfuel hread ⊢
      obtain ⟨fuel, rfl⟩ := exists_fuel hfuel
      rw [List.cons_append] at hread ⊢
      rw [readValue_numeral hc, hread]
  | .str s, level, fuel, rest, _, hfuel, _ => by
      have hquote : quote escape s ++ rest = '"' :: (s.toList.flatMap escape ++ '"' :: rest) := by
        simp only [quote, List.cons_append, List.append_assoc, List.nil_append]
      rw [encode] at hfuel ⊢
      obtain ⟨fuel, rfl⟩ := exists_fuel hfuel
      rw [hquote, readValue, if_pos rfl, readString_quoted h]
      simp only [Option.map_some, String.ofList_toList]
  | .arr [], level, fuel, rest, _, hfuel, _ => by
      obtain ⟨fuel, rfl⟩ := exists_fuel hfuel
      rfl
  | .arr (item :: items), level, fuel, rest, hvalue, hfuel, _ => by
      obtain ⟨hitem, hitems⟩ := hvalue
      rw [encode] at hfuel ⊢
      simp only [List.length_cons, List.length_append, List.length_nil] at hfuel
      obtain ⟨fuel, rfl⟩ := exists_fuel hfuel
      have hstart : StartsValue (encode escape layout (level + 1) item ++
          (encodeTail escape layout (level + 1) items ++ (layout.line level ++ ']' :: rest))) :=
        (encode_starts hitem).append
      have hfresh : Fresh (encodeTail escape layout (level + 1) items ++
          (layout.line level ++ ']' :: rest)) := fresh_tail (layout.line_blank level) (by decide)
      have hread := readValue_encode h item (level + 1) fuel _ hitem (by omega) hfresh
      have htail := readTail_encode h items (level + 1) fuel (layout.line level) rest hitems
        (by omega) (layout.line_blank level)
      simp only [List.cons_append, List.append_assoc, List.nil_append]
      rw [readValue, if_neg (by decide), if_pos rfl, skipWs_append (layout.line_blank _),
        hstart.skipWs]
      obtain ⟨c, text, htext, -, hclose, -⟩ := hstart
      rw [if_neg, hread]
      · dsimp only
        rw [htail]
        rfl
      · rw [htext]
        intro heq
        exact hclose (Option.some.inj heq)
  | .obj [], level, fuel, rest, _, hfuel, _ => by
      obtain ⟨fuel, rfl⟩ := exists_fuel hfuel
      rfl
  | .obj ((key, value) :: fields), level, fuel, rest, hvalue, hfuel, _ => by
      obtain ⟨hkeys, hfirst, hfields⟩ := hvalue
      rw [encode] at hfuel ⊢
      simp only [List.length_cons, List.length_append, List.length_nil] at hfuel
      obtain ⟨fuel, rfl⟩ := exists_fuel hfuel
      have hstart : StartsValue (encode escape layout (level + 1) value ++
          (encodeFields escape layout (level + 1) fields ++
            (layout.line level ++ '}' :: rest))) := (encode_starts hfirst).append
      have hfresh : Fresh (encodeFields escape layout (level + 1) fields ++
          (layout.line level ++ '}' :: rest)) := fresh_fields (layout.line_blank level) (by decide)
      have hread := readValue_encode h value (level + 1) fuel _ hfirst (by omega) hfresh
      have htail := readFields_encode h fields (level + 1) fuel (layout.line level) rest hfields
        (by omega) (layout.line_blank level)
      have hkey := readKey_quote layout h key hstart
      simp only [List.cons_append, List.append_assoc, List.nil_append]
      rw [readValue, if_neg (by decide), if_neg (by decide), if_pos rfl,
        skipWs_append (layout.line_blank _)]
      have hquote : skipWs (quote escape key ++ ':' :: (layout.colon ++
          (encode escape layout (level + 1) value ++ (encodeFields escape layout (level + 1) fields ++
            (layout.line level ++ '}' :: rest))))) = quote escape key ++ ':' :: (layout.colon ++
          (encode escape layout (level + 1) value ++ (encodeFields escape layout (level + 1) fields ++
            (layout.line level ++ '}' :: rest)))) := skipWs_cons (by decide)
      rw [hquote, if_neg (by simp [quote]), hkey]
      dsimp only
      rw [hread]
      dsimp only
      rw [htail]
      simp only [Option.map_some]
      rw [show update [] ((key, value) :: fields) = (key, value) :: fields from
        update_append [] hkeys]

theorem readTail_encode (h : Readable escape) : ∀ (items : List Json) (level fuel : Nat)
    (blank rest : List Char), ItemsWellFormed items →
      (encodeTail escape layout level items).length < fuel → (∀ c ∈ blank, isWs c = true) →
        readTail fuel (encodeTail escape layout level items ++ (blank ++ ']' :: rest)) =
          some (items, rest)
  | [], level, fuel, blank, rest, _, hfuel, hblank => by
      obtain ⟨fuel, rfl⟩ := exists_fuel hfuel
      rw [encodeTail, List.nil_append, readTail, skipWs_append hblank, skipWs_cons (by decide)]
      dsimp only
      rw [if_pos rfl]
  | item :: items, level, fuel, blank, rest, hvalue, hfuel, hblank => by
      obtain ⟨hitem, hitems⟩ := hvalue
      obtain ⟨fuel, rfl⟩ := exists_fuel hfuel
      rw [encodeTail] at hfuel ⊢
      simp only [List.length_cons, List.length_append] at hfuel
      have hstart : StartsValue (encode escape layout level item ++
          (encodeTail escape layout level items ++ (blank ++ ']' :: rest))) :=
        (encode_starts hitem).append
      have hfresh : Fresh (encodeTail escape layout level items ++ (blank ++ ']' :: rest)) :=
        fresh_tail hblank (by decide)
      have hread := readValue_encode h item level fuel _ hitem (by omega) hfresh
      have htail := readTail_encode h items level fuel blank rest hitems (by omega) hblank
      simp only [List.cons_append, List.append_assoc]
      rw [readTail, skipWs_cons (by decide)]
      dsimp only
      rw [if_neg (by decide), if_pos rfl, skipWs_append (layout.gap_blank level), hstart.skipWs,
        hread]
      dsimp only
      rw [htail]
      rfl

theorem readFields_encode (h : Readable escape) : ∀ (fields : List (String × Json))
    (level fuel : Nat) (blank rest : List Char), FieldsWellFormed fields →
      (encodeFields escape layout level fields).length < fuel →
        (∀ c ∈ blank, isWs c = true) →
          readFields fuel (encodeFields escape layout level fields ++ (blank ++ '}' :: rest)) =
            some (fields, rest)
  | [], level, fuel, blank, rest, _, hfuel, hblank => by
      obtain ⟨fuel, rfl⟩ := exists_fuel hfuel
      rw [encodeFields, List.nil_append, readFields, skipWs_append hblank, skipWs_cons (by decide)]
      dsimp only
      rw [if_pos rfl]
  | (key, value) :: fields, level, fuel, blank, rest, hvalue, hfuel, hblank => by
      obtain ⟨hfirst, hfields⟩ := hvalue
      obtain ⟨fuel, rfl⟩ := exists_fuel hfuel
      rw [encodeFields] at hfuel ⊢
      simp only [List.length_cons, List.length_append] at hfuel
      have hstart : StartsValue (encode escape layout level value ++
          (encodeFields escape layout level fields ++ (blank ++ '}' :: rest))) :=
        (encode_starts hfirst).append
      have hfresh : Fresh (encodeFields escape layout level fields ++ (blank ++ '}' :: rest)) :=
        fresh_fields hblank (by decide)
      have hread := readValue_encode h value level fuel _ hfirst (by omega) hfresh
      have htail := readFields_encode h fields level fuel blank rest hfields (by omega) hblank
      have hkey := readKey_quote layout h key hstart
      simp only [List.cons_append, List.append_assoc]
      rw [readFields, skipWs_cons (by decide)]
      dsimp only
      have hquote : skipWs (quote escape key ++ ':' :: (layout.colon ++
          (encode escape layout level value ++ (encodeFields escape layout level fields ++
            (blank ++ '}' :: rest))))) = quote escape key ++ ':' :: (layout.colon ++
          (encode escape layout level value ++ (encodeFields escape layout level fields ++
            (blank ++ '}' :: rest)))) := skipWs_cons (by decide)
      rw [if_neg (by decide), if_pos rfl, skipWs_append (layout.gap_blank level), hquote, hkey]
      dsimp only
      rw [hread]
      dsimp only
      rw [htail]
      rfl

end

/-- A document is read back from its text. -/
theorem loads_encode (h : Readable escape) {level : Nat} {value : Json}
    (hvalue : WellFormed value) : loads (encode escape layout level value) = some value := by
  have hread : readValue ((encode escape layout level value).length + 1)
      (encode escape layout level value ++ []) = some (value, []) :=
    readValue_encode h value level _ [] hvalue (Nat.le_succ _) fresh_nil
  unfold loads
  rw [(encode_starts hvalue).skipWs]
  rw [List.append_nil] at hread
  rw [hread]
  rfl

end

theorem escapeAscii_readable : Readable escapeAscii := by
  refine readable_of_escaped
    (fun c => escaped_of_shortEscape c (32 ≤ c.toNat ∧ c.toNat ≤ 126)) ?_
  intro c hc
  unfold escapeAscii at hc
  split at hc
  · rename_i text htext
    obtain ⟨e, rfl, -⟩ := shortEscape_eq_some htext
    cases hc
  · split at hc
    · rename_i hplain
      exact hplain.1
    · obtain ⟨t, ht⟩ := unicodeEscape_append c.toNat []
      rw [List.append_nil] at ht
      rw [ht] at hc
      cases hc

theorem escapeUnicode_readable : Readable escapeUnicode := by
  refine readable_of_escaped (fun c => escaped_of_shortEscape c (32 ≤ c.toNat)) ?_
  intro c hc
  unfold escapeUnicode at hc
  split at hc
  · rename_i text htext
    obtain ⟨e, rfl, -⟩ := shortEscape_eq_some htext
    cases hc
  · split at hc
    · rename_i hplain
      exact hplain
    · obtain ⟨t, ht⟩ := unicodeEscape_append c.toNat []
      rw [List.append_nil] at ht
      rw [ht] at hc
      cases hc

end Json

end Etlantic
