import Mathlib.Data.List.Sort
import Mathlib.Tactic.Ring

/-!
# JSON values and their compact text

`Json` is the part of `json` the sources exchange: `null`, booleans, integers,
finite floats (kept as their `repr`), strings, arrays and objects (an object
keeps its fields in order).  `dumps` is
`json.dumps(..., sort_keys=True, separators=(",", ":"))`, with the escaping of
characters as a parameter: `escapeAscii` for the default `ensure_ascii=True`,
`escapeUnicode` for `ensure_ascii=False`.

The quoted form of a string is self-delimiting (`quote_append_inj`), which is
what makes texts built from several quoted strings injective in them.
-/

namespace Etlantic

inductive Json where
  | null
  | bool (b : Bool)
  | int (n : Int)
  | float (repr : String)
  | str (s : String)
  | arr (xs : List Json)
  | obj (fields : List (String × Json))

namespace Json

/-- `d.get(key)` on an object; anything else has no fields. -/
def field? (key : String) : Json → Option Json
  | obj fields => (fields.find? (fun f => f.1 = key)).map Prod.snd
  | _ => none

/-- `d[key] = v`: in place for a present key, at the end for a new one. -/
def setField (key : String) (v : Json) : List (String × Json) → List (String × Json)
  | [] => [(key, v)]
  | f :: rest => if f.1 = key then (key, v) :: rest else f :: setField key v rest

/-- `base.update(extra)`. -/
def update (base extra : List (String × Json)) : List (String × Json) :=
  extra.foldl (fun d f => setField f.1 f.2 d) base

/-! ## Escaping -/

def hexDigit (n : Nat) : Char := Nat.digitChar (n % 16)

/-- The four lower-case hex digits of a UTF-16 code unit. -/
def hex4 (n : Nat) : List Char :=
  [hexDigit (n / 4096), hexDigit (n / 256), hexDigit (n / 16), hexDigit n]

/-- The two-character escapes shared by both modes. -/
def shortEscape (c : Char) : Option (List Char) :=
  if c = '"' then some ['\\', '"']
  else if c = '\\' then some ['\\', '\\']
  else if c = '\n' then some ['\\', 'n']
  else if c = '\r' then some ['\\', 'r']
  else if c = '\t' then some ['\\', 't']
  else if c.toNat = 12 then some ['\\', 'f']
  else if c.toNat = 8 then some ['\\', 'b']
  else none

/-- `\uXXXX`, as a surrogate pair above the basic plane. -/
def unicodeEscape (n : Nat) : List Char :=
  if n < 0x10000 then '\\' :: 'u' :: hex4 n
  else '\\' :: 'u' :: hex4 (0xD800 + (n - 0x10000) / 0x400) ++
    '\\' :: 'u' :: hex4 (0xDC00 + (n - 0x10000) % 0x400)

/-- `ensure_ascii=True`: everything outside printable ASCII is escaped. -/
def escapeAscii (c : Char) : List Char :=
  match shortEscape c with
  | some text => text
  | none => if 32 ≤ c.toNat ∧ c.toNat ≤ 126 then [c] else unicodeEscape c.toNat

/-- `ensure_ascii=False`: only control characters are escaped. -/
def escapeUnicode (c : Char) : List Char :=
  match shortEscape c with
  | some text => text
  | none => if 32 ≤ c.toNat then [c] else unicodeEscape c.toNat

/-- A string literal, in double quotes. -/
def quote (escape : Char → List Char) (s : String) : List Char :=
  '"' :: s.toList.flatMap escape ++ ['"']

/-! ## Serialization -/

/-- Items separated by commas. -/
def commaSep : List (List Char) → List Char
  | [] => []
  | [x] => x
  | x :: rest => x ++ ',' :: commaSep rest

/-- Rendered fields in key order. -/
def sortFields (fields : List (String × List Char)) : List (String × List Char) :=
  fields.insertionSort (fun a b => a.1 ≤ b.1)

mutual

def render (escape : Char → List Char) : Json → List Char
  | null => "null".toList
  | bool true => "true".toList
  | bool false => "false".toList
  | int n => (toString n).toList
  | float text => text.toList
  | str s => quote escape s
  | arr xs => '[' :: commaSep (renderItems escape xs) ++ [']']
  | obj fields =>
      '{' :: commaSep ((sortFields (renderFields escape fields)).map Prod.snd) ++ ['}']

def renderItems (escape : Char → List Char) : List Json → List (List Char)
  | [] => []
  | x :: xs => render escape x :: renderItems escape xs

/-- Each field as its key and its `"key":value` text. -/
def renderFields (escape : Char → List Char) :
    List (String × Json) → List (String × List Char)
  | [] => []
  | (k, v) :: fs =>
      (k, quote escape k ++ ':' :: render escape v) :: renderFields escape fs

end

/-- `json.dumps(j, sort_keys=True, separators=(",", ":"))`. -/
def dumps (escape : Char → List Char) (j : Json) : String := String.ofList (render escape j)

/-! ## The quoted form is self-delimiting -/

/-- A character escape that can be read back from the front of a text, and
that never begins with the closing quote. -/
structure SelfDelimiting (escape : Char → List Char) : Prop where
  inj : ∀ {c d x y}, escape c ++ x = escape d ++ y → c = d ∧ x = y
  noQuote : ∀ {c x y}, escape c ++ x ≠ '"' :: y

theorem flatMap_append_inj {escape : Char → List Char} (h : SelfDelimiting escape) :
    ∀ {s t x y : List Char}, s.flatMap escape ++ '"' :: x = t.flatMap escape ++ '"' :: y →
      s = t ∧ x = y
  | [], [], x, y, heq => ⟨rfl, (List.cons.inj heq).2⟩
  | [], d :: t, x, y, heq => by
      rw [List.flatMap_cons, List.append_assoc] at heq
      exact absurd heq.symm h.noQuote
  | c :: s, [], x, y, heq => by
      rw [List.flatMap_cons, List.append_assoc] at heq
      exact absurd heq h.noQuote
  | c :: s, d :: t, x, y, heq => by
      rw [List.flatMap_cons, List.flatMap_cons, List.append_assoc, List.append_assoc] at heq
      obtain ⟨rfl, hrest⟩ := h.inj heq
      obtain ⟨rfl, hxy⟩ := flatMap_append_inj h hrest
      exact ⟨rfl, hxy⟩

theorem quote_append_inj {escape : Char → List Char} (h : SelfDelimiting escape)
    {s t : String} {x y : List Char} (heq : quote escape s ++ x = quote escape t ++ y) :
    s = t ∧ x = y := by
  simp only [quote, List.cons_append, List.append_assoc, List.nil_append,
    List.cons.injEq, true_and] at heq
  obtain ⟨hst, hxy⟩ := flatMap_append_inj h heq
  exact ⟨String.toList_inj.mp hst, hxy⟩

theorem hexDigit_inj {a b : Nat} (h : hexDigit a = hexDigit b) : a % 16 = b % 16 := by
  have key : ∀ i : Fin 16, ∀ j : Fin 16, Nat.digitChar i = Nat.digitChar j → i = j := by decide
  exact congrArg Fin.val (key ⟨a % 16, Nat.mod_lt _ (by decide)⟩ ⟨b % 16, Nat.mod_lt _ (by decide)⟩ h)

theorem hex4_append_inj {a b : Nat} {x y : List Char} (ha : a < 0x10000) (hb : b < 0x10000)
    (h : hex4 a ++ x = hex4 b ++ y) : a = b ∧ x = y := by
  simp only [hex4, List.cons_append, List.nil_append, List.cons.injEq] at h
  obtain ⟨h3, h2, h1, h0, hxy⟩ := h
  have h3 := hexDigit_inj h3
  have h2 := hexDigit_inj h2
  have h1 := hexDigit_inj h1
  have h0 := hexDigit_inj h0
  exact ⟨by omega, hxy⟩

theorem toNat_not_surrogate (c : Char) : c.toNat < 0xD800 ∨ 0xDFFF < c.toNat ∧ c.toNat < 0x110000 := by
  have h := c.valid
  rcases h with h | ⟨h1, h2⟩
  · exact Or.inl h
  · exact Or.inr ⟨h1, h2⟩

theorem toNat_inj {c d : Char} (h : c.toNat = d.toNat) : c = d :=
  Char.ext (UInt32.toNat_inj.mp h)

/-- The surrogate pair of a code point above the basic plane determines it. -/
theorem unicodeEscape_append_inj {c d : Char} {x y : List Char}
    (h : unicodeEscape c.toNat ++ x = unicodeEscape d.toNat ++ y) : c = d ∧ x = y := by
  have hc := toNat_not_surrogate c
  have hd := toNat_not_surrogate d
  unfold unicodeEscape at h
  split at h <;> split at h
  · rename_i hcs hds
    simp only [List.cons_append, List.cons.injEq, true_and] at h
    obtain ⟨hn, hxy⟩ := hex4_append_inj hcs hds h
    exact ⟨toNat_inj hn, hxy⟩
  · rename_i hcs hds
    simp only [List.cons_append, List.append_assoc, List.cons.injEq, true_and] at h
    obtain ⟨hn, -⟩ := hex4_append_inj hcs (by omega) h
    omega
  · rename_i hcs hds
    simp only [List.cons_append, List.append_assoc, List.cons.injEq, true_and] at h
    obtain ⟨hn, -⟩ := hex4_append_inj (by omega) hds h
    omega
  · rename_i hcs hds
    simp only [List.cons_append, List.append_assoc, List.cons.injEq, true_and] at h
    obtain ⟨hn, hrest⟩ := hex4_append_inj (by omega) (by omega) h
    simp only [List.cons.injEq, true_and] at hrest
    obtain ⟨hm, hxy⟩ := hex4_append_inj (by omega) (by omega) hrest
    exact ⟨toNat_inj (by omega), hxy⟩

theorem shortEscape_eq_some {c : Char} {text : List Char} (h : shortEscape c = some text) :
    ∃ e, text = ['\\', e] ∧ e ≠ 'u' := by
  unfold shortEscape at h
  split_ifs at h <;> exact ⟨_, (Option.some.inj h).symm, by decide⟩

/-- The code point a two-character escape stands for. -/
def shortUnescape (e : Char) : Nat :=
  if e = '"' then 34
  else if e = '\\' then 92
  else if e = 'n' then 10
  else if e = 'r' then 13
  else if e = 't' then 9
  else if e = 'f' then 12
  else 8

theorem shortUnescape_of_shortEscape {c e : Char} (h : shortEscape c = some ['\\', e]) :
    shortUnescape e = c.toNat := by
  unfold shortEscape at h
  split_ifs at h with h1 h2 h3 h4 h5 h6 h7 <;>
    obtain rfl : _ = e := by simpa using h
  all_goals first
    | rw [h6]; rfl
    | rw [h7]; rfl
    | (subst c; rfl)

theorem shortEscape_inj {c d e : Char} (hc : shortEscape c = some ['\\', e])
    (hd : shortEscape d = some ['\\', e]) : c = d :=
  toNat_inj ((shortUnescape_of_shortEscape hc).symm.trans (shortUnescape_of_shortEscape hd))

theorem shortEscape_eq_none {c : Char} (h : shortEscape c = none) : c ≠ '"' ∧ c ≠ '\\' := by
  unfold shortEscape at h
  split_ifs at h
  exact ⟨by assumption, by assumption⟩

/-- The three shapes an escaped character can have. -/
def Escaped (c : Char) (text : List Char) : Prop :=
  (∃ e, shortEscape c = some ['\\', e] ∧ e ≠ 'u' ∧ text = ['\\', e]) ∨
    (c ≠ '"' ∧ c ≠ '\\' ∧ text = [c]) ∨
    text = unicodeEscape c.toNat

/-- Both modes escape alike; they differ in which characters stand for themselves. -/
theorem escaped_of_shortEscape (c : Char) (plain : Prop) [Decidable plain] :
    Escaped c (match shortEscape c with
      | some text => text
      | none => if plain then [c] else unicodeEscape c.toNat) := by
  cases hs : shortEscape c with
  | some text =>
      obtain ⟨e, rfl, he⟩ := shortEscape_eq_some hs
      exact Or.inl ⟨e, hs, he, rfl⟩
  | none =>
      obtain ⟨hq, hb⟩ := shortEscape_eq_none hs
      dsimp only
      split
      · exact Or.inr (Or.inl ⟨hq, hb, rfl⟩)
      · exact Or.inr (Or.inr rfl)

theorem unicodeEscape_append (n : Nat) (x : List Char) :
    ∃ t, unicodeEscape n ++ x = '\\' :: 'u' :: t := by
  unfold unicodeEscape
  split
  · exact ⟨_, rfl⟩
  · exact ⟨_, rfl⟩

theorem selfDelimiting_of_escaped {escape : Char → List Char} (h : ∀ c, Escaped c (escape c)) :
    SelfDelimiting escape where
  inj := by
    intro c d x y heq
    rcases h c with ⟨e, hse, heu, hc⟩ | ⟨-, hcb, hc⟩ | hc <;>
      rcases h d with ⟨f, hsf, hfu, hd⟩ | ⟨-, hdb, hd⟩ | hd <;>
      rw [hc, hd] at heq
    · simp only [List.cons_append, List.nil_append, List.cons.injEq, true_and] at heq
      obtain ⟨rfl, hxy⟩ := heq
      exact ⟨shortEscape_inj hse hsf, hxy⟩
    · exact absurd (List.cons.inj heq).1.symm hdb
    · obtain ⟨t, ht⟩ := unicodeEscape_append d.toNat y
      rw [ht] at heq
      exact absurd (List.cons.inj (List.cons.inj heq).2).1 heu
    · exact absurd (List.cons.inj heq).1 hcb
    · exact List.cons.inj heq
    · obtain ⟨t, ht⟩ := unicodeEscape_append d.toNat y
      rw [ht] at heq
      exact absurd (List.cons.inj heq).1 hcb
    · obtain ⟨t, ht⟩ := unicodeEscape_append c.toNat x
      rw [ht] at heq
      exact absurd (List.cons.inj (List.cons.inj heq).2).1.symm hfu
    · obtain ⟨t, ht⟩ := unicodeEscape_append c.toNat x
      rw [ht] at heq
      exact absurd (List.cons.inj heq).1.symm hdb
    · exact unicodeEscape_append_inj heq
  noQuote := by
    intro c x y heq
    rcases h c with ⟨e, -, -, hc⟩ | ⟨hq, -, hc⟩ | hc <;> rw [hc] at heq
    · exact absurd (List.cons.inj heq).1 (by decide)
    · exact absurd (List.cons.inj heq).1 hq
    · obtain ⟨t, ht⟩ := unicodeEscape_append c.toNat x
      rw [ht] at heq
      exact absurd (List.cons.inj heq).1 (by decide)

theorem escapeAscii_selfDelimiting : SelfDelimiting escapeAscii :=
  selfDelimiting_of_escaped fun c =>
    escaped_of_shortEscape c (32 ≤ c.toNat ∧ c.toNat ≤ 126)

theorem escapeUnicode_selfDelimiting : SelfDelimiting escapeUnicode :=
  selfDelimiting_of_escaped fun c => escaped_of_shortEscape c (32 ≤ c.toNat)

/-- The texts of a list of strings are told apart. -/
theorem commaSep_quote_append_inj {escape : Char → List Char} (h : SelfDelimiting escape) :
    ∀ {xs ys : List String} {x y : List Char},
      commaSep (xs.map (quote escape)) ++ ']' :: x = commaSep (ys.map (quote escape)) ++ ']' :: y →
        xs = ys
  | [], [], _, _, _ => rfl
  | [], [_], _, _, heq => absurd (List.cons.inj heq).1 (by decide)
  | [], _ :: _ :: _, _, _, heq => absurd (List.cons.inj heq).1 (by decide)
  | [_], [], _, _, heq => absurd (List.cons.inj heq).1 (by decide)
  | _ :: _ :: _, [], _, _, heq => absurd (List.cons.inj heq).1 (by decide)
  | [a], [b], _, _, heq => by
      obtain ⟨rfl, -⟩ := quote_append_inj h heq
      rfl
  | [a], b :: c :: ys, _, _, heq => by
      simp only [List.map_cons, commaSep, List.append_assoc] at heq
      obtain ⟨-, hrest⟩ := quote_append_inj h heq
      exact absurd (List.cons.inj hrest).1 (by decide)
  | a :: c :: xs, [b], _, _, heq => by
      simp only [List.map_cons, commaSep, List.append_assoc] at heq
      obtain ⟨-, hrest⟩ := quote_append_inj h heq
      exact absurd (List.cons.inj hrest).1 (by decide)
  | a :: c :: xs, b :: d :: ys, x, y, heq => by
      simp only [List.map_cons, commaSep, List.append_assoc] at heq
      obtain ⟨rfl, hrest⟩ := quote_append_inj h heq
      have htail : commaSep ((c :: xs).map (quote escape)) ++ ']' :: x =
          commaSep ((d :: ys).map (quote escape)) ++ ']' :: y := (List.cons.inj hrest).2
      rw [commaSep_quote_append_inj h htail]

theorem renderItems_str (escape : Char → List Char) :
    ∀ xs : List String, renderItems escape (xs.map .str) = xs.map (quote escape)
  | [] => rfl
  | x :: xs => congrArg (quote escape x :: ·) (renderItems_str escape xs)

/-- A list of strings is read back from its text. -/
theorem dumps_strings_inj {escape : Char → List Char} (h : SelfDelimiting escape)
    {xs ys : List String}
    (heq : (arr (xs.map .str)).dumps escape = (arr (ys.map .str)).dumps escape) : xs = ys := by
  have htext := String.ofList_inj.mp heq
  simp only [render, renderItems_str, List.cons_append, List.cons.injEq, true_and] at htext
  exact commaSep_quote_append_inj (x := []) (y := []) h htext

/-! ## Numerals -/

theorem toString_natCast_inj {a b : Nat}
    (h : (toString (a : Int)).toList = (toString (b : Int)).toList) : a = b := by
  have hdigits : ∀ n : Nat, (toString (n : Int)).toList = Nat.toDigits 10 n := by
    intro n
    simp [Int.repr_eq_if]
  rw [hdigits, hdigits] at h
  have hvalue := congrArg (fun digits => Nat.ofDigitChars 10 digits 0) h
  simpa using hvalue

end Json

end Etlantic
