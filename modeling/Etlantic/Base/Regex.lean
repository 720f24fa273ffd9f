import Etlantic.Base.Text

/-!
# Backtracking regular expressions

The fragment of Python's `re` that the sources use, with its matching order:
`exec` lists every way to match from a position, the preferred way first, so
the head of the list is the match `re` reports.  `sub` replaces the leftmost
non-overlapping matches.

`Visible` expressions consume at least one character that is not white space
in every match; `sub_of_blank` concludes that they leave blank text alone.
-/

namespace Etlantic

/-- A regular expression over code points. Repetition is only ever applied to
one character class. -/
inductive Regex where
  | empty
  | cls (p : Char → Bool)
  | many (p : Char → Bool)
  | seq (r s : Regex)
  | alt (r s : Regex)
  | group (n : Nat) (r : Regex)
  | notAhead (r : Regex)
  | notBehind (p : Char → Bool)
  | boundary (isWord : Char → Bool)

namespace Regex

/-- A position in the text: the character before it, the text after it, and
the groups captured so far. -/
structure Position where
  prev : Option Char
  rest : List Char
  groups : List (Nat × List Char)

/-- The text between two positions. -/
def Position.consumed (from_ to_ : Position) : List Char :=
  from_.rest.take (from_.rest.length - to_.rest.length)

/-- `[p]*`, longest match first. -/
def execMany (p : Char → Bool) (groups : List (Nat × List Char)) :
    Option Char → List Char → List Position
  | prev, [] => [⟨prev, [], groups⟩]
  | prev, c :: cs =>
      (if p c then execMany p groups (some c) cs else []) ++ [⟨prev, c :: cs, groups⟩]

/-- All matches from a position, in the order backtracking tries them. -/
def exec : Regex → Position → List Position
  | empty, at_ => [at_]
  | cls p, at_ =>
      match at_.rest with
      | [] => []
      | c :: cs => if p c then [⟨some c, cs, at_.groups⟩] else []
  | many p, at_ => execMany p at_.groups at_.prev at_.rest
  | seq r s, at_ => (exec r at_).flatMap (exec s)
  | alt r s, at_ => exec r at_ ++ exec s at_
  | group n r, at_ =>
      (exec r at_).map (fun to_ => { to_ with groups := (n, at_.consumed to_) :: to_.groups })
  | notAhead r, at_ => if (exec r at_).isEmpty then [at_] else []
  | notBehind p, at_ => if at_.prev.any p then [] else [at_]
  | boundary isWord, at_ => if at_.prev.any isWord = at_.rest.head?.any isWord then [] else [at_]

/-- The text captured by group `n`. -/
def groupText (groups : List (Nat × List Char)) (n : Nat) : List Char :=
  ((groups.find? (fun g => g.1 = n)).map Prod.snd).getD []

/-- `pattern.sub`, scanning from a position. The patterns of the sources never
match the empty text, so a match always advances; `fuel` bounds the scan. -/
def subFrom (r : Regex) (replacement : List (Nat × List Char) → List Char) :
    Nat → Option Char → List Char → List Char
  | 0, _, rest => rest
  | _ + 1, _, [] => []
  | fuel + 1, prev, c :: cs =>
      match (exec r ⟨prev, c :: cs, []⟩).head? with
      | some to_ => replacement to_.groups ++ subFrom r replacement fuel to_.prev to_.rest
      | none => c :: subFrom r replacement fuel (some c) cs

/-- `pattern.sub(replacement, s)`. -/
def sub (r : Regex) (replacement : List (Nat × List Char) → List Char) (s : String) : String :=
  String.ofList (subFrom r replacement s.toList.length none s.toList)

/-- `pattern.search(s) is not None`, scanning from a position. -/
def searchFrom (r : Regex) : Option Char → List Char → Bool
  | prev, [] => !(exec r ⟨prev, [], []⟩).isEmpty
  | prev, c :: cs => !(exec r ⟨prev, c :: cs, []⟩).isEmpty || searchFrom r (some c) cs

def search (r : Regex) (s : String) : Bool := searchFrom r none s.toList

/-! ## Building patterns -/

/-- A sequence of patterns. -/
def seqAll : List Regex → Regex
  | [] => empty
  | [r] => r
  | r :: rs => seq r (seqAll rs)

/-- Ordered alternatives. -/
def altAll : List Regex → Regex
  | [] => notAhead empty
  | [r] => r
  | r :: rs => alt r (altAll rs)

/-- `r?`. -/
def opt (r : Regex) : Regex := alt r empty

/-- `[p]+`. -/
def some_ (p : Char → Bool) : Regex := seq (cls p) (many p)

/-- A literal text, case sensitive. -/
def lit (text : String) : Regex := seqAll (text.toList.map (fun c => cls (fun d => d = c)))

/-- Case folding of one pattern letter: besides the two ASCII cases, `re`
equates `i` with U+0130 and U+0131, `s` with U+017F and `k` with U+212A. -/
def foldEq (c d : Char) : Bool :=
  d.toLower = c ∨ (c = 'i' ∧ (d.val = 0x130 ∨ d.val = 0x131)) ∨ (c = 's' ∧ d.val = 0x17F) ∨
    (c = 'k' ∧ d.val = 0x212A)

/-- A lower-case literal text under `(?i)`. -/
def word (text : String) : Regex := seqAll (text.toList.map (fun c => cls (foldEq c)))

/-- `[A-Za-z]` under `(?i)`. -/
def isLetterFold (c : Char) : Bool :=
  ('a' ≤ c ∧ c ≤ 'z') ∨ ('A' ≤ c ∧ c ≤ 'Z') ∨ c.val = 0x130 ∨ c.val = 0x131 ∨ c.val = 0x17F ∨
    c.val = 0x212A

def isAsciiDigit (c : Char) : Bool := '0' ≤ c ∧ c ≤ '9'

/-- One of the characters of `text`. -/
def oneOf (text : String) (c : Char) : Bool := text.toList.contains c

/-! ## Matches consume a prefix -/

theorem execMany_suffix {p : Char → Bool} {groups : List (Nat × List Char)} :
    ∀ {prev : Option Char} {rest : List Char} {to_ : Position},
      to_ ∈ execMany p groups prev rest → ∃ pre, rest = pre ++ to_.rest
  | prev, [], to_, h => by
      rw [execMany, List.mem_singleton] at h
      exact ⟨[], by rw [h]; rfl⟩
  | prev, c :: cs, to_, h => by
      rw [execMany, List.mem_append] at h
      rcases h with h | h
      · split at h
        · obtain ⟨pre, hpre⟩ := execMany_suffix h
          exact ⟨c :: pre, by rw [hpre]; rfl⟩
        · exact absurd h List.not_mem_nil
      · rw [List.mem_singleton] at h
        exact ⟨[], by rw [h]; rfl⟩

theorem exec_suffix {r : Regex} : ∀ {at_ to_ : Position}, to_ ∈ exec r at_ →
    ∃ pre, at_.rest = pre ++ to_.rest := by
  induction r with
  | empty =>
      intro at_ to_ h
      rw [exec, List.mem_singleton] at h
      exact ⟨[], by rw [h]; rfl⟩
  | cls p =>
      intro at_ to_ h
      rw [exec] at h
      split at h
      · exact absurd h List.not_mem_nil
      · rename_i c cs hrest
        split at h
        · rw [List.mem_singleton] at h
          exact ⟨[c], by rw [h, hrest]; rfl⟩
        · exact absurd h List.not_mem_nil
  | many p =>
      intro at_ to_ h
      exact execMany_suffix h
  | seq r s ihr ihs =>
      intro at_ to_ h
      obtain ⟨mid, hmid, hto⟩ := List.mem_flatMap.mp h
      obtain ⟨pre, hpre⟩ := ihr hmid
      obtain ⟨post, hpost⟩ := ihs hto
      exact ⟨pre ++ post, by rw [hpre, hpost, List.append_assoc]⟩
  | alt r s ihr ihs =>
      intro at_ to_ h
      rcases List.mem_append.mp h with h | h
      · exact ihr h
      · exact ihs h
  | group n r ih =>
      intro at_ to_ h
      obtain ⟨mid, hmid, rfl⟩ := List.mem_map.mp h
      obtain ⟨pre, hpre⟩ := ih hmid
      exact ⟨pre, hpre⟩
  | notAhead r ih =>
      intro at_ to_ h
      rw [exec] at h
      split at h
      · rw [List.mem_singleton] at h
        exact ⟨[], by rw [h]; rfl⟩
      · exact absurd h List.not_mem_nil
  | notBehind p =>
      intro at_ to_ h
      rw [exec] at h
      split at h
      · exact absurd h List.not_mem_nil
      · rw [List.mem_singleton] at h
        exact ⟨[], by rw [h]; rfl⟩
  | boundary isWord =>
      intro at_ to_ h
      rw [exec] at h
      split at h
      · exact absurd h List.not_mem_nil
      · rw [List.mem_singleton] at h
        exact ⟨[], by rw [h]; rfl⟩

/-! ## Patterns that need visible text -/

/-- Every white-space character. -/
def spaces : List Char :=
  [9, 10, 11, 12, 13, 28, 29, 30, 31, 32, 0x85, 0xA0, 0x1680, 0x2000, 0x2001, 0x2002, 0x2003,
    0x2004, 0x2005, 0x2006, 0x2007, 0x2008, 0x2009, 0x200A, 0x2028, 0x2029, 0x202F, 0x205F,
    0x3000].map Char.ofNat

/-- The class contains no white space. -/
def excludesSpaces (p : Char → Bool) : Bool := spaces.all (fun c => !p c)

/-- Every match of the expression consumes a character that is not white space. -/
def visible : Regex → Bool
  | cls p => excludesSpaces p
  | seq r s => visible r || visible s
  | alt r s => visible r && visible s
  | group _ r => visible r
  | _ => false

theorem mem_spaces {c : Char} (h : isSpace c = true) : c ∈ spaces := by
  have hval : c = Char.ofNat c.toNat := (Char.ofNat_toNat c).symm
  have hn : c.toNat ∈ [9, 10, 11, 12, 13, 28, 29, 30, 31, 32, 0x85, 0xA0, 0x1680, 0x2000, 0x2001,
      0x2002, 0x2003, 0x2004, 0x2005, 0x2006, 0x2007, 0x2008, 0x2009, 0x200A, 0x2028, 0x2029,
      0x202F, 0x205F, 0x3000] := by
    simp only [isSpace, decide_eq_true_eq, UInt32.le_iff_toNat_le, ← UInt32.toNat_inj] at h
    have hc : c.val.toNat = c.toNat := rfl
    simp only [UInt32.toNat_ofNat, hc] at h
    simp only [List.mem_cons, List.not_mem_nil, or_false]
    omega
  rw [hval]
  exact List.mem_map_of_mem hn

theorem not_isSpace_of_excludesSpaces {p : Char → Bool} (hp : excludesSpaces p = true) {c : Char}
    (hc : p c = true) : isSpace c = false := by
  by_contra hs
  have := List.all_eq_true.mp hp c (mem_spaces (by simpa using hs))
  simp [hc] at this

theorem exec_visible {r : Regex} : visible r = true → ∀ {at_ to_ : Position},
    to_ ∈ exec r at_ → ∃ c ∈ at_.rest, isSpace c = false := by
  induction r with
  | cls p =>
      intro hv at_ to_ h
      rw [exec] at h
      split at h
      · exact absurd h List.not_mem_nil
      · rename_i c cs hrest
        split at h
        · rename_i hp
          exact ⟨c, by rw [hrest]; exact List.mem_cons_self, not_isSpace_of_excludesSpaces hv hp⟩
        · exact absurd h List.not_mem_nil
  | seq r s ihr ihs =>
      intro hv at_ to_ h
      obtain ⟨mid, hmid, hto⟩ := List.mem_flatMap.mp h
      rcases Bool.or_eq_true _ _ ▸ hv with hr | hs
      · exact ihr hr hmid
      · obtain ⟨pre, hpre⟩ := exec_suffix hmid
        obtain ⟨c, hc, hspace⟩ := ihs hs hto
        exact ⟨c, by rw [hpre]; exact List.mem_append_right _ hc, hspace⟩
  | alt r s ihr ihs =>
      intro hv at_ to_ h
      obtain ⟨hr, hs⟩ := Bool.and_eq_true _ _ ▸ hv
      rcases List.mem_append.mp h with h | h
      · exact ihr hr h
      · exact ihs hs h
  | group n r ih =>
      intro hv at_ to_ h
      obtain ⟨mid, hmid, rfl⟩ := List.mem_map.mp h
      exact ih hv hmid
  | empty => exact fun hv => absurd hv (by decide)
  | many p => exact fun hv => absurd hv Bool.false_ne_true
  | notAhead r => exact fun hv => absurd hv Bool.false_ne_true
  | notBehind p => exact fun hv => absurd hv Bool.false_ne_true
  | boundary isWord => exact fun hv => absurd hv Bool.false_ne_true

theorem subFrom_of_blank {r : Regex} (hv : visible r = true)
    (replacement : List (Nat × List Char) → List Char) :
    ∀ (fuel : Nat) (prev : Option Char) (rest : List Char),
      (∀ c ∈ rest, isSpace c = true) → subFrom r replacement fuel prev rest = rest
  | 0, _, _, _ => rfl
  | _ + 1, _, [], _ => rfl
  | fuel + 1, prev, c :: cs, hblank => by
      unfold subFrom
      split
      · rename_i to_ hto
        obtain ⟨d, hd, hspace⟩ := exec_visible hv (List.mem_of_mem_head? hto)
        simp [hblank d hd] at hspace
      · rw [subFrom_of_blank hv replacement fuel (some c) cs
          (fun d hd => hblank d (List.mem_cons_of_mem _ hd))]

/-- A pattern that needs visible text leaves blank text alone. -/
theorem sub_of_blank {r : Regex} (hv : visible r = true)
    (replacement : List (Nat × List Char) → List Char) {s : String} (hs : isBlank s = true) :
    sub r replacement s = s := by
  unfold sub
  rw [subFrom_of_blank hv replacement _ _ _ (isBlank_iff.mp hs), String.ofList_toList]

end Regex

end Etlantic
