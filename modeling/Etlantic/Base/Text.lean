import Mathlib.Data.List.Basic

/-!
# Text helpers

The few `str` methods the sources rely on, over Unicode code points.
-/

namespace Etlantic

/-- `str.isspace` on one character; the regex class `\s` is the same set. -/
def isSpace (c : Char) : Bool :=
  (9 ≤ c.val ∧ c.val ≤ 13) ∨ (28 ≤ c.val ∧ c.val ≤ 32) ∨ c.val = 0x85 ∨ c.val = 0xA0 ∨
    c.val = 0x1680 ∨ (0x2000 ≤ c.val ∧ c.val ≤ 0x200A) ∨ c.val = 0x2028 ∨ c.val = 0x2029 ∨
    c.val = 0x202F ∨ c.val = 0x205F ∨ c.val = 0x3000

/-- `not s.strip()`. -/
def isBlank (s : String) : Bool := s.toList.all isSpace

/-- `s.strip()`. -/
def strip (s : String) : String :=
  String.ofList ((s.toList.dropWhile isSpace).reverse.dropWhile isSpace).reverse

/-- `s.startswith(p)`. -/
def hasPrefix (p s : String) : Bool := p.toList.isPrefixOf s.toList

/-- `s.removeprefix(p)`. -/
def removePrefix (p s : String) : String :=
  if hasPrefix p s then String.ofList (s.toList.drop p.toList.length) else s

/-- The text in front of the first `c` and the text behind it: `s.split(c, 1)`. -/
def splitOnce (c : Char) (s : String) : Option (String × String) :=
  match s.toList.span (· ≠ c) with
  | (_, []) => none
  | (before, _ :: after) => some (String.ofList before, String.ofList after)

/-- `s.split(c)`. -/
def splitAll (c : Char) (s : String) : List String :=
  (s.toList.splitOn c).map String.ofList

/-- `s.split()`. -/
def words (s : String) : List String :=
  ((s.toList.splitOnP isSpace).filter (· ≠ [])).map String.ofList

/-- One of `0123456789abcdef`. -/
def isLowerHex (c : Char) : Bool := ('0' ≤ c ∧ c ≤ '9') ∨ ('a' ≤ c ∧ c ≤ 'f')

theorem isBlank_iff {s : String} : isBlank s = true ↔ ∀ c ∈ s.toList, isSpace c = true := by
  simp [isBlank]

end Etlantic
