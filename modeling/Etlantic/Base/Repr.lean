import Etlantic.Base.Json

/-!
# The `repr` of texts and of pairs of texts

`repr` of a text chooses the quotes, escapes what is not printable, and can be read back.
So can the `repr` of a tuple of pairs of texts.  Which characters outside ASCII are
printable is a parameter: the Unicode data base.
-/

namespace Etlantic.Repr

variable (isPrintable : Char → Bool)

/-! ## Texts -/

/-- The lower-case hex digits of `n`, `width` of them. -/
def hexDigits : Nat → Nat → List Char
  | 0, _ => []
  | width + 1, n => hexDigits width (n / 16) ++ [Json.hexDigit n]

/-- The quotes are double only if that saves an escape. -/
def quoteOf (text : String) : Char :=
  if '\'' ∈ text.toList ∧ '"' ∉ text.toList then '"' else '\''

def escape (quote c : Char) : List Char :=
  if c = quote ∨ c = '\\' then ['\\', c]
  else if c = '\t' then ['\\', 't']
  else if c = '\n' then ['\\', 'n']
  else if c = '\r' then ['\\', 'r']
  else if 32 ≤ c.toNat ∧ c.toNat < 127 then [c]
  else if 127 < c.toNat ∧ isPrintable c then [c]
  else if c.toNat < 0x100 then '\\' :: 'x' :: hexDigits 2 c.toNat
  else if c.toNat < 0x10000 then '\\' :: 'u' :: hexDigits 4 c.toNat
  else '\\' :: 'U' :: hexDigits 8 c.toNat

/-- `repr` of a `str`. -/
def text (s : String) : List Char :=
  quoteOf s :: (s.toList.flatMap (escape isPrintable (quoteOf s)) ++ [quoteOf s])

/-! ## Tuples of pairs -/

def pair (p : String × String) : List Char :=
  '(' :: (text isPrintable p.1 ++ ',' :: ' ' :: (text isPrintable p.2 ++ [')']))

def pairsTail : List (String × String) → List Char
  | [] => [')']
  | p :: rest => ',' :: ' ' :: (pair isPrintable p ++ pairsTail rest)

/-- `repr` of a tuple of pairs; a tuple of one has a comma. -/
def pairs : List (String × String) → List Char
  | [] => ['(', ')']
  | [p] => '(' :: (pair isPrintable p ++ [',', ')'])
  | p :: rest => '(' :: (pair isPrintable p ++ pairsTail isPrintable rest)

/-! ## They can be read back -/

variable {isPrintable}

theorem length_hexDigits : ∀ width n : Nat, (hexDigits width n).length = width
  | 0, _ => rfl
  | width + 1, n => by
      rw [hexDigits, List.length_append, length_hexDigits width, List.length_singleton]

theorem hexDigits_inj : ∀ {width a b : Nat}, a < 16 ^ width → b < 16 ^ width →
    hexDigits width a = hexDigits width b → a = b
  | 0, a, b, ha, hb, _ => by omega
  | width + 1, a, b, ha, hb, h => by
      rw [hexDigits, hexDigits] at h
      obtain ⟨hfront, hlast⟩ := List.append_inj' h rfl
      have hmod := Json.hexDigit_inj (List.singleton_inj.mp hlast)
      have hdiv : a / 16 = b / 16 := hexDigits_inj (by omega) (by omega) hfront
      omega

/-- The character that a short escape stands for. -/
def shortOf (e : Char) : Char :=
  if e = 't' then '\t' else if e = 'n' then '\n' else if e = 'r' then '\r' else e

/-- The number of digits behind a letter. -/
def widthOf (e : Char) : Option Nat :=
  if e = 'x' then some 2 else if e = 'u' then some 4 else if e = 'U' then some 8 else none

/-- A character as it is, or an escape that tells it. -/
def Tells (quote c : Char) (part : List Char) : Prop :=
  (part = [c] ∧ c ≠ quote ∧ c ≠ '\\') ∨
  (∃ e, part = ['\\', e] ∧ widthOf e = none ∧ shortOf e = c) ∨
  ∃ e width, part = '\\' :: e :: hexDigits width c.toNat ∧ widthOf e = some width ∧
    c.toNat < 16 ^ width

theorem escape_tells {quote : Char} (hquote : quote = '\'' ∨ quote = '"') (c : Char) :
    Tells quote c (escape isPrintable quote c) := by
  unfold escape
  split
  · rename_i hself
    refine .inr (.inl ⟨c, rfl, ?_, ?_⟩)
    · rcases hself with rfl | rfl
      · rcases hquote with rfl | rfl <;> decide
      · decide
    · rcases hself with rfl | rfl
      · rcases hquote with rfl | rfl <;> decide
      · decide
  · rename_i hself
    obtain ⟨hother, hslash⟩ := not_or.mp hself
    split
    · rename_i htab
      exact .inr (.inl ⟨'t', rfl, by decide, by rw [htab]; decide⟩)
    · split
      · rename_i hline
        exact .inr (.inl ⟨'n', rfl, by decide, by rw [hline]; decide⟩)
      · split
        · rename_i hreturn
          exact .inr (.inl ⟨'r', rfl, by decide, by rw [hreturn]; decide⟩)
        · split
          · exact .inl ⟨rfl, hother, hslash⟩
          · split
            · exact .inl ⟨rfl, hother, hslash⟩
            · split
              · rename_i hsmall
                exact .inr (.inr ⟨'x', 2, rfl, by decide, by omega⟩)
              · split
                · rename_i hsmall
                  exact .inr (.inr ⟨'u', 4, rfl, by decide, by omega⟩)
                · have hbound : c.toNat < 0x110000 := by
                    rcases Json.toNat_not_surrogate c with h | h
                    · omega
                    · exact h.2
                  exact .inr (.inr ⟨'U', 8, rfl, by decide, by omega⟩)

theorem Tells.head_ne {quote c : Char} {part : List Char} (hquote : quote = '\'' ∨ quote = '"')
    (h : Tells quote c part) : ∃ first rest, part = first :: rest ∧ first ≠ quote := by
  have hslash : '\\' ≠ quote := by
    rcases hquote with rfl | rfl <;> decide
  rcases h with ⟨rfl, hother, -⟩ | ⟨e, rfl, -, -⟩ | ⟨e, width, rfl, -, -⟩
  · exact ⟨c, [], rfl, hother⟩
  · exact ⟨'\\', [e], rfl, hslash⟩
  · exact ⟨'\\', _, rfl, hslash⟩

theorem Tells.append_inj {quote c d : Char} {part part' x y : List Char} (h : Tells quote c part)
    (h' : Tells quote d part') (heq : part ++ x = part' ++ y) : c = d ∧ x = y := by
  rcases h with ⟨rfl, -, hslash⟩ | ⟨e, rfl, hnone, rfl⟩ | ⟨e, width, rfl, hwidth, hbound⟩
  · rcases h' with ⟨rfl, -, -⟩ | ⟨e, rfl, -, -⟩ | ⟨e, width, rfl, -, -⟩
    · exact List.cons.inj heq
    · exact absurd (List.cons.inj heq).1 hslash
    · exact absurd (List.cons.inj heq).1 hslash
  · rcases h' with ⟨rfl, -, hslash⟩ | ⟨e', rfl, -, rfl⟩ | ⟨e', width, rfl, hwidth, -⟩
    · exact absurd (List.cons.inj heq).1.symm hslash
    · obtain ⟨-, heq⟩ := List.cons.inj heq
      obtain ⟨rfl, rfl⟩ := List.cons.inj heq
      exact ⟨rfl, rfl⟩
    · obtain ⟨-, heq⟩ := List.cons.inj heq
      obtain ⟨rfl, -⟩ := List.cons.inj heq
      rw [hnone] at hwidth
      cases hwidth
  · rcases h' with ⟨rfl, -, hslash⟩ | ⟨e', rfl, hnone, -⟩ | ⟨e', width', rfl, hwidth', hbound'⟩
    · exact absurd (List.cons.inj heq).1.symm hslash
    · obtain ⟨-, heq⟩ := List.cons.inj heq
      obtain ⟨rfl, -⟩ := List.cons.inj heq
      rw [hnone] at hwidth
      cases hwidth
    · obtain ⟨-, htail⟩ := List.cons.inj heq
      obtain ⟨hletter, hpart⟩ := List.cons.inj htail
      subst hletter
      rw [hwidth] at hwidth'
      obtain rfl := Option.some.inj hwidth'
      have hlength : (hexDigits width c.toNat).length = (hexDigits width d.toNat).length := by
        rw [length_hexDigits, length_hexDigits]
      obtain ⟨hdigits, hrest⟩ := List.append_inj hpart hlength
      exact ⟨Json.toNat_inj (hexDigits_inj hbound hbound' hdigits), hrest⟩

theorem quoteOf_cases (s : String) : quoteOf s = '\'' ∨ quoteOf s = '"' := by
  unfold quoteOf
  split
  · exact .inr rfl
  · exact .inl rfl

theorem flatMap_escape_inj {quote : Char} (hquote : quote = '\'' ∨ quote = '"') {x y : List Char} :
    ∀ {l m : List Char}, l.flatMap (escape isPrintable quote) ++ quote :: x =
      m.flatMap (escape isPrintable quote) ++ quote :: y → l = m ∧ x = y
  | [], [], h => ⟨rfl, (List.cons.inj h).2⟩
  | [], d :: m, h => by
      obtain ⟨first, rest, hpart, hne⟩ :=
        (@escape_tells isPrintable _ hquote d).head_ne hquote
      rw [List.flatMap_cons, hpart] at h
      exact absurd (List.cons.inj h).1.symm hne
  | c :: l, [], h => by
      obtain ⟨first, rest, hpart, hne⟩ :=
        (@escape_tells isPrintable _ hquote c).head_ne hquote
      rw [List.flatMap_cons, hpart] at h
      exact absurd (List.cons.inj h).1 hne
  | c :: l, d :: m, h => by
      rw [List.flatMap_cons, List.flatMap_cons, List.append_assoc, List.append_assoc] at h
      obtain ⟨rfl, hrest⟩ := (escape_tells hquote c).append_inj (escape_tells hquote d) h
      obtain ⟨rfl, rfl⟩ := flatMap_escape_inj hquote hrest
      exact ⟨rfl, rfl⟩

theorem text_append_inj {s t : String} {x y : List Char}
    (h : text isPrintable s ++ x = text isPrintable t ++ y) : s = t ∧ x = y := by
  unfold text at h
  rw [List.cons_append, List.cons_append] at h
  obtain ⟨hquote, hbody⟩ := List.cons.inj h
  rw [← hquote, List.append_assoc, List.append_assoc] at hbody
  obtain ⟨hchars, hrest⟩ := flatMap_escape_inj (quoteOf_cases s) hbody
  exact ⟨String.toList_inj.mp hchars, hrest⟩

theorem pair_append_inj {p q : String × String} {x y : List Char}
    (h : pair isPrintable p ++ x = pair isPrintable q ++ y) : p = q ∧ x = y := by
  unfold pair at h
  simp only [List.cons_append, List.append_assoc] at h
  obtain ⟨hfirst, hgap⟩ := text_append_inj (List.cons.inj h).2
  obtain ⟨hsecond, hend⟩ := text_append_inj (List.cons.inj (List.cons.inj hgap).2).2
  exact ⟨Prod.ext hfirst hsecond, (List.cons.inj hend).2⟩

theorem pairsTail_inj : ∀ {l m : List (String × String)},
    pairsTail isPrintable l = pairsTail isPrintable m → l = m
  | [], [], _ => rfl
  | [], q :: m, h => absurd (List.cons.inj h).1 (by decide)
  | p :: l, [], h => absurd (List.cons.inj h).1 (by decide)
  | p :: l, q :: m, h => by
      obtain ⟨hhead, htail⟩ := pair_append_inj (List.cons.inj (List.cons.inj h).2).2
      rw [hhead, pairsTail_inj htail]

theorem pairs_inj : ∀ {l m : List (String × String)},
    pairs isPrintable l = pairs isPrintable m → l = m
  | [], [], _ => rfl
  | [], [q], h => absurd (List.cons.inj (List.cons.inj h).2).1 (by decide)
  | [], q :: q' :: m, h => absurd (List.cons.inj (List.cons.inj h).2).1 (by decide)
  | [p], [], h => absurd (List.cons.inj (List.cons.inj h).2).1 (by decide)
  | p :: p' :: l, [], h => absurd (List.cons.inj (List.cons.inj h).2).1 (by decide)
  | [p], [q], h => by
      rw [(pair_append_inj (List.cons.inj h).2).1]
  | [p], q :: q' :: m, h => by
      obtain ⟨-, htail⟩ := pair_append_inj (List.cons.inj h).2
      exact absurd (List.cons.inj (List.cons.inj htail).2).1 (by decide)
  | p :: p' :: l, [q], h => by
      obtain ⟨-, htail⟩ := pair_append_inj (List.cons.inj h).2
      exact absurd (List.cons.inj (List.cons.inj htail).2).1 (by decide)
  | p :: p' :: l, q :: q' :: m, h => by
      obtain ⟨hhead, htail⟩ := pair_append_inj (List.cons.inj h).2
      rw [hhead, pairsTail_inj htail]

end Etlantic.Repr
