import Mathlib.Data.List.Basic
import Mathlib.Tactic.IntervalCases
import Mathlib.Tactic.Ring

/-!
# Base64

Three bytes are written as four characters of six bits; one or two bytes at the
end are filled up with zero bits and marked with `=`.  `decode` accepts the
characters of the alphabet in groups of four, with the marks at the end only.
-/

namespace Etlantic.Base64

/-- The character of six bits. -/
def symbol (n : Nat) : Char :=
  if n < 26 then Char.ofNat (65 + n)
  else if n < 52 then Char.ofNat (71 + n)
  else if n < 62 then Char.ofNat (n - 4)
  else if n = 62 then '+'
  else '/'

/-- The six bits of a character. -/
def sextet (c : Char) : Option Nat :=
  if 'A' ≤ c ∧ c ≤ 'Z' then some (c.toNat - 65)
  else if 'a' ≤ c ∧ c ≤ 'z' then some (c.toNat - 71)
  else if '0' ≤ c ∧ c ≤ '9' then some (c.toNat + 4)
  else if c = '+' then some 62
  else if c = '/' then some 63
  else none

/-- `base64.b64encode`. -/
def encode : List UInt8 → List Char
  | [] => []
  | [x] => [symbol (x.toNat * 16 / 64), symbol (x.toNat * 16 % 64), '=', '=']
  | [x, y] =>
      let n := (x.toNat * 256 + y.toNat) * 4
      [symbol (n / 4096), symbol (n / 64 % 64), symbol (n % 64), '=']
  | x :: y :: z :: rest =>
      let n := x.toNat * 65536 + y.toNat * 256 + z.toNat
      symbol (n / 262144) :: symbol (n / 4096 % 64) :: symbol (n / 64 % 64) :: symbol (n % 64) ::
        encode rest

/-- `base64.b64decode(text, validate=True)`. -/
def decode : List Char → Option (List UInt8)
  | [] => some []
  | a :: b :: c :: d :: rest => do
      let p ← sextet a
      let q ← sextet b
      if c = '=' ∧ d = '=' ∧ rest = [] then
        return [UInt8.ofNat ((p * 64 + q) / 16)]
      let r ← sextet c
      if d = '=' ∧ rest = [] then
        let n := (p * 4096 + q * 64 + r) / 4
        return [UInt8.ofNat (n / 256), UInt8.ofNat (n % 256)]
      let s ← sextet d
      let bytes ← decode rest
      let n := p * 262144 + q * 4096 + r * 64 + s
      return UInt8.ofNat (n / 65536) :: UInt8.ofNat (n / 256 % 256) ::
        UInt8.ofNat (n % 256) :: bytes
  | _ => none

theorem sextet_symbol {n : Nat} (h : n < 64) : sextet (symbol n) = some n := by
  interval_cases n <;> decide

theorem sextet_pad : sextet '=' = none := by decide

theorem symbol_ne_pad {n : Nat} (h : n < 64) : symbol n ≠ '=' := by
  intro heq
  have hsome := sextet_symbol h
  rw [heq, sextet_pad] at hsome
  cases hsome

theorem three_sextets (n : Nat) : n / 4096 * 4096 + n / 64 % 64 * 64 + n % 64 = n := by
  have hdiv : n / 64 / 64 = n / 4096 := Nat.div_div_eq_div_mul n 64 64
  rw [← hdiv]
  omega

theorem four_sextets (n : Nat) :
    n / 262144 * 262144 + n / 4096 % 64 * 4096 + n / 64 % 64 * 64 + n % 64 = n := by
  have hdiv : n / 64 / 4096 = n / 262144 := Nat.div_div_eq_div_mul n 64 4096
  have hdiv' : n / 64 / 64 = n / 4096 := Nat.div_div_eq_div_mul n 64 64
  have hhigh := three_sextets (n / 64)
  rw [hdiv, hdiv'] at hhigh
  calc n / 262144 * 262144 + n / 4096 % 64 * 4096 + n / 64 % 64 * 64 + n % 64
      = (n / 262144 * 4096 + n / 4096 % 64 * 64 + n / 64 % 64) * 64 + n % 64 := by ring
    _ = n / 64 * 64 + n % 64 := by rw [hhigh]
    _ = n := Nat.div_add_mod' n 64

/-- What was encoded is read back. -/
theorem decode_encode : ∀ bytes : List UInt8, decode (encode bytes) = some bytes
  | [] => rfl
  | [x] => by
      have hx := x.toNat_lt
      have hfirst : x.toNat * 16 / 64 < 64 := by omega
      have hsecond : x.toNat * 16 % 64 < 64 := by omega
      have hback : (x.toNat * 16 / 64 * 64 + x.toNat * 16 % 64) / 16 = x.toNat := by omega
      simp only [encode, decode, sextet_symbol hfirst, sextet_symbol hsecond, Option.bind_eq_bind,
        Option.bind_some, and_self, if_true, hback, UInt8.ofNat_toNat]
      rfl
  | [x, y] => by
      have hx := x.toNat_lt
      have hy := y.toNat_lt
      have hfirst : (x.toNat * 256 + y.toNat) * 4 / 4096 < 64 := by omega
      have hsecond : (x.toNat * 256 + y.toNat) * 4 / 64 % 64 < 64 := by omega
      have hthird : (x.toNat * 256 + y.toNat) * 4 % 64 < 64 := by omega
      have hhigh : (x.toNat * 256 + y.toNat) / 256 = x.toNat := by omega
      have hlow : (x.toNat * 256 + y.toNat) % 256 = y.toNat := by omega
      have hback : ((x.toNat * 256 + y.toNat) * 4 / 4096 * 4096 +
          (x.toNat * 256 + y.toNat) * 4 / 64 % 64 * 64 + (x.toNat * 256 + y.toNat) * 4 % 64) / 4 =
            x.toNat * 256 + y.toNat := by
        rw [three_sextets, Nat.mul_div_cancel _ (by decide)]
      simp only [encode, decode, sextet_symbol hfirst, sextet_symbol hsecond, sextet_symbol hthird,
        symbol_ne_pad hthird, Option.bind_eq_bind, Option.bind_some, and_self, false_and, if_false,
        if_true, hback, hhigh, hlow, UInt8.ofNat_toNat]
      rfl
  | x :: y :: z :: rest => by
      have hx := x.toNat_lt
      have hy := y.toNat_lt
      have hz := z.toNat_lt
      have ih := decode_encode rest
      generalize hn : x.toNat * 65536 + y.toNat * 256 + z.toNat = n
      have hfirst : n / 262144 < 64 := by omega
      have hsecond : n / 4096 % 64 < 64 := by omega
      have hthird : n / 64 % 64 < 64 := by omega
      have hfourth : n % 64 < 64 := by omega
      have hback := four_sextets n
      have hhigh : n / 65536 = x.toNat := by omega
      have hmiddle : n / 256 % 256 = y.toNat := by omega
      have hlow : n % 256 = z.toNat := by omega
      simp only [encode, decode, hn, sextet_symbol hfirst, sextet_symbol hsecond,
        sextet_symbol hthird, sextet_symbol hfourth, symbol_ne_pad hthird, symbol_ne_pad hfourth,
        Option.bind_eq_bind, Option.bind_some, false_and, if_false, ih, hback, hhigh, hmiddle,
        hlow, UInt8.ofNat_toNat]
      rfl

theorem length_encode : ∀ bytes : List UInt8,
    (encode bytes).length = 4 * ((bytes.length + 2) / 3)
  | [] => rfl
  | [x] => by simp [encode]
  | [x, y] => by simp [encode]
  | x :: y :: z :: rest => by
      have ih := length_encode rest
      simp only [encode, List.length_cons, ih]
      omega

end Etlantic.Base64
