/-
Identifiers of matches.

A `Uuid` is thirty-two hexadecimal digits.  It is written in lower case with hyphens
in groups of 8, 4, 4, 4 and 12; it is also read without hyphens, in braces, and after
`urn:uuid:`, with digits of either case.

New identifiers are of version 4.  They are counted rather than drawn by lot: the
`n`-th one scatters `n` over the 122 free bits by a multiplication that hits every
value once, so that no two are equal and their order says nothing about their age.
-/
import Dispatch.Text.Digits

namespace Dispatch

/-- The value of a hexadecimal digit. -/
def hexValue? (c : Char) : Option (Fin 16) :=
  if '0' ≤ c ∧ c ≤ '9' then some (Fin.ofNat 16 (c.toNat - 48))
  else if 'a' ≤ c ∧ c ≤ 'f' then some (Fin.ofNat 16 (c.toNat - 87))
  else if 'A' ≤ c ∧ c ≤ 'F' then some (Fin.ofNat 16 (c.toNat - 55))
  else none

/-- A hexadecimal digit in lower case. -/
def hexDigit (d : Fin 16) : Char := Char.ofNat (if d.val < 10 then d.val + 48 else d.val + 87)

@[simp] theorem hexValue?_hexDigit (d : Fin 16) : hexValue? (hexDigit d) = some d := by
  revert d; decide

/-- An identifier of 128 bits. -/
structure Uuid where
  /-- its hexadecimal digits, the most significant first -/
  digits : List (Fin 16)
  length_digits : digits.length = 32
  deriving DecidableEq

namespace Uuid

/-- The identifier as a number. -/
def toNat (u : Uuid) : Nat := u.digits.foldl (fun n d => 16 * n + d.val) 0

/-- Order by value. -/
def le (a b : Uuid) : Bool := decide (a.toNat ≤ b.toNat)

/-- The identifier whose bits are all zero. -/
def nil : Uuid := ⟨List.replicate 32 0, rfl⟩

instance : Inhabited Uuid := ⟨nil⟩

/-- The low `count` hexadecimal digits of a number. -/
def hexDigitsOf : (count n : Nat) → List (Fin 16)
  | 0, _ => []
  | count + 1, n => Fin.ofNat 16 (n / 16 ^ count) :: hexDigitsOf count n

theorem length_hexDigitsOf (count n : Nat) : (hexDigitsOf count n).length = count := by
  induction count with
  | zero => rfl
  | succ count ih => simp [hexDigitsOf, ih]

/-- The number that the free bits of the `n`-th new identifier spell. -/
def scatter (n : Nat) : Nat := (n * 0x2545F4914F6CDD1D8B2A5E9C7F3D165 + 0x1A2B3C4D5E6F708192A3B4C5D6E7F80) % 2 ^ 122

/-- The `n`-th new identifier. -/
def fresh (n : Nat) : Uuid :=
  let bits := scatter n
  { digits := hexDigitsOf 12 bits ++ 4 :: hexDigitsOf 3 (bits / 2 ^ 48)
      ++ Fin.ofNat 16 (8 + bits / 2 ^ 60 % 4) :: hexDigitsOf 15 (bits / 2 ^ 62)
    length_digits := by simp [length_hexDigitsOf] }

/-! ### Writing -/

/-- The digits of an identifier in its written order, without hyphens. -/
def plainChars (u : Uuid) : List Char := u.digits.map hexDigit

/-- The written form: five groups joined by hyphens. -/
def chars (u : Uuid) : List Char :=
  let cs := u.plainChars
  cs.take 8 ++ '-' :: (cs.drop 8).take 4 ++ '-' :: (cs.drop 12).take 4
    ++ '-' :: (cs.drop 16).take 4 ++ '-' :: cs.drop 20

/-- The written form. -/
def text (u : Uuid) : String := String.ofList u.chars

instance : ToString Uuid := ⟨text⟩

/-! ### Reading -/

/-- Thirty-two digits and nothing else. -/
def ofPlain? (cs : List Char) : Option Uuid :=
  match cs.mapM hexValue? with
  | some ds => if h : ds.length = 32 then some ⟨ds, h⟩ else none
  | none => none

/-- Five groups joined by hyphens. -/
def ofHyphenated? (cs : List Char) : Option Uuid :=
  if cs.length = 36 ∧ cs[8]? = some '-' ∧ cs[13]? = some '-' ∧ cs[18]? = some '-'
      ∧ cs[23]? = some '-'
  then ofPlain? (cs.take 8 ++ (cs.drop 9).take 4 ++ (cs.drop 14).take 4
    ++ (cs.drop 19).take 4 ++ cs.drop 24)
  else none

/-- The scheme that may stand before an identifier. -/
def urn : List Char := ['u', 'r', 'n', ':', 'u', 'u', 'i', 'd', ':']

/-- Reads an identifier in any of its four forms. -/
def read? (cs : List Char) : Option Uuid :=
  if cs.length = 32 then ofPlain? cs
  else if cs.length = 36 then ofHyphenated? cs
  else if cs.length = 38 ∧ cs.head? = some '{' ∧ cs.getLast? = some '}' then
    ofHyphenated? (cs.drop 1).dropLast
  else if cs.length = 45 ∧ cs.take 9 = urn then ofHyphenated? (cs.drop 9)
  else none

/-- Reads an identifier from a text. -/
def ofText? (s : String) : Option Uuid := read? s.toList

end Uuid
end Dispatch
