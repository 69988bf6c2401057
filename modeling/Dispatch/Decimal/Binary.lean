/-
Doubles as exact numbers.

A finite double is a whole number times a power of two.  Everything that is printed
is computed from that pair in exact arithmetic, so no printing depends on how a
library happens to format numbers.
-/
import Dispatch.Text.Digits

namespace Dispatch.Decimal

/-- A finite double: `significand * 2 ^ exponent`, with a sign of its own. -/
structure Binary where
  negative : Bool
  significand : Nat
  exponent : Int
  deriving DecidableEq, Repr

namespace Binary

/-- The exact value of the double with the given 64 bits, unless it is infinite or no number. -/
def ofBits? (bits : Nat) : Option Binary :=
  let negative := decide (2 ^ 63 ≤ bits)
  let field : Nat := bits / 2 ^ 52 % 2048
  let fraction : Nat := bits % 2 ^ 52
  if field = 2047 then none
  else if field = 0 then some ⟨negative, fraction, -1074⟩
  else some ⟨negative, 2 ^ 52 + fraction, (field : Int) - 1075⟩

/-- The exact value of a double, unless it is infinite or no number. -/
def ofFloat? (x : Float) : Option Binary := ofBits? x.toBits.toNat

/-- The value times a power of ten, as a quotient of whole numbers. -/
def scaled (b : Binary) (places : Nat) : Nat × Nat :=
  (b.significand * 2 ^ b.exponent.toNat * 10 ^ places, 2 ^ (-b.exponent).toNat)

end Binary

/-- The sixteen hexadecimal digits of a double's bits. -/
def bitDigits (x : Float) : List Char :=
  let ds := Nat.toDigits 16 x.toBits.toNat
  List.replicate (16 - ds.length) '0' ++ ds

end Dispatch.Decimal
