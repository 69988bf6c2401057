/-
Decimal digits.

Numbers are written and read digit by digit in half a dozen formats here: dates,
counts in a message, coordinates, amounts of seconds.  This is the part they share.
Only the ten ASCII digits count.
-/
namespace Dispatch

/-- Powers of numbers are those of the core library, whatever other libraries know about powers. -/
@[default_instance 20000]
instance (priority := high) instPowCore {α : Type} [NatPow α] : Pow α Nat := instPowNat

end Dispatch

namespace Dispatch.Text

/-- The value of a digit. -/
def digitValue (c : Char) : Nat := c.toNat - '0'.toNat

/-- The number that a run of digits stands for. -/
def natOfDigits (ds : List Char) : Nat := ds.foldl (fun n c => 10 * n + digitValue c) 0

/-- A number in decimal, without leading zeros. -/
def natDigits (n : Nat) : List Char := Nat.toDigits 10 n

/-- A number in decimal, with zeros in front up to `width` digits. -/
def paddedDigits (width n : Nat) : List Char :=
  let ds := natDigits n
  List.replicate (width - ds.length) '0' ++ ds

/-- Reads a number of at most `most` digits, and of at least `least`. -/
def takeDigits (least most : Nat) (cs : List Char) : Option (Nat × List Char) :=
  let ds := (cs.take most).takeWhile Char.isDigit
  if ds.length < least then none else some (natOfDigits ds, cs.drop ds.length)

end Dispatch.Text
