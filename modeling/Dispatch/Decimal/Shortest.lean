/-
The fewest digits that read back.

A decimal text reads back as a double when it lies nearer to that double than to its
neighbours: in the interval between the two midpoints, whose ends belong to it when
the significand is even.  The shortest such text is found on the coarsest grid of
multiples of a power of ten that has a point in the interval, and on that grid the
point nearest to the double is taken.  Only two points of a grid can be nearest, the
ones on either side of the double.
-/
import Dispatch.Decimal.Binary
import Dispatch.Text.Digits

namespace Dispatch.Decimal

open Dispatch.Text

/-- A positive decimal number: `digits * 10 ^ exponent`. -/
structure Digits where
  digits : Nat
  exponent : Int
  deriving DecidableEq, Repr

namespace Binary

/-- Four times the lower end of the interval, in units of `2 ^ exponent`. -/
def lowerEnd (b : Binary) : Nat :=
  if b.significand = 2 ^ 52 ∧ -1074 < b.exponent then 4 * b.significand - 1
  else 4 * b.significand - 2

/-- Four times the upper end of the interval, in units of `2 ^ exponent`. -/
def upperEnd (b : Binary) : Nat := 4 * b.significand + 2

/-- What a multiple of `10 ^ k` is multiplied by, to compare it with an end of the interval. -/
def gridUnit (b : Binary) (k : Int) : Nat := 10 ^ k.toNat * 2 ^ (2 - b.exponent).toNat

/-- What an end of the interval is multiplied by, to compare it with a multiple of `10 ^ k`. -/
def endUnit (b : Binary) (k : Int) : Nat := 2 ^ (b.exponent - 2).toNat * 10 ^ (-k).toNat

/-- Whether `n * 10 ^ k` lies in the interval. -/
def reads (b : Binary) (n : Nat) (k : Int) : Bool :=
  let point := n * b.gridUnit k
  let low := b.lowerEnd * b.endUnit k
  let high := b.upperEnd * b.endUnit k
  if b.significand % 2 = 0 then decide (low ≤ point ∧ point ≤ high)
  else decide (low < point ∧ point < high)

/-- The point of the grid of multiples of `10 ^ k` that is nearest and reads back. -/
def gridPoint? (b : Binary) (k : Int) : Option Digits :=
  let exact := 4 * b.significand * b.endUnit k
  let unit := b.gridUnit k
  let below := exact / unit
  match b.reads below k, b.reads (below + 1) k with
  | true, true =>
    let rest := 2 * (exact % unit)
    let up := decide (unit < rest ∨ (unit = rest ∧ below % 2 = 1))
    some ⟨if up then below + 1 else below, k⟩
  | true, false => some ⟨below, k⟩
  | false, true => some ⟨below + 1, k⟩
  | false, false => none

/-- The shortest digits of a positive double. -/
def shortest (b : Binary) : Digits :=
  ((List.range 640).findSome? fun (i : Nat) => b.gridPoint? (310 - (i : Int))).getD ⟨0, 0⟩

end Binary

/-- A positive decimal in positional notation, with a point only where it needs one. -/
def Digits.positional (d : Digits) : List Char :=
  let ds := natDigits d.digits
  let point := ds.length + d.exponent
  if 0 ≤ d.exponent then ds ++ List.replicate d.exponent.toNat '0'
  else if 0 < point then ds.take point.toNat ++ '.' :: ds.drop point.toNat
  else '0' :: '.' :: List.replicate (-point).toNat '0' ++ ds

/-- A double in positional notation with the fewest digits that read back. -/
def positional (x : Float) : String :=
  match Binary.ofFloat? x with
  | none => if x.isNaN then "NaN" else if x < 0 then "-inf" else "inf"
  | some b =>
    let sign := if b.negative then ['-'] else []
    String.ofList (sign ++ if b.significand = 0 then ['0'] else b.shortest.positional)

end Dispatch.Decimal
