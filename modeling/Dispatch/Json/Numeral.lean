/-
Numbers in JSON text.

A numeral keeps the digits as they were written.  What it is worth depends on who asks:
a whole number within 64 bits is kept as it is, anything else becomes a double.  The
double is computed from at most nineteen or twenty leading digits, those that fit in 64
bits, scaled by one power of ten (or in steps of 10³⁰⁸); later digits of the whole part
count only as powers of ten and later digits of the fraction not at all.  For the texts
that coordinates are written in, this is the nearest double.

A numeral too large for a double is worth nothing.

Doubles are written with the fewest digits that read back, positionally from 10⁻⁵ up to
10¹⁶ and with a power of ten outside, and always with a point or a power.
-/
import Dispatch.Decimal.Shortest

namespace Dispatch

open Dispatch.Text Dispatch.Decimal

/-- A number as it is written. -/
structure Numeral where
  negative : Bool
  /-- the digits before the point -/
  whole : List Char
  /-- the digits after the point, none if there is no point -/
  fraction : List Char
  /-- the sign and the digits of the power of ten, if there is one -/
  power : Option (Bool × List Char)
  deriving DecidableEq, Repr

/-- What a number is worth. -/
inductive Quantity where
  | natural (n : Nat)
  | negative (n : Int)
  | real (x : Float)

namespace Quantity

/-- The quantity as a double. -/
def toFloat : Quantity → Float
  | natural n => (UInt64.ofNat n).toFloat
  | negative n => -(UInt64.ofNat n.natAbs).toFloat
  | real x => x

end Quantity

namespace Numeral

/-- The largest significand. -/
def mostSignificand : Nat := 2 ^ 64 - 1

/-- Appends digits to a significand as long as it stays within 64 bits; returns those left over. -/
def extend : Nat → List Char → Nat × List Char
  | n, [] => (n, [])
  | n, c :: rest =>
    let n' := 10 * n + digitValue c
    if mostSignificand < n' then (n, c :: rest) else extend n' rest

/-- `10 ^ n` as a double, for `n` up to 308. -/
def powerOfTen (n : Nat) : Float := Float.ofScientific 1 false n

/-- Divides by a power of ten, in steps of `10 ^ 308`. -/
def shrink (x : Float) (places : Nat) : Float :=
  if places ≤ 308 then x / powerOfTen places
  else if x == 0 then x
  else shrink (x / powerOfTen 308) (places - 308)
termination_by places

/-- A significand times a power of ten, unless the product is too large. -/
def scale? (significand : Nat) (exponent : Int) : Option Float :=
  let x := (UInt64.ofNat significand).toFloat
  if exponent < 0 then some (shrink x exponent.natAbs)
  else if 308 < exponent then if significand = 0 then some x else none
  else
    let y := x * powerOfTen exponent.toNat
    if y.isInf then none else some y

/-- The bound on the digits of a power of ten. -/
def mostPower : Nat := 2 ^ 31 - 1

/-- The double that a numeral stands for, without its sign. -/
def magnitude? (n : Numeral) : Option Float :=
  let (head, dropped) := extend 0 n.whole
  let (significand, ignored) := extend head n.fraction
  let exponent : Int := dropped.length - (n.fraction.length - ignored.length : Nat)
  match n.power with
  | none => scale? significand exponent
  | some (negative, ds) =>
    let p := natOfDigits ds
    if mostPower < p then if significand = 0 ∨ negative then some 0 else none
    else scale? significand (if negative then exponent - p else exponent + p)

/-- What the numeral is worth, unless it is too large. -/
def value? (n : Numeral) : Option Quantity :=
  let m := natOfDigits n.whole
  if n.fraction = [] ∧ n.power = none ∧ m ≤ mostSignificand ∧
      (n.negative = false ∨ (0 < m ∧ m ≤ 2 ^ 63)) then
    some (if n.negative then .negative (-m) else .natural m)
  else n.magnitude?.map fun x => .real (if n.negative then -x else x)

/-- The characters of a numeral. -/
def chars (n : Numeral) : List Char :=
  (if n.negative then ['-'] else []) ++ n.whole
    ++ (if n.fraction = [] then [] else '.' :: n.fraction)
    ++ match n.power with
      | none => []
      | some (negative, ds) => 'e' :: ((if negative then ['-'] else []) ++ ds)

/-- A whole number as a numeral. -/
def ofInt (n : Int) : Numeral := ⟨decide (n < 0), natDigits n.natAbs, [], none⟩

/-- A positive decimal as a numeral: positional near one, else with a power of ten. -/
def ofDigits (negative : Bool) (d : Digits) : Numeral :=
  let ds := natDigits d.digits
  let point := ds.length + d.exponent
  if 0 ≤ d.exponent ∧ point ≤ 16 then
    ⟨negative, ds ++ List.replicate d.exponent.toNat '0', ['0'], none⟩
  else if 0 < point ∧ point ≤ 16 then ⟨negative, ds.take point.toNat, ds.drop point.toNat, none⟩
  else if -5 < point ∧ point ≤ 0 then
    ⟨negative, ['0'], List.replicate (-point).toNat '0' ++ ds, none⟩
  else ⟨negative, ds.take 1, ds.drop 1, some (decide (point < 1), natDigits (point - 1).natAbs)⟩

/-- A finite double as a numeral. -/
def ofFloat? (x : Float) : Option Numeral :=
  (Binary.ofFloat? x).map fun b =>
    if b.significand = 0 then ⟨b.negative, ['0'], ['0'], none⟩
    else ofDigits b.negative b.shortest

end Numeral
end Dispatch
