/-
Numbers as they are given in a query or in the environment.

A whole number is a run of digits that may begin with a plus sign and must not exceed
a bound.  It is read from the left, and the first digit that leads past the bound
decides, unless the character there is no digit at all.

A number with a fraction may have a sign, needs a digit before or after its point, and
may end in a power of ten.  Infinity and "not a number" can be spelled out.  The
result is the double nearest to the number written.
-/
import Dispatch.Text.Digits

namespace Dispatch.Decimal

open Dispatch.Text

/-- Why a text is not a number of the kind asked for. -/
inductive NumberFault where
  | emptyWhole
  | notADigit
  | tooLarge
  | emptyFraction
  | notANumber
  deriving DecidableEq, Repr

/-- The fault in words. -/
def NumberFault.message : NumberFault → String
  | emptyWhole => "cannot parse integer from empty string"
  | notADigit => "invalid digit found in string"
  | tooLarge => "number too large to fit in target type"
  | emptyFraction => "cannot parse float from empty string"
  | notANumber => "invalid float literal"

/-- Reads on a run of digits, none of which may lead past the bound. -/
def readDigits (most : Nat) : Nat → List Char → Except NumberFault Nat
  | n, [] => .ok n
  | n, c :: rest =>
    if c.isDigit then
      let n' := 10 * n + digitValue c
      if most < n' then .error .tooLarge else readDigits most n' rest
    else .error .notADigit

/-- A whole number between zero and a bound. -/
def readWhole (most : Nat) (s : String) : Except NumberFault Nat :=
  match s.toList with
  | [] => .error .emptyWhole
  | ['+'] => .error .notADigit
  | '+' :: ds => readDigits most 0 ds
  | ds => readDigits most 0 ds

/-- The double nearest to `m * 10 ^ e`. -/
def nearestFloat (m : Nat) (e : Int) : Float :=
  let magnitude := (natDigits m).length + e
  if m = 0 ∨ magnitude < -330 then 0
  else if 310 < magnitude then 1 / 0
  else Float.ofScientific m (e < 0) e.natAbs

/-- The power of ten at the end of a number, zero if there is none. -/
def readPower : List Char → Option Int
  | [] => some 0
  | e :: rest =>
    if e = 'e' ∨ e = 'E' then
      let (negative, ds) : Bool × List Char := match rest with
        | '+' :: ds => (false, ds)
        | '-' :: ds => (true, ds)
        | ds => (false, ds)
      if ds = [] ∨ !ds.all Char.isDigit then none
      else some (if negative then -(natOfDigits ds : Int) else natOfDigits ds)
    else none

/-- A number without its sign. -/
def readMagnitude (cs : List Char) : Option Float :=
  let whole := cs.takeWhile Char.isDigit
  let rest := cs.dropWhile Char.isDigit
  let (fraction, rest) : List Char × List Char := match rest with
    | '.' :: rest => (rest.takeWhile Char.isDigit, rest.dropWhile Char.isDigit)
    | rest => ([], rest)
  if whole ++ fraction = [] then none
  else (readPower rest).map fun e =>
    nearestFloat (natOfDigits (whole ++ fraction)) (e - fraction.length)

/-- Infinity or "not a number", in letters of either case. -/
def readName (cs : List Char) : Option Float :=
  let word := String.ofList (cs.map Char.toLower)
  if word = "inf" ∨ word = "infinity" then some (1 / 0)
  else if word = "nan" then some (0 / 0)
  else none

/-- A number with or without a fraction. -/
def readFloat (s : String) : Except NumberFault Float :=
  let unsigned (cs : List Char) : Except NumberFault Float :=
    match readMagnitude cs <|> readName cs with
    | some x => .ok x
    | none => .error .notANumber
  match s.toList with
  | [] => .error .emptyFraction
  | '+' :: cs => unsigned cs
  | '-' :: cs => (unsigned cs).map Float.neg
  | cs => unsigned cs

end Dispatch.Decimal
