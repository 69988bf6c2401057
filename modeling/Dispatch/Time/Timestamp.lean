/-
The written form of an instant.

An instant is written as RFC 3339 has it, in UTC with a final `Z`, and with a
fraction of the fewest digits out of 0, 3, 6 and 9 that lose nothing.  A year
outside 0 to 9999 carries its sign and at least four digits.  A leap second is
written as second 60.

The reader is more generous.  It takes any offset from UTC, the letter `t` or a
space between date and time, one digit where two are usual, spaces around the
separators, a fraction of any length (digits past the ninth are dropped) and `UTC`
for the offset.  An offset must be there.
-/
import Dispatch.Text.Blank
import Dispatch.Text.Digits
import Dispatch.Time.Instant

namespace Dispatch.Time

open Dispatch.Text

namespace Date

/-- A year in four digits, or with its sign outside 0 to 9999. -/
def yearText (year : Int) : List Char :=
  if 0 ≤ year ∧ year ≤ 9999 then paddedDigits 4 year.toNat
  else (if year < 0 then '-' else '+') :: paddedDigits 4 year.natAbs

/-- The date as `YYYY-MM-DD`. -/
def text (d : Date) : List Char :=
  yearText d.year ++ '-' :: paddedDigits 2 d.month ++ '-' :: paddedDigits 2 d.day

end Date

namespace Instant

/-- The nanoseconds after the point, in the fewest of 0, 3, 6 and 9 digits. -/
def fractionText (nanos : Nat) : List Char :=
  if nanos = 0 then []
  else if nanos % 1000000 = 0 then '.' :: paddedDigits 3 (nanos / 1000000)
  else if nanos % 1000 = 0 then '.' :: paddedDigits 6 (nanos / 1000)
  else '.' :: paddedDigits 9 nanos

/-- The characters of the written form. -/
def chars (t : Instant) : List Char :=
  let secondOfDay := (t.seconds % 86400).toNat
  let leap := if t.isLeap then 1 else 0
  (Date.ofDayNumber (t.seconds / 86400)).text
    ++ 'T' :: paddedDigits 2 (secondOfDay / 3600)
    ++ ':' :: paddedDigits 2 (secondOfDay / 60 % 60)
    ++ ':' :: paddedDigits 2 (secondOfDay % 60 + leap)
    ++ fractionText (t.nanos - leap * nanosPerSecond) ++ ['Z']

/-- The written form. -/
def text (t : Instant) : String := String.ofList t.chars

instance : ToString Instant := ⟨text⟩

/-! ### Reading -/

/-- What is left without the blanks in front. -/
def skipBlanks (cs : List Char) : List Char := cs.dropWhile isBlankChar

/-- Passes over one character, which may have blanks around it. -/
def separator (c : Char) (cs : List Char) : Option (List Char) :=
  match skipBlanks cs with
  | c' :: rest => if c' = c then some (skipBlanks rest) else none
  | [] => none

/-- A year: four digits at most, or a sign and any number of them. -/
def readYear (cs : List Char) : Option (Int × List Char) :=
  match skipBlanks cs with
  | '-' :: rest => (takeDigits 1 rest.length rest).map fun (n, rest) => (-(n : Int), rest)
  | '+' :: rest => (takeDigits 1 rest.length rest).map fun (n, rest) => ((n : Int), rest)
  | rest => (takeDigits 1 4 rest).map fun (n, rest) => ((n : Int), rest)

/-- A number of one or two digits that lies between two bounds. -/
def readPart (low high : Nat) (cs : List Char) : Option (Nat × List Char) :=
  match takeDigits 1 2 (skipBlanks cs) with
  | some (n, rest) => if low ≤ n ∧ n ≤ high then some (n, rest) else none
  | none => none

/-- A day of the calendar. -/
def readDate (cs : List Char) : Option (Date × List Char) := do
  let (year, cs) ← readYear cs
  let cs ← separator '-' cs
  let (month, cs) ← readPart 1 12 cs
  let cs ← separator '-' cs
  let (day, cs) ← readPart 1 31 cs
  let date : Date := ⟨year, month, day⟩
  if date.IsValid then some (date, cs) else none

/-- The letter between date and time, or the one space that may stand for it. -/
def timeMark : List Char → Option (List Char)
  | 'T' :: rest | 't' :: rest | ' ' :: rest => some rest
  | _ => none

/-- A fraction in nanoseconds, if a point announces one. -/
def readFraction : List Char → Option (Nat × List Char)
  | '.' :: rest =>
    let ds := (rest.take 9).takeWhile Char.isDigit
    if ds = [] then none
    else some (natOfDigits ds * 10 ^ (9 - ds.length), rest.dropWhile Char.isDigit)
  | rest => some (0, rest)

/-- What may stand between the hours and the minutes of an offset. -/
def isOffsetGap (c : Char) : Bool := c == ':' || isBlankChar c

/-- The seconds of an offset of the form `hh:mm` without its sign. -/
def readOffsetSize (cs : List Char) : Option (Nat × List Char) := do
  let (hours, cs) ← takeDigits 2 2 cs
  let (minutes, cs) ← takeDigits 2 2 (cs.dropWhile isOffsetGap)
  if minutes ≤ 59 then some (hours * 3600 + minutes * 60, cs) else none

/-- The offset from UTC in seconds. -/
def readOffset : List Char → Option (Int × List Char)
  | 'Z' :: rest | 'z' :: rest => some (0, rest)
  | '+' :: rest => (readOffsetSize rest).map fun (n, rest) => ((n : Int), rest)
  | '-' :: rest | '−' :: rest => (readOffsetSize rest).map fun (n, rest) => (-(n : Int), rest)
  | a :: b :: c :: rest =>
    if [a, b, c].map Char.toUpper = ['U', 'T', 'C'] then some (0, rest) else none
  | _ => none

/-- Reads an instant from all of a text. -/
def read? (cs : List Char) : Option Instant := do
  let (date, cs) ← readDate cs
  let cs ← timeMark cs
  let (hour, cs) ← readPart 0 23 cs
  let cs ← separator ':' cs
  let (minute, cs) ← readPart 0 59 cs
  let cs ← separator ':' cs
  let (second, cs) ← readPart 0 60 cs
  let (fraction, cs) ← readFraction cs
  let (offset, cs) ← readOffset (skipBlanks cs)
  let leap := if second = 60 then 1 else 0
  let written := date.dayNumber * 86400 + hour * 3600 + minute * 60 + (second - leap : Nat)
  if skipBlanks cs = [] ∧ offset.natAbs < 86400 ∧ InRange written ∧ InRange (written - offset)
  then some ⟨written - offset, fraction + leap * nanosPerSecond⟩
  else none

/-- Reads an instant from a text. -/
def ofText? (s : String) : Option Instant := read? s.toList

end Instant
end Dispatch.Time
