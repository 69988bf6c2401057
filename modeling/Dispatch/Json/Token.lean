/-
From characters to JSON tokens.

The scanner goes as far as the text makes sense and ends in `bad` where it does not.
A string may contain an escaped half of a surrogate pair: it is a token all the same,
because such a string is only wrong for somebody who wants its characters.
-/
import Dispatch.Json.Numeral

namespace Dispatch.Json

open Dispatch.Text

/-- A token of JSON text. -/
inductive Token where
  | openBracket
  | closeBracket
  | openBrace
  | closeBrace
  | colon
  | comma
  | null
  | bool (b : Bool)
  | number (n : Numeral)
  /-- a string, with its text unless an escape in it stands for half a character -/
  | string (s : Option String)
  /-- here the text stops being JSON -/
  | bad
  deriving DecidableEq, Repr

namespace Token

/-- Blanks between tokens. -/
def isSpace (c : Char) : Bool := c == ' ' || c == '\n' || c == '\t' || c == '\r'

/-- The value of a hexadecimal digit of either case. -/
def hexOf? (c : Char) : Option Nat :=
  if '0' ≤ c ∧ c ≤ '9' then some (c.toNat - 48)
  else if 'a' ≤ c ∧ c ≤ 'f' then some (c.toNat - 87)
  else if 'A' ≤ c ∧ c ≤ 'F' then some (c.toNat - 55)
  else none

/-- The code unit that four hexadecimal digits stand for. -/
def codeUnit? (a b c d : Char) : Option Nat := do
  return (← hexOf? a) * 4096 + (← hexOf? b) * 256 + (← hexOf? c) * 16 + (← hexOf? d)

/-- The character that a simple escape stands for. -/
def simpleEscape? (c : Char) : Option Char :=
  match c with
  | '"' => some '"'
  | '\\' => some '\\'
  | '/' => some '/'
  | 'b' => some '\x08'
  | 'f' => some '\x0c'
  | 'n' => some '\n'
  | 'r' => some '\r'
  | 't' => some '\t'
  | _ => none

/-- The code units of a string, up to its closing quotation mark, and what follows it. -/
def stringUnits : List Char → Option (List (Nat ⊕ Char) × List Char)
  | [] => none
  | '"' :: rest => some ([], rest)
  | '\\' :: 'u' :: a :: b :: c :: d :: rest =>
    match codeUnit? a b c d, stringUnits rest with
    | some u, some (us, after) => some (.inl u :: us, after)
    | _, _ => none
  | '\\' :: e :: rest =>
    match simpleEscape? e, stringUnits rest with
    | some c, some (us, after) => some (.inr c :: us, after)
    | _, _ => none
  | c :: rest =>
    if c = '\\' ∨ c.toNat < 0x20 then none
    else match stringUnits rest with
      | some (us, after) => some (.inr c :: us, after)
      | none => none

/-- Whether a code unit is the first half of a surrogate pair. -/
def isHighHalf (u : Nat) : Bool := decide (0xD800 ≤ u ∧ u < 0xDC00)

/-- Whether a code unit is the second half of a surrogate pair. -/
def isLowHalf (u : Nat) : Bool := decide (0xDC00 ≤ u ∧ u < 0xE000)

/-- The characters of a string, unless half of one stands alone. -/
def joinUnits : List (Nat ⊕ Char) → Option (List Char)
  | [] => some []
  | .inr c :: rest => (joinUnits rest).map (c :: ·)
  | .inl u :: .inl v :: rest =>
    if isHighHalf u ∧ isLowHalf v then
      (joinUnits rest).map (Char.ofNat (0x10000 + (u - 0xD800) * 1024 + (v - 0xDC00)) :: ·)
    else if isHighHalf u ∨ isLowHalf u then none
    else (joinUnits (.inl v :: rest)).map (Char.ofNat u :: ·)
  | .inl u :: rest =>
    if isHighHalf u ∨ isLowHalf u then none else (joinUnits rest).map (Char.ofNat u :: ·)

/-- The digits of a fraction, if a point announces one. -/
def fractionPart : List Char → Option (List Char × List Char)
  | '.' :: rest =>
    let ds := rest.takeWhile Char.isDigit
    if ds = [] then none else some (ds, rest.dropWhile Char.isDigit)
  | rest => some ([], rest)

/-- The digits of a power of ten after its sign. -/
def powerDigits (negative : Bool) (cs : List Char) :
    Option (Option (Bool × List Char) × List Char) :=
  let ds := cs.takeWhile Char.isDigit
  if ds = [] then none else some (some (negative, ds), cs.dropWhile Char.isDigit)

/-- A power of ten, if a letter announces one. -/
def powerPart : List Char → Option (Option (Bool × List Char) × List Char)
  | [] => some (none, [])
  | e :: rest =>
    if e = 'e' ∨ e = 'E' then
      match rest with
      | '+' :: cs => powerDigits false cs
      | '-' :: cs => powerDigits true cs
      | cs => powerDigits false cs
    else some (none, e :: rest)

/-- A number without its sign. -/
def numeral (negative : Bool) (cs : List Char) : Option (Numeral × List Char) := do
  let whole := cs.takeWhile Char.isDigit
  if whole = [] ∨ (whole.head? = some '0' ∧ whole.length ≠ 1) then none
  let (fraction, cs) ← fractionPart (cs.dropWhile Char.isDigit)
  let (power, cs) ← powerPart cs
  return (⟨negative, whole, fraction, power⟩, cs)

/-- The token that a text begins with, and what follows it. -/
def first (cs : List Char) : Token × List Char :=
  match cs with
  | '[' :: rest => (openBracket, rest)
  | ']' :: rest => (closeBracket, rest)
  | '\x7b' :: rest => (openBrace, rest)
  | '\x7d' :: rest => (closeBrace, rest)
  | ':' :: rest => (colon, rest)
  | ',' :: rest => (comma, rest)
  | 'n' :: 'u' :: 'l' :: 'l' :: rest => (null, rest)
  | 't' :: 'r' :: 'u' :: 'e' :: rest => (bool true, rest)
  | 'f' :: 'a' :: 'l' :: 's' :: 'e' :: rest => (bool false, rest)
  | '"' :: rest =>
    match stringUnits rest with
    | some (us, after) => (string ((joinUnits us).map String.ofList), after)
    | none => (bad, [])
  | '-' :: rest =>
    match numeral true rest with
    | some (n, after) => (number n, after)
    | none => (bad, [])
  | _ =>
    match numeral false cs with
    | some (n, after) => (number n, after)
    | none => (bad, [])

/-- The tokens of a text, scanned for at most `steps` characters' worth of steps. -/
def scanFor : (steps : Nat) → List Char → List Token
  | 0, _ => []
  | _, [] => []
  | steps + 1, c :: cs =>
    if isSpace c then scanFor steps cs
    else
      let (t, rest) := first (c :: cs)
      t :: scanFor steps rest

/-- The tokens of a text.  Each takes at least one character, so the text's length suffices. -/
def scan (cs : List Char) : List Token := scanFor cs.length cs

end Token
end Dispatch.Json
