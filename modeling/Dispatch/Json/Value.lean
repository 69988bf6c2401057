/-
JSON values and their text.

The written form has no spaces.  A quotation mark, a backslash and the control
characters are escaped, everything else stands for itself.  A double that is infinite
or no number is written as `null`.
-/
import Dispatch.Json.Numeral

namespace Dispatch

/-- A value to be written as JSON. -/
inductive Json where
  | null
  | bool (b : Bool)
  | whole (n : Int)
  | real (x : Float)
  | string (s : String)
  | array (items : List Json)
  | object (fields : List (String × Json))

namespace Json

open Dispatch.Text

/-- A control character by its four hexadecimal digits. -/
def unicodeEscape (c : Char) : List Char :=
  let ds := Nat.toDigits 16 c.toNat
  '\\' :: 'u' :: (List.replicate (4 - ds.length) '0' ++ ds)

/-- A character inside quotation marks. -/
def escape (c : Char) : List Char :=
  if c = '"' then ['\\', '"']
  else if c = '\\' then ['\\', '\\']
  else if c = '\x08' then ['\\', 'b']
  else if c = '\t' then ['\\', 't']
  else if c = '\n' then ['\\', 'n']
  else if c = '\x0c' then ['\\', 'f']
  else if c = '\r' then ['\\', 'r']
  else if c.toNat < 0x20 then unicodeEscape c
  else [c]

/-- A text in quotation marks. -/
def quote (s : String) : List Char := '"' :: (s.toList.flatMap escape ++ ['"'])

mutual

/-- The characters of a value. -/
def chars : Json → List Char
  | null => ['n', 'u', 'l', 'l']
  | bool true => ['t', 'r', 'u', 'e']
  | bool false => ['f', 'a', 'l', 's', 'e']
  | whole n => (Numeral.ofInt n).chars
  | real x => match Numeral.ofFloat? x with
    | some n => n.chars
    | none => ['n', 'u', 'l', 'l']
  | string s => quote s
  | array items => '[' :: itemChars items
  | object fields => '\x7b' :: fieldChars fields

/-- The items of an array and the bracket that closes it. -/
def itemChars : List Json → List Char
  | [] => [']']
  | [j] => j.chars ++ [']']
  | j :: rest => j.chars ++ ',' :: itemChars rest

/-- The fields of an object and the brace that closes it. -/
def fieldChars : List (String × Json) → List Char
  | [] => ['\x7d']
  | [(k, j)] => quote k ++ ':' :: j.chars ++ ['\x7d']
  | (k, j) :: rest => quote k ++ ':' :: j.chars ++ ',' :: fieldChars rest

end

/-- The text of a value. -/
def text (j : Json) : String := String.ofList j.chars

/-- A value that may be missing, as `null` where it is. -/
def ofOption {α : Type} (f : α → Json) : Option α → Json
  | some a => f a
  | none => null

end Json
end Dispatch
