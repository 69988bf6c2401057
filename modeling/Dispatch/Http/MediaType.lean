/-
Media types.

A media type is a type and a subtype with a slash in between, and parameters after
semicolons.  The part of the subtype after its last plus sign is its suffix.  A body counts
as JSON when it is declared as `application/json`, or as any `application` type with the
suffix `json`; letters may be of either case.

A parameter is a name, an equals sign and a value, which may be quoted.  Spaces may stand
before a name and after a quoted value, and nowhere else outside quotation marks.  A quoted
value has at least one character; whatever comes first is part of it.
-/
import Dispatch.Text.Split

namespace Dispatch.Http

open Dispatch.Text

/-- Whether a character can be part of a name. -/
def isTokenChar (c : Char) : Bool :=
  c.isAlphanum || "!#$%&'*+-.^_`|~".toList.contains c

/-- Whether a character can stand in a quoted value. -/
def isQuotable (c : Char) : Bool := decide (31 < c.toNat) && decide (c.toNat < 127)

/-- What is left of a parameter's value and of all that may follow it. -/
inductive AfterValue where
  | more (rest : List Char)
  | ended
  | faulty

/-- Reads on after a quoted value. -/
def afterQuoted : List Char → AfterValue
  | [] => .ended
  | ';' :: rest => .more rest
  | ' ' :: rest => afterQuoted rest
  | _ => .faulty

/-- Reads a value. -/
def readValue (cs : List Char) : AfterValue :=
  match cs with
  | '"' :: first :: quoted =>
    let body := quoted.takeWhile fun c => c ≠ '"' && isQuotable c
    match quoted.drop body.length with
    | '"' :: rest => if isQuotable first then afterQuoted rest else .faulty
    | _ => .faulty
  | _ =>
    let body := cs.takeWhile isTokenChar
    match cs.drop body.length with
    | [] => .ended
    | ';' :: rest => if body.isEmpty then .faulty else .more rest
    | _ => .faulty

/-- Whether a text is a list of parameters. -/
def areParameters : (steps : Nat) → List Char → Bool
  | 0, _ => false
  | steps + 1, cs =>
    let cs := cs.dropWhile (· = ' ')
    if cs.isEmpty then true
    else
      let name := cs.takeWhile fun c => c ≠ '=' && isTokenChar c
      match cs.drop name.length with
      | '=' :: rest =>
        if name.isEmpty then false
        else match readValue rest with
          | .more rest => areParameters steps rest
          | .ended => true
          | .faulty => false
      | _ => false

/-- The subtype without its suffix, and the suffix. -/
def splitSuffix (subtype : List Char) : List Char × List Char :=
  match subtype with
  | [] => ([], [])
  | first :: rest =>
    let suffix := (rest.reverse.takeWhile (· ≠ '+')).reverse
    if suffix.length = rest.length then (subtype, [])
    else (first :: rest.take (rest.length - suffix.length - 1), suffix)

/-- Whether a media type declares JSON. -/
def isJsonType (mediaType : String) : Bool :=
  let cs := mediaType.toList.map Char.toLower
  match cutAt '/' cs with
  | (type, some rest) =>
    let (subtype, parameters) := cutAt ';' rest
    let (base, suffix) := splitSuffix subtype
    decide (type = "application".toList) && subtype.all isTokenChar
      && (base = "json".toList || suffix = "json".toList)
      && (parameters.all fun ps => areParameters (ps.length + 1) ps)
  | _ => false

end Dispatch.Http
