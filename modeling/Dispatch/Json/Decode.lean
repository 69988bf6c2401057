/-
Records out of JSON.

A record is an object with named fields in any order, or an array of its fields in their
order.  In an object unknown fields are passed over, a field may not come twice, and an
optional field may be missing.  In an array only the fields at the end that have a
default may be missing, and nothing may follow the last field.

Reading goes from left to right and stops at the first fault, which is `malformed` where
the text is not JSON and `mismatched` where it is JSON of the wrong shape.
-/
import Dispatch.Json.Doc
import Dispatch.Json.Value

namespace Dispatch.Json

/-- Why a text is not the record asked for. -/
inductive Fault where
  /-- the text is not JSON -/
  | malformed
  /-- it is JSON of another shape -/
  | mismatched
  deriving DecidableEq, Repr

/-- A way to read a value. -/
abbrev Reader (α : Type) : Type := Doc → Except Fault α

namespace Doc

/-- The fault of a value that is of another kind than the one asked for. -/
def unexpected : Doc → Fault
  | broken => .malformed
  | string none => .malformed
  | number n => if n.value?.isSome then .mismatched else .malformed
  | _ => .mismatched

/-- Reads a text. -/
def asString : Reader String
  | string (some s) => .ok s
  | d => .error d.unexpected

/-- Reads a truth value. -/
def asBool : Reader Bool
  | bool b => .ok b
  | d => .error d.unexpected

/-- Reads a number as a double. -/
def asFloat : Reader Float
  | number n => match n.value? with
    | some q => .ok q.toFloat
    | none => .error .malformed
  | d => .error d.unexpected

/-- Reads a whole number from zero up. -/
def asNatural : Reader Nat
  | number n => match n.value? with
    | some (.natural m) => .ok m
    | some _ => .error .mismatched
    | none => .error .malformed
  | d => .error d.unexpected

/-- Reads a value for which `null` may stand. -/
def asOption {α : Type} (r : Reader α) : Reader (Option α)
  | null => .ok none
  | d => (r d).map some

/-- Reads a text in a notation of its own. -/
def asParsed {α : Type} (parse : String → Option α) : Reader α := fun d =>
  match asString d with
  | .ok s => match parse s with
    | some a => .ok a
    | none => .error .mismatched
  | .error f => .error f

/-- Reads one of several names, alone or as the only key of an object whose value is `null`. -/
def asName {α : Type} (named : String → Option α) : Reader α
  | string (some s) => match named s with
    | some a => .ok a
    | none => .error .mismatched
  | object ((key, d) :: rest) ending =>
    match asParsed named key with
    | .ok a => match d with
      | null => if rest.isEmpty ∧ ending = .closed then .ok a else .error .malformed
      | d => .error d.unexpected
    | .error f => .error f
  | _ => .error .malformed

/-! ### Records -/

/-- Whether a field may be left out. -/
inductive Presence where
  | required
  /-- may be missing from an object -/
  | optional
  /-- may also be missing from the end of an array -/
  | defaulted
  deriving DecidableEq, Repr

/-- A field of a record: its name, what its value has to be, and whether it may be left out. -/
structure Field where
  name : String
  /-- the fault of a value that does not do -/
  fault? : Doc → Option Fault
  presence : Presence

/-- The field whose value is read by `r`. -/
def Field.of {α : Type} (name : String) (r : Reader α) (presence : Presence := .required) : Field where
  name := name
  fault? d := match r d with
    | .ok _ => none
    | .error f => some f
  presence := presence

/-- The values of a record's fields, by name. -/
abbrev Fields : Type := List (String × Doc)

/-- The value of a field, `null` where it was left out. -/
def Fields.get (fs : Fields) (name : String) : Doc := (fs.lookup name).getD null

/-- Takes the entries of an object in turn. -/
def takeEntries (schema : List Field) : List (Doc × Doc) → Fields → Except Fault Fields
  | [], found => .ok found
  | (string (some name), d) :: rest, found =>
    match schema.find? fun f => f.name = name with
    | some f =>
      if (found.lookup name).isSome then .error .mismatched
      else match f.fault? d with
        | some fault => .error fault
        | none => takeEntries schema rest (found ++ [(name, d)])
    | none => if d.isWellFormed then takeEntries schema rest found else .error .malformed
  | _, _ => .error .malformed

/-- Takes the elements of an array, one for each field. -/
def takeElements : List Field → List Doc → Ending → Except Fault Fields
  | [], [], .closed => .ok []
  | [], _, _ => .error .malformed
  | _, [], .broken => .error .malformed
  | f :: fs, [], .closed =>
    if f.presence = .defaulted then takeElements fs [] .closed else .error .mismatched
  | f :: fs, d :: ds, ending =>
    match f.fault? d with
    | some fault => .error fault
    | none => (takeElements fs ds ending).map ((f.name, d) :: ·)

/-- The fields of a record, each of them checked. -/
def fields (schema : List Field) : Reader Fields
  | object entries ending =>
    match takeEntries schema entries [] with
    | .error f => .error f
    | .ok found =>
      if ending = .broken then .error .malformed
      else if schema.all fun f => f.presence ≠ .required || (found.lookup f.name).isSome
      then .ok found
      else .error .mismatched
  | array items ending => takeElements schema items ending
  | d => .error d.unexpected

end Doc

/-- Reads a record from all of a text. -/
def readAll {α : Type} (r : Reader α) (cs : List Char) : Except Fault α :=
  match Doc.ofChars cs with
  | (d, rest) => match r d with
    | .error f => .error f
    | .ok a => if rest = some [] then .ok a else .error .malformed

/-- Reads a record from the beginning of a text, whatever follows it. -/
def readFirst {α : Type} (r : Reader α) (cs : List Char) : Except Fault α := r (Doc.ofChars cs).1

/-- The tree that reading a written value gives, if its numbers are written as `number` says. -/
def Doc.ofNumber (x : Float) : Doc :=
  match Numeral.ofFloat? x with
  | some n => .number n
  | none => .null

mutual

/-- The tree that the text of a value is read as. -/
def toDoc : Json → Doc
  | null => .null
  | bool b => .bool b
  | whole n => .number (Numeral.ofInt n)
  | real x => Doc.ofNumber x
  | string s => .string (some s)
  | array items => .array (itemDocs items) .closed
  | object entries => .object (entryDocs entries) .closed

/-- The trees of an array's items. -/
def itemDocs : List Json → List Doc
  | [] => []
  | j :: rest => j.toDoc :: itemDocs rest

/-- The trees of an object's fields. -/
def entryDocs : List (String × Json) → List (Doc × Doc)
  | [] => []
  | (k, j) :: rest => (.string (some k), j.toDoc) :: entryDocs rest

end
end Dispatch.Json
