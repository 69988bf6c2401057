/-
The query of a request.

A query is a list of names with values, separated by ampersands; an equals sign separates a
value from its name.  A plus sign is a space, and then percent escapes are undone.  A name
or value that is not UTF-8 counts as a single replacement character, which no name and no
value that matters has in it.
-/
import Dispatch.Http.Percent
import Dispatch.Text.Split

namespace Dispatch.Http

open Dispatch.Text

/-- The parameters of a query, in order. -/
abbrev Query : Type := List (String × String)

namespace Query

/-- A name or a value. -/
def component (cs : List Char) : String :=
  (unescapeText? (cs.map fun c => if c = '+' then ' ' else c)).getD "\ufffd"

/-- A name with its value. -/
def parameter (cs : List Char) : String × String :=
  let (name, value) := cutAt '=' cs
  (component name, component (value.getD []))

/-- Reads a query. -/
def ofChars (cs : List Char) : Query :=
  ((pieces '&' cs).filter fun p => !p.isEmpty).map parameter

/-- The values given under a name. -/
def valuesOf (q : Query) (name : String) : List String :=
  (q.filter fun p => p.1 == name).map Prod.snd

/-- The value of a parameter that has to be given once. -/
def required? {α : Type} (q : Query) (name : String) (read : String → Option α) : Option α :=
  match q.valuesOf name with
  | [v] => read v
  | _ => none

/-- The value of a parameter that may be given once. -/
def optional? {α : Type} (q : Query) (name : String) (read : String → Option α) :
    Option (Option α) :=
  match q.valuesOf name with
  | [] => some none
  | [v] => (read v).map some
  | _ => none

end Query
end Dispatch.Http
