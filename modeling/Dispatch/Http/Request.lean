/-
Requests.

A request has a method, a target, headers and a body.  The target is a path and perhaps a
query; what follows a number sign in it is dropped.  Some texts cannot be sent as the target,
the method or a header of a request at all, and `Request.make?` refuses them.

A target that does not begin with a slash has no path; it may name a host, and then it must
be written with the characters of one.
-/
import Dispatch.Http.MediaType
import Dispatch.Http.Query

namespace Dispatch.Http

open Dispatch.Text

/-- A request. -/
structure Request where
  method : String
  /-- the path as it was sent -/
  path : List Char
  /-- the query as it was sent -/
  query : List Char := []
  /-- the headers, with their names in lower case -/
  headers : List (String × String) := []
  body : String := ""

namespace Request

/-- Whether a character lies between two others. -/
def between (a b c : Char) : Bool := decide (a ≤ c) && decide (c ≤ b)

/-- Whether a character can stand in a path. -/
def isPathChar (c : Char) : Bool :=
  c = '!' || between '$' ';' c || c = '=' || between '@' '_' c || between 'a' 'z' c
    || "|~\"\x7b\x7d".toList.contains c || decide (127 ≤ c.toNat)

/-- Whether a character can stand in a query. -/
def isQueryChar (c : Char) : Bool :=
  c = '!' || between '$' ';' c || c = '=' || between '?' '~' c || decide (127 ≤ c.toNat)

/-- Whether a character can stand in the name of a host. -/
def isHostChar (c : Char) : Bool :=
  c.isAlphanum || "-._~!$&'()*+,;=:@[]%".toList.contains c

/-- How long a target can be, in bytes. -/
def targetLimit : Nat := 65534

/-- The path and the query of a target. -/
def splitTarget? (target : String) : Option (List Char × List Char) :=
  if targetLimit < target.utf8ByteSize then none
  else
    let cs := target.toList.takeWhile (· ≠ '#')
    let (path, query) := cutAt '?' cs
    let query := query.getD []
    match target.toList with
    | '/' :: _ => if path.all isPathChar && query.all isQueryChar then some (path, query) else none
    | [] => none
    | cs => if cs.all isHostChar then some ([], []) else none

/-- Whether a text can be the name of a method or a header. -/
def isToken (s : String) : Bool := !s.isEmpty && s.toList.all isTokenChar

/-- Whether a text can be the value of a header. -/
def isHeaderValue (s : String) : Bool :=
  s.toList.all fun c => c = '\t' || (decide (32 ≤ c.toNat) && c.toNat ≠ 127)

/-- A request, if it can be sent. -/
def make? (method target : String) (headers : List (String × String)) (body : String) :
    Option Request :=
  if isToken method ∧ headers.all (fun h => isToken h.1 && isHeaderValue h.2) then
    (splitTarget? target).map fun (path, query) =>
      { method, path, query, body, headers := headers.map fun h => (h.1.map Char.toLower, h.2) }
  else none

/-- The first value of a header. -/
def header? (r : Request) (name : String) : Option String := r.headers.lookup name

/-- Whether a header has the given value, in letters of either case. -/
def headerIs (r : Request) (name value : String) : Bool :=
  ((r.header? name).map fun v => v.map Char.toLower) == some value

end Request
end Dispatch.Http
