/-
Responses.

A response has a status code, a content and headers.  The content says what it is rather than
how it is spelled: nothing, a JSON value, the counts, or a notice in words that no client
relies on.  A body of known length is declared with its length, also where the request asks
for the headers alone.

Every response may be read from everywhere.
-/
import Dispatch.Http.Request
import Dispatch.Metrics

namespace Dispatch.Http

/-- What a response contains. -/
inductive Content where
  | none
  | json (j : Json)
  | metrics (m : Metrics)
  /-- why the request could not be understood -/
  | notice

/-- A response. -/
structure Response where
  status : Nat
  content : Content := .none
  headers : List (String × String) := []

namespace Content

/-- The media type of a content. -/
def mediaType? : Content → Option String
  | none => Option.none
  | json _ => some "application/json"
  | metrics _ => some "text/plain; version=0.0.4; charset=utf-8"
  | notice => some "text/plain; charset=utf-8"

/-- The length of a content in bytes, where it is fixed. -/
def length? : Content → Option Nat
  | none => some 0
  | json j => some j.text.utf8ByteSize
  | metrics _ | notice => Option.none

/-- The headers that describe a content. -/
def headers (c : Content) : List (String × String) :=
  (c.mediaType?.toList.map fun t => ("content-type", t))
    ++ c.length?.toList.map fun n => ("content-length", toString n)

end Content

namespace Response

/-- A response with a JSON value. -/
def ok (j : Json) : Response := { status := 200, content := .json j }

/-- A response to a request that has been done and asks for nothing back. -/
def done : Response := { status := 204 }

/-- A response to a request that cannot be understood. -/
def rejected (status : Nat) : Response := { status, content := .notice }

/-- A response to a path that leads nowhere. -/
def notFound : Response := { status := 404 }

/-- A response that carries an error. -/
def ofError (e : ServiceError) : Response :=
  { status := e.kind.statusCode, content := .json e.toJson }

/-- A response with a result as JSON, or with an error. -/
def ofResult {α : Type} (f : α → Json) : Except ServiceError α → Response
  | .ok a => ok (f a)
  | .error e => ofError e

/-- A response to something that has been done, or an error. -/
def ofDone : Except ServiceError Unit → Response
  | .ok _ => done
  | .error e => ofError e

/-- A response with more headers. -/
def adding (r : Response) (headers : List (String × String)) : Response :=
  { r with headers := r.headers ++ headers }

/-- The first value of a header. -/
def header? (r : Response) (name : String) : Option String := r.headers.lookup name

end Response

/-! ### Reading from everywhere -/

/-- What a response depends on, for those who keep it. -/
def varyHeader : String × String :=
  ("vary", "origin, access-control-request-method, access-control-request-headers")

/-- The headers by which an answer may be read from everywhere. -/
def sharingHeaders : List (String × String) :=
  [varyHeader, ("access-control-allow-origin", "*"), ("access-control-expose-headers", "*")]

/-- The headers by which a request may be made from everywhere. -/
def permissionHeaders : List (String × String) :=
  [varyHeader, ("access-control-allow-origin", "*"), ("access-control-allow-methods", "*"),
    ("access-control-allow-headers", "*")]

end Dispatch.Http
