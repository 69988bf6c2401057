/-
Where a request goes.

A path is split at its slashes, and its segments lead to a route.  A segment in the place of
an identifier is kept as it was sent.  Fixed segments come before identifiers: the path
`/drivers/nearby` searches, whatever a driver is called.  An identifier may be empty, but not
at the end of a path.

Each route takes certain methods.  What can be read can also be asked for without its body.
-/
import Dispatch.Http.Percent
import Dispatch.Proposal.Status
import Dispatch.Text.Split

namespace Dispatch.Http

open Dispatch.Text

/-- A part of a path, as it was sent. -/
abbrev Segment : Type := List Char

/-- A place that a request can go to. -/
inductive Route where
  | availability (pool : Role) (id : Segment)
  | location (pool : Role) (id : Segment)
  | nearby (pool : Role)
  | matchList
  | oneMatch (id : Segment)
  | confirmation (id : Segment)
  | actorMatches (id : Segment)
  | activeRides
  | activeRide (role : Role) (id : Segment)
  | health
  | metrics
  | feed
  deriving DecidableEq

namespace Route

/-- The pool that a segment names. -/
def poolOf? (s : Segment) : Option Role :=
  if s = "drivers".toList then some .driver
  else if s = "passengers".toList then some .passenger
  else none

/-- The route of a path within a pool. -/
def inPool? (pool : Role) : List Segment → Option Route
  | [s] => if s = "nearby".toList then some (nearby pool) else none
  | [id, s] =>
    if s = "availability".toList then some (availability pool id)
    else if s = "location".toList then some (location pool id)
    else none
  | _ => none

/-- The route of a path among the matches. -/
def inMatches? : List Segment → Option Route
  | [] => some matchList
  | [id] => if id = [] then none else some (oneMatch id)
  | [id, s] => if s = "confirm".toList then some (confirmation id) else none
  | _ => none

/-- The route of a path among the actors. -/
def inActors? : List Segment → Option Route
  | [id, s] => if s = "matches".toList then some (actorMatches id) else none
  | _ => none

/-- The route of a path among the rides. -/
def inRides? : List Segment → Option Route
  | [s] => if s = "active".toList then some activeRides else none
  | [s, pool, id] =>
    if s = "active".toList ∧ id ≠ [] then (poolOf? pool).map fun role => activeRide role id
    else none
  | _ => none

/-- The route of a path without identifiers. -/
def fixed? (s : Segment) : Option Route :=
  if s = "health".toList then some health
  else if s = "metrics".toList then some metrics
  else if s = "ws".toList then some feed
  else none

/-- The route that segments lead to. -/
def ofSegments? : List Segment → Option Route
  | [] => none
  | s :: rest =>
    if s = "matches".toList then inMatches? rest
    else if s = "actors".toList then inActors? rest
    else if s = "rides".toList then inRides? rest
    else match poolOf? s with
      | some pool => inPool? pool rest
      | none => if rest = [] then fixed? s else none

/-- The route that a path leads to. -/
def ofPath? (path : List Char) : Option Route :=
  match pieces '/' path with
  | [] :: segments => ofSegments? segments
  | _ => none

/-- The methods that a route takes. -/
def methods : Route → List String
  | availability .. | activeRides => ["PUT", "DELETE"]
  | matchList | confirmation _ => ["POST"]
  | _ => ["GET", "HEAD"]

/-- The methods that a route takes, as they are listed for a client. -/
def allowed (r : Route) : String := String.intercalate "," r.methods

end Route
end Dispatch.Http
