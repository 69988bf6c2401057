/-
Where somebody is, and how far apart two places are.

A location is a latitude and a longitude in degrees, with the time of observation if
there is one.  Nothing keeps the degrees within their usual bounds, and the distance is
defined for any of them: it is the great-circle distance on a sphere, and where the
haversine is no number or exceeds one it is taken for one, which makes the distance half
the circumference.
-/
import Dispatch.Json.Decode
import Dispatch.Time.Timestamp

namespace Dispatch

open Dispatch.Time

/-- A place, and when somebody was seen there. -/
structure Location where
  /-- latitude in degrees -/
  lat : Float
  /-- longitude in degrees -/
  lng : Float
  /-- the time of observation -/
  timestamp : Option Instant := none

namespace Location

/-- Whether both coordinates are finite. -/
def isFinite (l : Location) : Bool := l.lat.isFinite && l.lng.isFinite

/-- The same place, seen at the given time. -/
def observedAt (l : Location) (t : Instant) : Location := { l with timestamp := some t }

/-! ### Distances -/

/-- The mean radius of the earth in kilometres. -/
def earthRadius : Float := 6371.0

/-- Half the circumference of a circle of radius one. -/
def pi : Float := 3.141592653589793

/-- An angle in degrees, in radians. -/
def radians (degrees : Float) : Float := degrees * (pi / 180.0)

/-- An angle in radians, in degrees. -/
def degrees (radians : Float) : Float := radians * 57.29577951308232

/-- A number that is at most one; one where there is no number. -/
def atMostOne (x : Float) : Float := if x < 1.0 then x else 1.0

/-- The great-circle distance in kilometres. -/
def distance (a b : Location) : Float :=
  let lat₁ := radians a.lat
  let lat₂ := radians b.lat
  let deltaLat := radians (b.lat - a.lat)
  let deltaLng := radians (b.lng - a.lng)
  let sinLat := (deltaLat / 2.0).sin
  let sinLng := (deltaLng / 2.0).sin
  let haversine := sinLat * sinLat + lat₁.cos * lat₂.cos * sinLng * sinLng
  let angle := 2.0 * (atMostOne haversine.sqrt).asin
  earthRadius * angle

/-- The place a number of kilometres to the north. -/
def north (origin : Location) (km : Float) : Location where
  lat := origin.lat + degrees (km / earthRadius)
  lng := origin.lng

/-! ### The wire form -/

/-- A location as JSON; the time is left out where there is none. -/
def toJson (l : Location) : Json :=
  .object ([("lat", .real l.lat), ("lng", .real l.lng)]
    ++ match l.timestamp with
      | some t => [("timestamp", .string t.text)]
      | none => [])

/-- Reads an instant. -/
def readInstant : Json.Reader Instant := Json.Doc.asParsed Instant.ofText?

/-- Reads a location. -/
def ofDoc : Json.Reader Location := fun d => do
  let fs ← d.fields
    [.of "lat" Json.Doc.asFloat, .of "lng" Json.Doc.asFloat,
      .of "timestamp" (Json.Doc.asOption readInstant) .defaulted]
  return {
    lat := ← (fs.get "lat").asFloat
    lng := ← (fs.get "lng").asFloat
    timestamp := ← Json.Doc.asOption readInstant (fs.get "timestamp") }

end Location
end Dispatch
