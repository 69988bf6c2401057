/-
Clients that follow the feed.

A client receives every event that is announced after he has connected, each as one frame,
in order.  What he has missed because he fell behind is skipped without a word.  He may
send frames of his own: text and binary data are ignored, a ping is answered with its own
bytes, and a request to close is answered in kind and ends the connection.

The payload of a control frame has at most 125 bytes.  A longer one is a breach of
protocol and ends the connection at once.
-/
import Dispatch.Feed

namespace Dispatch

/-- A kind of frame that a client sends. -/
inductive FrameKind where
  | text
  | binary
  | ping
  | close
  deriving DecidableEq, Repr

/-- The kind of frame with the given name. -/
def FrameKind.ofName? (s : String) : Option FrameKind :=
  if s = "text" then some text
  else if s = "binary" then some binary
  else if s = "ping" then some ping
  else if s = "close" then some close
  else none

/-- A frame that a client receives. -/
inductive Frame where
  | event (e : Accepted)
  | pong (body : String)
  | close

/-- A connected client. -/
structure Socket where
  /-- his position in the feed -/
  position : Nat
  /-- what has arrived and not been looked at -/
  inbox : List Frame := []
  /-- whether the connection has ended -/
  ended : Bool := false

namespace Socket

/-- How many bytes a control frame can carry. -/
def controlLimit : Nat := 125

/-- How many bytes of a closing frame are taken by its code. -/
def closeCodeSize : Nat := 2

/-- A client who connects now. -/
def connect (f : Feed) : Socket := { position := f.tip }

/-- Brings a client up to date. -/
def deliver (f : Feed) (s : Socket) : Socket :=
  if s.ended then s
  else { s with position := f.tip, inbox := s.inbox ++ (f.unread s.position).map .event }

/-- The connection ends. -/
def finish (s : Socket) : Socket := { s with ended := true }

/-- Takes a frame from a client; nothing if the connection has ended. -/
def take? (s : Socket) (kind : FrameKind) (body : String) : Option Socket :=
  if s.ended then none
  else some <| match kind with
    | .text | .binary => s
    | .ping =>
      if body.utf8ByteSize ≤ controlLimit then { s with inbox := s.inbox ++ [.pong body] }
      else s.finish
    | .close =>
      if closeCodeSize + body.utf8ByteSize ≤ controlLimit then
        { s.finish with inbox := s.inbox ++ [.close] }
      else s.finish

/-- What has arrived, and whether the connection has ended. -/
def receive (s : Socket) : List Frame × Bool × Socket :=
  (s.inbox, s.ended, { s with inbox := [] })

end Socket
end Dispatch
