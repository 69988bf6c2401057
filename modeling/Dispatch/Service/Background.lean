/-
What the service does when nobody asks.

Publishing that was left to the background goes on until it has to wait for a place in the
queue.  The worker takes one event after the other from the queue and rejects what competes
with the accepted proposal; it may have to wait for a row lock, and an error does not stop
it.  It ends when it finds the queue closed and nothing left in it.

`settle` lets all this go as far as it can.  Every round either completes a piece of
publishing or takes an event from the queue, or it changes nothing, so as many rounds as
there are pieces and events are enough.  Then the clients are brought up to date.
-/
import Dispatch.Service.Basic

namespace Dispatch.Service

open Dispatch.Time

/-- Runs a program up to its end, or up to the first call that has to wait. -/
def exec {α : Type} (p : ServiceProgram α) (s : Service) : ServiceProgram α × Service :=
  p.run perform s

/-! ### Publishing -/

/-- Runs pieces of publishing in turn; those that have to wait. -/
def runPublishing : List (ServiceProgram Unit) → Service → List (ServiceProgram Unit) × Service
  | [], s => ([], s)
  | p :: rest, s =>
    match exec p s with
    | (.done _, s) => runPublishing rest s
    | (p, s) =>
      let (waiting, s) := runPublishing rest s
      (p :: waiting, s)

/-- Publishes what was left to the background. -/
def advancePublishing (s : Service) : Service :=
  let (waiting, s') := runPublishing s.publishing { s with publishing := [] }
  { s' with publishing := waiting ++ s'.publishing }

/-! ### The worker -/

/-- What the worker does about an event. -/
def handle (e : Accepted) : ServiceProgram Unit :=
  (onMatches (Matching.rejectCompeting e.matchId e.driverId e.passengerId)).bind fun _ => .done ()

/-- What becomes of a worker who finds the queue empty. -/
def whenEmpty (q : Queue) : Worker :=
  if q.isDrained then .ended else if q.closed then .stranded else .idle

/-- The worker's next step: it takes an event, or goes on with the one that it has. -/
def workerStep (s : Service) : Service :=
  match s.worker with
  | .absent | .ended | .stranded => s
  | .idle =>
    match s.queue.take with
    | (some e, queue) => { s with queue, worker := .busy (handle e) }
    | (none, _) => { s with worker := whenEmpty s.queue }
  | .busy p =>
    match exec p s with
    | (.done _, s) => { s with worker := .idle }
    | (p, s) => { s with worker := .busy p }

/-- So many steps of the worker. -/
def workerSteps : Nat → Service → Service
  | 0, s => s
  | n + 1, s => workerSteps n s.workerStep

/-- Lets the worker handle all that is in the queue. -/
def advanceWorker (s : Service) : Service := workerSteps (2 * s.queue.events.length + 2) s

/-! ### Both together -/

/-- Publishing first, then the worker. -/
def round (s : Service) : Service := s.advancePublishing.advanceWorker

/-- So many rounds. -/
def rounds : Nat → Service → Service
  | 0, s => s
  | n + 1, s => rounds n s.round

/-- Brings all clients up to date. -/
def deliver (s : Service) : Service :=
  { s with clients := ⟨s.clients.entries.map fun c => (c.1, c.2.deliver s.feed), by
      simpa [List.map_map, Function.comp_def] using s.clients.nodup_keys⟩ }

/-- Lets everything in the background go as far as it can. -/
def settle (s : Service) : Service :=
  (rounds (s.publishing.length + s.queue.events.length + 1) s).deliver

/-! ### From outside -/

/-- Starts the worker. -/
def startWorker (s : Service) : Service :=
  match s.worker with
  | .absent => { s with worker := .idle }
  | _ => s

/-- Whether the worker has ended. -/
def workerEnded (s : Service) : Bool :=
  match s.worker with
  | .ended => true
  | _ => false

/-- Moves the clock, unless it would leave the calendar. -/
def advance (s : Service) (d : Span) : Option Service :=
  (s.now.add? d).map fun now => { s with now }

/-- A new client. -/
def connect (s : Service) : ClientId × Service :=
  (s.clients.size, { s with clients := s.clients.insert s.clients.size (Socket.connect s.feed) })

/-- Changes what is known of a client. -/
def setClient (s : Service) (c : ClientId) (k : Socket) : Service :=
  { s with clients := s.clients.insert c k }

/-- A client goes away without a word. -/
def disconnect (s : Service) (c : ClientId) : Service :=
  match s.clients.find? c with
  | some k => s.setClient c k.finish
  | none => s

/-- A client sends a frame; nothing if there is no connection any more. -/
def takeFrame? (s : Service) (c : ClientId) (kind : FrameKind) (body : String) : Option Service :=
  ((s.clients.find? c).bind fun k => k.take? kind body).map (s.setClient c)

/-- A client looks at what has arrived; whether his connection has ended. -/
def receive (s : Service) (c : ClientId) : List Frame × Bool × Service :=
  match s.clients.find? c with
  | some k =>
    let (frames, ended, k) := k.receive
    (frames, ended, s.setClient c k)
  | none => ([], true, s)

/-- How many clients are connected. -/
def liveClients (s : Service) : Nat := (s.clients.values.filter fun k => !k.ended).length

end Dispatch.Service
