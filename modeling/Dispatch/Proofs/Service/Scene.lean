/-
The service with any number of visitors.

Somebody who comes with a request, or who wants competing proposals rejected, is a `Visitor` with a
program of calls.  A `Scene.Event` is that somebody comes, that one visitor makes his next single
call, that one goes away while he waits for a lock, that a piece of publishing makes its next call,
that the worker does, or that the clock moves.  Nothing is said about the order of events, so a run
is any interleaving of requests, publishing and the worker.

Running a program is making its calls one after the other (`Program.exists_steps`), and what the
worker does in one go it does here call by call (`Service.exists_workerCalls`).
-/
import Dispatch.Http.Respond
import Dispatch.Proofs.Run
import Dispatch.Proofs.Store.Moves
import Dispatch.Service.Background
import Mathlib.Logic.Function.Iterate

namespace Dispatch

/-- Running a program is making its calls one after the other. -/
theorem Program.exists_steps {Call : Type} {Reply : Call → Type} {α σ : Type}
    (h : Handler Reply σ) (p : Program Reply α) (s : σ) :
    ∃ n, p.run h s = (fun x : Program Reply α × σ => x.1.step h x.2)^[n] (p, s) := by
  induction p generalizing s with
  | done a => exact ⟨0, rfl⟩
  | call c next ih =>
      have hrun := Program.run_call h c next s
      cases hc : h c s with
      | wait s' =>
          refine ⟨1, ?_⟩
          rw [hrun, Function.iterate_one, Program.step, hc]
      | answer r s' =>
          obtain ⟨n, hn⟩ := ih r s'
          refine ⟨n + 1, ?_⟩
          rw [hrun, Function.iterate_succ_apply, Program.step, hc]
          exact hn

namespace Service

/-- Whether the next call of a program has to wait. -/
def waits {α : Type} (p : ServiceProgram α) (s : Service) : Bool :=
  match p with
  | .done _ => false
  | .call c _ =>
    match perform c s with
    | .answer _ _ => false
    | .wait _ => true

/-! ### The worker, call by call -/

/-- The worker takes an event, or makes the next call about the one that it has. -/
def workerCall (s : Service) : Service :=
  match s.worker with
  | .absent | .ended | .stranded => s
  | .idle =>
    match s.queue.take with
    | (some e, queue) => { s with queue, worker := .busy (handle e) }
    | (none, _) => { s with worker := whenEmpty s.queue }
  | .busy p =>
    match p.step perform s with
    | (.done _, s) => { s with worker := .idle }
    | (p, s) => { s with worker := .busy p }

/-- An outcome that has been laid down for a call is what is answered. -/
theorem perform_of_laid {c : StoreCall} {r : c.Reply} {s : Service}
    (h : (s.faults.outcome c s.store).1.reply? c = some r) :
    perform (.store c) s = .answer r { s with faults := (s.faults.outcome c s.store).2 } := by
  rcases ho : s.faults.outcome c s.store with ⟨laid, faults⟩
  rw [ho] at h
  simp only [perform, ho, h]

/-- Otherwise the call is one on the match table. -/
theorem perform_of_not_laid {c : StoreCall} {s : Service}
    (h : (s.faults.outcome c s.store).1.reply? c = none) :
    perform (.store c) s
      = performTable c { s with faults := (s.faults.outcome c s.store).2 } := by
  rcases ho : s.faults.outcome c s.store with ⟨laid, faults⟩
  rw [ho] at h
  simp only [perform, ho, h]

/-- No call looks at the worker. -/
theorem perform_worker (w : Worker) (c : ServiceCall) (s : Service) :
    perform c { s with worker := w } = (perform c s).mapState fun s => { s with worker := w } := by
  cases c with
  | store c =>
      have htable : ∀ s : Service, performTable c { s with worker := w }
          = (performTable c s).mapState fun s => { s with worker := w } := by
        intro s
        show (Store.perform s.moment c s.store).mapState (afterTable { s with worker := w } c) = _
        unfold performTable
        cases Store.perform s.moment c s.store <;> cases c <;> rfl
      cases hr : (s.faults.outcome c s.store).1.reply? c with
      | some r =>
          rw [perform_of_laid hr, perform_of_laid (s := { s with worker := w }) hr]
          rfl
      | none =>
          rw [perform_of_not_laid hr, perform_of_not_laid (s := { s with worker := w }) hr]
          exact htable { s with faults := (s.faults.outcome c s.store).2 }
  | table c =>
      show (Store.perform s.moment c s.store).mapState (afterTable { s with worker := w } c)
        = ((Store.perform s.moment c s.store).mapState (s.afterTable c)).mapState _
      cases Store.perform s.moment c s.store <;> cases c <;> rfl
  | availability c =>
      show (AvailabilityCache.perform Location.distance c s.availability).mapState _
        = ((AvailabilityCache.perform Location.distance c s.availability).mapState _).mapState _
      cases AvailabilityCache.perform Location.distance c s.availability <;> rfl
  | rides c =>
      show (RideCache.perform s.now c s.rides).mapState _
        = ((RideCache.perform s.now c s.rides).mapState _).mapState _
      cases RideCache.perform s.now c s.rides <;> rfl
  | enqueue t e =>
      rcases hadd : s.queue.add t e with ⟨_ | r, queue⟩ <;> simp [perform, hadd]
  | _ => rfl

theorem step_worker {α : Type} (w : Worker) (p : ServiceProgram α) (s : Service) :
    p.step perform { s with worker := w }
      = ((p.step perform s).1, { (p.step perform s).2 with worker := w }) := by
  cases p with
  | done a => rfl
  | call c next =>
      rw [Program.step, Program.step, perform_worker]
      cases perform c s <;> rfl

theorem exec_worker {α : Type} (w : Worker) (p : ServiceProgram α) (s : Service) :
    exec p { s with worker := w } = ((exec p s).1, { (exec p s).2 with worker := w }) := by
  unfold exec
  induction p generalizing s with
  | done a => rfl
  | call c next ih =>
      rw [Program.run_call, Program.run_call, perform_worker]
      cases perform c s with
      | answer r s' => exact ih r s'
      | wait s' => rfl

/-- The worker goes on with what is left of a program, or has finished it. -/
def resumed : ServiceProgram Unit × Service → Service
  | (.done _, s) => { s with worker := .idle }
  | (p, s) => { s with worker := .busy p }

theorem workerStep_busy (p : ServiceProgram Unit) (s : Service) :
    workerStep { s with worker := .busy p } = resumed (exec p s) := by
  simp only [workerStep, exec_worker]
  rcases exec p s with ⟨_ | _, s'⟩ <;> rfl

theorem workerCall_busy (p : ServiceProgram Unit) (s : Service) :
    workerCall { s with worker := .busy p } = resumed (p.step perform s) := by
  simp only [workerCall, step_worker]
  rcases p.step perform s with ⟨_ | _, s'⟩ <;> rfl

/-- What the worker does in one go it does call by call. -/
theorem exists_workerCalls (s : Service) : ∃ n, s.workerStep = workerCall^[n] s := by
  have hexec : ∀ (p : ServiceProgram Unit) (s : Service),
      ∃ n, resumed (exec p s) = workerCall^[n] (resumed (p, s)) := by
    intro p
    induction p with
    | done a => exact fun s => ⟨0, rfl⟩
    | call c next ih =>
        intro s
        have hcall : workerCall (resumed (.call c next, s))
            = resumed (Program.step perform (.call c next) s) := workerCall_busy _ s
        unfold exec
        rw [Program.step] at hcall
        rw [Program.run_call]
        cases hc : perform c s with
        | wait s' =>
            rw [hc] at hcall
            exact ⟨1, hcall.symm⟩
        | answer r s' =>
            rw [hc] at hcall
            obtain ⟨n, hn⟩ := ih r s'
            exact ⟨n + 1, hn.trans (congrArg workerCall^[n] hcall.symm)⟩
  cases hw : s.worker with
  | busy p =>
      have hs : s = { s with worker := .busy p } := by rw [← hw]
      rw [hs, workerStep_busy]
      cases p with
      | done a => exact ⟨1, rfl⟩
      | call c next => exact hexec _ s
  | idle =>
      have hs : s = { s with worker := .idle } := by rw [← hw]
      rw [hs]
      exact ⟨1, rfl⟩
  | _ =>
      refine ⟨1, ?_⟩
      simp only [Function.iterate_one, workerStep, workerCall, hw]

end Service

/-! ### Visitors -/

/-- What somebody comes for. -/
inductive Arrival where
  | request (r : Http.Request)
  /-- what competes with an accepted proposal is to be rejected -/
  | rejection (accepted : MatchId) (driver passenger : ActorId)

namespace Arrival

/-- What is done about it, and the response if there is one. -/
def program (o : Options) : Arrival → ServiceProgram (Option Http.Response)
  | request r => (Http.respond o r).bind fun answer => .done (some answer)
  | rejection accepted driver passenger =>
    (Service.onMatches (Matching.rejectCompeting accepted driver passenger)).bind fun _ =>
      .done none

/-- Somebody has come to confirm a proposal. -/
def Confirms : Arrival → Prop
  | request r => ∃ id, Http.Route.ofPath? r.path = some (.confirmation id)
  | rejection _ _ _ => False

end Arrival

/-- Somebody who has come, and what is left of his program. -/
structure Visitor where
  arrival : Arrival
  rest : ServiceProgram (Option Http.Response)

/-- The service, and all who have come, the first one first. -/
structure Scene where
  service : Service
  visitors : List Visitor := []

namespace Scene

/-- The match table. -/
abbrev store (x : Scene) : Store := x.service.store

/-- A new service whose worker has been started. -/
def opening (o : Options) (now : Time.Instant) : Scene where
  service := (Service.start o now).startWorker

/-- Something that happens. -/
inductive Event where
  | arrive (a : Arrival)
  /-- a visitor makes his next call -/
  | go (k : Nat)
  /-- a visitor does not wait any longer -/
  | leave (k : Nat)
  /-- a piece of publishing makes its next call -/
  | publish (k : Nat)
  /-- the worker takes an event, or makes its next call -/
  | work
  | clock (now : Time.Instant)

/-- The scene after an event. -/
def after (o : Options) (x : Scene) : Event → Scene
  | .arrive a => { x with visitors := x.visitors ++ [{ arrival := a, rest := a.program o }] }
  | .go k =>
    match x.visitors[k]? with
    | some v =>
      let (rest, service) := v.rest.step Service.perform x.service
      { service, visitors := x.visitors.set k { v with rest } }
    | none => x
  | .leave k =>
    match x.visitors[k]? with
    | some v =>
      { service := Service.abandon v.rest x.service
        visitors := x.visitors.set k { v with rest := .done none } }
    | none => x
  | .publish k =>
    match x.service.publishing[k]? with
    | some p =>
      let (rest, service) := p.step Service.perform x.service
      { x with service := { service with publishing := service.publishing.set k rest } }
    | none => x
  | .work => { x with service := x.service.workerCall }
  | .clock now => { x with service := { x.service with now } }

/-- The scene after a run. -/
abbrev run (o : Options) (x : Scene) (events : List Event) : Scene := events.foldl (after o) x

theorem after_go {o : Options} {x : Scene} {k : Nat} {v : Visitor}
    {p : ServiceProgram (Option Http.Response)} {s : Service} (hv : x.visitors[k]? = some v)
    (hstep : v.rest.step Service.perform x.service = (p, s)) :
    x.after o (.go k) = { service := s, visitors := x.visitors.set k { v with rest := p } } := by
  rw [after, hv]
  simp only [hstep]

/-- The events that can happen: identifiers are fresh when they are drawn, and nobody goes away in
the middle of a call. -/
def Admits (x : Scene) : Event → Prop
  | .go _ => x.store.Unused x.service.moment.freshId
  | .leave k => (x.visitors[k]?).all (fun v => Service.waits v.rest x.service) = true
  | .arrive _ | .publish _ | .work | .clock _ => True

instance (x : Scene) : (e : Event) → Decidable (x.Admits e)
  | .go _ => inferInstanceAs (Decidable (x.store.Unused x.service.moment.freshId))
  | .leave _ => inferInstanceAs (Decidable (_ = true))
  | .arrive _ | .publish _ | .work | .clock _ => inferInstanceAs (Decidable True)

/-! ### What can be seen of the queue -/

/-- The events that come into the queue. -/
def adds (o : Options) (x : Scene) : Event → List Accepted
  | .work => []
  | e => (x.after o e).service.queue.events.drop x.service.queue.events.length

/-- The events that the worker takes from the queue. -/
def takes (x : Scene) : Event → List Accepted
  | .work =>
    match x.service.worker with
    | .idle => x.service.queue.take.1.toList
    | _ => []
  | _ => []

/-- All events that have come into the queue in a run, the first one first. -/
def queued (o : Options) (x : Scene) (events : List Event) : List Accepted :=
  Run.collect (after o) (adds o) x events

/-- All events that the worker has taken in a run, the first one first. -/
def taken (o : Options) (x : Scene) (events : List Event) : List Accepted :=
  Run.collect (after o) takes x events

/-- An event that the worker has taken, and the match table at that time. -/
structure Taking where
  event : Accepted
  store : Store

/-- What the worker takes, with the match table. -/
def takings (x : Scene) (e : Event) : List Taking := (x.takes e).map fun a => ⟨a, x.store⟩

/-- The events with which the worker has finished in a run. -/
def handled (o : Options) (x : Scene) (events : List Event) : List Accepted :=
  match (x.run o events).service.worker with
  | .busy _ => (taken o x events).dropLast
  | _ => taken o x events

end Scene
end Dispatch
