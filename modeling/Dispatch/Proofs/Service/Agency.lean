/-
Proposing, confirming, and the worker.

An `Agency` is the service with any number of customers, each of whom proposes a ride or confirms
one.  A customer makes one call at a time, and may go away while he waits for a lock.  The proposal
that he has been told of may be handed over to be published, any number of times.  Pieces of
publishing and the worker make their calls in between, and the match table may become unreachable at
any time.  Nothing is said about the order of events.

Rows are written by customers and by the worker only.  What follows is that every confirmation in a
row has been given on behalf of the one whom it concerns, by one call that has succeeded, and that
every rejection has a reason (`Agency.accountable`).

The customers and the worker are callers of a `Traffic` that has the same match table
(`Agency.Staffed`).  The worker is the first of them, and whenever it takes an event somebody new
takes its place.  All events that are on their way to the worker tell of accepted rows
(`Agency.Posted`), so that it rejects on account of such rows only.
-/
import Dispatch.Proofs.Service.Grounds

namespace Dispatch

open Service Store

namespace Service

/-- How the service takes a call of an operation. -/
def serve : Handler MatchCall.Reply Service
  | .store c => perform (.store c)
  | .count o => perform (.count o)

end Service

/-- Somebody who proposes or confirms. -/
structure Customer where
  operation : Operation
  /-- what is left of his program, unless he has gone away -/
  rest? : Option CallerProgram

namespace Customer

/-- The proposal that a customer has been told of. -/
def told? (c : Customer) : Option Proposal := (c.rest?.bind Program.result?).bind Outcome.proposal?

/-- A customer has confirmed a proposal on behalf of an actor in a role, and has succeeded. -/
def hasConfirmed (c : Customer) (id : MatchId) (user : ActorId) (role : Role) : Bool :=
  c.rest?.any fun rest => Caller.hasConfirmed ⟨c.operation, rest⟩ id user role

variable {c : Customer} {id : MatchId} {user : ActorId} {role : Role}

/-- Whoever has been told that his confirmation has succeeded is right. -/
theorem hasConfirmed_of_told? {p : Proposal} (ho : c.operation = .confirm id user role)
    (hp : c.told? = some p) : c.hasConfirmed id user role = true := by
  obtain ⟨r, hr, hrp⟩ := Option.bind_eq_some_iff.mp hp
  obtain ⟨rest, hrest, hresult⟩ := Option.bind_eq_some_iff.mp hr
  cases rest with
  | done r' =>
      obtain rfl := Option.some.inj hresult
      simp [hasConfirmed, hrest, Caller.hasConfirmed, ho, Caller.returns?,
        CallerProgram.verdict?, hrp]
  | call mc next => cases hresult

/-- Whoever has succeeded is told so in the end, whatever happens in the meantime. -/
theorem returns_of_hasConfirmed (h : c.hasConfirmed id user role = true) :
    c.operation = .confirm id user role ∧ ∃ rest p, c.rest? = some rest ∧
      ∀ m l, (rest.run (Ledger.perform m) l).1 = .done (.proposal (.ok p)) := by
  obtain ⟨rest, hrest, hconfirmed⟩ := (Option.any_eq_true _ _).mp h
  unfold Caller.hasConfirmed at hconfirmed
  split at hconfirmed
  · rename_i id' user' role' ho
    obtain ⟨hargs, hsome⟩ := (Bool.and_eq_true _ _).mp hconfirmed
    obtain ⟨rfl, rfl, rfl⟩ := of_decide_eq_true hargs
    obtain ⟨p, hp⟩ := Option.isSome_iff_exists.mp hsome
    obtain ⟨r, hr, hrp⟩ := Option.bind_eq_some_iff.mp hp
    obtain rfl := Outcome.eq_of_proposal? hrp
    exact ⟨ho, rest, p, hrest, CallerProgram.run_of_verdict? hr⟩
  all_goals cases hconfirmed

end Customer

/-- The service, and all customers, the first one first. -/
structure Agency where
  service : Service
  customers : List Customer := []

namespace Agency

abbrev store (x : Agency) : Store := x.service.store

/-- A new service whose worker has been started. -/
def opening (o : Options) (now : Time.Instant) : Agency where
  service := (Service.start o now).startWorker

/-- Something that happens. -/
inductive Event where
  | propose (d : Draft)
  | confirm (id : MatchId) (user : ActorId) (role : Role)
  /-- a customer makes his next call -/
  | go (k : Nat)
  /-- a customer does not wait any longer -/
  | leave (k : Nat)
  /-- what a customer has been told of is to be published -/
  | handOver (k : Nat)
  /-- a piece of publishing makes its next call -/
  | publish (k : Nat)
  /-- the worker takes an event, or makes its next call -/
  | work
  | clock (now : Time.Instant)
  | outage (offline : Bool)

/-- Somebody has come. -/
def arrive (x : Agency) (o : Operation) : Agency :=
  { x with customers := x.customers ++ [{ operation := o, rest? := some o.program }] }

/-- The agency after an event. -/
def after (x : Agency) : Event → Agency
  | .propose d => x.arrive (.propose d)
  | .confirm id user role => x.arrive (.confirm id user role)
  | .go k =>
    match x.customers[k]? with
    | some { operation, rest? := some p } =>
      let (rest, service) := p.step Service.serve x.service
      { service, customers := x.customers.set k { operation, rest? := some rest } }
    | _ => x
  | .leave k =>
    match x.customers[k]? with
    | some { operation, rest? := some p } =>
      { service := Service.abandon (Service.onMatches p) x.service
        customers := x.customers.set k { operation, rest? := none } }
    | _ => x
  | .handOver k =>
    match (x.customers[k]?).bind Customer.told? with
    | some p => { x with service := (Service.perform (.publishLater p) x.service).state }
    | none => x
  | .publish k =>
    match x.service.publishing[k]? with
    | some p =>
      let (rest, service) := p.step Service.perform x.service
      { x with service := { service with publishing := service.publishing.set k rest } }
    | none => x
  | .work => { x with service := x.service.workerCall }
  | .clock now => { x with service := { x.service with now } }
  | .outage offline => { x with service.store.offline := offline }

/-- The events that can happen: identifiers are fresh when they are drawn, and nobody goes away in
the middle of a call. -/
def Admits (x : Agency) : Event → Prop
  | .go _ => x.store.Unused x.service.moment.freshId
  | .leave k => (x.customers[k]?).all (fun c => c.rest?.all fun p =>
      Service.waits (Service.onMatches p) x.service) = true
  | .propose _ | .confirm _ _ _ | .handOver _ | .publish _ | .work | .clock _ | .outage _ => True

instance (x : Agency) : (e : Event) → Decidable (x.Admits e)
  | .go _ => inferInstanceAs (Decidable (x.store.Unused x.service.moment.freshId))
  | .leave _ => inferInstanceAs (Decidable (_ = true))
  | .propose _ | .confirm _ _ _ | .handOver _ | .publish _ | .work | .clock _ | .outage _ =>
    inferInstanceAs (Decidable True)

/-- How many calls to confirm a proposal on behalf of an actor in a role have succeeded. -/
def confirmations (x : Agency) (id : MatchId) (user : ActorId) (role : Role) : Nat :=
  x.customers.countP fun c => c.hasConfirmed id user role

/-- Confirmations and rejections can be accounted for. -/
structure Accountable (x : Agency) : Prop where
  /-- The driver has confirmed just if one call on his behalf has succeeded. -/
  driver : ∀ id r, x.store.row? id = some r →
    (r.driverConfirmed = true ↔ x.confirmations id r.driverId .driver = 1)
  /-- So has the passenger. -/
  passenger : ∀ id r, x.store.row? id = some r →
    (r.passengerConfirmed = true ↔ x.confirmations id r.passengerId .passenger = 1)
  once : ∀ id user role, x.confirmations id user role ≤ 1
  /-- Nobody has succeeded but the driver and the passenger of a row. -/
  party : ∀ id user role, x.confirmations id user role = 1 →
    ∃ r, x.store.row? id = some r ∧ r.party role = user
  /-- What has been rejected has the driver or the passenger in common with an accepted row. -/
  rejected : ∀ id r, x.store.row? id = some r → r.status = .rejected →
    ∃ a, x.store.HasAccepted a ∧ (r.driverId = a.driverId ∨ r.passengerId = a.passengerId)

end Agency

/-! ### Everybody is a caller -/

namespace Customer

/-- What somebody who has gone away is as good as told. -/
def gone : Outcome := .proposal (.error (.store .offline))

/-- A customer as a caller. -/
def caller (c : Customer) : Caller := ⟨c.operation, c.rest?.getD (.done gone)⟩

theorem hasConfirmed_caller (c : Customer) (id : MatchId) (user : ActorId) (role : Role) :
    c.caller.hasConfirmed id user role = c.hasConfirmed id user role := by
  unfold caller hasConfirmed
  cases c.rest? with
  -- whoever has gone away has not succeeded, nor has he been told so as a caller
  | none => exact Caller.hasConfirmed_of_returns? (by rfl) id user role
  | some rest => rfl

end Customer

namespace Service

variable {s : Service}

/-- The match table and the counts take a call of a customer as if they stood alone. -/
theorem step_serve (hf : s.faults = ∅) (metrics : Metrics) (p : CallerProgram) :
    ∃ s', p.step serve s = ((p.step (Ledger.perform s.moment) ⟨s.store, metrics⟩).1, s') ∧
      s'.store = (p.step (Ledger.perform s.moment) ⟨s.store, metrics⟩).2.store ∧
      KeepsWork s s' := by
  cases p with
  | done r => exact ⟨s, rfl, rfl, .refl s⟩
  | call c next =>
      cases c with
      | count o => exact ⟨_, rfl, rfl, ⟨rfl, rfl, rfl, rfl, rfl⟩⟩
      | store c =>
          rw [Program.step, Program.step, serve, perform_store hf, performTable, Ledger.perform]
          cases Store.perform s.moment c s.store with
          | answer r t => exact ⟨_, rfl, afterTable_store c t, keepsWork_afterTable c t⟩
          | wait t => exact ⟨_, rfl, afterTable_store c t, keepsWork_afterTable c t⟩

/-- So they do where the call is that of an operation. -/
theorem serve_of_stage (hf : s.faults = ∅) {t t' : Store} {metrics metrics' : Metrics}
    {o : Operation} {g g' : Stage} (h : Stage.Step t metrics s.moment o g g' t' metrics')
    (ht : t = s.store) :
    ∃ s', g.program.step serve s = (g'.program, s') ∧ s'.store = t' ∧ KeepsWork s s' := by
  subst ht
  obtain ⟨s', hstep, hstore, hkeeps⟩ := step_serve hf metrics g.program
  rw [h.called.step] at hstep hstore
  exact ⟨s', hstep, hstore, hkeeps⟩

/-- The worker is at a stage of a rejection, or it has finished. -/
def WorksAt (g : Stage) : Worker → Prop
  | .idle => ∃ r, g = .finished r
  | .busy p => p = (onMatches g.program).bind fun _ => .done ()
  | .absent | .ended | .stranded => False

/-- Going on concerns the worker only. -/
theorem exists_resumed (p : ServiceProgram Unit) (s : Service) :
    ∃ w, resumed (p, s) = { s with worker := w } := by
  cases p <;> exact ⟨_, rfl⟩

/-- A worker that goes on is at the next stage, and one that has finished is idle. -/
theorem worksAt_resumed (g : Stage) (s : Service) :
    WorksAt g (resumed ((onMatches g.program).bind fun _ => .done (), s)).worker := by
  by_cases hg : ∃ r, g = .finished r
  · obtain ⟨r, rfl⟩ := hg
    exact ⟨r, rfl⟩
  · -- a program that still has a call to make is not taken for finished
    obtain ⟨c, next, hcall⟩ := Stage.exists_call fun r hr => hg ⟨r, hr⟩
    rw [hcall]
    exact congrArg (fun p => (onMatches p).bind _) hcall.symm

end Service

namespace Store

/-- An event tells of an accepted row. -/
def Knows (s : Store) (e : Accepted) : Prop := ∃ a, s.HasAccepted a ∧ e = a.accepted

theorem Knows.later {s s' : Store} {e : Accepted} (h : s.Knows e) (hlater : s.Later s') :
    s'.Knows e := by
  obtain ⟨a, ha, he⟩ := h
  exact ⟨a, ha.later hlater, he⟩

/-- The worker is entitled to reject what competes with the row that an event tells of. -/
theorem Knows.grounded {s : Store} {e : Accepted} (h : s.Knows e) :
    (Stage.first (.rejectCompeting e.matchId e.driverId e.passengerId)).Grounded s := by
  obtain ⟨a, ha, rfl⟩ := h
  exact ⟨⟨a, ha, rfl⟩, fun _ hid => absurd hid List.not_mem_nil⟩

end Store

namespace Agency

open Traffic

/-- The worker and the customers are the callers of a traffic with the same match table. -/
structure Staffed (x : Agency) (y : Traffic) (gs : List Stage) : Prop where
  candid : Candid y gs
  store : y.store = x.store
  faults : x.service.faults = ∅
  queueOpen : x.service.queue.closed = false
  callers : ∃ q : Rejecting, ∃ rest,
    y.callers = ⟨.rejectCompeting q.accepted q.driver q.passenger, rest⟩
      :: x.customers.map Customer.caller
  worker : ∃ g, gs[0]? = some g ∧ WorksAt g x.service.worker

/-- All events that are on their way to the worker tell of accepted rows. -/
structure Posted (x : Agency) : Prop where
  publishing : ∃ qs : List Posting, x.service.publishing = qs.map Posting.program ∧
    ∀ q ∈ qs, ∀ e ∈ q.unqueued, x.store.Knows e
  queued : ∀ e ∈ x.service.queue.events, x.store.Knows e

namespace Posted

variable {x x' : Agency}

/-- Calls that leave the queue and the publishing as they are. -/
theorem keeps (h : Posted x) (hkeeps : KeepsWork x.service x'.service)
    (hlater : x.store.Later x'.store) : Posted x' where
  publishing := by
    obtain ⟨qs, hqs, hknows⟩ := h.publishing
    exact ⟨qs, hkeeps.publishing.trans hqs, fun q hq e he => (hknows q hq e he).later hlater⟩
  queued := by
    rw [hkeeps.queue]
    exact fun e he => (h.queued e he).later hlater

end Posted

namespace Staffed

variable {x x' : Agency} {y : Traffic} {gs : List Stage}

/-- The worker that has not taken an event yet is as good as one that has finished. -/
theorem opening (o : Options) (now : Time.Instant) : ∃ y gs, Staffed (opening o now) y gs := by
  let r : Outcome := .rejections (.ok 0)
  let c : Caller := ⟨.rejectCompeting Uuid.nil "" "", .done r⟩
  have orderly : Orderly { callers := [c] } [.finished r] := by
    have h := (Orderly.opening .empty).arrive (.rejectCompeting Uuid.nil "" "")
    exact h.put (k := 0) rfl rfl (.finished _ r) (.refl h.ok h.present _) trivial
      (fun u hu => by cases hu) fun _ => idle_nextTicket h.ok.locks
  -- of `Candid` there remain the tally, the truthful, the grounded and the rejected rows
  refine ⟨{ callers := [c] }, [.finished r], ⟨orderly, ?_, ?_, ?_, ?_⟩, rfl, rfl, rfl,
    ⟨⟨Uuid.nil, "", ""⟩, .done r, rfl⟩, .finished r, rfl, r, rfl⟩
  · intro id user role
    have hnot : c.hasConfirmed id user role = false :=
      Caller.hasConfirmed_of_not_confirms (c := c) (fun h => h) id user role
    show [c].countP _ = 0
    simp [hnot]
  · intro g hg
    obtain rfl := List.mem_singleton.mp hg
    exact Stage.truthful_finished rfl
  · intro g hg
    obtain rfl := List.mem_singleton.mp hg
    trivial
  · intro id a ha
    cases ha

/-- Nobody makes a call on the match table. -/
theorem rests (h : Staffed x y gs) (hstore : x'.store = x.store)
    (hcustomers : x'.customers = x.customers) (hworker : x'.service.worker = x.service.worker)
    (hfaults : x'.service.faults = x.service.faults)
    (hclosed : x'.service.queue.closed = x.service.queue.closed) : Staffed x' y gs where
  candid := h.candid
  store := h.store.trans hstore.symm
  faults := hfaults.trans h.faults
  queueOpen := hclosed.trans h.queueOpen
  callers := by
    rw [hcustomers]
    exact h.callers
  worker := by
    rw [hworker]
    exact h.worker

/-- A customer who has not gone away is a caller. -/
theorem exists_caller (h : Staffed x y gs) {k : Nat} {c : Customer}
    (hc : x.customers[k]? = some c) : y.callers[k + 1]? = some c.caller := by
  obtain ⟨q, rest, hcallers⟩ := h.callers
  rw [hcallers, List.getElem?_cons_succ, List.getElem?_map, hc]
  rfl

/-- A customer is at another stage. -/
theorem serves (h : Staffed x y gs) {k : Nat} {c : Customer} {g : Stage} {s : Service}
    {metrics : Metrics} (hkeeps : KeepsWork x.service s)
    (candid : Candid { ledger := ⟨s.store, metrics⟩, callers := y.callers.set (k + 1) c.caller }
      (gs.set (k + 1) g)) :
    ∃ y' gs', Staffed { service := s, customers := x.customers.set k c } y' gs' := by
  obtain ⟨q, rest, hcallers⟩ := h.callers
  refine ⟨_, _, candid, rfl, hkeeps.faults.trans h.faults, ?_, ⟨q, rest, ?_⟩, ?_⟩
  · rw [hkeeps.queue]
    exact h.queueOpen
  · rw [hcallers, List.set_cons_succ, List.map_set]
  · rw [hkeeps.worker, List.getElem?_set_ne (Nat.succ_ne_zero k)]
    exact h.worker

theorem arrive (h : Staffed x y gs) {o : Operation} (ho : (Stage.first o).Grounded x.store) :
    Staffed (x.arrive o) (y.after (.arrive o)) (gs ++ [Stage.first o]) where
  candid := h.candid.arrive (h.store ▸ ho)
  store := h.store
  faults := h.faults
  queueOpen := h.queueOpen
  callers := by
    obtain ⟨q, rest, hcallers⟩ := h.callers
    refine ⟨q, rest, ?_⟩
    rw [Traffic.after, hcallers, Agency.arrive, List.map_append]
    rfl
  worker := by
    obtain ⟨g, hg, hworks⟩ := h.worker
    refine ⟨g, ?_, hworks⟩
    rw [List.getElem?_append_left (List.getElem?_eq_some_iff.mp hg).1]
    exact hg

theorem outage (h : Staffed x y gs) (offline : Bool) :
    Staffed (x.after (.outage offline)) (y.after (.outage offline)) gs where
  candid := h.candid.outage offline
  store := by
    show { y.store with offline } = { x.store with offline }
    rw [h.store]
  faults := h.faults
  queueOpen := h.queueOpen
  callers := h.callers
  worker := h.worker

theorem go (h : Staffed x y gs) {k : Nat} {o : Operation} {p : CallerProgram}
    (hc : x.customers[k]? = some ⟨o, some p⟩)
    (hfresh : x.store.Unused x.service.moment.freshId) :
    (∃ y' gs', Staffed (x.after (.go k)) y' gs') ∧
      KeepsWork x.service (x.after (.go k)).service ∧ x.store.Later (x.after (.go k)).store := by
  have hcaller := h.exists_caller hc
  obtain ⟨g, hg⟩ := h.candid.orderly.exists_stage hcaller
  obtain ⟨hrest, hof, -⟩ := h.candid.orderly.stage hcaller hg
  change p = g.program at hrest
  subst hrest
  obtain ⟨g', s', metrics', step, candid⟩ :=
    h.candid.go (m := x.service.moment) (fun _ _ _ => h.store ▸ hfresh) hcaller hg
  -- the service and the traffic make the same call, on tables that are the same
  obtain ⟨s, hstep, rfl, hkeeps⟩ := serve_of_stage h.faults step h.store
  have hafter : x.after (.go k)
      = { service := s, customers := x.customers.set k ⟨o, some g'.program⟩ } := by
    rw [Agency.after, hc]
    simp only [hstep]
  have hlater : y.store.Later s.store := (step.goes.rowChange hof).later
  rw [hafter]
  exact ⟨h.serves hkeeps candid, hkeeps, h.store ▸ hlater⟩

/-- A customer who has to wait goes away. -/
theorem leave (h : Staffed x y gs) {k : Nat} {o : Operation} {p : CallerProgram}
    (hc : x.customers[k]? = some ⟨o, some p⟩)
    (hwaits : waits (onMatches p) x.service = true) :
    (∃ y' gs', Staffed (x.after (.leave k)) y' gs') ∧
      KeepsWork x.service (x.after (.leave k)).service ∧
      x.store.Later (x.after (.leave k)).store := by
  have hcaller := h.exists_caller hc
  obtain ⟨g, hg⟩ := h.candid.orderly.exists_stage hcaller
  obtain ⟨hrest, -, hh⟩ := h.candid.orderly.stage hcaller hg
  change p = g.program at hrest
  subst hrest
  have hstore : y.store = x.service.store := h.store
  -- `exists_left` speaks of programs that go on with something; nothing is what follows here
  rw [← Program.bind_pure (onMatches g.program)] at hwaits
  obtain ⟨t, s', ht, hleft, hadv, hidle, hrow, -⟩ :=
    exists_left h.faults (hstore ▸ h.candid.orderly.ok) (hstore ▸ h.candid.orderly.present)
      (hstore ▸ hh) (fun _ => rfl) hwaits
  rw [Program.bind_pure] at hleft
  have hafter : x.after (.leave k) = { service := { x.service with store := s' }
                                       customers := x.customers.set k ⟨o, none⟩ } := by
    rw [Agency.after, hc]
    simp only [hleft]
  have hkeeps : KeepsWork x.service { x.service with store := s' } := ⟨rfl, rfl, rfl, rfl, rfl⟩
  have candid := h.candid.abandon hcaller hg ht (hstore ▸ hadv) hidle (hstore ▸ hrow)
    (r := Customer.gone) rfl
  rw [hafter]
  exact ⟨h.serves hkeeps candid, hkeeps, .of_row? hrow⟩

/-- What a customer has been told of as accepted is an accepted row. -/
theorem hasAccepted_of_told? (h : Staffed x y gs) {k : Nat} {c : Customer}
    (hc : x.customers[k]? = some c) {p : Proposal} (hp : c.told? = some p)
    (ha : p.status = .accepted) : x.store.HasAccepted p := by
  have hcaller := h.exists_caller hc
  obtain ⟨g, hg⟩ := h.candid.orderly.exists_stage hcaller
  obtain ⟨r, hr, hrp⟩ := Option.bind_eq_some_iff.mp hp
  obtain ⟨rest, hrest, hresult⟩ := Option.bind_eq_some_iff.mp hr
  have hprogram : g.program = rest := by
    rw [← (h.candid.orderly.stage hcaller hg).1, Customer.caller, hrest]
    rfl
  rw [← hprogram] at hresult
  obtain rfl := Stage.eq_finished hresult
  rw [← h.store]
  exact h.candid.truthful _ (List.mem_of_getElem? hg) p
    (congrArg some (Outcome.eq_of_proposal? hrp)) ha

/-! ### The worker -/

/-- The worker takes an event, and somebody new takes its place. -/
theorem takes (h : Staffed x y gs) (hw : x.service.worker = .idle) {e : Accepted}
    (rest : List Accepted) (hknows : x.store.Knows e) :
    ∃ y' gs', Staffed { x with service := { x.service with
      queue := { x.service.queue with events := rest }
      worker := .busy (handle e) } } y' gs' := by
  obtain ⟨q, left, hcallers⟩ := h.callers
  obtain ⟨g, hg, hworks⟩ := h.worker
  rw [hw] at hworks
  obtain ⟨r, rfl⟩ := hworks
  have hc : y.callers[0]? = some ⟨.rejectCompeting q.accepted q.driver q.passenger, left⟩ := by
    rw [hcallers]
    rfl
  have candid := h.candid.succeed hc hg (fun h => h) (h.store ▸ hknows.grounded)
  refine ⟨_, _, candid, h.store, h.faults, h.queueOpen,
    ⟨e.rejecting, (Operation.rejectCompeting e.matchId e.driverId e.passengerId).program, ?_⟩,
    Stage.first (.rejectCompeting e.matchId e.driverId e.passengerId), ?_, ?_⟩
  · rw [hcallers]
    rfl
  · exact List.getElem?_set_self (List.getElem?_eq_some_iff.mp hg).1
  · show handle e = _
    rw [← Operation.program_eq, Operation.program, bind_onMatches]
    rfl

/-- The worker is at the next stage of its rejection, or has finished it. -/
theorem resumes (h : Staffed x y gs) {y' : Traffic} {gs' : List Stage} {s : Service} {g : Stage}
    (hkeeps : KeepsWork x.service s) (candid : Candid y' gs') (hstore : y'.store = s.store)
    (hcallers : ∃ q : Rejecting, ∃ rest,
      y'.callers = ⟨.rejectCompeting q.accepted q.driver q.passenger, rest⟩
        :: x.customers.map Customer.caller) (hg : gs'[0]? = some g) :
    ∃ w, resumed ((onMatches g.program).bind fun _ => .done (), s) = { s with worker := w } ∧
      Staffed { x with service := { s with worker := w } } y' gs' := by
  have hworks := worksAt_resumed g s
  obtain ⟨w, hw⟩ := exists_resumed ((onMatches g.program).bind fun _ => .done ()) s
  rw [hw] at hworks
  refine ⟨w, hw, candid, hstore, hkeeps.faults.trans h.faults, ?_, hcallers, g, hg, hworks⟩
  exact (congrArg Queue.closed hkeeps.queue).trans h.queueOpen

/-- The worker goes on with the rejection with which it is busy. -/
theorem work (h : Staffed x y gs) {p : ServiceProgram Unit} (hw : x.service.worker = .busy p) :
    (∃ y' gs', Staffed (x.after .work) y' gs') ∧ x.store.Later (x.after .work).store ∧
      KeepsWork x.service { (x.after .work).service with worker := x.service.worker } := by
  obtain ⟨g, hg, hworks⟩ := h.worker
  rw [hw] at hworks
  change p = _ at hworks
  have hafter : x.after .work = { x with service := resumed (p.step perform x.service) } := by
    have hs : x.service = { x.service with worker := .busy p } := by rw [← hw]
    exact congrArg (fun service => { x with service })
      ((congrArg workerCall hs).trans (workerCall_busy p x.service))
  by_cases hfin : ∃ r, g = .finished r
  · -- there is nothing left to call, and the worker becomes idle
    obtain ⟨r, rfl⟩ := hfin
    have hstep : p.step perform x.service = (p, x.service) := by
      rw [hworks]
      rfl
    obtain ⟨w, hresumed, hstaffed⟩ := h.resumes (.refl _) h.candid h.store h.callers hg
    rw [hafter, hstep, hworks, hresumed]
    exact ⟨⟨_, _, hstaffed⟩, .refl _, ⟨rfl, rfl, rfl, rfl, rfl⟩⟩
  · obtain ⟨q, left, hcallers⟩ := h.callers
    have hc : y.callers[0]? = some ⟨.rejectCompeting q.accepted q.driver q.passenger, left⟩ := by
      rw [hcallers]
      rfl
    obtain ⟨-, hof, -⟩ := h.candid.orderly.stage hc hg
    -- a rejection draws no identifiers, so that nothing is asked of fresh ones
    have hnew : ∀ d t, g ≠ .inserting d t := by
      rintro d t rfl
      exact nomatch hof.eq_propose
    obtain ⟨g', s', metrics', step, candid⟩ :=
      h.candid.go (m := x.service.moment) (fun d t hd => absurd hd (hnew d t)) hc hg
    obtain ⟨s, hstep, rfl, hkeeps⟩ := step_of_stage h.faults step h.store
      (fun r hr => hfin ⟨r, hr⟩) fun _ => (.done () : ServiceProgram Unit)
    have hlater : y.store.Later s.store := (step.goes.rowChange hof).later
    obtain ⟨w, hresumed, hstaffed⟩ := h.resumes (g := g') hkeeps candid rfl
      ⟨q, g'.program, by rw [hcallers]; rfl⟩
      (List.getElem?_set_self (List.getElem?_eq_some_iff.mp hg).1)
    rw [hafter, hworks, hstep, hresumed]
    exact ⟨⟨_, _, hstaffed⟩, h.store ▸ hlater, ⟨hkeeps.queue, hkeeps.feed, hkeeps.publishing, rfl,
      hkeeps.faults⟩⟩

end Staffed

namespace Posted

variable {x : Agency}

theorem opening (o : Options) (now : Time.Instant) : Posted (opening o now) where
  publishing := ⟨[], rfl, fun _ hq => absurd hq List.not_mem_nil⟩
  queued _ he := absurd he List.not_mem_nil

/-- What a customer has been told of is handed over. -/
theorem handOver (h : Posted x) {p : Proposal}
    (hp : p.status = .accepted → x.store.HasAccepted p) :
    Posted { x with service := { x.service with
      publishing := x.service.publishing ++ [Service.publish p] } } where
  publishing := by
    obtain ⟨qs, hqs, hknows⟩ := h.publishing
    by_cases ha : p.status = .accepted
    · refine ⟨qs ++ [.announcing p.accepted], ?_, fun q hq e he => ?_⟩
      · rw [hqs, List.map_append, Posting.program_announcing ha]
        rfl
      · rcases List.mem_append.mp hq with hq | hq
        · exact hknows q hq e he
        · obtain rfl := List.mem_singleton.mp hq
          obtain rfl := List.mem_singleton.mp he
          exact ⟨p, hp ha, rfl⟩
    · -- what is not accepted is not announced to anybody
      refine ⟨qs ++ [.posted], ?_, fun q hq e he => ?_⟩
      · rw [hqs, List.map_append, Service.publish, if_neg ha]
        rfl
      · rcases List.mem_append.mp hq with hq | hq
        · exact hknows q hq e he
        · obtain rfl := List.mem_singleton.mp hq
          cases he
  queued := h.queued

theorem publish (h : Posted x) (k : Nat) (hopen : x.service.queue.closed = false) :
    Posted (x.after (.publish k)) ∧ (x.after (.publish k)).store = x.store ∧
      (x.after (.publish k)).customers = x.customers ∧
      (x.after (.publish k)).service.worker = x.service.worker ∧
      (x.after (.publish k)).service.faults = x.service.faults ∧
      (x.after (.publish k)).service.queue.closed = x.service.queue.closed := by
  obtain ⟨qs, hqs, hknows⟩ := h.publishing
  cases hq : qs[k]? with
  | none =>
      have hafter : x.after (.publish k) = x := by
        rw [Agency.after, hqs, List.getElem?_map, hq]
        rfl
      rw [hafter]
      exact ⟨h, rfl, rfl, rfl, rfl, rfl⟩
  | some q =>
      obtain ⟨q', s', announced, queued, turn⟩ := q.exists_turn hopen
      have hafter : x.after (.publish k) = { x with
          service := { s' with publishing := s'.publishing.set k q'.program } } := by
        rw [Agency.after, hqs, List.getElem?_map, hq]
        simp only [Option.map_some, turn.step]
      have hmem : ∀ e ∈ q.unqueued, x.store.Knows e := hknows q (List.mem_of_getElem? hq)
      rw [turn.unqueued] at hmem
      rw [hafter]
      refine ⟨⟨⟨qs.set k q', ?_, fun q'' hq'' e he => ?_⟩, fun e he => ?_⟩, turn.store, rfl,
        turn.worker, turn.faults, turn.closed⟩
      · rw [turn.publishing, hqs, List.map_set]
      · show s'.store.Knows e
        rw [turn.store]
        rcases List.mem_or_eq_of_mem_set hq'' with hq'' | rfl
        · exact hknows q'' hq'' e he
        · exact hmem e (List.mem_append_right _ he)
      · show s'.store.Knows e
        rw [turn.store]
        rw [turn.events] at he
        rcases List.mem_append.mp he with he | he
        · exact h.queued e he
        · exact hmem e (List.mem_append_left _ he)

end Posted

/-! ### Whatever happens -/

/-- The customers and the worker are at work, and events are on their way. -/
structure Kept (x : Agency) : Prop where
  staffed : ∃ y gs, Staffed x y gs
  posted : Posted x

namespace Kept

variable {x : Agency}

theorem opening (o : Options) (now : Time.Instant) : Kept (opening o now) :=
  ⟨Staffed.opening o now, .opening o now⟩

/-- Somebody comes who does not want anything rejected. -/
theorem arrive (h : Kept x) {o : Operation} (ho : (Stage.first o).Grounded x.store) :
    Kept (x.arrive o) := by
  obtain ⟨y, gs, hstaffed⟩ := h.staffed
  exact ⟨⟨_, _, hstaffed.arrive ho⟩, h.posted.keeps (.refl _) (.refl _)⟩

theorem go (h : Kept x) {k : Nat} (hfresh : x.store.Unused x.service.moment.freshId) :
    Kept (x.after (.go k)) := by
  obtain ⟨y, gs, hstaffed⟩ := h.staffed
  rcases hc : x.customers[k]? with _ | ⟨o, _ | p⟩
  · rw [Agency.after, hc]
    exact h
  · rw [Agency.after, hc]
    exact h
  · obtain ⟨hstaffed', hkeeps, hlater⟩ := hstaffed.go hc hfresh
    exact ⟨hstaffed', h.posted.keeps hkeeps hlater⟩

theorem leave (h : Kept x) {k : Nat} (hadm : x.Admits (.leave k)) : Kept (x.after (.leave k)) := by
  obtain ⟨y, gs, hstaffed⟩ := h.staffed
  rcases hc : x.customers[k]? with _ | ⟨o, _ | p⟩
  · rw [Agency.after, hc]
    exact h
  · rw [Agency.after, hc]
    exact h
  · simp only [Admits, hc, Option.all_some] at hadm
    obtain ⟨hstaffed', hkeeps, hlater⟩ := hstaffed.leave hc hadm
    exact ⟨hstaffed', h.posted.keeps hkeeps hlater⟩

theorem handOver (h : Kept x) (k : Nat) : Kept (x.after (.handOver k)) := by
  obtain ⟨y, gs, hstaffed⟩ := h.staffed
  cases hp : (x.customers[k]?).bind Customer.told? with
  | none =>
      rw [Agency.after, hp]
      exact h
  | some p =>
      obtain ⟨c, hc, htold⟩ := Option.bind_eq_some_iff.mp hp
      rw [Agency.after, hp]
      exact ⟨⟨y, gs, hstaffed.rests rfl rfl rfl rfl rfl⟩,
        h.posted.handOver (hstaffed.hasAccepted_of_told? hc htold)⟩

theorem publish (h : Kept x) (k : Nat) : Kept (x.after (.publish k)) := by
  obtain ⟨y, gs, hstaffed⟩ := h.staffed
  obtain ⟨hposted, hstore, hcustomers, hworker, hfaults, hclosed⟩ :=
    h.posted.publish k hstaffed.queueOpen
  exact ⟨⟨y, gs, hstaffed.rests hstore hcustomers hworker hfaults hclosed⟩, hposted⟩

theorem work (h : Kept x) : Kept (x.after .work) := by
  obtain ⟨y, gs, hstaffed⟩ := h.staffed
  cases hw : x.service.worker with
  | idle =>
      cases hevents : x.service.queue.events with
      | nil =>
          have hempty : whenEmpty x.service.queue = .idle := by
            simp [whenEmpty, Queue.isDrained, hstaffed.queueOpen]
          have hafter : x.after .work = x := by
            show { x with service := x.service.workerCall } = x
            rw [workerCall, hw]
            simp only [Queue.take, hevents, hempty]
            rw [← hw]
          rw [hafter]
          exact h
      | cons e rest =>
          have hafter : x.after .work = { x with service := { x.service with
              queue := { x.service.queue with events := rest }, worker := .busy (handle e) } } := by
            show { x with service := x.service.workerCall } = _
            rw [workerCall, hw]
            simp only [Queue.take, hevents]
          have hqueued := h.posted.queued
          rw [hevents] at hqueued
          rw [hafter]
          exact ⟨hstaffed.takes hw rest (hqueued e List.mem_cons_self),
            h.posted.publishing, fun e' he' => hqueued e' (List.mem_cons_of_mem _ he')⟩
  | busy p =>
      obtain ⟨hstaffed', hlater, hkeeps⟩ := hstaffed.work hw
      -- `KeepsWork` would have the worker stay as it is, and it is all that differs
      have hposted : Posted { x with
          service := { (x.after .work).service with worker := x.service.worker } } :=
        h.posted.keeps hkeeps hlater
      exact ⟨hstaffed', hposted.publishing, hposted.queued⟩
  | _ =>
      obtain ⟨g, -, hworks⟩ := hstaffed.worker
      rw [hw] at hworks
      exact hworks.elim

/-- **Whatever happens, everybody is at work as before.** -/
theorem after (h : Kept x) {e : Event} (hadm : x.Admits e) : Kept (x.after e) := by
  cases e with
  | propose d =>
      refine h.arrive ?_
      rw [Stage.first_propose]
      cases d.refusal? <;> trivial
  | confirm id user role => exact h.arrive trivial
  | go k => exact h.go hadm
  | leave k => exact h.leave hadm
  | handOver k => exact h.handOver k
  | publish k => exact h.publish k
  | work => exact h.work
  | clock now =>
      obtain ⟨y, gs, hstaffed⟩ := h.staffed
      exact ⟨⟨y, gs, hstaffed.rests rfl rfl rfl rfl rfl⟩,
        h.posted.keeps ⟨rfl, rfl, rfl, rfl, rfl⟩ (.refl _)⟩
  | outage offline =>
      obtain ⟨y, gs, hstaffed⟩ := h.staffed
      exact ⟨⟨_, _, hstaffed.outage offline⟩,
        h.posted.keeps ⟨rfl, rfl, rfl, rfl, rfl⟩ (.of_row? rfl)⟩

/-- The customers and the rows agree on who has confirmed what. -/
theorem confirmations_eq (h : Kept x) (id : MatchId) (user : ActorId) (role : Role) :
    x.confirmations id user role = (x.store.consents id user role).toNat := by
  obtain ⟨y, gs, hstaffed⟩ := h.staffed
  obtain ⟨q, rest, hcallers⟩ := hstaffed.callers
  have htally := hstaffed.candid.tallied id user role
  -- the worker is a caller as well, but rejecting is not confirming
  have hworker : Caller.hasConfirmed
      ⟨.rejectCompeting q.accepted q.driver q.passenger, rest⟩ id user role = false :=
    Caller.hasConfirmed_of_not_confirms (c := ⟨.rejectCompeting _ _ _, rest⟩) (fun h => h) id user
      role
  rw [hstaffed.store, Traffic.confirmations, hcallers] at htally
  simpa [Agency.confirmations, List.countP_map, Function.comp_def, hworker,
    Customer.hasConfirmed_caller] using htally

theorem accounts (h : Kept x) : x.Accountable where
  driver id r hr := by
    rw [h.confirmations_eq, consents_of_row? hr]
    simp [Proposal.consents, Proposal.party, Proposal.hasConfirmed]
  passenger id r hr := by
    rw [h.confirmations_eq, consents_of_row? hr]
    simp [Proposal.consents, Proposal.party, Proposal.hasConfirmed]
  once id user role := by
    rw [h.confirmations_eq]
    exact Bool.toNat_le _
  party id user role hone := by
    rw [h.confirmations_eq, Bool.toNat_eq_one, Store.consents, Option.any_eq_true] at hone
    obtain ⟨r, hr, hc⟩ := hone
    rw [Proposal.consents, Bool.and_eq_true, decide_eq_true_eq] at hc
    exact ⟨r, hr, hc.1⟩
  rejected := by
    obtain ⟨y, gs, hstaffed⟩ := h.staffed
    rw [← hstaffed.store]
    exact hstaffed.candid.justified

end Kept

/-- **In every state of every run each confirmation in a row has been given by the one whom it
concerns, and once, and whatever is rejected has the driver or the passenger in common with an
accepted row.** -/
theorem accountable {o : Options} {now : Time.Instant} {events : List Event}
    (hadm : Run.Along after Admits (opening o now) events) :
    ∀ x ∈ Run.states after (opening o now) events, x.Accountable := by
  intro x hx
  have hkept : Kept x :=
    Run.invariant (Q := Kept) (fun h hadm => h.after hadm) (Kept.opening o now) hadm x hx
  exact hkept.accounts

/-- The driver gets two proposals.  Both confirm the first one, the passenger while the driver waits
to confirm it once more, and gives up; then the match table cannot be reached for a while.  The
event goes all its way, and the worker looks for what competes. -/
def agreeing : List Event :=
  List.flatten
    [.propose someDraft :: .replicate 5 (.go 0),
      .propose { someDraft with passengerId := "q" } :: .replicate 5 (.go 1),
      .confirm (Uuid.fresh 0) "d" .driver :: .replicate 6 (.go 2),
      [.confirm (Uuid.fresh 0) "p" .passenger, .go 3, .go 3],
      [.confirm (Uuid.fresh 0) "d" .driver, .go 4, .go 4, .leave 4],
      .replicate 4 (.go 3),
      [.outage true, .outage false, .handOver 3],
      .replicate 3 (.publish 0),
      .replicate 9 .work]

theorem accountable_agreeing :
    Run.Along after Admits (opening {} ⟨0, 0⟩) agreeing ∧
      (agreeing.foldl after (opening {} ⟨0, 0⟩)).confirmations (Uuid.fresh 0) "d" .driver = 1 ∧
      (agreeing.foldl after (opening {} ⟨0, 0⟩)).confirmations (Uuid.fresh 0) "p" .passenger = 1 ∧
      ∀ x ∈ Run.states after (opening {} ⟨0, 0⟩) agreeing, x.Accountable := by
  have hadm : Run.Along after Admits (opening {} ⟨0, 0⟩) agreeing := by decide +kernel
  exact ⟨hadm, by decide +kernel, by decide +kernel, accountable hadm⟩

end Agency
end Dispatch
