/-
What comes of the accepted proposals.

However many visitors there are, and in whatever order everything happens, each accepted row has
one event, which tells of the row as it will always be.  First it is owed by the visitor who has
confirmed the row last, then it is with a piece of publishing, and then it is in the feed and in
the queue.  The worker takes the events from the queue in the order in which they have come.

So when nobody is in the middle of a confirmation and nothing is left to be published, the feed
and the queue have told of all accepted rows; and when the queue is empty and the worker idle as
well, whatever still competes with an accepted row has entered the table since the worker took its
event.
-/
import Dispatch.Proofs.Service.Worker

namespace Dispatch

open Service Store

instance Arrival.decidableConfirms : (a : Arrival) → Decidable a.Confirms
  | .rejection _ _ _ => inferInstanceAs (Decidable False)
  | .request r => decidable_of_iff
      ((match Http.Route.ofPath? r.path with
        | some (.confirmation _) => true
        | _ => false) = true) <| by
      unfold Confirms
      split
      · rename_i id hid
        exact iff_of_true rfl ⟨id, hid⟩
      · rename_i hnone
        exact iff_of_false nofun fun ⟨id, hid⟩ => hnone id hid

instance : (w : Worker) → Decidable (w = .idle)
  | .idle => isTrue rfl
  | .busy _ | .absent | .ended | .stranded => isFalse nofun

namespace Scene

/-- Nobody is in the middle of a confirmation, and nothing is left to be published. -/
structure Settled (x : Scene) : Prop where
  confirmations : ∀ v ∈ x.visitors, v.arrival.Confirms → v.rest.result? ≠ none
  publishing : ∀ p ∈ x.service.publishing, p.result? ≠ none

/-- And the worker has nothing to do. -/
structure Drained (x : Scene) : Prop extends x.Settled where
  queue : x.service.queue.events = []
  worker : x.service.worker = .idle

instance (x : Scene) : Decidable x.Settled :=
  decidable_of_iff ((∀ v ∈ x.visitors, v.arrival.Confirms → v.rest.result? ≠ none) ∧
    ∀ p ∈ x.service.publishing, p.result? ≠ none) ⟨fun h => ⟨h.1, h.2⟩, fun h => ⟨h.1, h.2⟩⟩

instance (x : Scene) : Decidable x.Drained :=
  decidable_of_iff (x.Settled ∧ x.service.queue.events = [] ∧ x.service.worker = .idle)
    ⟨fun h => ⟨h.1, h.2.1, h.2.2⟩, fun h => ⟨h.1, h.2, h.3⟩⟩

/-- Events tell of accepted rows, each of another one, and the rows are the same later. -/
structure Told (x y : Scene) (es : List Accepted) : Prop where
  once : (es.map Accepted.matchId).Nodup
  row : ∀ e ∈ es, ∃ r, x.store.HasAccepted r ∧ y.store.HasAccepted r ∧ e = r.accepted

/-- What comes of the accepted proposals in a run, and what will be said of them later. -/
structure Published (o : Options) (x : Scene) (events later : List Event) : Prop where
  /-- What has been announced tells of accepted rows. -/
  feed : Told (x.run o events) (x.run o (events ++ later)) (x.run o events).service.feed.log
  /-- So does what has come into the queue. -/
  queue : Told (x.run o events) (x.run o (events ++ later)) (queued o x events)
  /-- Each accepted row is told of once, if what is on its way is counted in. -/
  books : ∃ qs, Books (x.run o events) qs (queued o x events)
  /-- The worker takes what has come into the queue, in this order. -/
  taken : queued o x events = taken o x events ++ (x.run o events).service.queue.events
  /-- When nothing is on its way, all accepted rows have been told of. -/
  settled : (x.run o events).Settled →
    (x.run o events).store.Tells (x.run o events).service.feed.log ∧
      (x.run o events).store.Tells (queued o x events)
  /-- When nothing is left to do, what competes with an accepted row has come since the worker has
  taken its event. -/
  drained : (x.run o events).Drained → ∀ r a, (x.run o events).store.row? r.id = some r →
    r.isOpen = true → (x.run o events).store.HasAccepted a → r.Competes a.accepted →
    ∃ before rest, events = before ++ .work :: rest ∧
      (x.run o before).takes .work = [a.accepted] ∧ (x.run o before).store.row? r.id = none

theorem Told.of_tells {x y : Scene} {es es' : List Accepted} (h : x.store.Tells (es' ++ es))
    (hlater : x.store.Later y.store) : Told x y es where
  once := (List.nodup_append.mp (List.map_append ▸ h.once)).2.1
  row := by
    intro e he
    obtain ⟨r, hr, rfl⟩ := (h.mem e).1 (List.mem_append_right _ he)
    obtain ⟨r', hr', hl⟩ := hlater _ _ hr.1
    rw [hl.closed (Or.inl hr.2)] at hr'
    exact ⟨r, hr, ⟨hr', hr.2⟩, rfl⟩

variable {x : Scene} {y : Traffic} {gs : List Stage} {seat : Party → Option Nat}
  {added : List Accepted} {ts : List Taking} {o : Options}

/-- Nothing is owed when nobody is in the middle of a confirmation. -/
theorem Seated.owed_eq_nil (h : Seated x y gs seat) (hs : x.Settled) : x.owed = [] := by
  refine List.flatMap_eq_nil_iff.mpr fun v hv => ?_
  obtain ⟨k, hk⟩ := List.mem_iff_getElem?.mp hv
  by_cases hc : v.arrival.Confirms
  · obtain ⟨a, ha⟩ := Option.ne_none_iff_exists'.mp (hs.confirmations v hv hc)
    cases hrest : v.rest with
    | done a => rfl
    | call c next =>
        rw [hrest] at ha
        cases ha
  · have hsits := h.visitor hk
    cases hseat : seat (.visitor k) with
    | none =>
        rw [hseat] at hsits
        exact Harmless.owed_eq_nil hsits
    | some i =>
        rw [hseat] at hsits
        obtain ⟨c, hi, hp, hmay⟩ := hsits
        obtain ⟨g, hg⟩ := h.orderly.exists_stage hi
        rw [(h.orderly.stage hi hg).1] at hp
        rw [hp.owed_eq]
        exact Stage.owed_of_not_confirms (fun ho => hc (hmay ho)) g

/-- When nothing is on its way, all accepted rows have been told of. -/
theorem InOrder.settled (h : InOrder x added ts) (hs : x.Settled) :
    x.store.Tells x.service.feed.log ∧ x.store.Tells added := by
  obtain ⟨y, gs, seat, hseated, -⟩ := h.seated
  obtain ⟨qs, hbooks⟩ := h.books
  have howed := hseated.owed_eq_nil hs
  have hposted : ∀ q ∈ qs, q = .posted := by
    intro q hq
    refine Posting.eq_posted (hs.publishing _ ?_)
    rw [hbooks.publishing]
    exact List.mem_map_of_mem hq
  have hnil : ∀ {f : Posting → List Accepted}, f .posted = [] → qs.flatMap f = [] :=
    fun hf => List.flatMap_eq_nil_iff.mpr fun q hq => hposted q hq ▸ hf
  refine ⟨?_, ?_⟩
  · have hannounced := hbooks.announced
    rwa [howed, hnil rfl] at hannounced
  · have hdelivered := hbooks.delivered
    rwa [howed, hnil rfl] at hdelivered

/-- The events that the worker has taken, and those that it has taken with the table, are the
same. -/
theorem map_takings (o : Options) (x : Scene) (events : List Event) :
    (Run.collect (Scene.after o) takings x events).map Taking.event = taken o x events := by
  rw [Run.map_collect, taken]
  refine congrArg (Run.collect (Scene.after o) · x events) (funext fun x => funext fun e => ?_)
  rw [takings, List.map_map]
  exact List.map_id _

/-- The worker has finished with all that it has handled. -/
theorem InOrder.exists_finished {events : List Event} (h : InOrder (x.run o events) added
      (Run.collect (Scene.after o) takings x events)) {e : Accepted} (he : e ∈ handled o x events) :
    ∃ t ∈ Run.collect (Scene.after o) takings x events,
      t.event = e ∧ t.Finished (x.run o events).store := by
  obtain ⟨y, gs, seat, -, hclears⟩ := h.seated
  rw [handled, ← map_takings] at he
  generalize Run.collect (Scene.after o) takings x events = ts at he hclears ⊢
  cases hw : (x.run o events).service.worker with
  | idle =>
      rw [hw] at he hclears
      cases hclears with
      | idle hfinished =>
          obtain ⟨t, ht, rfl⟩ := List.mem_map.mp he
          exact ⟨t, ht, rfl, hfinished t ht⟩
  | busy p =>
      rw [hw] at he hclears
      cases hclears with
      | busy _ _ _ _ hfinished =>
          simp only [List.map_append, List.map_cons, List.map_nil, List.dropLast_concat] at he
          obtain ⟨t, ht, rfl⟩ := List.mem_map.mp he
          exact ⟨t, List.mem_append_left _ ht, rfl, hfinished t ht⟩
  | _ =>
      rw [hw] at hclears
      cases hclears

/-- What has been taken has been taken by the worker, in some state of the run. -/
theorem exists_taking {events : List Event} {t : Taking}
    (ht : t ∈ Run.collect (Scene.after o) takings x events) :
    ∃ before rest, events = before ++ .work :: rest ∧ (x.run o before).takes .work = [t.event] ∧
      t.store = (x.run o before).store := by
  obtain ⟨before, e, rest, rfl, he⟩ := Run.mem_collect ht
  obtain ⟨a, ha, rfl⟩ := List.mem_map.mp he
  cases e with
  | work =>
      refine ⟨before, rest, rfl, ?_, rfl⟩
      show (before.foldl (Scene.after o) x).takes .work = [a]
      rw [takes] at ha ⊢
      split at ha
      · rw [Option.mem_toList] at ha
        rw [ha]
        rfl
      · cases ha
  | _ => cases ha

/-! ### A run -/

/-- Somebody proposes to ride with somebody else. -/
def creation (driver passenger : ActorId) : Arrival :=
  let place := "\x7b\"lat\":0,\"lng\":0\x7d"
  .request {
    method := "POST"
    path := "/matches".toList
    headers := [("content-type", "application/json")]
    body := "\x7b\"driver_id\":\"" ++ driver ++ "\",\"passenger_id\":\"" ++ passenger ++
      "\",\"driver_location\":" ++ place ++ ",\"passenger_location\":" ++ place ++ "\x7d" }

/-- Somebody confirms a proposal. -/
def confirmation (id : MatchId) (user : ActorId) (isDriver : Bool) : Arrival :=
  .request {
    method := "POST"
    path := "/matches/".toList ++ id.chars ++ "/confirm".toList
    headers := [("content-type", "application/json")]
    body := "\x7b\"user_id\":\"" ++ user ++ "\",\"is_driver\":" ++
      (if isDriver then "true" else "false") ++ "\x7d" }

/-- A proposal is made, and the driver confirms it. -/
def proposing : List Event :=
  [.arrive (creation "d" "p")] ++ List.replicate 5 (.go 0) ++
    [.arrive (confirmation (Uuid.fresh 0) "d" true)] ++ List.replicate 6 (.go 1)

/-- The passenger confirms it too, while the driver waits to confirm it once more, and gives up.
The event goes all its way, and then the driver gets another proposal. -/
def agreeing : List Event :=
  [.arrive (confirmation (Uuid.fresh 0) "p" false), .go 2, .go 2,
    .arrive (confirmation (Uuid.fresh 0) "d" true), .go 3, .go 3, .leave 3] ++
    List.replicate 5 (.go 2) ++ List.replicate 3 (.publish 0) ++ List.replicate 4 .work ++
    [.arrive (creation "d" "q")] ++ List.replicate 5 (.go 4)

/-- The driver confirms the other proposal. -/
def goingOn : List Event :=
  [.arrive (confirmation (Uuid.fresh 1) "d" true)] ++ List.replicate 6 (.go 5)

/-- The run can happen, and before it goes on nothing is left to do. -/
theorem along_agreeing :
    Run.Along (Scene.after {}) Admits (opening {} ⟨0, 0⟩) ((proposing ++ agreeing) ++ goingOn) ∧
      ((opening {} ⟨0, 0⟩).run {} (proposing ++ agreeing)).Drained ∧
      ((opening {} ⟨0, 0⟩).run {} (proposing ++ agreeing)).store.rows.values.map Proposal.status
        = [.accepted, .pending] := by
  decide +kernel

/-! ### Whatever happens -/

/-- **Whatever happens, each accepted row is told of once, in the feed and in the queue, and just
as it is; the worker takes each event once, and has closed what competes with it when there is
nothing left to do.** -/
theorem accepted_published {o : Options} {now : Time.Instant} {events later : List Event}
    (hadm : Run.Along (Scene.after o) Admits (opening o now) (events ++ later)) :
    Published o (opening o now) events later := by
  obtain ⟨hevents, hrest⟩ := Run.along_append.mp hadm
  have h := inOrder_of_along hevents
  have hlater := (h.run hrest).2
  rw [← List.foldl_append] at hlater
  obtain ⟨qs, hbooks⟩ := h.books
  refine ⟨?_, ?_, ⟨qs, hbooks⟩, ?_, h.settled, fun hd r a hr hopen ha hc => ?_⟩
  · have hannounced := hbooks.announced
    rw [← List.append_assoc] at hannounced
    exact .of_tells hannounced hlater
  · have hdelivered := hbooks.delivered
    rw [← List.append_assoc] at hdelivered
    exact .of_tells hdelivered hlater
  · rw [← map_takings]
    exact h.queue
  · -- the event of the accepted row has been taken, and the worker has finished with it
    have hhandled : a.accepted ∈ handled o (opening o now) events := by
      have hmem := ((h.settled hd.toSettled).2.mem _).2 ⟨a, ha, rfl⟩
      rw [h.queue, hd.queue, List.append_nil, map_takings] at hmem
      rw [handled, hd.worker]
      exact hmem
    obtain ⟨t, ht, he, hfinished⟩ := h.exists_finished hhandled
    obtain ⟨before, rest, hsplit, htakes, hstore⟩ := exists_taking ht
    refine ⟨before, rest, hsplit, he ▸ htakes, ?_⟩
    rw [← hstore]
    exact (hfinished.competing r hr hopen (he ▸ hc)).resolve_right id

theorem accepted_published_agreeing :
    Run.Along (Scene.after {}) Admits (opening {} ⟨0, 0⟩) ((proposing ++ agreeing) ++ goingOn) ∧
      ((opening {} ⟨0, 0⟩).run {} (proposing ++ agreeing)).Drained ∧
      Published {} (opening {} ⟨0, 0⟩) (proposing ++ agreeing) goingOn :=
  ⟨along_agreeing.1, along_agreeing.2.1, accepted_published along_agreeing.1⟩

end Scene
end Dispatch
