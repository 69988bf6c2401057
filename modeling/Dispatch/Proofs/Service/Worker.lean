/-
The worker, and all that happens in the service.

The worker takes the events from the queue in turn, and rejects what competes with each before it
takes the next one.  So at any time there are events with which it has finished, and at most one
with which it is busy: the open competitors of the former have come since they were taken, and
those of the latter too, but for some that the worker still has to close (`Scene.Clears`).

`Scene.InOrder` puts together what has been said about the table, about the accepted rows and
about the worker, given the events that have been added to the queue and those that have been
taken from it.  It is kept by whatever happens (`Scene.InOrder.after`).
-/
import Dispatch.Proofs.Matching.Sweep
import Dispatch.Proofs.Service.Seats

namespace Dispatch

open Service Store

namespace Scene

/-- The worker has finished with this. -/
def Taking.Finished (t : Taking) (s : Store) : Prop := t.store.Swept t.event (fun _ => False) s

/-- What the worker has done about the events that it has taken: it has finished with all of them,
or with all but the last one. -/
inductive Clears (s : Store) (gs : List Stage) (seat? : Option Nat) : Worker → List Taking → Prop
  | idle {ts : List Taking} (h : ∀ t ∈ ts, t.Finished s) : Clears s gs seat? .idle ts
  | busy {p : ServiceProgram Unit} {ts : List Taking} {t : Taking} {i : Nat} {g : Stage}
      (hseat : seat? = some i) (hg : gs[i]? = some g) (hrej : g.Rejects t.event.rejecting)
      (ht : t.store.Swept t.event g.Due s) (h : ∀ t ∈ ts, t.Finished s) :
      Clears s gs seat? (.busy p) (ts ++ [t])

theorem Taking.Finished.frame {t : Taking} {s s' : Store} (h : t.Finished s) (hlater : s.Later s') :
    t.Finished s' :=
  Swept.frame h hlater fun _ hdue => hdue

theorem Clears.frame {s s' : Store} {gs gs' : List Stage} {seat? : Option Nat} {w : Worker}
    {ts : List Taking} (h : Clears s gs seat? w ts) (hlater : s.Later s')
    (hgs : ∀ i, seat? = some i → gs'[i]? = gs[i]?) : Clears s' gs' seat? w ts := by
  cases h with
  | idle h => exact .idle fun t ht => (h t ht).frame hlater
  | busy hseat hg hrej ht h =>
      exact .busy hseat ((hgs _ hseat).trans hg) hrej (ht.frame hlater Stage.Due.later)
        fun t ht => (h t ht).frame hlater

/-- The table, the accepted rows and the worker are in order, given what has been added to the queue
and what has been taken from it. -/
structure InOrder (x : Scene) (added : List Accepted) (takings : List Taking) : Prop where
  seated : ∃ y gs seat, Seated x y gs seat ∧
    Clears x.store gs (seat .worker) x.service.worker takings
  books : ∃ qs, Books x qs added
  queue : added = takings.map Taking.event ++ x.service.queue.events

namespace InOrder

variable {x x' : Scene} {added : List Accepted} {ts : List Taking} {o : Options}

theorem opening (o : Options) (now : Time.Instant) : InOrder (opening o now) [] [] where
  seated := ⟨_, _, _, .opening o now, .idle nofun⟩
  books := ⟨[], rfl, .empty, .empty⟩
  queue := rfl

/-- What has been added to the queue is the event of an accepted row. -/
theorem exists_row (h : InOrder x added ts) {e : Accepted} (he : e ∈ added) :
    ∃ r, x.store.HasAccepted r ∧ e = r.accepted := by
  obtain ⟨qs, hbooks⟩ := h.books
  exact (hbooks.delivered.mem _).1 (List.mem_append_right _ (List.mem_append_right _ he))

/-- So is what the worker has taken. -/
theorem exists_accepted (h : InOrder x added ts) {t : Taking} (ht : t ∈ ts) :
    ∃ r, x.store.HasAccepted r ∧ t.event = r.accepted :=
  h.exists_row (h.queue ▸ List.mem_append_left _ (List.mem_map_of_mem ht))

/-- An event that is not the worker's. -/
theorem passes (h : InOrder x added ts) {gs : List Stage} {seat : Party → Option Nat}
    (hclears : Clears x.store gs (seat .worker) x.service.worker ts) (hp : Passes gs seat x x') :
    InOrder x' added ts ∧ x.store.Later x'.store ∧ x'.service.queue = x.service.queue := by
  obtain ⟨y', gs', seat', hseated, hseat, hgs, heffect⟩ := hp
  obtain ⟨qs, hbooks⟩ := h.books
  cases heffect with
  | accepts new ha hlater howed hwork =>
      refine ⟨⟨⟨y', gs', seat', hseated, ?_⟩,
        ⟨qs, hbooks.accepts ha howed hwork.publishing hwork.feed⟩, ?_⟩, hlater, hwork.queue⟩
      · rw [hseat, hwork.worker]
        exact hclears.frame hlater hgs
      · rw [hwork.queue]
        exact h.queue
  | handsOver p hp howed hservice =>
      have hstore : x'.store = x.store := by rw [store, hservice]
      refine ⟨⟨⟨y', gs', seat', hseated, ?_⟩,
        ⟨_, hbooks.handsOver hp howed hstore (by rw [hservice]) (by rw [hservice])⟩, ?_⟩,
        hstore ▸ .refl _, by rw [hservice]⟩
      · rw [hseat, hstore, hservice]
        exact hclears.frame (.refl _) hgs
      · rw [hservice]
        exact h.queue

/-- A piece of publishing makes its next call. -/
theorem publish (h : InOrder x added ts) (k : Nat) : ∃ queued,
    InOrder (x.after o (.publish k)) (added ++ queued) ts ∧
      (x.after o (.publish k)).store = x.store ∧
      (x.after o (.publish k)).service.queue.events = x.service.queue.events ++ queued := by
  obtain ⟨y, gs, seat, hseated, hclears⟩ := h.seated
  obtain ⟨qs, hbooks⟩ := h.books
  cases hq : qs[k]? with
  | none =>
      have hnone : x.service.publishing[k]? = none := by
        rw [hbooks.publishing, List.getElem?_map, hq]
        rfl
      have hafter : x.after o (.publish k) = x := by rw [Scene.after, hnone]
      rw [hafter]
      exact ⟨[], by rwa [List.append_nil], rfl, (List.append_nil _).symm⟩
  | some q =>
      have hsome : x.service.publishing[k]? = some q.program := by
        rw [hbooks.publishing, List.getElem?_map, hq]
        rfl
      obtain ⟨q', s', announced, queued, turn⟩ := q.exists_turn hseated.queueOpen
      have hafter : x.after o (.publish k) = { x with
          service := { s' with publishing := s'.publishing.set k q'.program } } := by
        rw [Scene.after, hsome]
        simp only [turn.step]
      rw [hafter]
      refine ⟨queued, ⟨⟨y, gs, seat, hseated.rests turn.worker turn.faults turn.closed turn.store
        fun _ _ hv => Or.inr hv, ?_⟩, ⟨qs.set k q', hbooks.turn hq turn.unannounced turn.unqueued
          rfl turn.store (by rw [turn.publishing]) turn.log⟩, ?_⟩, turn.store, turn.events⟩
      · show Clears s'.store gs (seat .worker) s'.worker ts
        rw [turn.store, turn.worker]
        exact hclears
      · show added ++ queued = ts.map Taking.event ++ s'.queue.events
        rw [turn.events, h.queue, List.append_assoc]

/-! ### The worker -/

/-- The worker finds the queue empty, or takes the first event. -/
theorem workIdle (h : InOrder x added ts) (hw : x.service.worker = .idle) :
    InOrder (x.after o .work) added (ts ++ x.takings .work) ∧
      (x.after o .work).store = x.store := by
  obtain ⟨y, gs, seat, hseated, hclears⟩ := h.seated
  obtain ⟨qs, hbooks⟩ := h.books
  have hseat : seat .worker = none := by
    have hsits := hseated.worker
    rw [hw] at hsits
    exact hsits
  rw [hw] at hclears
  obtain ⟨hfinished⟩ := hclears
  cases hevents : x.service.queue.events with
  | nil =>
      have htake : x.service.queue.take = (none, x.service.queue) := by rw [Queue.take, hevents]
      have htakes : x.takings .work = [] := by rw [takings, takes, hw, htake]; rfl
      have hempty : whenEmpty x.service.queue = .idle := by
        rw [whenEmpty, Queue.isDrained, hseated.queueOpen]
        rfl
      have hafter : x.after o .work = x := by
        show { x with service := x.service.workerCall } = x
        rw [workerCall, hw]
        simp only [htake, hempty]
        rw [← hw]
      rw [hafter, htakes, List.append_nil]
      exact ⟨h, rfl⟩
  | cons e rest =>
      have htake : x.service.queue.take = (some e, { x.service.queue with events := rest }) := by
        rw [Queue.take, hevents]
      have htakes : x.takings .work = [⟨e, x.store⟩] := by rw [takings, takes, hw, htake]; rfl
      have hafter : x.after o .work = { x with service := { x.service with
          queue := { x.service.queue with events := rest }
          worker := .busy (handle e) } } := by
        show { x with service := x.service.workerCall } = _
        rw [workerCall, hw]
        simp only [htake]
      let op : Operation := .rejectCompeting e.matchId e.driverId e.passengerId
      rw [hafter, htakes]
      refine ⟨⟨⟨y.after (.arrive op), gs ++ [Stage.first op], _,
        hseated.move .worker (some gs.length) (hseated.orderly.arrive op) hseated.store
          hseated.online hseated.faults hseated.queueOpen (by simp) ?_ ?_
          (fun k v hv => Or.inr ⟨Party.worker_ne_visitor k, hv⟩) (Or.inl ⟨rfl, ?_⟩), ?_⟩, ⟨qs, ?_⟩, ?_⟩, rfl⟩
      · intro i hi
        obtain rfl := Option.some.inj hi
        exact ⟨by simp, Or.inr (Nat.le_refl _)⟩
      · intro q i _ hi
        exact List.getElem?_append_left (hseated.orderly.length ▸ hseated.lt hi)
      · refine ⟨gs.length, rfl, { operation := op, rest := op.program }, ?_, carries_handle e, id⟩
        rw [hseated.orderly.length]
        exact List.getElem?_concat_length
      · rw [Function.update_self]
        exact .busy (t := ⟨e, x.store⟩) rfl List.getElem?_concat_length rfl (.begins _ e) hfinished
      · exact hbooks.accepts (.of_row rfl) (List.Perm.refl _) rfl rfl
      · show added = (ts ++ [_]).map Taking.event ++ rest
        rw [h.queue, hevents, List.map_append, List.append_assoc]
        rfl

/-- The worker goes on with what is left of the rejection, or has finished it. -/
theorem resumes {y y' : Traffic} {gs gs' : List Stage} {seat : Party → Option Nat} {i : Nat}
    {c : Caller} {g : Stage} {t : Taking} {p : ServiceProgram Unit} {s : Service}
    (hseated : Seated x y gs seat) (hseat : seat .worker = some i) (hkeeps : KeepsWork x.service s)
    (horderly : y'.Orderly gs') (hstore : y'.store = s.store) (honline : s.store.offline = false)
    (hlen : gs.length ≤ gs'.length)
    (hothers : ∀ q j, q ≠ .worker → seat q = some j → y'.callers[j]? = y.callers[j]?)
    (hc : y'.callers[i]? = some c) (hg : gs'[i]? = some g) (hp : Carries c.operation c.rest p)
    (hnot : ¬ c.operation.Confirms) (hrej : g.Rejects t.event.rejecting)
    (hswept : t.store.Swept t.event g.Due s.store) (hfinished : ∀ t ∈ ts, t.Finished s.store) :
    ∃ seat', Seated { x with service := resumed (p, s) } y' gs' seat' ∧
      Clears s.store gs' (seat' .worker) (resumed (p, s)).worker (ts ++ [t]) := by
  have hfaults := hkeeps.faults.trans hseated.faults
  have hopen := (congrArg Queue.closed hkeeps.queue).trans hseated.queueOpen
  cases p with
  | done a =>
      rw [(horderly.stage hc hg).1] at hp
      obtain ⟨r, rfl⟩ := Seated.exists_finished hp
      refine ⟨_, hseated.move .worker none horderly hstore honline hfaults hopen hlen nofun
        hothers (fun k v hv => Or.inr ⟨Party.worker_ne_visitor k, hv⟩) (Or.inl ⟨rfl, rfl⟩), .idle fun t' ht' => ?_⟩
      rcases List.mem_append.mp ht' with ht' | ht'
      · exact hfinished t' ht'
      · obtain rfl := List.mem_singleton.mp ht'
        exact hswept.finished
  | call mc next =>
      refine ⟨_, hseated.move .worker (some i) horderly hstore honline hfaults hopen hlen
        (fun j hj => ?_) hothers (fun k v hv => Or.inr ⟨Party.worker_ne_visitor k, hv⟩)
        (Or.inl ⟨rfl, i, rfl, c, hc, hp, hnot⟩), ?_⟩
      · obtain rfl := Option.some.inj hj
        exact ⟨(List.getElem?_eq_some_iff.mp hg).1, Or.inl hseat⟩
      · rw [Function.update_self]
        exact .busy rfl hg hrej hswept hfinished

/-- The worker makes the next call of the rejection with which it is busy. -/
theorem workBusy (h : InOrder x added ts) {p : ServiceProgram Unit}
    (hw : x.service.worker = .busy p) :
    InOrder (x.after o .work) added ts ∧ x.store.Later (x.after o .work).store ∧
      (x.after o .work).service.queue = x.service.queue := by
  obtain ⟨y, gs, seat, hseated, hclears⟩ := h.seated
  obtain ⟨qs, hbooks⟩ := h.books
  obtain ⟨i, hseat, c, hc, hp, hnot⟩ : ∃ i, seat .worker = some i ∧ y.Sits (some i) False p := by
    have hsits := hseated.worker
    rw [hw] at hsits
    exact hsits
  obtain ⟨g, hg⟩ := hseated.orderly.exists_stage hc
  -- the stage is one of the rejection for the event taken last, and the accepted row is there
  obtain ⟨ts', t, rfl, hrej, ht, hfinished⟩ : ∃ ts' t, ts = ts' ++ [t] ∧
      g.Rejects t.event.rejecting ∧ t.store.Swept t.event g.Due x.store ∧
      ∀ t ∈ ts', t.Finished x.store := by
    rw [hw] at hclears
    cases hclears with
    | busy hseat' hg' hrej ht hfinished =>
        obtain rfl := Option.some.inj (hseat.symm.trans hseat')
        obtain rfl := Option.some.inj (hg.symm.trans hg')
        exact ⟨_, _, rfl, hrej, ht, hfinished⟩
  have hacc : ∃ a, x.store.row? t.event.matchId = some a ∧ a.status = .accepted := by
    obtain ⟨a, ⟨hrow, hstatus⟩, he⟩ := h.exists_accepted (t := t) (by simp)
    exact ⟨a, by rw [he]; exact hrow, hstatus⟩
  have hafter : x.after o .work = { x with service := resumed (p.step perform x.service) } := by
    have hs : x.service = { x.service with worker := .busy p } := by rw [← hw]
    exact congrArg (fun service => { x with service })
      ((congrArg workerCall hs).trans (workerCall_busy p x.service))
  have hresumed : ∀ (p' : ServiceProgram Unit) (s' : Service), (resumed (p', s')).store = s'.store ∧
      (resumed (p', s')).queue = s'.queue ∧ (resumed (p', s')).feed = s'.feed ∧
      (resumed (p', s')).publishing = s'.publishing := by
    rintro (_ | _) s' <;> exact ⟨rfl, rfl, rfl, rfl⟩
  by_cases hfin : ∃ r, g = .finished r
  · obtain ⟨r, rfl⟩ := hfin
    obtain ⟨a, rfl⟩ : ∃ a, p = .done a := by
      rw [(hseated.orderly.stage hc hg).1] at hp
      obtain ⟨k, hk, rfl⟩ := hp
      have hr := hk r
      rw [Operation.handsOver_of_not_confirms hnot] at hr
      exact hr
    obtain ⟨seat', hseated', hclears'⟩ := resumes hseated hseat (.refl _) hseated.orderly
      hseated.store hseated.online (Nat.le_refl _) (fun _ _ _ _ => rfl) hc hg hp hnot hrej ht
      hfinished
    rw [hafter]
    exact ⟨⟨⟨_, _, _, hseated', hclears'⟩,
      ⟨qs, hbooks.accepts (.of_row rfl) (List.Perm.refl _) rfl rfl⟩, h.queue⟩, .refl _, rfl⟩
  · obtain ⟨g', p', s', metrics', hcall⟩ :=
      hseated.call (fun d t hgd => by rw [hgd] at hrej; exact hrej.elim) hc hg hp
        fun r hr => hfin ⟨r, hr⟩
    have haccepts : x.store.Accepts s'.store [] := by
      obtain ⟨new, howed, ha⟩ :=
        hcall.goes.accepts hcall.of hseated.online fun hr => hseated.id_eq hr
      rw [Stage.owed_of_not_confirms hnot, Stage.owed_of_not_confirms hnot,
        List.append_nil] at howed
      exact howed ▸ ha
    obtain ⟨seat', hseated', hclears'⟩ := resumes hseated hseat hcall.keeps hcall.orderly rfl
      hcall.online (Nat.le_of_eq List.length_set.symm)
      (fun q j hq hj => hseated.others hseat _ _ hq hj)
      (List.getElem?_set_self (List.getElem?_eq_some_iff.mp hc).1)
      (List.getElem?_set_self (List.getElem?_eq_some_iff.mp hg).1) hcall.carries hnot
      (hcall.goes.sweeps hrej hseated.online hacc).1
      (ht.goes hcall.goes hcall.later hrej hseated.online hacc)
      fun t' ht' => (hfinished t' ht').frame hcall.later
    obtain ⟨hstore, hqueue, hfeed, hpublishing⟩ := hresumed p' s'
    have hqueue' := hqueue.trans hcall.keeps.queue
    rw [← hstore] at haccepts
    rw [hafter, hcall.step]
    refine ⟨⟨⟨_, _, seat', hseated', ?_⟩, ⟨qs, hbooks.accepts haccepts (List.Perm.refl _)
      (hpublishing.trans hcall.keeps.publishing) (hfeed.trans hcall.keeps.feed)⟩, ?_⟩, ?_, hqueue'⟩
    · rw [store, hstore]
      exact hclears'
    · rw [hqueue']
      exact h.queue
    · rw [store, store, hstore]
      exact hcall.later

/-! ### Whatever happens -/

/-- **Whatever happens, everything stays in order**, and no row becomes anything else than a later
form of itself. -/
theorem after (h : InOrder x added ts) {e : Event} (hadm : x.Admits e) :
    InOrder (x.after o e) (added ++ adds o x e) (ts ++ x.takings e) ∧
      x.store.Later (x.after o e).store := by
  obtain ⟨y, gs, seat, hseated, hclears⟩ := h.seated
  have hpasses : ∀ {x' : Scene}, Passes gs seat x x' →
      InOrder x' (added ++ x'.service.queue.events.drop x.service.queue.events.length) (ts ++ []) ∧
        x.store.Later x'.store := by
    intro x' hp
    obtain ⟨h', hlater, hqueue⟩ := h.passes hclears hp
    rw [hqueue, List.drop_length, List.append_nil, List.append_nil]
    exact ⟨h', hlater⟩
  cases e with
  | arrive a => exact hpasses (hseated.arrive a)
  | go k => exact hpasses (hseated.go hadm)
  | leave k => exact hpasses (hseated.leave hadm)
  | clock now => exact hpasses (hseated.clock now)
  | publish k =>
      obtain ⟨queued, h', hstore, hevents⟩ := h.publish (o := o) k
      have hadds : adds o x (.publish k) = queued := by
        rw [adds, hevents, List.drop_left]
        nofun
      have htakings : x.takings (.publish k) = [] := rfl
      rw [hadds, htakings, List.append_nil]
      exact ⟨h', hstore ▸ .refl _⟩
  | work =>
      have hadds : adds o x .work = [] := rfl
      rw [hadds, List.append_nil]
      have hsits := hseated.worker
      cases hw : x.service.worker with
      | idle =>
          obtain ⟨h', hstore⟩ := h.workIdle (o := o) hw
          exact ⟨h', hstore ▸ .refl _⟩
      | busy p =>
          obtain ⟨h', hlater, -⟩ := h.workBusy (o := o) hw
          have htakings : x.takings .work = [] := by rw [takings, takes, hw]; rfl
          rw [htakings, List.append_nil]
          exact ⟨h', hlater⟩
      | _ =>
          rw [hw] at hsits
          exact hsits.elim

/-- Everything is in order after a run. -/
theorem run (h : InOrder x added ts) {events : List Event}
    (hadm : Run.Along (Scene.after o) Admits x events) :
    InOrder (events.foldl (Scene.after o) x) (added ++ queued o x events)
        (ts ++ Run.collect (Scene.after o) takings x events) ∧
      x.store.Later (events.foldl (Scene.after o) x).store := by
  induction events generalizing x added ts with
  | nil =>
      rw [queued, Run.collect, Run.collect, List.append_nil, List.append_nil]
      exact ⟨h, .refl _⟩
  | cons e rest ih =>
      obtain ⟨h', hlater⟩ := h.after (o := o) hadm.1
      obtain ⟨h'', hlater'⟩ := ih h' hadm.2
      rw [List.append_assoc, List.append_assoc] at h''
      exact ⟨h'', hlater.trans hlater'⟩

end InOrder

/-- Everything is in order after a run of a new service. -/
theorem inOrder_of_along {o : Options} {now : Time.Instant} {events : List Event}
    (hadm : Run.Along (Scene.after o) Admits (opening o now) events) :
    InOrder ((opening o now).run o events) (queued o (opening o now) events)
      (Run.collect (Scene.after o) takings (opening o now) events) :=
  ((InOrder.opening o now).run hadm).1

end Scene
end Dispatch
