/-
Accepted proposals and the events that tell of them.

An accepted proposal is first owed by the visitor who has confirmed it, then it is with a piece of
publishing, and in the end it is in the feed and in the queue.  `Store.Tells` says of a list of
events that it has one for each accepted row, just as the row is, and no others.  It is kept by
whatever the operations do, if each row that they accept is added to the list (`Store.Accepts`),
and it does not matter in which order the events stand.

So it holds of all events together that are owed, with a piece of publishing, or in the feed, and
likewise of those that are owed, with a piece of publishing, or have been queued (`Scene.Books`).
-/
import Dispatch.Proofs.Matching.Rows
import Dispatch.Proofs.Service.Steps

namespace Dispatch

namespace Store

/-- A row is there, and it is accepted. -/
def HasAccepted (s : Store) (r : Proposal) : Prop := s.row? r.id = some r ∧ r.status = .accepted

/-- There is one event for each accepted row, and no other. -/
structure Tells (s : Store) (es : List Accepted) : Prop where
  once : (es.map Accepted.matchId).Nodup
  mem : ∀ e, e ∈ es ↔ ∃ r, s.HasAccepted r ∧ e = r.accepted

/-- Some rows have been accepted, and otherwise the accepted rows are the same. -/
structure Accepts (s s' : Store) (new : List Proposal) : Prop where
  once : (new.map Proposal.id).Nodup
  mem : ∀ r, s'.HasAccepted r ↔ r ∈ new ∨ s.HasAccepted r
  before : ∀ r ∈ new, ∀ r', s.row? r.id = some r' → r'.status ≠ .accepted

variable {s s' : Store} {es es' : List Accepted} {new : List Proposal}

/-- In an empty table there is nothing to tell of. -/
theorem Tells.empty : Store.Tells {} [] where
  once := List.nodup_nil
  mem _ := ⟨nofun, fun ⟨_, hr, _⟩ => nomatch hr.1⟩

theorem Tells.perm (h : s.Tells es) (hp : es'.Perm es) : s.Tells es' where
  once := (hp.map Accepted.matchId).nodup_iff.2 h.once
  mem e := hp.mem_iff.trans (h.mem e)

/-- Each row that is accepted adds an event. -/
theorem Tells.accepts (h : s.Tells es) (ha : s.Accepts s' new) :
    s'.Tells (new.map Proposal.accepted ++ es) where
  once := by
    rw [List.map_append, List.map_map, List.nodup_append]
    refine ⟨ha.once, h.once, fun id hid id' hid' => ?_⟩
    rintro rfl
    obtain ⟨r, hr, rfl⟩ := List.mem_map.mp hid
    obtain ⟨e, he, hre⟩ := List.mem_map.mp hid'
    obtain ⟨r', hr', rfl⟩ := (h.mem e).1 he
    have hids : r'.id = r.id := hre
    exact ha.before r hr r' (hids ▸ hr'.1) hr'.2
  mem e := by
    rw [List.mem_append, List.mem_map, h.mem]
    constructor
    · rintro (⟨r, hr, rfl⟩ | ⟨r, hr, rfl⟩)
      · exact ⟨r, (ha.mem r).2 (Or.inl hr), rfl⟩
      · exact ⟨r, (ha.mem r).2 (Or.inr hr), rfl⟩
    · rintro ⟨r, hr, rfl⟩
      rcases (ha.mem r).1 hr with hr | hr
      · exact Or.inl ⟨r, hr, rfl⟩
      · exact Or.inr ⟨r, hr, rfl⟩

namespace Accepts

theorem of_row (hrow : s'.row? = s.row?) : s.Accepts s' [] where
  once := List.nodup_nil
  mem r := by
    unfold HasAccepted
    rw [hrow]
    simp
  before r hr := by cases hr

/-- A row is written that was not accepted. -/
theorem of_update {id : MatchId} {n : Proposal} (hn : n.id = id)
    (hold : ∀ r, s.row? id = some r → r.status ≠ .accepted)
    (hrow : s'.row? = Function.update s.row? id (some n)) :
    s.Accepts s' (if n.status = .accepted then [n] else []) where
  once := by split <;> simp
  mem r := by
    subst hn
    unfold HasAccepted
    rw [hrow, Function.update_apply]
    by_cases hid : r.id = n.id
    · rw [if_pos hid]
      constructor
      · rintro ⟨h, hr⟩
        obtain rfl := Option.some.inj h
        rw [if_pos hr]
        exact Or.inl List.mem_cons_self
      · rintro (h | ⟨h, hr⟩)
        · split at h
          · obtain rfl := List.mem_singleton.mp h
            exact ⟨rfl, by assumption⟩
          · cases h
        · exact absurd hr (hold r (hid ▸ h))
    · rw [if_neg hid]
      refine ⟨Or.inr, fun h => h.resolve_left fun h => ?_⟩
      split at h
      · exact hid (congrArg Proposal.id (List.mem_singleton.mp h))
      · cases h
  before r hr := by
    split at hr
    · obtain rfl := List.mem_singleton.mp hr
      exact hn ▸ hold
    · cases hr

end Accepts
end Store

/-! ### What is owed -/

/-- What has come of an operation, if that is known. -/
def Stage.told? : Stage → Option Outcome
  | finished r | counting _ r => some r
  | _ => none

/-- The proposal that is still to be handed over. -/
def Stage.owed (o : Operation) (g : Stage) : List Proposal :=
  (g.told?.bind o.handsOver).toList

theorem Stage.owed_of_not_confirms {o : Operation} (h : ¬ o.Confirms) (g : Stage) :
    g.owed o = [] := by
  unfold Stage.owed
  cases g.told? with
  | none => rfl
  | some r => rw [Option.bind_some, Operation.handsOver_of_not_confirms h]; rfl

/-- Whoever holds a ticket owes nothing yet. -/
theorem Stage.owed_of_ticket {o : Operation} {g : Stage} {t : Ticket}
    (h : g.holding.ticket? = some t) : g.owed o = [] := by
  cases g with
  | finished r => cases h
  | counting obs r => cases h
  | _ => rfl

open Store in
/-- **A call that accepts a row makes its caller owe it**, and no other call makes anybody owe
anything. -/
theorem Stage.Goes.accepts {s s' : Store} {m : Moment} {o : Operation} {g g' : Stage}
    (h : Stage.Goes s m g g' s') (hof : Stage.Of o g) (hon : s.offline = false)
    (hid : ∀ {id r}, s.row? id = some r → r.id = id) :
    ∃ new, g'.owed o = new ++ g.owed o ∧ s.Accepts s' new := by
  have hopen : ∀ {r : Proposal}, r.isOpen = true → r.status ≠ .accepted := by
    intro r hr hs
    rw [(Proposal.not_isOpen_iff r).2 (Or.inl hs)] at hr
    cases hr
  cases h with
  | unreachable g hoff hrow =>
      rw [hon] at hoff
      cases hoff
  | entered d t id now hnew hrow =>
      refine ⟨[], ?_, ?_⟩
      · cases hof
        rfl
      · refine Accepts.of_update (n := d.toProposal id now) rfl (fun r hr => ?_) hrow
        change s.row? id = some r at hr
        rw [hnew] at hr
        cases hr
  | @closed q t r now _ hrid hr he hrow =>
      cases hof
      refine ⟨_, ?_, Accepts.of_update (n := r.confirmedBy q.role now) hrid (fun r' hr' => ?_) hrow⟩
      · simp only [Stage.owed, Stage.told?, Option.bind_some, Operation.handsOver]
        split <;> rfl
      · rw [hr] at hr'
        obtain rfl := Option.some.inj hr'
        exact hopen (Proposal.refusal?_eq_none.1 he).2.1
  | @rejected q t id ids n r _ hr hro _ _ hrow =>
      cases hof
      refine ⟨[], rfl, Accepts.of_update (n := r.rejectedAt m.now) ?_ (fun r' hr' => ?_) hrow⟩
      · exact (hid hr : r.id = id)
      · rw [hr] at hr'
        obtain rfl := Option.some.inj hr'
        exact hopen hro
  | finished r => exact ⟨[], rfl, .of_row rfl⟩
  | counted obs r => exact ⟨[], rfl, .of_row rfl⟩
  | _ =>
      cases hof
      all_goals refine ⟨[], rfl, .of_row ?_⟩
      all_goals first | rfl | assumption

namespace Service

variable {α : Type} {o : Operation} {p : ServiceProgram α}

/-- The proposals that a program will hand over before it does anything else but count. -/
def owed : ServiceProgram α → List Proposal
  | .call (.publishLater p) _ => [p]
  | .call (.count _) next => owed (next ())
  | _ => []

theorem Harmless.owed_eq_nil (h : Harmless p) : owed p = [] := by
  induction p with
  | done a => rfl
  | call c next ih =>
      cases c with
      | publishLater q => exact h.1.elim
      | count obs => exact ih () (h.2 ())
      | _ => rfl

/-- A program that carries on an operation owes what is owed at its stage. -/
theorem Carries.owed_eq {g : Stage} (h : Carries o g.program p) : owed p = g.owed o := by
  obtain ⟨k, hk, rfl⟩ := h
  have hconclude : ∀ r, owed (k r) = (o.handsOver r).toList := by
    intro r
    have hr := hk r
    cases ho : o.handsOver r with
    | none =>
        rw [ho] at hr
        obtain ⟨a, ha⟩ := hr
        rw [ha]
        rfl
    | some q =>
        rw [ho] at hr
        obtain ⟨a, ha⟩ := hr
        rw [ha]
        rfl
  cases g with
  | finished r => exact hconclude r
  | counting obs r => exact hconclude r
  | rejecting q t ids n =>
      cases ids with
      | nil =>
          have hnone : o.handsOver (.rejections (.ok n)) = none := by cases o <;> rfl
          exact (hconclude _).trans (by rw [hnone]; rfl)
      | cons id ids => rfl
  | _ => rfl

/-- Whoever goes away while the program has to wait leaves nothing of the operation behind. -/
theorem Carries.exists_left {s : Service} {g : Stage} (h : Carries o g.program p)
    (hf : s.faults = ∅) (ok : StoreOK s.store) (hp : s.store.Present)
    (hh : g.holding.Holds s.store) (hwaits : waits p s = true) :
    ∃ t s', g.holding.ticket? = some t ∧ abandon p s = { s with store := s' } ∧
      Store.Advance t s.store s' ∧ s'.Idle t ∧ s'.row? = s.store.row? ∧
      s'.offline = s.store.offline := by
  obtain ⟨k, hk, rfl⟩ := h
  refine Service.exists_left hf ok hp hh (fun r => ?_) hwaits
  have hr := hk r
  cases ho : o.handsOver r with
  | none =>
      rw [ho] at hr
      obtain ⟨a, ha⟩ := hr
      rw [ha]
      rfl
  | some q =>
      rw [ho] at hr
      obtain ⟨a, ha⟩ := hr
      rw [ha]
      rfl

end Service

/-! ### Publishing -/

/-- How far a piece of publishing has come. -/
inductive Posting where
  | announcing (e : Accepted)
  | drawing (e : Accepted)
  | adding (t : Sender) (e : Accepted)
  | posted

namespace Posting

/-- What is left of it. -/
def program : Posting → ServiceProgram Unit
  | announcing e => .call (.announce e) fun _ => .call .sender fun t =>
      .call (.enqueue t e) fun _ => .done ()
  | drawing e => .call .sender fun t => .call (.enqueue t e) fun _ => .done ()
  | adding t e => .call (.enqueue t e) fun _ => .done ()
  | posted => .done ()

/-- What has not been announced. -/
def unannounced : Posting → List Accepted
  | announcing e => [e]
  | drawing _ | adding _ _ | posted => []

/-- What has not been queued. -/
def unqueued : Posting → List Accepted
  | announcing e | drawing e | adding _ e => [e]
  | posted => []

theorem program_announcing {p : Proposal} (h : p.status = .accepted) :
    Service.publish p = (announcing p.accepted).program := by
  unfold Service.publish
  rw [if_pos h]
  rfl

theorem eq_posted {q : Posting} (h : q.program.result? ≠ none) : q = posted := by
  cases q <;> first | rfl | exact absurd rfl h

end Posting

namespace Scene

/-- All proposals that are owed. -/
def owed (x : Scene) : List Proposal := x.visitors.flatMap fun v => Service.owed v.rest

/-- Every accepted row is told of once, in the feed or on the way there; and so it is in what has
been added to the queue or on the way there. -/
structure Books (x : Scene) (qs : List Posting) (added : List Accepted) : Prop where
  publishing : x.service.publishing = qs.map Posting.program
  announced : x.store.Tells
    (x.owed.map Proposal.accepted ++ (qs.flatMap Posting.unannounced ++ x.service.feed.log))
  delivered : x.store.Tells
    (x.owed.map Proposal.accepted ++ (qs.flatMap Posting.unqueued ++ added))

end Scene

/-- Of a list of lists one is replaced. -/
theorem perm_flatMap_set {α β : Type} {f : α → List β} {l : List α} {k : Nat} {a a' : α}
    (ha : l[k]? = some a) {new : List β} (hf : f a' = new ++ f a) :
    ((l.set k a').flatMap f).Perm (new ++ l.flatMap f) := by
  obtain ⟨hk, rfl⟩ := List.getElem?_eq_some_iff.mp ha
  have hsplit : l.flatMap f = (l.take k).flatMap f ++ (f l[k] ++ (l.drop (k + 1)).flatMap f) := by
    conv_lhs => rw [← List.take_append_drop k l, List.drop_eq_getElem_cons hk]
    rw [List.flatMap_append, List.flatMap_cons]
  rw [List.set_eq_take_append_cons_drop, if_pos hk, List.flatMap_append, List.flatMap_cons, hf,
    hsplit, List.append_assoc]
  exact List.perm_append_comm_assoc _ _ _

theorem perm_flatMap_of_set {α β : Type} {f : α → List β} {l : List α} {k : Nat} {a a' : α}
    (ha : l[k]? = some a) {old : List β} (hf : f a = old ++ f a') :
    (l.flatMap f).Perm (old ++ (l.set k a').flatMap f) := by
  obtain ⟨hk, rfl⟩ := List.getElem?_eq_some_iff.mp ha
  have hset := perm_flatMap_set (l := l.set k a') (List.getElem?_set_self hk) hf
  rwa [List.set_set, List.set_getElem_self] at hset

namespace Scene.Books

variable {x x' : Scene} {qs : List Posting} {added : List Accepted}

/-- What is owed changes along with the accepted rows. -/
theorem accepts (h : Books x qs added) {new : List Proposal} (ha : x.store.Accepts x'.store new)
    (howed : x'.owed.Perm (new ++ x.owed))
    (hpublishing : x'.service.publishing = x.service.publishing)
    (hfeed : x'.service.feed = x.service.feed) : Books x' qs added := by
  have hperm : ∀ es : List Accepted, (x'.owed.map Proposal.accepted ++ es).Perm
      (new.map Proposal.accepted ++ (x.owed.map Proposal.accepted ++ es)) := by
    intro es
    rw [← List.append_assoc, ← List.map_append]
    exact (howed.map _).append_right es
  refine ⟨hpublishing.trans h.publishing, ?_, (h.delivered.accepts ha).perm (hperm _)⟩
  rw [hfeed]
  exact (h.announced.accepts ha).perm (hperm _)

/-- What is owed is handed over. -/
theorem handsOver (h : Books x qs added) {p : Proposal} (hp : p.status = .accepted)
    (howed : x.owed.Perm (p :: x'.owed)) (hstore : x'.store = x.store)
    (hpublishing : x'.service.publishing = x.service.publishing ++ [Service.publish p])
    (hfeed : x'.service.feed = x.service.feed) :
    Books x' (qs ++ [.announcing p.accepted]) added := by
  have hperm : ∀ {f : Posting → List Accepted}, f (.announcing p.accepted) = [p.accepted] →
      ∀ es : List Accepted, (x'.owed.map Proposal.accepted ++
        ((qs ++ [Posting.announcing p.accepted]).flatMap f ++ es)).Perm
          (x.owed.map Proposal.accepted ++ (qs.flatMap f ++ es)) := by
    intro f hf es
    rw [List.flatMap_append, List.flatMap_singleton, hf, List.append_assoc, List.singleton_append]
    refine List.Perm.trans ?_ ((howed.map Proposal.accepted).symm.append_right _)
    rw [List.map_cons, List.cons_append]
    refine (List.Perm.append_left _ List.perm_middle).trans ?_
    exact List.perm_middle
  refine ⟨?_, ?_, ?_⟩
  · rw [hpublishing, h.publishing, List.map_append, Posting.program_announcing hp]
    rfl
  · rw [hstore, hfeed]
    exact h.announced.perm (hperm rfl _)
  · rw [hstore]
    exact h.delivered.perm (hperm rfl _)

/-- A piece of publishing has come further: what it has announced is in the feed, and what it has
queued has been added to the queue. -/
theorem turn (h : Books x qs added) {k : Nat} {q q' : Posting} {announced queued : List Accepted}
    (hq : qs[k]? = some q) (hannounced : q.unannounced = announced ++ q'.unannounced)
    (hqueued : q.unqueued = queued ++ q'.unqueued) (hvisitors : x'.visitors = x.visitors)
    (hstore : x'.store = x.store)
    (hpublishing : x'.service.publishing = x.service.publishing.set k q'.program)
    (hlog : x'.service.feed.log = x.service.feed.log ++ announced) :
    Books x' (qs.set k q') (added ++ queued) := by
  have hperm : ∀ {f : Posting → List Accepted} {new : List Accepted}, f q = new ++ f q' →
      ∀ es : List Accepted, (x'.owed.map Proposal.accepted ++
        ((qs.set k q').flatMap f ++ (es ++ new))).Perm
        (x.owed.map Proposal.accepted ++ (qs.flatMap f ++ es)) := by
    intro f new hf es
    have howed : x'.owed = x.owed := by
      unfold owed
      rw [hvisitors]
    rw [howed]
    refine List.Perm.append_left _ ?_
    refine List.Perm.trans ?_ ((perm_flatMap_of_set hq hf).symm.append_right _)
    rw [← List.append_assoc, List.append_assoc new]
    exact List.perm_append_comm
  refine ⟨?_, ?_, ?_⟩
  · rw [hpublishing, h.publishing, List.map_set]
  · rw [hstore, hlog]
    exact h.announced.perm (hperm hannounced _)
  · rw [hstore]
    exact h.delivered.perm (hperm hqueued _)

end Scene.Books

/-- The next call of a piece of publishing: what it announces and what it adds to the queue. -/
structure Posting.Turn (q q' : Posting) (s s' : Service) (announced queued : List Accepted) :
    Prop where
  step : q.program.step Service.perform s = (q'.program, s')
  unannounced : q.unannounced = announced ++ q'.unannounced
  unqueued : q.unqueued = queued ++ q'.unqueued
  log : s'.feed.log = s.feed.log ++ announced
  events : s'.queue.events = s.queue.events ++ queued
  closed : s'.queue.closed = s.queue.closed
  store : s'.store = s.store
  publishing : s'.publishing = s.publishing
  worker : s'.worker = s.worker
  faults : s'.faults = s.faults

/-- A piece of publishing announces its event, and adds it to the queue once there is a place, as
long as the queue is open. -/
theorem Posting.exists_turn (q : Posting) {s : Service} (hopen : s.queue.closed = false) :
    ∃ q' s' announced queued, Turn q q' s s' announced queued := by
  cases q with
  | announcing e =>
      exact ⟨drawing e, { s with feed := s.feed.announce e }, [e], [],
        rfl, rfl, rfl, rfl, (List.append_nil _).symm, rfl, rfl, rfl, rfl, rfl⟩
  | drawing e =>
      exact ⟨adding s.queue.draw.1 e, { s with queue := s.queue.draw.2 }, [], [],
        rfl, rfl, rfl, (List.append_nil _).symm, (List.append_nil _).symm, rfl, rfl, rfl, rfl, rfl⟩
  | adding t e =>
      have hjoin : (s.queue.join t).events = s.queue.events ∧
          (s.queue.join t).closed = s.queue.closed := by
        unfold Queue.join
        split <;> exact ⟨rfl, rfl⟩
      have hadded : ∀ {r queue}, s.queue.add t e = (some r, queue) →
          (adding t e).program.step Service.perform s = (posted.program, { s with queue }) := by
        intro r queue hadd
        show Program.step Service.perform (.call (.enqueue t e) fun _ => .done ()) s = _
        rw [Program.step, Service.perform, hadd]
        rfl
      have hkept : ∀ {queue}, s.queue.add t e = (none, queue) →
          (adding t e).program.step Service.perform s
            = ((adding t e).program, { s with queue }) := by
        intro queue hadd
        show Program.step Service.perform (.call (.enqueue t e) fun _ => .done ()) s = _
        rw [Program.step, Service.perform, hadd]
        rfl
      by_cases hplace : (s.queue.join t).hasPlace t = true
      · have hstep := hadded (by rw [Queue.add, if_neg (by simp [hopen])]; exact if_pos hplace)
        exact ⟨posted, _, [], [e], hstep, rfl, rfl, (List.append_nil _).symm,
          congrArg (· ++ [e]) hjoin.1, hjoin.2, rfl, rfl, rfl, rfl⟩
      · have hstep := hkept (by rw [Queue.add, if_neg (by simp [hopen])]; exact if_neg hplace)
        exact ⟨adding t e, _, [], [], hstep, rfl, rfl, (List.append_nil _).symm,
          hjoin.1.trans (List.append_nil _).symm, hjoin.2, rfl, rfl, rfl, rfl⟩
  | posted =>
      exact ⟨posted, s, [], [],
        rfl, rfl, rfl, (List.append_nil _).symm, (List.append_nil _).symm, rfl, rfl, rfl, rfl, rfl⟩

end Dispatch
