/-
On what grounds a row is rejected.

A rejection is begun because a proposal has been accepted.  It lists the open rows of the driver
and of the passenger, and rejects them one by one later.  Others go on in the meantime, but what it
has listed keeps its driver and its passenger, and what has been accepted stays accepted.  So
whatever a rejection rejects has the driver or the passenger in common with an accepted row
(`Stage.Grounded`), and so has every rejected row (`Store.Justified`).

For this no rejection may be begun on account of anything but an accepted row.  What a confirmation
returns as accepted is one (`Stage.Truthful`).

`Traffic.Candid` puts this together with what has been said of consents.  It is kept by single
calls, by newcomers whose operation is grounded, by outages, and by callers who go away.
-/
import Dispatch.Proofs.Matching.Sweep
import Dispatch.Proofs.Service.Consent

namespace Dispatch

open Store

/-- An accepted row stays what it is. -/
theorem Store.HasAccepted.later {s s' : Store} {a : Proposal} (h : s.HasAccepted a)
    (hlater : s.Later s') : s'.HasAccepted a := by
  obtain ⟨a', ha', hl⟩ := hlater _ _ h.1
  rw [hl.closed (Or.inl h.2)] at ha'
  exact ⟨ha', h.2⟩

/-! ### What may be rejected -/

/-- A rejection is on account of an accepted row, and some rows have the driver or the passenger in
common with it. -/
structure Rejecting.Entitled (q : Rejecting) (s : Store) (ids : List MatchId) : Prop where
  accepted : ∃ a, s.HasAccepted a ∧ q = a.accepted.rejecting
  competing : ∀ id ∈ ids, ∃ r, s.row? id = some r ∧
    (r.driverId = q.driver ∨ r.passengerId = q.passenger)

namespace Rejecting.Entitled

variable {q : Rejecting} {s s' : Store} {ids ids' : List MatchId}

theorem later (h : q.Entitled s ids) (hlater : s.Later s') : q.Entitled s' ids where
  accepted := by
    obtain ⟨a, ha, hq⟩ := h.accepted
    exact ⟨a, ha.later hlater, hq⟩
  competing := by
    intro id hid
    obtain ⟨r, hr, hc⟩ := h.competing id hid
    obtain ⟨r', hr', hl⟩ := hlater _ _ hr
    rw [← hl.driverId, ← hl.passengerId] at hc
    exact ⟨r', hr', hc⟩

theorem mono (h : q.Entitled s ids) (hids : ∀ id ∈ ids', id ∈ ids) : q.Entitled s ids' where
  accepted := h.accepted
  competing id hid := h.competing id (hids id hid)

end Rejecting.Entitled

namespace Stage

/-- What a rejection has listed it may reject. -/
def Grounded (s : Store) : Stage → Prop
  | checking q | listingDriven q => q.Entitled s []
  | listingRidden q driven => q.Entitled s (driven.map Proposal.id)
  | opening q ids | rejecting q _ ids _ => q.Entitled s ids
  | _ => True

/-- What an operation returns as accepted is an accepted row. -/
def Truthful (s : Store) (g : Stage) : Prop :=
  ∀ p, g.told? = some (.proposal (.ok p)) → p.status = .accepted → s.HasAccepted p

variable {s s' : Store} {m : Moment} {g g' : Stage}

theorem Grounded.later (h : g.Grounded s) (hlater : s.Later s') : g.Grounded s' := by
  cases g with
  | checking q => exact Rejecting.Entitled.later h hlater
  | listingDriven q => exact Rejecting.Entitled.later h hlater
  | listingRidden q driven => exact Rejecting.Entitled.later h hlater
  | opening q ids => exact Rejecting.Entitled.later h hlater
  | rejecting q t ids n => exact Rejecting.Entitled.later h hlater
  | _ => trivial

theorem Truthful.later (h : g.Truthful s) (hlater : s.Later s') : g.Truthful s' :=
  fun p hp ha => (h p hp ha).later hlater

theorem truthful_finished {r : Outcome} (hr : r.proposal? = none) : (finished r).Truthful s := by
  intro p hp
  obtain rfl := Option.some.inj hp
  cases hr

/-- Nobody succeeds because the table cannot be reached. -/
theorem told?_of_unreachable {p : Proposal} (h : g.unreachable.told? = some (.proposal (.ok p))) :
    g.told? = some (.proposal (.ok p)) := by
  unfold unreachable at h
  split at h
  all_goals first | exact h | simp [told?] at h

/-- The competitors that are listed have the driver or the passenger in common with the accepted
row. -/
theorem entitled_competing {q : Rejecting} {driven : List Proposal} (ok : StoreOK s)
    (h : q.Entitled s (driven.map Proposal.id)) : q.Entitled s (competing s q driven) where
  accepted := h.accepted
  competing := by
    intro id hid
    rw [competing, mem_sortedIds, List.mem_append, mem_competitors, mem_competitors] at hid
    rcases hid with ⟨p, hp, -, -, rfl⟩ | ⟨p, hp, -, -, rfl⟩
    · exact h.competing _ (List.mem_map_of_mem hp)
    · obtain ⟨hparty, id, hr⟩ := mem_rowsOf.1 hp
      exact ⟨p, by rw [ok.indexed.id_eq hr]; exact hr, Or.inr hparty⟩

/-- Nobody has been told anything from the start but that he is refused. -/
theorem truthful_first (o : Operation) : (first o).Truthful s := by
  intro p hp
  cases o with
  | propose d =>
      rw [first_propose] at hp
      cases hd : d.refusal? <;> simp [hd, told?] at hp
  | _ => simp [first, told?] at hp

/-- **Whatever others do, a rejection lists only what it may reject.** -/
theorem Goes.grounded (h : Goes s m g g' s') (ok : StoreOK s) (hlater : s.Later s')
    (hg : g.Grounded s) : g'.Grounded s' := by
  cases h with
  | unreachable g hoff hrow =>
      cases g with
      -- whoever has opened his batch is not turned away any more
      | rejecting q t ids n => exact hg.later hlater
      | _ => trivial
  | checked q hr ha => exact hg
  | listedDriven q =>
      refine ⟨hg.accepted, fun id hid => ?_⟩
      obtain ⟨p, hp, rfl⟩ := List.mem_map.mp hid
      obtain ⟨hparty, id, hr⟩ := mem_rowsOf.1 hp
      exact ⟨p, by rw [ok.indexed.id_eq hr]; exact hr, Or.inl hparty⟩
  | listedRidden q driven hne => exact entitled_competing ok hg
  | opened q ids hrow =>
      exact Rejecting.Entitled.mono (Rejecting.Entitled.later hg hlater) fun id hid =>
        mem_sortedIds.1 hid
  | waitsToReject q t id ids n _ _ hrow => exact Rejecting.Entitled.later hg hlater
  | passed q t id ids n _ _ _ hrow =>
      exact Rejecting.Entitled.mono (Rejecting.Entitled.later hg hlater) fun id hid =>
        List.mem_cons_of_mem _ hid
  | rejected q t id ids n _ _ _ _ hrow =>
      exact Rejecting.Entitled.mono (Rejecting.Entitled.later hg hlater) fun id hid =>
        List.mem_cons_of_mem _ hid
  | _ => trivial

/-- **What an operation returns as accepted it has just accepted.** -/
theorem Goes.truthful (h : Goes s m g g' s') (ok : StoreOK s) (hlater : s.Later s')
    (hg : g.Truthful s) : g'.Truthful s' := by
  -- a proposal that is found has an open row, and is not returned as accepted
  have hopen : ∀ {d : Draft} {p : Proposal}, s.openProposal? d.pair = some p →
      (counting (.creation .existing) (.proposal (.ok p))).Truthful s' := by
    intro d p hp p' hp' ha
    obtain rfl := Except.ok.inj (Outcome.proposal.inj (Option.some.inj hp'))
    have ho := ((ok.indexed.openProposal?_eq_some_iff).1 hp).2.1
    rw [(Proposal.not_isOpen_iff p).2 (Or.inl ha)] at ho
    cases ho
  cases h with
  | finished r => exact hg
  | counted o r => exact hg
  | unreachable g hoff hrow => exact fun p hp ha => (hg p (told?_of_unreachable hp) ha).later hlater
  | found d hp => exact hopen hp
  | foundAgain d reason hp => exact hopen hp
  | entered d t id now hnew hrow =>
      intro p hp ha
      obtain rfl := Except.ok.inj (Outcome.proposal.inj (Option.some.inj hp))
      cases ha
  | @closed q t r now _ hid hr he hrow =>
      intro p hp ha
      obtain rfl := Except.ok.inj (Outcome.proposal.inj (Option.some.inj hp))
      refine ⟨?_, ha⟩
      rw [hrow, show (r.confirmedBy q.role now).id = q.id from hid, Function.update_self]
  | _ => simp [Truthful, told?]

end Stage

/-! ### What has been rejected -/

/-- Every rejected row has the driver or the passenger in common with an accepted one. -/
def Store.Justified (s : Store) : Prop :=
  ∀ id r, s.row? id = some r → r.status = .rejected →
    ∃ a, s.HasAccepted a ∧ (r.driverId = a.driverId ∨ r.passengerId = a.passengerId)

namespace Store.Justified

variable {s s' : Store}

theorem of_row? (h : s.Justified) (hlater : s.Later s') (hrow : s'.row? = s.row?) :
    s'.Justified := by
  intro id r hr hstatus
  rw [hrow] at hr
  obtain ⟨a, ha, hc⟩ := h id r hr hstatus
  exact ⟨a, ha.later hlater, hc⟩

/-- One row is written, and if it is rejected it has been so on account of an accepted one. -/
theorem of_update (h : s.Justified) (hlater : s.Later s') {id : MatchId} {n : Proposal}
    (hrow : s'.row? = Function.update s.row? id (some n))
    (hn : n.status = .rejected → ∃ a, s.HasAccepted a ∧
      (n.driverId = a.driverId ∨ n.passengerId = a.passengerId)) : s'.Justified := by
  intro id' r hr hstatus
  have hcases : ∃ a, s.HasAccepted a ∧
      (r.driverId = a.driverId ∨ r.passengerId = a.passengerId) := by
    rw [hrow, Function.update_apply] at hr
    by_cases hid : id' = id
    · rw [if_pos hid] at hr
      obtain rfl := Option.some.inj hr
      exact hn hstatus
    · rw [if_neg hid] at hr
      exact h id' r hr hstatus
  obtain ⟨a, ha, hc⟩ := hcases
  exact ⟨a, ha.later hlater, hc⟩

end Store.Justified

/-- **A call rejects a row only if it has the driver or the passenger in common with an accepted
one.** -/
theorem Stage.Goes.justified {s s' : Store} {m : Moment} {g g' : Stage}
    (h : Stage.Goes s m g g' s') (hlater : s.Later s') (hg : g.Grounded s)
    (hs : s.Justified) : s'.Justified := by
  cases h with
  | entered d t id now hnew hrow => exact hs.of_update hlater hrow fun hstatus => by cases hstatus
  | @closed q t r now _ hid hr he hrow =>
      exact hs.of_update hlater hrow fun hstatus =>
        absurd hstatus (Status.ofFlags_ne_rejected _ _)
  | @rejected q t id ids n r _ hr hopen _ _ hrow =>
      -- the row that was listed is the row that is rejected now, with the same two parties
      refine hs.of_update hlater hrow fun _ => ?_
      obtain ⟨a, ha, hq⟩ := hg.accepted
      obtain ⟨r', hr', hc⟩ := hg.competing id List.mem_cons_self
      rw [hr] at hr'
      obtain rfl := Option.some.inj hr'
      rw [hq] at hc
      exact ⟨a, ha, hc⟩
  | _ => first | exact hs | exact hs.of_row? hlater (by assumption)

/-! ### Any number of callers -/

namespace Traffic

/-- Callers and rows agree on who has confirmed what, whatever is returned as accepted is so, and
what is rejected, or is to be, is so on account of an accepted row. -/
structure Candid (x : Traffic) (gs : List Stage) : Prop where
  orderly : Orderly x gs
  tallied : x.Tallied
  truthful : ∀ g ∈ gs, g.Truthful x.store
  grounded : ∀ g ∈ gs, g.Grounded x.store
  justified : x.store.Justified

namespace Candid

variable {x : Traffic} {gs : List Stage}

/-- Somebody calls; if it is to reject something, then on account of an accepted row. -/
theorem arrive (h : Candid x gs) {o : Operation} (ho : (Stage.first o).Grounded x.store) :
    Candid (x.after (.arrive o)) (gs ++ [Stage.first o]) where
  orderly := h.orderly.arrive o
  tallied := h.tallied.arrive o
  truthful := by
    intro g hg
    rcases List.mem_append.mp hg with hg | hg
    · exact h.truthful g hg
    · obtain rfl := List.mem_singleton.mp hg
      exact Stage.truthful_first o
  grounded := by
    intro g hg
    rcases List.mem_append.mp hg with hg | hg
    · exact h.grounded g hg
    · obtain rfl := List.mem_singleton.mp hg
      exact ho
  justified := h.justified

theorem outage (h : Candid x gs) (offline : Bool) : Candid (x.after (.outage offline)) gs where
  orderly := h.orderly.outage offline
  tallied := h.tallied
  truthful := h.truthful
  grounded g hg := (h.grounded g hg).later (.of_row? rfl)
  justified := h.justified.of_row? (.of_row? rfl) rfl

/-- In the place of one caller there is another one, or he is at another stage. -/
theorem put (h : Candid x gs) {k : Nat} {c c' : Caller} {g' : Stage} {s' : Store}
    {metrics' : Metrics} (hc : x.callers[k]? = some c)
    (orderly : Orderly { ledger := ⟨s', metrics'⟩, callers := x.callers.set k c' } (gs.set k g'))
    (later : x.store.Later s')
    (consents : ∀ id user role,
      (s'.consents id user role).toNat + (c.hasConfirmed id user role).toNat
        = (x.store.consents id user role).toNat + (c'.hasConfirmed id user role).toNat)
    (truthful : g'.Truthful s') (grounded : g'.Grounded s') (justified : s'.Justified) :
    Candid { ledger := ⟨s', metrics'⟩, callers := x.callers.set k c' } (gs.set k g') where
  orderly := orderly
  tallied := h.tallied.put hc consents
  truthful := by
    intro g hg
    rcases List.mem_or_eq_of_mem_set hg with hg | rfl
    · exact (h.truthful g hg).later later
    · exact truthful
  grounded := by
    intro g hg
    rcases List.mem_or_eq_of_mem_set hg with hg | rfl
    · exact (h.grounded g hg).later later
    · exact grounded
  justified := justified

/-- Somebody makes his next call. -/
theorem go (h : Candid x gs) {k : Nat} {m : Moment} {c : Caller} {g : Stage}
    (hfresh : ∀ d t, g = .inserting d t → x.store.Unused m.freshId)
    (hc : x.callers[k]? = some c) (hg : gs[k]? = some g) :
    ∃ g' s' metrics', Stage.Step x.store x.ledger.metrics m c.operation g g' s' metrics' ∧
      Candid { ledger := ⟨s', metrics'⟩
               callers := x.callers.set k { c with rest := g'.program } } (gs.set k g') := by
  obtain ⟨hrest, hof, -⟩ := h.orderly.stage hc hg
  obtain ⟨g', s', metrics', step, hafter, horderly⟩ := h.orderly.go hfresh hc hg
  have hmem : g ∈ gs := List.mem_of_getElem? hg
  have hlater := (step.goes.rowChange hof).later
  have hcaller : c = ⟨c.operation, g.program⟩ := by rw [← hrest]
  refine ⟨g', s', metrics', step, h.put hc (hafter ▸ horderly) hlater (fun id user role => ?_)
    (step.goes.truthful h.orderly.ok hlater (h.truthful g hmem))
    (step.goes.grounded h.orderly.ok hlater (h.grounded g hmem))
    (step.goes.justified hlater (h.grounded g hmem) h.justified)⟩
  rw [hcaller]
  exact step.goes.consents hof id user role

/-- Somebody has gone away, and has nothing under way any more. -/
theorem abandon (h : Candid x gs) {k : Nat} {c : Caller} {g : Stage} {t : Ticket} {s' : Store}
    (hc : x.callers[k]? = some c) (hg : gs[k]? = some g) (ht : g.holding.ticket? = some t)
    (adv : Advance t x.store s') (hidle : s'.Idle t) (hrow : s'.row? = x.store.row?)
    {r : Outcome} (hr : r.proposal? = none) :
    Candid { ledger := ⟨s', x.ledger.metrics⟩
             callers := x.callers.set k { c with rest := (Stage.finished r).program } }
      (gs.set k (.finished r)) := by
  obtain ⟨hrest, hof, -⟩ := h.orderly.stage hc hg
  obtain rfl : g.actor x.store = t := Stage.actor_of_holding ht
  have hcaller : c = ⟨c.operation, g.program⟩ := by rw [← hrest]
  refine h.put hc (h.orderly.abandon c r hg adv hidle) (.of_row? hrow) (fun id user role => ?_)
    (Stage.truthful_finished hr) trivial (h.justified.of_row? (.of_row? hrow) hrow)
  -- he has held a ticket until now, and so had not succeeded before
  have hbefore : c.hasConfirmed id user role = false := by
    rw [hcaller]
    exact Caller.hasConfirmed_of_ticket hof ht id user role
  have hafter : Caller.hasConfirmed ⟨c.operation, (Stage.finished r).program⟩ id user role
      = false := Caller.hasConfirmed_of_returns? (c := ⟨c.operation, .done r⟩) hr id user role
  rw [hbefore, hafter, Store.consents, Store.consents, hrow]

/-- In the place of somebody who has finished there is somebody else who calls. -/
theorem succeed (h : Candid x gs) {k : Nat} {c : Caller} {r : Outcome} {o : Operation}
    (hc : x.callers[k]? = some c) (hg : gs[k]? = some (.finished r))
    (hnot : ¬ c.operation.Confirms) (ho : (Stage.first o).Grounded x.store) :
    Candid { x with callers := x.callers.set k ⟨o, o.program⟩ } (gs.set k (Stage.first o)) := by
  have hfirst := Stage.holding_first o
  have horderly : Orderly { x with callers := x.callers.set k ⟨o, o.program⟩ }
      (gs.set k (Stage.first o)) := by
    refine h.orderly.put hg o.program_eq (Stage.of_first o)
      (.refl h.orderly.ok h.orderly.present _) ?_ ?_ fun _ => idle_nextTicket h.orderly.ok.locks
    · rw [hfirst]
      trivial
    · intro u hu
      rw [hfirst] at hu
      cases hu
  refine h.put hc horderly (.refl _) (fun id user role => ?_) (Stage.truthful_first o) ho
    h.justified
  rw [Caller.hasConfirmed_of_not_confirms hnot, Caller.hasConfirmed_first]

end Candid
end Traffic
end Dispatch
