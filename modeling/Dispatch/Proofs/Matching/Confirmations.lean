/-
Confirmations of one proposal, all at once.

Any number of actors confirm a proposal in any roles while rejections go on, call by call and in
any order.  What each of them is told, and the row in the end, are what they would be if the
operations were made one at a time, in the order in which they get the lock of the row
(`Traffic.Serial`).  The number that a rejection returns is not told in this way: it counts other
rows as well, which have locks of their own.

What follows is said of every state of every such run (`Traffic.ConfirmedInTurn`).  In each role at
most one confirmation succeeds; it is never missing from the row afterwards; and of two that succeed
the later one, and only that, is told that the proposal is accepted.  The row that is returned is
the one that has been committed, and no confirmation finds that its row has been changed under its
lock.
-/
import Dispatch.Proofs.Matching.ContestRun

namespace Dispatch

open Store

/-- An event of a contest: somebody calls for the row, or goes on. -/
def Event.Contends (m : MatchId) : Event → Prop
  | .arrive o => o.Contends m
  | .go _ _ => True
  | .outage _ => False

theorem Contest.of_events {m : MatchId} {s₀ : Store} (hq : s₀.Quiet) (hon : s₀.offline = false)
    {events : List Event} (hev : ∀ e ∈ events, e.Contends m) :
    ∃ h gs, h.events = events ∧
      Contest m s₀ h (events.foldl Traffic.after (.opening s₀)) gs := by
  induction events using List.reverseRecOn with
  | nil => exact ⟨_, _, rfl, .opening hq hon⟩
  | append_singleton events e ih =>
      obtain ⟨h, gs, rfl, hx⟩ := ih fun e' he' => hev e' (List.mem_append_left _ he')
      rw [List.foldl_append]
      have he := hev e (by simp)
      cases e with
      | arrive o =>
          obtain ⟨gs', h', hevents, hx'⟩ := hx.arrive he
          exact ⟨h', gs', hevents, hx'⟩
      | go k mo =>
          obtain ⟨gs', h', hevents, hx'⟩ := hx.go k mo
          exact ⟨h', gs', hevents, hx'⟩
      | outage offline => exact he.elim

/-! ### What a success says -/

namespace Proposal

variable {r r' : Proposal}

theorem Later.hasConfirmed (h : r.Later r') {role : Role} (hr : r.hasConfirmed role = true) :
    r'.hasConfirmed role = true := by
  cases role with
  | driver => exact h.driverConfirmed hr
  | passenger => exact h.passengerConfirmed hr

theorem hasConfirmed_confirmedBy (r : Proposal) (role : Role) (now : Time.Instant) :
    (r.confirmedBy role now).hasConfirmed role = true := by
  cases role <;> rfl

/-- Of two confirmations in different roles the later one makes the proposal accepted, and the
earlier one does not. -/
theorem accepted_of_confirmedBy {role role' : Role} {now now' : Time.Instant}
    (hlater : (r.confirmedBy role now).Later r') (hrole : role' ≠ role)
    (hnot : r'.hasConfirmed role' = false) :
    (r.confirmedBy role now).status ≠ .accepted ∧
      (r'.confirmedBy role' now').status = .accepted ∧
      (r'.confirmedBy role' now').driverConfirmed = true ∧
      (r'.confirmedBy role' now').passengerConfirmed = true := by
  have hfirst := hlater.hasConfirmed (r.hasConfirmed_confirmedBy role now)
  have hsecond : (r.confirmedBy role now).hasConfirmed role' = false := by
    refine Bool.eq_false_iff.mpr fun h => ?_
    rw [hlater.hasConfirmed h] at hnot
    cases hnot
  cases role <;> cases role' <;>
    simp_all [hasConfirmed, confirmedBy, flagsAfter, Status.ofFlags]

end Proposal

/-- A confirmation that has succeeded, among the acts at the row. -/
structure Success (row : Option Proposal) (ended : List Act) (k : Nat) (role : Role) (r : Proposal)
    (before : List Act) (u : Act) (after : List Act) : Prop where
  split : ended = before ++ u :: after
  caller : u.caller = k
  /-- Nobody had confirmed in its role before. -/
  confirmed : ∃ p now, replay row before = some p ∧ p.hasConfirmed role = false ∧
    r = p.confirmedBy role now
  /-- What it returns it has written. -/
  written : replay row (before ++ [u]) = some r

namespace Success

variable {row : Option Proposal} {ended before after before' after' mid : List Act} {k k' : Nat}
  {role role' : Role} {r r' : Proposal} {u u' : Act}

theorem hasConfirmed (h : Success row ended k role r before u after) :
    r.hasConfirmed role = true := by
  obtain ⟨p, now, -, -, rfl⟩ := h.confirmed
  exact p.hasConfirmed_confirmedBy role now

/-- The row is at any later time a later form of what has been returned. -/
theorem later (h : Success row ended k role r before u after) (mid : List Act) :
    ∃ r', replay row (before ++ u :: mid) = some r' ∧ r.Later r' := by
  obtain ⟨r', hr', hlater⟩ := replay_later r mid
  refine ⟨r', ?_, hlater⟩
  rw [List.append_cons before u mid, replay_append, h.written, hr']

/-- Of two successes the later one is in another role, and it is the one that makes the proposal
accepted. -/
theorem accepted (h : Success row ended k role r before u after)
    (h' : Success row ended k' role' r' (before ++ u :: mid) u' after') :
    role' ≠ role ∧ r.status ≠ .accepted ∧ r'.status = .accepted ∧ r'.driverConfirmed = true ∧
      r'.passengerConfirmed = true := by
  obtain ⟨p', hp', hlater⟩ := h.later mid
  obtain ⟨p'', now', hp'', hnot, rfl⟩ := h'.confirmed
  rw [hp'] at hp''
  obtain rfl := Option.some.inj hp''
  have hrole : role' ≠ role := by
    rintro rfl
    rw [hlater.hasConfirmed h.hasConfirmed] at hnot
    cases hnot
  obtain ⟨p, now, -, -, rfl⟩ := h.confirmed
  exact ⟨hrole, Proposal.accepted_of_confirmedBy hlater hrole hnot⟩

/-- Of two successes one is the earlier, or they are the same. -/
theorem cases_order (h : Success row ended k role r before u after)
    (h' : Success row ended k' role' r' before' u' after') :
    k = k' ∨ (∃ mid, before' = before ++ u :: mid) ∨ ∃ mid, before = before' ++ u' :: mid := by
  have hsplit := h.split.symm.trans h'.split
  rcases List.append_eq_append_iff.mp hsplit with ⟨mid, rfl, hmid⟩ | ⟨mid, rfl, hmid⟩
  · cases mid with
    | nil =>
        obtain ⟨rfl, -⟩ := List.cons.inj hmid
        exact Or.inl (h.caller.symm.trans h'.caller)
    | cons v mid =>
        obtain ⟨rfl, -⟩ := List.cons.inj hmid
        exact Or.inr (Or.inl ⟨mid, rfl⟩)
  · cases mid with
    | nil =>
        obtain ⟨rfl, -⟩ := List.cons.inj hmid
        exact Or.inl (h.caller.symm.trans h'.caller)
    | cons v mid =>
        obtain ⟨rfl, -⟩ := List.cons.inj hmid
        exact Or.inr (Or.inr ⟨mid, rfl⟩)

end Success

/-! ### What a contest says of its callers -/

namespace Traffic

/-- A confirmation has succeeded, and this is what it has returned. -/
def Confirmed (x : Traffic) (m : MatchId) (k : Nat) (role : Role) (r : Proposal) : Prop :=
  (∃ user, x.operation? k = some (.confirm m user role)) ∧
    x.outcome? k = some (.proposal (.ok r))

end Traffic

namespace Contest

variable {m : MatchId} {s₀ : Store} {h : History} {x : Traffic} {gs : List Stage} {k : Nat}

theorem at_finished (hx : Contest m s₀ h x gs) {o : Operation} (ho : x.operation? k = some o)
    {out : Outcome} (hout : x.outcome? k = some out) :
    gs[k]? = some (.finished out) ∧ (Stage.finished out).At m s₀ h k o := by
  obtain ⟨c, hc, rfl⟩ := Option.map_eq_some_iff.mp ho
  obtain ⟨g, hg⟩ := hx.orderly.exists_stage hc
  rw [Traffic.outcome?, hc, Option.bind_some, (hx.orderly.stage hc hg).1] at hout
  obtain rfl := Stage.eq_finished hout
  exact ⟨hg, (hx.callers hc hg).2⟩

/-- Nobody is told that the row has been modified concurrently. -/
theorem untold (hx : Contest m s₀ h x gs) (k : Nat) (id : MatchId) :
    x.outcome? k ≠ some (.proposal (.error (.refused (.modifiedConcurrently id)))) := by
  intro hout
  obtain ⟨c, hc, -⟩ := Option.bind_eq_some_iff.mp hout
  have ho : x.operation? k = some c.1 := by rw [Traffic.operation?, hc]; rfl
  obtain ⟨-, hat⟩ := hx.at_finished ho hout
  obtain ⟨user, role, -, before, u, after, -, -, hans⟩ := History.Settled.answer hat
  have hkind : .conflict ∈ [ErrorKind.notFound, .forbidden, .invalidState, .alreadyConfirmed] :=
    Confirming.kind_of_answer hans.symm
  exact absurd hkind (by decide)

/-- Whatever a confirmation has been told is what its act says. -/
theorem settled (hx : Contest m s₀ h x gs) {user : ActorId} {role : Role}
    (ho : x.operation? k = some (.confirm m user role)) {out : Outcome}
    (hout : x.outcome? k = some out) :
    ∃ r, out = .proposal r ∧ h.Settled m s₀ k (.confirm m user role) r := by
  obtain ⟨-, hat⟩ := hx.at_finished ho hout
  cases out with
  | proposal r => exact ⟨r, rfl, hat⟩
  | rejections r => exact absurd rfl (hat user role)

theorem success (hx : Contest m s₀ h x gs) {role : Role} {r : Proposal}
    (hc : x.Confirmed m k role r) :
    ∃ before u after, Success (s₀.row? m) h.ended k role r before u after := by
  obtain ⟨⟨user, ho⟩, hout⟩ := hc
  obtain ⟨r', hr', hs⟩ := hx.settled ho hout
  obtain rfl : r' = .ok r := (Outcome.proposal.inj hr').symm
  obtain ⟨user', role', hop, before, u, after, hsplit, hu, hans⟩ := hs.answer
  obtain ⟨-, rfl, rfl⟩ := Operation.confirm.inj hop
  obtain ⟨p, hp, he, hr⟩ := Confirming.exists_of_answer hans.symm
  have hop : u.operation = .confirm m user role := by
    have hacts := (hx.acts u (by rw [hsplit]; simp)).2.1
    rw [hu, ho] at hacts
    exact (Option.some.inj hacts).symm
  have honRow : u.onRow (replay (s₀.row? m) before) = some r := by
    rw [Act.onRow, hop]
    exact Confirming.onRow_of_ok hans.symm
  exact ⟨before, u, after, hsplit, hu, ⟨p, _, hp, (Proposal.refusal?_eq_none.1 he).2.2, hr⟩,
    by rw [replay_append, replay_cons, honRow, replay_nil]⟩

/-- Whoever is pending has not been told anything. -/
theorem outcome?_of_pending (hx : Contest m s₀ h x gs) (hk : k ∈ h.pending) :
    (x.operation? k).isSome = true ∧ x.outcome? k = none := by
  obtain ⟨g, r, hg, hr, -⟩ := hx.pending k hk
  obtain ⟨c, hc⟩ := hx.orderly.exists_caller hg
  refine ⟨by rw [Traffic.operation?, hc]; rfl, ?_⟩
  cases hout : x.outcome? k with
  | none => rfl
  | some out =>
      rw [Traffic.outcome?, hc, Option.bind_some, (hx.orderly.stage hc hg).1] at hout
      obtain rfl := Stage.eq_finished hout
      cases hr

/-- A confirmation that is written has been read under the lock that it still has, so that it is
one row that is changed. -/
theorem update_answer (hx : Contest m s₀ h x gs) {t : Ticket} {id : MatchId} {status : Status}
    {driver passenger : Bool}
    (hnext : x.next? k = some (.store (.update t id status driver passenger))) (mo : Moment) :
    ∃ s', Store.perform mo (.update t id status driver passenger) x.store
      = .answer (.ok (1 : Nat)) s' := by
  obtain ⟨⟨o, rest⟩, hc, hhead⟩ := Option.bind_eq_some_iff.mp hnext
  obtain ⟨g, hg⟩ := hx.orderly.exists_stage hc
  obtain ⟨hrest, hof, hh⟩ := hx.orderly.stage hc hg
  rw [hrest] at hhead
  cases g with
  | updating q u r =>
      cases hhead
      cases hof
      rename_i hid he
      rcases update_cases hx.orderly.ok hx.orderly.present hh (Proposal.refusal?_eq_none.1 he).2.1
          q.role mo with ⟨hoff, -⟩ | ⟨s', hans, -⟩
      · simp [hx.online] at hoff
      · rw [hid] at hans
        exact ⟨s', hans⟩
  | rejecting q t ids n => cases ids <;> cases hhead
  | _ => cases hhead

end Contest

/-! ### The order in which the lock is got -/

namespace Traffic

/-- What a run makes of a row, and tells those who confirm it, told by operations that are made one
at a time: each is made alone, from its beginning to its end. -/
structure Serial (m : MatchId) (s₀ : Store) (events : List Event) (x : Traffic) (ended : List Act)
    (pending : List Nat) : Prop where
  /-- The operations are made in the order in which they have got the lock of the row. -/
  order : lockOrder m (.opening s₀) events = ended.map Act.caller ++ pending
  /-- Nobody gets the lock twice. -/
  nodup : (lockOrder m (.opening s₀) events).Nodup
  /-- One at most has got the lock and has not ended, and he has not been told anything yet. -/
  pending_le : pending.length ≤ 1
  pending_untold : ∀ k ∈ pending, x.outcome? k = none
  /-- When everybody has been told, all have ended. -/
  complete : (∀ k, (x.operation? k).isSome = true → (x.outcome? k).isSome = true) → pending = []
  /-- The acts are those of the callers, at moments in which they have called. -/
  acts : ∀ u ∈ ended, x.operation? u.caller = some u.operation ∧
    .go u.caller u.moment ∈ events
  /-- Whoever confirms is told what his operation returns in its turn. -/
  results : ∀ k user role out, x.operation? k = some (.confirm m user role) →
    x.outcome? k = some out → ∃ before u after, ended = before ++ u :: after ∧ u.caller = k ∧
      ((Ledger.afterActs { store := s₀ } before).act u).1 = some out
  /-- The row is what the operations leave. -/
  row : x.store.row? m = (Ledger.afterActs { store := s₀ } ended).store.row? m

/-- What holds in a state of a run in which operations go for a row. -/
structure ConfirmedInTurn (m : MatchId) (s₀ : Store) (events : List Event) (x : Traffic) :
    Prop where
  serial : ∃ ended pending, Serial m s₀ events x ended pending
  /-- In each role at most one confirmation succeeds. -/
  once : ∀ role k k' r r', x.Confirmed m k role r → x.Confirmed m k' role r' → k = k'
  /-- A confirmation that has succeeded is in the row. -/
  kept : ∀ role k r, x.Confirmed m k role r →
    ∃ row, x.store.row? m = some row ∧ row.hasConfirmed role = true
  /-- If both have succeeded, the row is accepted with both confirmations, and the one who got the
  lock later, and only he, has been told so. -/
  both : ∀ k k' r r', x.Confirmed m k .driver r → x.Confirmed m k' .passenger r' →
    (∃ row, x.store.row? m = some row ∧ row.status = .accepted ∧ row.driverConfirmed = true ∧
      row.passengerConfirmed = true) ∧
    ([k, k'].Sublist (lockOrder m (.opening s₀) events) ∧ r.status ≠ .accepted ∧
        r'.status = .accepted ∨
      [k', k].Sublist (lockOrder m (.opening s₀) events) ∧ r'.status ≠ .accepted ∧
        r.status = .accepted)
  /-- A confirmation that succeeds returns the row as it is right after its commit. -/
  returned : ∀ role k r, x.Confirmed m k role r → ∃ pre mo post t,
    events = pre ++ .go k mo :: post ∧
    (pre.foldl after (.opening s₀)).next? k = some (.store (.commit t)) ∧
    ((pre ++ [.go k mo]).foldl after (.opening s₀)).store.row? m = some r
  /-- Whoever writes his confirmation next changes one row. -/
  unmodified : ∀ k t id status driver passenger,
    x.next? k = some (.store (.update t id status driver passenger)) →
    ∀ mo, ∃ s', Store.perform mo (.update t id status driver passenger) x.store
      = .answer (.ok (1 : Nat)) s'
  /-- So nobody is told that the row has been modified concurrently. -/
  untold : ∀ k id, x.outcome? k ≠ some (.proposal (.error (.refused (.modifiedConcurrently id))))

end Traffic

namespace Contest

variable {m : MatchId} {s₀ : Store} {h : History} {x : Traffic} {gs : List Stage}

theorem serial (hx : Contest m s₀ h x gs) (hq : s₀.Quiet) (hon : s₀.offline = false) :
    x.Serial m s₀ h.events h.ended h.pending where
  order := hx.order
  nodup := hx.order ▸ hx.nodup
  pending_le := hx.pending_le
  pending_untold k hk := (hx.outcome?_of_pending hk).2
  complete := by
    intro hall
    refine List.eq_nil_iff_forall_not_mem.mpr fun k hk => ?_
    obtain ⟨ho, hout⟩ := hx.outcome?_of_pending hk
    have htold := hall k ho
    rw [hout] at htold
    cases htold
  acts u hu := (hx.acts u hu).2
  results := by
    intro k user role out ho hout
    obtain ⟨r, rfl, hs⟩ := hx.settled ho hout
    obtain ⟨user', role', hop, before, u, after, hsplit, hu, rfl⟩ := hs.answer
    obtain ⟨-, rfl, rfl⟩ := Operation.confirm.inj hop
    have hop : u.operation = .confirm m user role := by
      have hacts := (hx.acts u (by rw [hsplit]; simp)).2.1
      rw [hu, ho] at hacts
      exact (Option.some.inj hacts).symm
    have hstands : Ledger.Stands m s₀ before _ := hq.stands hon fun v hv =>
      (hx.acts v (by rw [hsplit]; exact List.mem_append_left _ hv)).1
    exact ⟨before, u, after, hsplit, hu, (hstands.confirm hop).1⟩
  row := by
    rw [hx.row, (hq.stands (m := m) hon fun u hu => (hx.acts u hu).1).row]

theorem kept (hx : Contest m s₀ h x gs) {k : Nat} {role : Role} {r : Proposal}
    (hc : x.Confirmed m k role r) : ∃ row, x.store.row? m = some row ∧ r.Later row := by
  obtain ⟨before, u, after, hs⟩ := hx.success hc
  obtain ⟨row, hrow, hlater⟩ := hs.later after
  exact ⟨row, by rw [hx.row, hs.split, hrow], hlater⟩

/-- If one succeeds after another one, the row is accepted, and it is the later one who is told
so. -/
theorem both (hx : Contest m s₀ h x gs) {k k' : Nat} {role role' : Role} {r r' : Proposal}
    {before after mid after' : List Act} {u u' : Act}
    (hs : Success (s₀.row? m) h.ended k role r before u after)
    (hs' : Success (s₀.row? m) h.ended k' role' r' (before ++ u :: mid) u' after')
    (hc' : x.Confirmed m k' role' r') :
    (∃ row, x.store.row? m = some row ∧ row.status = .accepted ∧ row.driverConfirmed = true ∧
      row.passengerConfirmed = true) ∧
    [k, k'].Sublist (Traffic.lockOrder m (.opening s₀) h.events) ∧ r.status ≠ .accepted ∧
      r'.status = .accepted := by
  obtain ⟨-, hnot, hacc, hd, hp⟩ := hs.accepted hs'
  obtain ⟨row, hrow, hlater⟩ := hx.kept hc'
  obtain rfl := hlater.closed (Or.inl hacc)
  refine ⟨⟨row, hrow, hacc, hd, hp⟩, ?_, hnot, hacc⟩
  rw [hx.order, History.order, hs'.split, ← hs.caller, ← hs'.caller]
  simp only [List.map_append, List.map_cons, List.append_assoc, List.cons_append]
  refine List.Sublist.trans ?_ (List.sublist_append_right _ _)
  refine List.Sublist.cons_cons _ ?_
  refine List.Sublist.trans ?_ (List.sublist_append_right _ _)
  exact List.Sublist.cons_cons _ (List.nil_sublist _)

end Contest

namespace Traffic

variable {m : MatchId} {s₀ : Store} {events : List Event}

/-- **Confirmations that are made at once are made in turn.** -/
theorem confirmed_in_turn (hq : s₀.Quiet) (hon : s₀.offline = false)
    (hev : ∀ e ∈ events, e.Contends m) :
    ConfirmedInTurn m s₀ events (events.foldl after (.opening s₀)) := by
  obtain ⟨h, gs, rfl, hx⟩ := Contest.of_events hq hon hev
  constructor
  · exact ⟨h.ended, h.pending, hx.serial hq hon⟩
  · intro role k k' r r' hc hc'
    obtain ⟨before, u, after, hs⟩ := hx.success hc
    obtain ⟨before', u', after', hs'⟩ := hx.success hc'
    rcases hs.cases_order hs' with hk | ⟨mid, rfl⟩ | ⟨mid, rfl⟩
    · exact hk
    · exact absurd rfl (hs.accepted hs').1
    · exact absurd rfl (hs'.accepted hs).1
  · intro role k r hc
    obtain ⟨before, u, after, hs⟩ := hx.success hc
    obtain ⟨row, hrow, hlater⟩ := hx.kept hc
    exact ⟨row, hrow, hlater.hasConfirmed hs.hasConfirmed⟩
  · intro k k' r r' hc hc'
    obtain ⟨before, u, after, hs⟩ := hx.success hc
    obtain ⟨before', u', after', hs'⟩ := hx.success hc'
    rcases hs.cases_order hs' with rfl | ⟨mid, rfl⟩ | ⟨mid, rfl⟩
    · -- nobody confirms in both roles with one call
      obtain ⟨user, ho⟩ := hc.1
      obtain ⟨user', ho'⟩ := hc'.1
      rw [ho] at ho'
      cases ho'
    · obtain ⟨hrow, h⟩ := hx.both hs hs' hc'
      exact ⟨hrow, Or.inl h⟩
    · obtain ⟨hrow, h⟩ := hx.both hs' hs hc
      exact ⟨hrow, Or.inr h⟩
  · intro role k r hc
    obtain ⟨⟨user, ho⟩, hout⟩ := hc
    obtain ⟨r', hr', hs⟩ := hx.settled ho hout
    exact hs.committed r (Outcome.proposal.inj hr').symm
  · intro k t id status driver passenger hnext mo
    exact hx.update_answer hnext mo
  · exact hx.untold

/-- Both confirm at once: the passenger begins first, the driver gets the lock first, and the
passenger waits for him. -/
def contending : List Event :=
  let m := momentOf Uuid.nil
  [.arrive (.confirm Uuid.nil "p" .passenger), .arrive (.confirm Uuid.nil "d" .driver),
   .go 0 m, .go 1 m, .go 1 m, .go 0 m, .go 1 m, .go 1 m, .go 1 m, .go 0 m, .go 1 m,
   .go 0 m, .go 0 m, .go 0 m, .go 0 m]

theorem quiet_entering : (entering.foldl Store.after {}).Quiet where
  ok := StoreOK.empty.of_mem_states along_entering.1 along_entering.2 _
    (Run.foldl_mem_states _ entering)
  idle t := by
    have hnone : ∀ {α : Type} (l : Table Ticket α), l.entries = [] → l.find? t = none := by
      intro α l hl
      cases h : l.find? t with
      | none => rfl
      | some a =>
          have hmem := l.find?_eq_some_iff.1 h
          rw [hl] at hmem
          cases hmem
    have hopen := hnone (entering.foldl Store.after {}).transactions (by rfl)
    refine ⟨fun h => ?_, hnone (entering.foldl Store.after {}).locks.waiting (by rfl)⟩
    unfold Store.IsOpen at h
    rw [hopen] at h
    cases h

theorem confirmed_in_turn_contending :
    let s := entering.foldl Store.after {}
    s.Quiet ∧ s.offline = false ∧ (∀ e ∈ contending, e.Contends Uuid.nil) ∧
      lockOrder Uuid.nil (.opening s) contending = [1, 0] ∧
      ConfirmedInTurn Uuid.nil s contending (contending.foldl after (.opening s)) := by
  have hev : ∀ e ∈ contending, e.Contends Uuid.nil := by
    simp [contending, Event.Contends, Operation.Contends]
  exact ⟨quiet_entering, rfl, hev, by decide +kernel, confirmed_in_turn quiet_entering rfl hev⟩

end Traffic
end Dispatch
