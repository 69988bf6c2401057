/-
Rows that are given a status.

A batch update gives a status to the rows that are named and have a status that is allowed, and if
the new one is final it lets their pairs go; that is `Store.Updated`, with the times of the changes
left open.  What a row is given does not depend on other rows.  To give a row the status that it has
changes nothing but the time of the change, so such updates can be made one after the other, and
also over again, and come out as one.

Each row is one call, which asks for the lock, and waits if somebody else is in line for the row.
-/
import Dispatch.Proofs.Store.Passing

namespace Dispatch

open Store

/-! ### What a batch update makes of rows and pairs -/

namespace Proposal

/-- A row that is given a status, if it has one of those allowed. -/
def given (r : Proposal) (status : Status) (allowed : List Status) (now : Time.Instant) :
    Proposal :=
  if r.status ∈ allowed then { r with status, updatedAt := now } else r

/-- A row without the time of its last change. -/
def undated (r : Proposal) : Proposal := { r with updatedAt := r.createdAt }

variable {r : Proposal} {status : Status} {allowed : List Status}

theorem given_of_mem (h : r.status ∈ allowed) (now : Time.Instant) :
    r.given status allowed now = { r with status, updatedAt := now } := if_pos h

theorem given_of_not_mem (h : r.status ∉ allowed) (now : Time.Instant) :
    r.given status allowed now = r := if_neg h

/-- A row that is given a status twice has the time of the second change, if there was one. -/
theorem given_given (now now' : Time.Instant) :
    (r.given status allowed now).given status allowed now' =
      r.given status allowed
        (if (r.given status allowed now).status ∈ allowed then now' else now) := by
  by_cases hr : r.status ∈ allowed
  · rw [given_of_mem hr, given_of_mem hr]
    by_cases hstatus : status ∈ allowed
    · rw [if_pos hstatus, given_of_mem hstatus]
    · rw [if_neg hstatus, given_of_not_mem hstatus]
  · simp only [given_of_not_mem hr]

theorem undated_given (now : Time.Instant) : (r.given status allowed now).undated =
    (if r.status ∈ allowed then { r with status } else r).undated := by
  unfold given
  split <;> rfl

end Proposal

namespace Store

/-- A row is there and has one of the statuses allowed. -/
def allows (s : Store) (allowed : List Status) (id : MatchId) : Bool :=
  (s.row? id).any fun r => decide (r.status ∈ allowed)

/-- The rows named have been given a status if theirs was allowed, each at a time of its own; and if
the status is final, no pair leads to them any more.  All other rows and pairs are as before. -/
structure Updated (status : Status) (allowed : List Status) (clock : MatchId → Time.Instant)
    (ids : List MatchId) (s s' : Store) : Prop where
  row : ∀ id, s'.row? id =
    if id ∈ ids then (s.row? id).map fun r => r.given status allowed (clock id) else s.row? id
  openPairs : ∀ p, s'.openPairs.find? p = (s.openPairs.find? p).filter fun id =>
    !(status.isTerminal && (decide (id ∈ ids) && s.allows allowed id))

namespace Updated

variable {status : Status} {allowed : List Status} {clock clock' : MatchId → Time.Instant}
  {ids ids' : List MatchId} {s s₁ s₂ s' : Store} {id : MatchId} {r : Proposal}

/-- Nothing has been done where no row is named. -/
theorem nil (h : s'.contents = s.contents) : Updated status allowed clock [] s s' := by
  obtain ⟨hrows, hpairs⟩ := contents_eq_iff.mp h
  refine ⟨fun id => ?_, fun p => ?_⟩
  · rw [if_neg List.not_mem_nil, row?, hrows]
    rfl
  · rw [hpairs]
    cases s.openPairs.find? p <;> simp [Option.filter]

theorem congr_contents (h : Updated status allowed clock ids s s₁) (hs : s₂.contents = s.contents)
    (hs' : s'.contents = s₁.contents) : Updated status allowed clock ids s₂ s' := by
  obtain ⟨hrows, hpairs⟩ := contents_eq_iff.mp hs
  obtain ⟨hrows', hpairs'⟩ := contents_eq_iff.mp hs'
  have hrow : s₂.row? = s.row? := by
    funext id
    rw [row?, hrows]
    rfl
  refine ⟨fun id => ?_, fun p => ?_⟩
  · rw [hrow, ← h.row, row?, hrows']
    rfl
  · have hallows : s₂.allows allowed = s.allows allowed := by
      funext id
      rw [allows, hrow]
      rfl
    rw [hallows, hpairs, hpairs', h.openPairs]

/-- The same rows may be named in another order, and more than once. -/
theorem congr (h : Updated status allowed clock ids s s') (hids : ∀ id, id ∈ ids ↔ id ∈ ids')
    (hclock : ∀ id ∈ ids, clock id = clock' id) : Updated status allowed clock' ids' s s' := by
  refine ⟨fun id => ?_, fun p => ?_⟩
  · rw [h.row]
    by_cases hid : id ∈ ids
    · rw [if_pos hid, if_pos ((hids id).mp hid), hclock id hid]
    · rw [if_neg hid, if_neg fun h' => hid ((hids id).mpr h')]
  · simp only [h.openPairs, hids]

/-- What is allowed after some rows have been given the status is what they have now. -/
theorem allows_or (h : Updated status allowed clock ids s s₁) (id : MatchId) :
    (decide (id ∈ ids ++ ids') && s.allows allowed id) =
      ((decide (id ∈ ids) && s.allows allowed id) ||
        (decide (id ∈ ids') && s₁.allows allowed id)) := by
  unfold allows
  rw [h.row]
  by_cases hid : id ∈ ids
  · cases hr : s.row? id with
    | none => simp
    | some r =>
        by_cases hallowed : r.status ∈ allowed
        · simp [hid, hallowed]
        · simp [hallowed, Proposal.given_of_not_mem hallowed]
  · simp [hid]

/-- First some rows are given the status, and then others, or the same again. -/
theorem trans (h : Updated status allowed clock ids s s₁)
    (h' : Updated status allowed clock' ids' s₁ s') : Updated status allowed
      (fun id => if id ∈ ids' ∧ s₁.allows allowed id then clock' id else clock id) (ids ++ ids')
      s s' := by
  refine ⟨fun id => ?_, fun p => ?_⟩
  · rw [h'.row]
    by_cases hid' : id ∈ ids'
    · rw [if_pos hid', if_pos (List.mem_append_right _ hid'), allows, h.row]
      simp only [hid', true_and]
      cases s.row? id with
      | none => simp
      | some r =>
          by_cases hid : id ∈ ids
          · simp only [if_pos hid, Option.map_some, Option.any_some, decide_eq_true_eq]
            rw [Proposal.given_given]
          · simp only [if_neg hid, Option.map_some, Option.any_some, decide_eq_true_eq]
            by_cases hallowed : r.status ∈ allowed
            · rw [if_pos hallowed]
            · rw [Proposal.given_of_not_mem hallowed, Proposal.given_of_not_mem hallowed]
    · simp [hid', h.row]
  · rw [h'.openPairs, h.openPairs, Option.filter_filter]
    congr 1
    funext id
    rw [h.allows_or]
    cases status.isTerminal <;> simp

/-- The same at one time: then it does not matter which rows are written twice. -/
theorem append {now : Time.Instant} (h : Updated status allowed (fun _ => now) ids s s₁)
    (h' : Updated status allowed (fun _ => now) ids' s₁ s') :
    Updated status allowed (fun _ => now) (ids ++ ids') s s' :=
  (h.trans h').congr (fun _ => Iff.rfl) fun _ _ => ite_self _

/-- A row that cannot be given the status. -/
theorem single_of_not (hnot : s.allows allowed id = false) (hc : s'.contents = s.contents) :
    Updated status allowed clock [id] s s' := by
  obtain ⟨hrows, hpairs⟩ := contents_eq_iff.mp hc
  refine ⟨fun id' => ?_, fun p => ?_⟩
  · have hrow : s'.row? id' = s.row? id' := congrArg (fun rows => rows.find? id') hrows
    rw [hrow]
    by_cases hid : id' ∈ [id]
    · obtain rfl := List.mem_singleton.mp hid
      rw [if_pos hid]
      unfold allows at hnot
      cases hr : s.row? id' with
      | none => rfl
      | some r =>
          rw [hr] at hnot
          rw [Option.map_some, Proposal.given_of_not_mem (by simpa using hnot)]
    · rw [if_neg hid]
  · rw [hpairs]
    cases hp : s.openPairs.find? p with
    | none => rfl
    | some id' =>
        by_cases hid : id' = id
        · simp [hid, hnot, Option.filter]
        · simp [hid, Option.filter]

/-- A row that is given the status. -/
theorem single (hleads : s.LeadsOpen) (hr : s.row? id = some r) (hid : r.id = id)
    (hallowed : r.status ∈ allowed)
    (hc : s'.contents = s.contents.writeRow { r with status, updatedAt := clock id }) :
    Updated status allowed clock [id] s s' := by
  have hallows : s.allows allowed id = true := by
    rw [allows, hr]
    simpa using hallowed
  set r' : Proposal := { r with status, updatedAt := clock id } with hr'
  have hrow : s'.row? = Function.update s.row? id (some r') := by
    have hwritten := row?_writeRow s.contents r'
    rw [← hc, row?_contents, row?_contents] at hwritten
    rw [hwritten]
    exact congrArg (fun x => Function.update s.row? x _) hid
  refine ⟨fun id' => ?_, fun p => ?_⟩
  · rw [hrow]
    by_cases hid' : id' = id
    · subst hid'
      rw [Function.update_self, if_pos (List.mem_singleton_self _), hr, Option.map_some,
        Proposal.given_of_mem hallowed]
    · rw [Function.update_of_ne hid', if_neg (fun h => hid' (List.mem_singleton.mp h))]
  · have hpair : s'.openPairs.find? p = if p = r.pair ∧ status.isTerminal = true ∧
        s.openPairs.find? p = some r.id then none else s.openPairs.find? p := by
      have hwritten := find?_openPairs_writeRow s.contents r' p
      rw [← hc] at hwritten
      exact hwritten
    rw [hpair]
    cases hp : s.openPairs.find? p with
    | none => simp [Option.filter]
    | some id' =>
        by_cases hid' : id' = id
        · -- the pair leads to the row, so it is the row's own
          subst hid'
          obtain ⟨b, hb, -, hbp⟩ := hleads p id' hp
          obtain rfl := Option.some.inj (hr.symm.trans hb)
          cases status.isTerminal <;> simp [hbp, hid, hallows, Option.filter]
        · have hne : ¬some id' = some r.id := fun h => hid' ((Option.some.inj h).trans hid)
          simp [hne, hid', Option.filter]

/-- Two batch updates of the same rows differ in the times that they have written only. -/
theorem agree (h : Updated status allowed clock ids s s₁)
    (h' : Updated status allowed clock' ids s s₂) :
    (∀ id, (s₁.row? id).map Proposal.undated = (s₂.row? id).map Proposal.undated) ∧
      ∀ p, s₁.openPairs.find? p = s₂.openPairs.find? p := by
  refine ⟨fun id => ?_, fun p => (h.openPairs p).trans (h'.openPairs p).symm⟩
  rw [h.row, h'.row]
  split
  · cases s.row? id with
    | none => rfl
    | some r => simp only [Option.map_some, Proposal.undated_given]
  · rfl

end Updated

/-! ### One row -/

section

variable (s : Store) (id : MatchId) (status : Status) (allowed : List Status) (now : Time.Instant)

/-- To write one row is nobody else's concern. -/
theorem updateRow_rest : (s.updateRow id status allowed now).2.transactions = s.transactions ∧
    (s.updateRow id status allowed now).2.nextTicket = s.nextTicket ∧
    (s.updateRow id status allowed now).2.offline = s.offline ∧
    (s.updateRow id status allowed now).2.locks.waiting = s.locks.waiting := by
  cases hr : s.row? id with
  | none =>
      rw [updateRow_of_none hr, forgetLockIfAbsent]
      split <;> exact ⟨rfl, rfl, rfl, rfl⟩
  | some r =>
      by_cases hallowed : r.status ∈ allowed
      · rw [updateRow_of_mem hr hallowed]
        have hrest := sameRest_writeRow s { r with status, updatedAt := now }
        exact ⟨hrest.transactions, hrest.nextTicket, hrest.offline,
          congrArg RowLocks.waiting hrest.locks⟩
      · rw [updateRow_of_not_mem hr hallowed]
        exact ⟨rfl, rfl, rfl, rfl⟩

variable {s}

/-- What is made of the row, and what is said about it. -/
theorem updated_updateRow (hleads : s.LeadsOpen) (hfiled : s.Filed) :
    (s.updateRow id status allowed now).1 = s.allows allowed id ∧
      s.Updated status allowed (fun _ => now) [id] (s.updateRow id status allowed now).2 ∧
      (s.updateRow id status allowed now).2.LeadsOpen ∧
      (s.updateRow id status allowed now).2.Filed := by
  have kept {s' : Store} (hallows : s.allows allowed id = false) (hc : s'.contents = s.contents) :
      false = s.allows allowed id ∧ s.Updated status allowed (fun _ => now) [id] s' ∧
        s'.LeadsOpen ∧ s'.Filed := by
    obtain ⟨hrows, hpairs⟩ := contents_eq_iff.mp hc
    have hrow : s'.row? = s.row? := congrArg Table.find? hrows
    refine ⟨hallows.symm, .single_of_not hallows hc, hleads.congr (congrFun hrow) fun p => ?_, ?_⟩
    · rw [hpairs]
    · intro id r hr
      rw [hrow] at hr
      exact hfiled id r hr
  cases hr : s.row? id with
  | none =>
      rw [updateRow_of_none hr]
      exact kept (by rw [allows, hr]; rfl) (contents_forgetLockIfAbsent s id)
  | some r =>
      by_cases hallowed : r.status ∈ allowed
      · rw [updateRow_of_mem hr hallowed]
        have hid := hfiled id r hr
        refine ⟨?_, .single hleads hr hid hallowed (contents_writeRow s _), ?_, ?_⟩
        · rw [allows, hr]
          simpa using hallowed
        · exact hleads.writeRow ⟨r, (congrArg s.row? hid).trans hr, rfl⟩
        · exact hfiled.update (row?_writeRow s _)
      · rw [updateRow_of_not_mem hr hallowed]
        refine kept ?_ rfl
        rw [allows, hr]
        simpa using hallowed

end

namespace Steady

variable {s s' : Store} {t : Ticket} {id : MatchId}

/-- A table is steady as long as its rows and pairs are the same, and the lines are in order. -/
theorem congr_contents (h : s.Steady) (hqueued : Queued s') (hc : s'.contents = s.contents) :
    s'.Steady := by
  obtain ⟨hrows, hpairs⟩ := contents_eq_iff.mp hc
  have hrow : ∀ id, s'.row? id = s.row? id := fun id => congrArg (fun rows => rows.find? id) hrows
  refine ⟨hqueued, fun id r hr => h.filed id r ?_, h.leads.congr hrow fun p => ?_⟩
  · rw [← hrow, hr]
  · rw [hpairs]

/-- What comes of one row of a batch update: it waits for somebody else who is in line for the row,
or the row is given the status if its own is allowed. -/
theorem updateRow_cases (h : s.Steady) (hopen : ¬s.IsOpen t) (hlt : t < s.nextTicket)
    (hask : s.MayAsk t id) (m : Moment) (status : Status) (allowed : List Status) :
    (∃ s', perform m (.updateRow t id status allowed) s = .wait s' ∧ s'.contents = s.contents ∧
      s'.Steady ∧ Spares t s s' ∧ ¬s'.IsOpen t ∧ (∃ l, s'.locks.waiting.find? t = some (id, l)) ∧
      ∃ u l, u ≠ t ∧ s.locks.InLine s.held u id l) ∨
    (∃ s', perform m (.updateRow t id status allowed) s = .answer (s.allows allowed id) s' ∧
      s.Updated status allowed (fun _ => m.now) [id] s' ∧ s'.Steady ∧ Spares t s s' ∧
      s'.Idle t) := by
  have hqueued := h.queued.updateRow hopen hlt hask m status allowed
  obtain ⟨rowOf, lines⟩ := h.queued.linesOK
  have hheld : ∀ x ∈ s.held t, x.1 ≠ id := by
    rw [s.held_of_not_isOpen hopen]
    exact nofun
  have hasked := lines.request hask hheld
  have hothers := fun u => LinesOK.waiting_request s.locks (t := t) (u := u) id
  rcases hreq : s.locks.request t id with ⟨_ | l, locks⟩
  · rw [hreq] at hasked hothers
    have hwaits : perform m (.updateRow t id status allowed) s = .wait { s with locks } :=
      s.updateLocked_waits hreq
    rw [hwaits] at hqueued
    exact .inl ⟨_, hwaits, rfl, h.congr_contents hqueued rfl, .ofLocks hothers, hopen, hasked.1,
      lines.others_of_not_granted hask hheld (by rw [hreq])⟩
  · rw [hreq] at hasked hothers
    have hanswer : perform m (.updateRow t id status allowed) s = _ := s.updateLocked_granted hreq
    rw [hanswer] at hqueued
    have hleads : LeadsOpen { s with locks } := h.leads
    have hfiled : Filed { s with locks } := h.filed
    obtain ⟨hreply, hupdated, hleads', hfiled'⟩ :=
      updated_updateRow id status allowed m.now hleads hfiled
    obtain ⟨htransactions, hnext, hoffline, hwaiting⟩ :=
      updateRow_rest { s with locks } id status allowed m.now
    generalize Store.updateRow { s with locks } id status allowed m.now = written at *
    obtain ⟨changed, s'⟩ := written
    have hisOpen : ∀ u, s'.IsOpen u ↔ s.IsOpen u := fun u => by
      unfold Store.IsOpen
      rw [htransactions]
    refine .inr ⟨{ s' with locks := s'.locks.leave l t }, hreply ▸ hanswer,
      hupdated.congr_contents rfl rfl, ⟨hqueued, hfiled', hleads'⟩, ?_, ?_⟩
    · exact ⟨Nat.le_of_eq hnext.symm, hoffline,
        fun u _ => congrArg (fun ts => (ts.find? u).getD {}) htransactions, fun u _ => hisOpen u,
        fun u hu => (congrArg (fun ws => ws.find? u) hwaiting).trans (hothers u hu)⟩
    · exact ⟨fun ho => hopen ((hisOpen t).mp ho),
        (congrArg (fun ws => ws.find? t) hwaiting).trans hasked.1⟩

end Steady

end Store
end Dispatch
