/-
An operation alone.

While nobody else is there a call is never made to wait, and so an operation runs to its end.
What it returns, and what it makes of the rows, is then said by the rows alone.  Confirming looks
at one row: it is missing, or a rule is broken, or the row is written.  Rejecting closes the rows
that are open and have the driver or the passenger in common with the accepted one.

The proofs go through the stages from the last one back to the first.
-/
import Dispatch.Proofs.Matching.Orderly

namespace Dispatch

open Store

/-! ### What is made of a row -/

/-- What a confirmation returns, given the row. -/
def Confirming.answer (q : Confirming) (now : Time.Instant) :
    Option Proposal → Except ServiceError Proposal
  | none => .error (.store (.notFound q.id))
  | some r =>
    match r.refusal? q.user q.role with
    | some e => .error (.refused e)
    | none => .ok (r.confirmedBy q.role now)

/-- What a confirmation makes of the row. -/
def Confirming.onRow (q : Confirming) (now : Time.Instant) (row : Option Proposal) :
    Option Proposal :=
  match q.answer now row with
  | .ok r => some r
  | .error _ => row

/-- What a rejection makes of a proposal. -/
def Proposal.closedAt (now : Time.Instant) (r : Proposal) : Proposal :=
  if r.isOpen then r.rejectedAt now else r

section Answer

variable {q : Confirming} {now : Time.Instant} {r : Proposal}

theorem Confirming.answer_of_refusal {e : Refusal} (he : r.refusal? q.user q.role = some e)
    (now : Time.Instant) : q.answer now (some r) = .error (.refused e) := by
  simp only [answer, he]

theorem Confirming.answer_of_no_refusal (he : r.refusal? q.user q.role = none)
    (now : Time.Instant) : q.answer now (some r) = .ok (r.confirmedBy q.role now) := by
  simp only [answer, he]

theorem Confirming.exists_of_answer {row : Option Proposal} (h : q.answer now row = .ok r) :
    ∃ p, row = some p ∧ p.refusal? q.user q.role = none ∧ r = p.confirmedBy q.role now := by
  cases row with
  | none => cases h
  | some p =>
      cases he : p.refusal? q.user q.role with
      | some e => rw [answer_of_refusal he] at h; cases h
      | none =>
          rw [answer_of_no_refusal he] at h
          exact ⟨p, rfl, he, (Except.ok.inj h).symm⟩

/-- A confirmation that breaks a rule is forbidden, or comes too late, or has been made before. -/
theorem Proposal.kind_of_refusal? {user : ActorId} {role : Role} {e : Refusal}
    (h : r.refusal? user role = some e) :
    e.kind ∈ [.forbidden, .invalidState, .alreadyConfirmed] := by
  unfold Proposal.refusal? at h
  split at h
  · cases h
    exact .head _
  · split at h
    · cases h
      exact .tail _ (.head _)
    · split at h
      · cases h
        exact .tail _ (.tail _ (.head _))
      · cases h

/-- Besides, the row can be missing; no other error comes of the row. -/
theorem Confirming.kind_of_answer {row : Option Proposal} {e : ServiceError}
    (h : q.answer now row = .error e) :
    e.kind ∈ [.notFound, .forbidden, .invalidState, .alreadyConfirmed] := by
  cases row with
  | none =>
      obtain rfl := Except.error.inj h
      exact .head _
  | some p =>
      cases hp : p.refusal? q.user q.role with
      | some x =>
          rw [answer_of_refusal hp] at h
          obtain rfl := Except.error.inj h
          exact .tail _ (Proposal.kind_of_refusal? hp)
      | none =>
          rw [answer_of_no_refusal hp] at h
          cases h

theorem Confirming.onRow_of_ok {row : Option Proposal} {r : Proposal}
    (h : q.answer now row = .ok r) : q.onRow now row = some r := by
  simp only [onRow, h]

theorem Confirming.onRow_of_error {row : Option Proposal} {e : ServiceError}
    (h : q.answer now row = .error e) : q.onRow now row = row := by
  simp only [onRow, h]

theorem Proposal.closedAt_of_isOpen (h : r.isOpen = true) : r.closedAt now = r.rejectedAt now :=
  if_pos h

theorem Proposal.closedAt_of_not_isOpen (h : r.isOpen = false) : r.closedAt now = r :=
  if_neg (by simp [h])

/-- What is rejected twice is rejected once. -/
theorem Proposal.closedAt_closedAt : (r.closedAt now).closedAt now = r.closedAt now := by
  cases h : r.isOpen with
  | true => rw [closedAt_of_isOpen h]; rfl
  | false => rw [closedAt_of_not_isOpen h, closedAt_of_not_isOpen h]

end Answer

/-! ### Which rows compete -/

theorem mem_sortedIds {ids : List MatchId} {id : MatchId} : id ∈ sortedIds ids ↔ id ∈ ids := by
  rw [sortedIds, List.mem_eraseDups, List.mem_mergeSort]

theorem nodup_eraseDups {α : Type} [DecidableEq α] (l : List α) : l.eraseDups.Nodup := by
  induction h : l.length using Nat.strongRecOn generalizing l with
  | ind n ih =>
      cases l with
      | nil => simp
      | cons a l =>
          rw [List.eraseDups_cons, List.nodup_cons]
          refine ⟨by simp [List.mem_eraseDups], ih _ ?_ _ rfl⟩
          have hle := List.length_filter_le (fun b => !b == a) l
          rw [List.length_cons] at h
          omega

theorem nodup_sortedIds (ids : List MatchId) : (sortedIds ids).Nodup := nodup_eraseDups _

theorem mem_rowsOf {s : Store} {actor : ActorId} {role : Role} {p : Proposal} :
    p ∈ s.rowsOf actor role ↔ p.party role = actor ∧ ∃ id, s.row? id = some p := by
  have hrow : ∀ id, s.row? id = some p ↔ (id, p) ∈ s.rows.entries :=
    fun id => s.rows.find?_eq_some_iff
  simp [rowsOf, Table.values, hrow, and_comm]

theorem mem_competitors {accepted id : MatchId} {ps : List Proposal} :
    id ∈ Matching.competitors accepted ps ↔
      ∃ p ∈ ps, p.id ≠ accepted ∧ p.isOpen = true ∧ p.id = id := by
  simp [Matching.competitors, and_assoc]

/-- The competitors, if nothing happens while they are listed. -/
theorem Stage.mem_competing {s : Store} (hfiled : ∀ id r, s.row? id = some r → r.id = id)
    {q : Rejecting} {id : MatchId} :
    id ∈ Stage.competing s q (s.rowsOf q.driver .driver) ↔
      id ≠ q.accepted ∧ ∃ r, s.row? id = some r ∧ r.isOpen = true ∧
        (r.driverId = q.driver ∨ r.passengerId = q.passenger) := by
  rw [competing, mem_sortedIds, List.mem_append, mem_competitors, mem_competitors]
  constructor
  · intro h
    rcases h with ⟨p, hp, hne, hopen, rfl⟩ | ⟨p, hp, hne, hopen, rfl⟩
    · obtain ⟨hparty, id, hr⟩ := mem_rowsOf.1 hp
      exact ⟨hne, p, by rw [hfiled _ _ hr]; exact hr, hopen, Or.inl hparty⟩
    · obtain ⟨hparty, id, hr⟩ := mem_rowsOf.1 hp
      exact ⟨hne, p, by rw [hfiled _ _ hr]; exact hr, hopen, Or.inr hparty⟩
  · rintro ⟨hne, r, hr, hopen, hparty⟩
    have hid := hfiled _ _ hr
    refine hparty.imp (fun hd => ?_) (fun hp => ?_)
    · exact ⟨r, mem_rowsOf.2 ⟨hd, id, hr⟩, hid ▸ hne, hopen, hid⟩
    · exact ⟨r, mem_rowsOf.2 ⟨hp, id, hr⟩, hid ▸ hne, hopen, hid⟩

/-! ### To the end, with nobody else there -/

namespace Stage

variable {s : Store} {o : Operation} {g : Stage} {m : Moment}

/-- Somebody is at a stage of his operation, and nobody else is there. -/
structure Lone (o : Operation) (g : Stage) (s : Store) : Prop where
  of : Of o g
  holds : g.holding.Holds s
  ok : StoreOK s
  present : s.Present
  online : s.offline = false
  idle : ∀ t, g.holding.ticket? ≠ some t → s.Idle t

/-- From a stage the program runs to its end, and leaves nothing behind. -/
structure Ends (m : Moment) (g : Stage) (l : Ledger) (r : Outcome) (l' : Ledger) : Prop where
  run : g.program.run (Ledger.perform m) l = (.done r, l')
  quiet : l'.store.Quiet
  online : l'.store.offline = false

namespace Lone

theorem of_quiet (h : s.Quiet) (hon : s.offline = false) (o : Operation) :
    Lone o (first o) s where
  of := of_first o
  holds := by rw [holding_first]; trivial
  ok := h.ok
  present := h.present
  online := hon
  idle t _ := h.idle t

theorem reachable (h : Lone o g s) : ¬ s.offline = true := by simp [h.online]

theorem alone (h : Lone o g s) : s.Alone (g.actor s) := by
  intro u hu
  refine h.idle u fun ht => hu ?_
  unfold actor
  rw [ht]
  rfl

/-- The next call is answered. -/
theorem next (h : Lone o g s) (hins : ∀ d t, g ≠ .inserting d t) (m : Moment) (k : Metrics) :
    ∃ g' s' k', Goes s m g g' s' ∧ Lone o g' s' ∧
      g.program.run (Ledger.perform m) ⟨s, k⟩ = g'.program.run (Ledger.perform m) ⟨s', k'⟩ := by
  obtain ⟨g', s', k', step⟩ := exists_step (m := m) h.ok h.present
    (fun d t hg => absurd hg (hins d t)) h.of h.holds k
  refine ⟨g', s', k', step.goes, ?_, step.called.run h.alone⟩
  refine ⟨step.of, step.holds, step.advance.ok, step.advance.present,
    step.advance.offline.trans h.online, fun t ht => ?_⟩
  by_cases hact : t = g.actor s
  · subst hact
    refine step.idle ?_
    cases hg' : g'.holding.ticket? with
    | none => rfl
    | some u => exact absurd (step.ticket u hg' ▸ hg') ht
  · exact step.advance.idle hact (h.alone t hact)

theorem ends_finished {r : Outcome} (h : Lone o (.finished r) s) (k : Metrics) :
    Ends m (.finished r) ⟨s, k⟩ r ⟨s, k⟩ := ⟨rfl, ⟨h.ok, fun t => h.idle t nofun⟩, h.online⟩

theorem ends_counting {obs : Observation} {r : Outcome} (h : Lone o (.counting obs r) s)
    (k : Metrics) : Ends m (.counting obs r) ⟨s, k⟩ r ⟨s, k.record obs⟩ :=
  ⟨rfl, ⟨h.ok, fun t => h.idle t nofun⟩, h.online⟩

end Lone

theorem Ends.of_run {g' : Stage} {l l' l'' : Ledger} {r : Outcome} (h : Ends m g' l' r l'')
    (hrun : g.program.run (Ledger.perform m) l = g'.program.run (Ledger.perform m) l') :
    Ends m g l r l'' := ⟨hrun.trans h.run, h.quiet, h.online⟩

/-! ### Confirming -/

section Confirming

variable {q : Confirming} {t : Ticket} {r : Proposal}

theorem ends_dropping {h : Holding} {e : ServiceError} (hl : Lone o (.dropping q t h e) s)
    (k : Metrics) : ∃ l', Ends m (.dropping q t h e) ⟨s, k⟩ (.proposal (.error e)) l' ∧
      l'.store.row? = s.row? := by
  obtain ⟨g', s', k', hgoes, hl', hrun⟩ := hl.next nofun m k
  cases hgoes with
  | unreachable _ hoff => exact absurd hoff hl.reachable
  | dropped _ _ _ _ hrow => exact ⟨_, (hl'.ends_counting k').of_run hrun, hrow⟩

theorem ends_closing {now : Time.Instant} (hl : Lone o (.closing q t r now) s) (k : Metrics) :
    ∃ l', Ends m (.closing q t r now) ⟨s, k⟩ (.proposal (.ok (r.confirmedBy q.role now))) l' ∧
      l'.store.row? = Function.update s.row? q.id (some (r.confirmedBy q.role now)) := by
  obtain ⟨g', s', k', hgoes, hl', hrun⟩ := hl.next nofun m k
  cases hgoes with
  | unreachable _ hoff => exact absurd hoff hl.reachable
  | closed _ _ _ _ _ _ hrow => exact ⟨_, (hl'.ends_counting k').of_run hrun, hrow⟩

theorem ends_rereading {now : Time.Instant} (hl : Lone o (.rereading q t r now) s) (k : Metrics) :
    ∃ l', Ends m (.rereading q t r now) ⟨s, k⟩ (.proposal (.ok (r.confirmedBy q.role now))) l' ∧
      l'.store.row? = Function.update s.row? q.id (some (r.confirmedBy q.role now)) := by
  obtain ⟨g', s', k', hgoes, hl', hrun⟩ := hl.next nofun m k
  cases hgoes with
  | unreachable _ hoff => exact absurd hoff hl.reachable
  | reread _ _ _ _ =>
      obtain ⟨l', hend, hrow⟩ := ends_closing (m := m) hl' k'
      exact ⟨l', hend.of_run hrun, hrow⟩

theorem ends_updating (hl : Lone o (.updating q t r) s) (k : Metrics) :
    ∃ l', Ends m (.updating q t r) ⟨s, k⟩ (.proposal (.ok (r.confirmedBy q.role m.now))) l' ∧
      l'.store.row? = Function.update s.row? q.id (some (r.confirmedBy q.role m.now)) := by
  obtain ⟨g', s', k', hgoes, hl', hrun⟩ := hl.next nofun m k
  cases hgoes with
  | unreachable _ hoff => exact absurd hoff hl.reachable
  | updated _ _ _ hrow' =>
      obtain ⟨l', hend, hrow⟩ := ends_rereading (m := m) hl' k'
      exact ⟨l', hend.of_run hrun, by rw [hrow, hrow']⟩

theorem ends_asking (hl : Lone o (.asking q t) s) (k : Metrics) :
    ∃ l', Ends m (.asking q t) ⟨s, k⟩ (.proposal (q.answer m.now (s.row? q.id))) l' ∧
      l'.store.row? = Function.update s.row? q.id (q.onRow m.now (s.row? q.id)) := by
  obtain ⟨g', s', k', hgoes, hl', hrun⟩ := hl.next nofun m k
  cases hgoes with
  | unreachable _ hoff => exact absurd hoff hl.reachable
  | waits _ _ _ halone _ => exact absurd hl.alone halone
  | missing _ _ hr _ hrow' =>
      obtain ⟨l', hend, hrow⟩ := ends_dropping (m := m) hl' k'
      have hanswer : q.answer m.now (s.row? q.id) = .error (.store (.notFound q.id)) := by rw [hr]; rfl
      rw [hanswer, Confirming.onRow_of_error hanswer, Function.update_eq_self]
      exact ⟨l', hend.of_run hrun, hrow.trans hrow'⟩
  | refused _ _ hr he _ hrow' =>
      obtain ⟨l', hend, hrow⟩ := ends_dropping (m := m) hl' k'
      have hanswer := hr ▸ Confirming.answer_of_refusal he m.now
      rw [hanswer, Confirming.onRow_of_error hanswer, Function.update_eq_self]
      exact ⟨l', hend.of_run hrun, hrow.trans hrow'⟩
  | read _ _ hr he _ hrow' =>
      obtain ⟨l', hend, hrow⟩ := ends_updating (m := m) hl' k'
      have hanswer := hr ▸ Confirming.answer_of_no_refusal he m.now
      rw [hanswer, Confirming.onRow_of_ok hanswer]
      exact ⟨l', hend.of_run hrun, by rw [hrow, hrow']⟩

/-- **Confirming alone** returns what the row says, and writes the row. -/
theorem ends_starting (hl : Lone o (.starting q) s) (k : Metrics) :
    ∃ l', Ends m (.starting q) ⟨s, k⟩ (.proposal (q.answer m.now (s.row? q.id))) l' ∧
      l'.store.row? = Function.update s.row? q.id (q.onRow m.now (s.row? q.id)) := by
  obtain ⟨g', s', k', hgoes, hl', hrun⟩ := hl.next nofun m k
  cases hgoes with
  | unreachable _ hoff => exact absurd hoff hl.reachable
  | started _ hrow' =>
      obtain ⟨l', hend, hrow⟩ := ends_asking (m := m) hl' k'
      rw [← hrow']
      exact ⟨l', hend.of_run hrun, hrow⟩

end Confirming

/-! ### Rejecting -/

section Rejecting

variable {q : Rejecting} {t : Ticket} {n : Nat}

/-- The rows after some of them have been rejected. -/
def Rejected (ids : List MatchId) (now : Time.Instant) (s s' : Store) : Prop :=
  ∀ id, s'.row? id = if id ∈ ids then (s.row? id).map (Proposal.closedAt now) else s.row? id

theorem Rejected.cons {ids : List MatchId} {id : MatchId} {now : Time.Instant} {s s' s'' : Store}
    (h : Rejected [id] now s s') (h' : Rejected ids now s' s'') :
    Rejected (id :: ids) now s s'' := by
  intro x
  have htwice : ∀ row : Option Proposal, (row.map (Proposal.closedAt now)).map
      (Proposal.closedAt now) = row.map (Proposal.closedAt now) := by
    intro row
    cases row with
    | none => rfl
    | some r => exact congrArg some Proposal.closedAt_closedAt
  rw [h' x, h x]
  by_cases hx : x = id <;> by_cases hids : x ∈ ids <;> simp [hx, hids, htwice]

theorem ends_rejecting {ids : List MatchId} (hl : Lone o (.rejecting q t ids n) s) (k : Metrics) :
    ∃ n' l', Ends m (.rejecting q t ids n) ⟨s, k⟩ (.rejections (.ok n')) l' ∧
      Rejected ids m.now s l'.store := by
  induction ids generalizing n s k with
  | nil =>
      obtain ⟨g', s', k', hgoes, hl', hrun⟩ := hl.next nofun m k
      cases hgoes with
      | unreachable _ hoff => exact absurd hoff hl.reachable
      | rejectedAll _ _ _ =>
          exact ⟨n, _, (hl'.ends_finished k').of_run hrun, fun id => by simp⟩
  | cons id ids ih =>
      obtain ⟨g', s', k', hgoes, hl', hrun⟩ := hl.next nofun m k
      cases hgoes with
      | unreachable _ hoff => exact absurd hoff hl.reachable
      | waitsToReject _ _ _ _ _ _ halone _ => exact absurd hl.alone halone
      | passed _ _ _ _ _ hclosed _ _ hrow =>
          obtain ⟨n', l', hend, hrows⟩ := ih hl' k'
          refine ⟨n', l', hend.of_run hrun, Rejected.cons (fun x => ?_) hrows⟩
          rw [hrow]
          by_cases hx : x = id
          · subst hx
            cases hr : s.row? x with
            | none => simp
            | some r => simp [Proposal.closedAt_of_not_isOpen (hclosed r hr)]
          · simp [hx]
      | rejected _ _ _ _ _ hr hopen _ _ hrow =>
          obtain ⟨n', l', hend, hrows⟩ := ih hl' k'
          refine ⟨n', l', hend.of_run hrun, Rejected.cons (fun x => ?_) hrows⟩
          rw [hrow]
          by_cases hx : x = id
          · subst hx
            simp [hr, Proposal.closedAt_of_isOpen hopen]
          · simp [hx]

theorem ends_opening {ids : List MatchId} (hl : Lone o (.opening q ids) s) (k : Metrics) :
    ∃ n l', Ends m (.opening q ids) ⟨s, k⟩ (.rejections (.ok n)) l' ∧
      Rejected ids m.now s l'.store := by
  obtain ⟨g', s', k', hgoes, hl', hrun⟩ := hl.next nofun m k
  cases hgoes with
  | unreachable _ hoff => exact absurd hoff hl.reachable
  | opened _ _ hrow =>
      obtain ⟨n, l', hend, hrows⟩ := ends_rejecting (m := m) hl' k'
      refine ⟨n, l', hend.of_run hrun, fun id => ?_⟩
      rw [hrows id, hrow]
      simp [mem_sortedIds]

theorem ends_listingRidden {driven : List Proposal} (hl : Lone o (.listingRidden q driven) s)
    (k : Metrics) : ∃ n l', Ends m (.listingRidden q driven) ⟨s, k⟩ (.rejections (.ok n)) l' ∧
      Rejected (competing s q driven) m.now s l'.store := by
  obtain ⟨g', s', k', hgoes, hl', hrun⟩ := hl.next nofun m k
  cases hgoes with
  | unreachable _ hoff => exact absurd hoff hl.reachable
  | noneListed _ _ hnone =>
      exact ⟨0, _, (hl'.ends_finished k').of_run hrun, fun id => by simp [hnone]⟩
  | listedRidden _ _ _ =>
      obtain ⟨n, l', hend, hrows⟩ := ends_opening (m := m) hl' k'
      exact ⟨n, l', hend.of_run hrun, hrows⟩

/-- **Rejecting alone** closes all that competes with an accepted proposal. -/
theorem ends_checking (hl : Lone o (.checking q) s) {a : Proposal} (ha : s.row? q.accepted = some a)
    (hacc : a.status = .accepted) (k : Metrics) :
    ∃ n l', Ends m (.checking q) ⟨s, k⟩ (.rejections (.ok n)) l' ∧
      Rejected (competing s q (s.rowsOf q.driver .driver)) m.now s l'.store := by
  obtain ⟨g', s', k', hgoes, hl', hrun⟩ := hl.next nofun m k
  cases hgoes with
  | unreachable _ hoff => exact absurd hoff hl.reachable
  | notChecked _ _ hnot => exact absurd hacc (hnot a ha)
  | checked _ _ _ =>
      obtain ⟨g'', s'', k'', hgoes, hl'', hrun'⟩ := hl'.next nofun m k'
      cases hgoes with
      | unreachable _ hoff => exact absurd hoff hl.reachable
      | listedDriven _ =>
          obtain ⟨n, l', hend, hrows⟩ := ends_listingRidden (m := m) hl'' k''
          exact ⟨n, l', (hend.of_run hrun').of_run hrun, hrows⟩

end Rejecting

end Stage
end Dispatch
