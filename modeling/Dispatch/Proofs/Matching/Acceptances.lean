/-
Acceptances, one after the other.

The worker takes the events of accepted proposals from the queue and rejects what competes with each.
Which rows an event finds open depends on the events before it, and so does the number of rows that
are rejected because of it.  But nothing else depends on the order, or on how often an event comes: in
the end all rows that compete with any of the accepted proposals have been rejected, each one because
of the first event that it competes with, and the total is their number.

The rows that compete with some event are the same before and after a rejection, but for those that
have been rejected (`Store.Rejected.competes_iff`), and an accepted row is never among them.  So the
events are handled one by one, and what is still to be done shrinks by what has been done.
-/
import Dispatch.Proofs.Matching.Competitors
import Dispatch.Proofs.Matching.Sweep
import Dispatch.Service.Background

namespace Dispatch

open Store

namespace Matching

/-- Rejects what competes with each of some accepted proposals in turn.  An error does not stop it.
How many proposals have been rejected. -/
def rejectEach : List Accepted → Program MatchCall.Reply Nat
  | [] => .done 0
  | e :: rest => (rejectCompeting e.matchId e.driverId e.passengerId).bind fun r =>
    (rejectEach rest).bind fun n => .done (r.toOption.getD 0 + n)

/-- This is what the worker does about some events, but for the total. -/
theorem handle_each (es : List Accepted) :
    es.foldr (fun e rest => (Service.handle e).bind fun _ => rest) (.done ())
      = (Service.onMatches (rejectEach es)).bind fun _ => .done () := by
  induction es with
  | nil => rfl
  | cons e rest ih =>
      rw [List.foldr_cons, ih, rejectEach]
      unfold Service.handle Service.onMatches
      rw [Program.bind_assoc, Program.lift_bind, Program.bind_assoc]
      refine congrArg _ (funext fun r => ?_)
      rw [Program.bind_done, Program.lift_bind, Program.bind_assoc]
      rfl

variable {s : Store} {es es' : List Accepted}

/-- Some rows are those that compete with an accepted proposal. -/
theorem exists_competing (s : Store) (es : List Accepted) : ∃ ids : List MatchId, ids.Nodup ∧
    ∀ id, id ∈ ids ↔ ∃ e ∈ es, e.rejecting.Competes s id := by
  classical
  refine ⟨s.rows.keys.filter fun id => ∃ e ∈ es, e.rejecting.Competes s id,
    s.rows.nodup_keys.filter _, fun id => ?_⟩
  rw [List.mem_filter, decide_eq_true_eq, and_iff_right_iff_imp]
  rintro ⟨e, -, -, r, hr, -⟩
  refine s.rows.mem_keys_iff.2 ?_
  change s.rows.find? id = some r at hr
  rw [hr]
  rfl

/-- **All that competes with some event is rejected.** -/
theorem sweeps_rejectEach {m : Moment} {k : Metrics} {ids : List MatchId} (hs : s.Steady)
    (hon : s.offline = false)
    (hacc : ∀ e ∈ es, ∃ a, s.row? e.matchId = some a ∧ a.status = .accepted)
    (hnodup : ids.Nodup) (hids : ∀ id, id ∈ ids ↔ ∃ e ∈ es, e.rejecting.Competes s id) :
    Sweeps m s k ids ids.length ids.length (rejectEach es) := by
  induction es generalizing s k ids with
  | nil =>
      obtain rfl : ids = [] := List.eq_nil_iff_forall_not_mem.mpr fun id hid => by
        obtain ⟨e, he, -⟩ := (hids id).1 hid
        cases he
      exact .done hs k 0
  | cons e rest ih =>
      obtain ⟨a, ha, haccepted⟩ := hacc e List.mem_cons_self
      obtain ⟨first, hfirst, hmem, hsweeps⟩ :=
        Rejecting.sweeps_rejectCompeting (q := e.rejecting) hs hon ha haccepted m k
      rw [rejectEach]
      cases hsweeps with
      | waits hid hheld hrun =>
          exact .bind_of_waits ((hids _).2 ⟨e, List.mem_cons_self, (hmem _).1 hid⟩) hheld hrun
      | @ends s' hfree hrun hrejected hs' hrest =>
          -- what is left to do is what the first event has not done
          have hleft : ∀ id, id ∈ ids.filter (fun id => id ∉ first) ↔
              ∃ e' ∈ rest, e'.rejecting.Competes s' id := fun id => by
            simp only [hrejected.competes_iff]
            rw [List.mem_filter, decide_eq_true_eq, hids]
            constructor
            · rintro ⟨⟨e', he', hc⟩, hnot⟩
              rcases List.mem_cons.mp he' with rfl | he'
              · exact absurd ((hmem id).2 hc) hnot
              · exact ⟨e', he', hc, hnot⟩
            · rintro ⟨e', he', hc, hnot⟩
              exact ⟨⟨e', List.mem_cons_of_mem _ he', hc⟩, hnot⟩
          have hacc' : ∀ e' ∈ rest, ∃ a, s'.row? e'.matchId = some a ∧ a.status = .accepted := by
            intro e' he'
            obtain ⟨a', ha', hstatus⟩ := hacc e' (List.mem_cons_of_mem _ he')
            exact ⟨a', hrejected.row?_of_accepted hmem ha' hstatus, hstatus⟩
          have hrec := ih (k := k.record (.rejections first.length)) hs' (hrest.offline.trans hon) hacc'
            (hnodup.filter _) hleft
          have hsub : first ⊆ ids := fun id hid =>
            (hids id).2 ⟨e, List.mem_cons_self, (hmem id).1 hid⟩
          have hperm : (first ++ ids.filter fun id => id ∉ first).Perm ids := by
            rw [← hnodup.sdiff_eq_filter]
            exact List.subperm_append_diff_self_of_count_le
              (List.subperm_ext_iff.1 (List.subperm_of_subset hfirst hsub))
          have htotal := hperm.length_eq
          rw [List.length_append] at htotal
          have hboth := Sweeps.bind
            (f := fun r => (rejectEach rest).bind fun n => .done (r.toOption.getD 0 + n)) hrun hfree
            hrejected hrest (hrec.map fun n => first.length + n)
          rw [htotal] at hboth
          exact hboth.perm hperm

/-- While the table cannot be reached nothing is done. -/
theorem run_rejectEach_offline (hoff : s.offline = true) (es : List Accepted) (m : Moment)
    (k : Metrics) : (rejectEach es).run (Ledger.perform m) ⟨s, k⟩ = (.done 0, ⟨s, k⟩) := by
  induction es with
  | nil => rfl
  | cons e rest ih =>
      have hrun := Rejecting.run_rejectCompeting_offline hoff e.rejecting m k
      rw [rejectEach, Program.run_bind]
      change (rejectCompeting e.matchId e.driverId e.passengerId).run _ _ = _ at hrun
      rw [hrun]
      show ((rejectEach rest).bind _).run (Ledger.perform m) ⟨s, k⟩ = _
      rw [Program.run_bind, ih]
      rfl

/-- **It does not matter in which order acceptances are handled, or how often.**  If two lists have
the same events, and all that is done for the one is done to its end, so it is for the other: the
rows, the pairs and the counts are the same, and so is the total.  If nobody holds a lock it is. -/
theorem rejectEach_congr (hs : s.Reached)
    (hacc : ∀ e ∈ es, ∃ a, s.row? e.matchId = some a ∧ a.status = .accepted)
    (hsame : ∀ e, e ∈ es ↔ e ∈ es') (m : Moment) (k : Metrics) :
    (∀ n l₁, (rejectEach es).run (Ledger.perform m) ⟨s, k⟩ = (.done n, l₁) →
      ∃ l₂, (rejectEach es').run (Ledger.perform m) ⟨s, k⟩ = (.done n, l₂) ∧
        l₂.store.rows = l₁.store.rows ∧ l₂.store.openPairs = l₁.store.openPairs ∧
        l₂.metrics = l₁.metrics) ∧
    ((∀ l, s.locks.line l = []) →
      ∃ n l₁, (rejectEach es).run (Ledger.perform m) ⟨s, k⟩ = (.done n, l₁)) := by
  cases hoff : s.offline with
  | true =>
      have hrun := fun es => run_rejectEach_offline hoff es m k
      refine ⟨fun n l₁ h => ?_, fun _ => ⟨0, _, hrun es⟩⟩
      obtain ⟨hn, rfl⟩ := Prod.mk.inj (h.symm.trans (hrun es))
      obtain rfl := Program.done.inj hn
      exact ⟨_, hrun es', rfl, rfl, rfl⟩
  | false =>
      obtain ⟨ids, hnodup, hids⟩ := exists_competing s es
      have hids' : ∀ id, id ∈ ids ↔ ∃ e ∈ es', e.rejecting.Competes s id := by
        simpa only [hsame] using hids
      have hacc' : ∀ e ∈ es', ∃ a, s.row? e.matchId = some a ∧ a.status = .accepted :=
        fun e he => hacc e ((hsame e).2 he)
      have hone := sweeps_rejectEach (m := m) (k := k) hs.steady hoff hacc hnodup hids
      have htwo := sweeps_rejectEach (m := m) (k := k) hs.steady hoff hacc' hnodup hids'
      constructor
      · intro n l₁ h
        cases hone with
        | waits hid hheld hrun => cases h.symm.trans hrun
        | ends hfree hrun hrejected hsteady hrest =>
            obtain ⟨hn, rfl⟩ := Prod.mk.inj (h.symm.trans hrun)
            obtain rfl := Program.done.inj hn
            cases htwo with
            | waits hid hheld hrun' => exact absurd (hfree _ hid) hheld
            | ends hfree' hrun' hrejected' hsteady' hrest' =>
                obtain ⟨hrows, hpairs⟩ := hrejected.tables_eq hrejected'
                exact ⟨_, hrun', hrows, hpairs, rfl⟩
      · intro hnobody
        cases hone with
        | waits hid hheld hrun => exact absurd (free_of_no_line hnobody _) hheld
        | ends hfree hrun hrejected hsteady hrest => exact ⟨_, _, hrun⟩

/-! ### A run

A second proposal of the same passenger is accepted.  The open one for the same pair as the first now
competes with both.
-/

/-- Another driver for the passenger. -/
def rival : Draft := { someDraft with driverId := "q" }

/-- The proposal that has been accepted in the end. -/
def alsoTaken : Proposal :=
  { rival.toProposal (Uuid.fresh 3) ⟨0, 0⟩ with
    status := .accepted, driverConfirmed := true, passengerConfirmed := true }

/-- The moves by which this comes about. -/
def sharingTwice : List Store.Move :=
  let m := momentOf (Uuid.fresh 3)
  sharing ++ [.call .begin m, .call (.insert 3 rival) m,
    .call (.update 3 (Uuid.fresh 3) .accepted true true) m, .call (.commit 3) m]

theorem rejectEach_congr_sharingTwice :
    let s := sharingTwice.foldl Store.after {}
    s.Reached ∧ (∀ l, s.locks.line l = []) ∧
      s.row? taken.id = some taken ∧ s.row? alsoTaken.id = some alsoTaken ∧
      ∃ n l₁ l₂,
        (rejectEach [taken.accepted, alsoTaken.accepted]).run (Ledger.perform (momentOf Uuid.nil)) ⟨s, {}⟩
          = (.done n, l₁) ∧
        (rejectEach [alsoTaken.accepted, taken.accepted, alsoTaken.accepted]).run
          (Ledger.perform (momentOf Uuid.nil)) ⟨s, {}⟩ = (.done n, l₂) ∧
        l₂.store.rows = l₁.store.rows ∧ l₂.store.openPairs = l₁.store.openPairs := by
  intro s
  have hreached : s.Reached := ⟨sharingTwice, by decide +kernel, rfl⟩
  have hnobody : ∀ l, s.locks.line l = [] := by decide +kernel
  have htaken : s.row? taken.id = some taken := by rfl
  have halso : s.row? alsoTaken.id = some alsoTaken := by rfl
  have hacc : ∀ e ∈ [taken.accepted, alsoTaken.accepted],
      ∃ a, s.row? e.matchId = some a ∧ a.status = .accepted := by
    intro e he
    rcases List.mem_cons.mp he with rfl | he
    · exact ⟨taken, htaken, rfl⟩
    · obtain rfl := List.mem_singleton.mp he
      exact ⟨alsoTaken, halso, rfl⟩
  have hsame : ∀ e, e ∈ [taken.accepted, alsoTaken.accepted] ↔
      e ∈ [alsoTaken.accepted, taken.accepted, alsoTaken.accepted] := by
    intro e
    simp only [List.mem_cons, List.not_mem_nil, or_false]
    constructor
    · exact fun h => h.elim (fun h => .inr (.inl h)) .inl
    · exact fun h => h.elim .inr fun h => h
  obtain ⟨hcongr, hends⟩ := rejectEach_congr hreached hacc hsame (momentOf Uuid.nil) {}
  obtain ⟨n, l₁, hrun⟩ := hends hnobody
  obtain ⟨l₂, hrun', hrows, hpairs, -⟩ := hcongr n l₁ hrun
  exact ⟨hreached, hnobody, htaken, halso, n, l₁, l₂, hrun, hrun', hrows, hpairs⟩

end Matching
end Dispatch
