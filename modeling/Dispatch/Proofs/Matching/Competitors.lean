/-
The competitors of an accepted proposal.

If nobody holds a lock, a rejection closes exactly the open proposals that have the driver of the
accepted one as their driver, or its passenger as their passenger.  Nothing but their status and the
time of their last change is written, their pairs are let go, and every one of them is counted once,
also if it has both in common with the accepted one.  After that there is nothing left to do.

This is less than to take both actors out of the market.  Drivers and passengers share one name
space, and an open proposal may name the driver as its passenger or the passenger as its driver.
These are the ones that stay open (`Proposal.Crosses`), and no others.
-/
import Dispatch.Proofs.Matching.Rejections

namespace Dispatch

open Store

namespace Proposal

/-- A proposal is to be rejected because of an accepted one: it is another one, is open, and has the
same driver or the same passenger. -/
def YieldsTo (r a : Proposal) : Prop :=
  r.id ≠ a.id ∧ r.isOpen = true ∧ (r.driverId = a.driverId ∨ r.passengerId = a.passengerId)

instance (r a : Proposal) : Decidable (r.YieldsTo a) := inferInstanceAs (Decidable (_ ∧ _ ∧ _))

/-- Somebody takes part in a proposal, as its driver or as its passenger. -/
def Involves (r : Proposal) (actor : ActorId) : Prop := r.driverId = actor ∨ r.passengerId = actor

/-- A proposal has an actor in common with another one, but none in the same part. -/
def Crosses (r a : Proposal) : Prop :=
  r.driverId ≠ a.driverId ∧ r.passengerId ≠ a.passengerId ∧
    (r.driverId = a.passengerId ∨ r.passengerId = a.driverId)

end Proposal

variable {s : Store} {a : Proposal}

/-- What is to be rejected because of an accepted proposal. -/
theorem Store.Filed.competes_iff (hs : s.Filed) {id : MatchId} :
    (Rejecting.mk a.id a.driverId a.passengerId).Competes s id ↔
      ∃ r, s.row? id = some r ∧ r.YieldsTo a := by
  constructor
  · rintro ⟨hne, r, hr, hopen, hparty⟩
    exact ⟨r, hr, by rwa [hs id r hr], hopen, hparty⟩
  · rintro ⟨r, hr, hne, hopen, hparty⟩
    exact ⟨by rwa [← hs id r hr], r, hr, hopen, hparty⟩

/-- A row that is open is another one than a row that is closed. -/
theorem Store.Filed.id_ne_of_open (hs : s.Filed) {id : MatchId} {r : Proposal}
    (hr : s.row? id = some r) (hopen : r.isOpen = true) (ha : s.row? a.id = some a)
    (hclosed : a.isOpen = false) : r.id ≠ a.id := by
  intro he
  rw [hs id r hr] at he
  rw [he, ha] at hr
  obtain rfl := Option.some.inj hr
  rw [hclosed] at hopen
  cases hopen

theorem Store.mem_values {r : Proposal} : r ∈ s.rows.values ↔ ∃ id, s.row? id = some r := by
  have hrow : ∀ id, s.row? id = some r ↔ (id, r) ∈ s.rows.entries :=
    fun id => s.rows.find?_eq_some_iff
  simp [Table.values, hrow]

/-- As many rows are of some kind as there are identifiers of them. -/
theorem Store.Filed.length_eq_countP (hs : s.Filed) {ids : List MatchId} (hnodup : ids.Nodup)
    (p : Proposal → Bool) (hids : ∀ id, id ∈ ids ↔ ∃ r, s.row? id = some r ∧ p r = true) :
    ids.length = s.rows.values.countP p := by
  have hkeys : s.rows.values.map Proposal.id = s.rows.keys := by
    rw [Table.values, Table.keys, List.map_map]
    exact List.map_congr_left fun e he => hs e.1 e.2 (s.rows.find?_eq_some_iff.2 he)
  have hnodup' : ((s.rows.values.filter p).map Proposal.id).Nodup := by
    refine (List.filter_sublist.map Proposal.id).nodup ?_
    rw [hkeys]
    exact s.rows.nodup_keys
  have hperm : ids.Perm ((s.rows.values.filter p).map Proposal.id) := by
    refine (List.perm_ext_iff_of_nodup hnodup hnodup').2 fun id => ?_
    rw [hids, List.mem_map]
    constructor
    · rintro ⟨r, hr, hp⟩
      exact ⟨r, List.mem_filter.mpr ⟨mem_values.2 ⟨id, hr⟩, hp⟩, hs id r hr⟩
    · rintro ⟨r, hr, rfl⟩
      obtain ⟨hr, hp⟩ := List.mem_filter.mp hr
      obtain ⟨id, hr⟩ := mem_values.1 hr
      exact ⟨r, (congrArg s.row? (hs id r hr)).trans hr, hp⟩
  rw [hperm.length_eq, List.length_map, List.countP_eq_length_filter]

namespace Store.Rejected

variable {now : Time.Instant} {ids : List MatchId} {s' : Store}

/-- The rows after a rejection of what competes. -/
theorem row?_eq_map (h : s.Rejected now ids s')
    (hids : ∀ id, id ∈ ids ↔ ∃ r, s.row? id = some r ∧ r.YieldsTo a) (id : MatchId) :
    s'.row? id = (s.row? id).map fun r => if r.YieldsTo a then r.rejectedAt now else r := by
  rw [h.row]
  cases hr : s.row? id with
  | none => simp
  | some r =>
      have hmem : id ∈ ids ↔ r.YieldsTo a := by
        rw [hids, hr]
        simp
      by_cases hy : r.YieldsTo a
      · simp [hmem, hy]
      · simp [hmem, hy]

/-- The pairs after a rejection of what competes.  A pair may have led to another row than the one
that is rejected, but that one competes as well. -/
theorem openPairs_eq_ite (h : s.Rejected now ids s') (hs : s.Steady)
    (ha : s.row? a.id = some a) (hclosed : a.isOpen = false)
    (hids : ∀ id, id ∈ ids ↔ ∃ r, s.row? id = some r ∧ r.YieldsTo a) (p : Pair) :
    s'.openPairs.find? p = if ∃ r ∈ s.rows.values, r.YieldsTo a ∧ r.pair = p then none
      else s.openPairs.find? p := by
  rw [h.openPairs]
  cases hp : s.openPairs.find? p with
  | none => split <;> rfl
  | some id =>
      obtain ⟨b, hb, hopen, rfl⟩ := hs.leads p id hp
      have hne : b.id ≠ a.id := hs.filed.id_ne_of_open hb hopen ha hclosed
      have hiff : id ∈ ids ↔ ∃ r ∈ s.rows.values, r.YieldsTo a ∧ r.pair = b.pair := by
        rw [hids]
        constructor
        · rintro ⟨r, hr, hy⟩
          obtain rfl := Option.some.inj (hb.symm.trans hr)
          exact ⟨b, mem_values.2 ⟨id, hb⟩, hy, rfl⟩
        · rintro ⟨r, -, ⟨-, -, hparty⟩, hpair⟩
          obtain ⟨hdriver, hpassenger⟩ := Prod.mk.inj hpair
          exact ⟨b, hb, hne, hopen, by rwa [← hdriver, ← hpassenger]⟩
      by_cases hid : id ∈ ids
      · rw [if_pos (hiff.1 hid)]
        simp [hid, Option.filter_some]
      · rw [if_neg fun hex => hid (hiff.2 hex)]
        simp [hid, Option.filter_some]

end Store.Rejected

namespace Matching

/-! ### Exactly the competitors -/

/-- **A rejection closes exactly what competes**, whatever has been done at the table before, if
nobody holds a lock.  While the table cannot be reached nothing is done. -/
theorem rejectCompeting_exact (hs : s.Reached) (hnobody : ∀ l, s.locks.line l = [])
    (ha : s.row? a.id = some a) (hacc : a.status = .accepted) (m : Moment) (k : Metrics) :
    (s.offline = true →
      (rejectCompeting a.id a.driverId a.passengerId).run (Ledger.perform m) ⟨s, k⟩
        = (.done (.error (.store .offline)), ⟨s, k⟩)) ∧
    (s.offline = false → ∃ l',
      (rejectCompeting a.id a.driverId a.passengerId).run (Ledger.perform m) ⟨s, k⟩
        = (.done (.ok (s.rows.values.countP fun r => r.YieldsTo a)), l') ∧
      (∀ id, l'.store.row? id = (s.row? id).map fun r =>
        if r.YieldsTo a then { r with status := .rejected, updatedAt := m.now } else r) ∧
      (∀ p, l'.store.openPairs.find? p =
        if ∃ r ∈ s.rows.values, r.YieldsTo a ∧ r.pair = p then none else s.openPairs.find? p) ∧
      l'.metrics = k.record (.rejections (s.rows.values.countP fun r => r.YieldsTo a)) ∧
      ∀ m', (rejectCompeting a.id a.driverId a.passengerId).run (Ledger.perform m') l'
        = (.done (.ok 0), l')) := by
  have hsteady := hs.steady
  have hclosed : a.isOpen = false := Proposal.isOpen_of_accepted hacc
  refine ⟨fun hoff => Rejecting.run_rejectCompeting_offline hoff ⟨_, _, _⟩ m k, fun hon => ?_⟩
  obtain ⟨ids, hnodup, hids, hsweeps⟩ :=
    Rejecting.sweeps_rejectCompeting (q := ⟨a.id, a.driverId, a.passengerId⟩) hsteady hon ha hacc m k
  have hmem : ∀ id, id ∈ ids ↔ ∃ r, s.row? id = some r ∧ r.YieldsTo a :=
    fun id => (hids id).trans hsteady.filed.competes_iff
  have hcount : ids.length = s.rows.values.countP fun r => r.YieldsTo a :=
    hsteady.filed.length_eq_countP hnodup _ fun id => (hmem id).trans (by simp)
  cases hsweeps with
  | waits hid hheld hrun => exact absurd (free_of_no_line hnobody _) hheld
  | @ends s' hfree hrun hrejected hsteady' hrest =>
      rw [hcount] at hrun
      refine ⟨_, hrun, hrejected.row?_eq_map hmem, hrejected.openPairs_eq_ite hsteady ha hclosed hmem,
        rfl, fun m' => ?_⟩
      -- the accepted row is what it was, and nothing competes with it any more
      have ha' : s'.row? a.id = some a := hrejected.row?_of_accepted hids ha hacc
      refine Rejecting.run_rejectCompeting_of_none (q := ⟨a.id, a.driverId, a.passengerId⟩)
        hsteady'.filed (hrest.offline.trans hon) ha' hacc (fun id hc => ?_) m' _
      obtain ⟨hc, hnot⟩ := hrejected.competes_iff.1 hc
      exact hnot ((hids id).2 hc)

/-! ### A run

One proposal is accepted.  Then another one for the same pair is entered, and one in which the driver
of the first is to ride.
-/

/-- Somebody else is to take the driver along. -/
def crossing : Draft := { someDraft with driverId := "q", passengerId := "d" }

/-- The moves by which this comes about. -/
def sharing : List Store.Move :=
  let m := momentOf Uuid.nil
  let m' := momentOf (Uuid.fresh 1)
  [.call .begin m, .call (.insert 0 someDraft) m, .call (.commit 0) m,
   .call .begin m, .call (.update 1 Uuid.nil .accepted true true) m, .call (.commit 1) m,
   .call .begin m', .call (.insert 2 someDraft) m',
   .call (.insert 2 crossing) (momentOf (Uuid.fresh 2)), .call (.commit 2) m']

/-- The proposal that has been accepted. -/
def taken : Proposal :=
  { someDraft.toProposal Uuid.nil ⟨0, 0⟩ with
    status := .accepted, driverConfirmed := true, passengerConfirmed := true }

theorem reached_sharing : (sharing.foldl Store.after {}).Reached :=
  ⟨sharing, by decide +kernel, rfl⟩

theorem no_line_sharing : ∀ l, (sharing.foldl Store.after {}).locks.line l = [] := by
  decide +kernel

theorem rejectCompeting_exact_sharing :
    let s := sharing.foldl Store.after {}
    s.Reached ∧ (∀ l, s.locks.line l = []) ∧ s.row? taken.id = some taken ∧
      taken.status = .accepted ∧ s.offline = false ∧ ∃ l',
        (rejectCompeting taken.id taken.driverId taken.passengerId).run
          (Ledger.perform (momentOf Uuid.nil)) ⟨s, {}⟩ = (.done (.ok 1), l') ∧
        l'.store.openPairs.find? someDraft.pair = none := by
  intro s
  have htaken : s.row? taken.id = some taken := by rfl
  have hon : s.offline = false := by rfl
  obtain ⟨l', hrun, -, hpairs, -⟩ :=
    (rejectCompeting_exact reached_sharing no_line_sharing htaken rfl (momentOf Uuid.nil) {}).2 hon
  have hone : (s.rows.values.countP fun r => r.YieldsTo taken) = 1 := by decide +kernel
  rw [hone] at hrun
  refine ⟨reached_sharing, no_line_sharing, htaken, rfl, hon, l', hrun, ?_⟩
  rw [hpairs, if_pos (by decide +kernel)]

/-! ### Who stays -/

/-- The rejection has come to its end: it has rejected what competes, and nothing else. -/
theorem rejected_of_run (hs : s.Steady) (ha : s.row? a.id = some a) (hacc : a.status = .accepted)
    {m : Moment} {k : Metrics} {n : Nat} {l' : Ledger}
    (hrun : (rejectCompeting a.id a.driverId a.passengerId).run (Ledger.perform m) ⟨s, k⟩
      = (.done (.ok n), l')) :
    ∃ ids, s.Rejected m.now ids l'.store ∧
      ∀ id, id ∈ ids ↔ ∃ r, s.row? id = some r ∧ r.YieldsTo a := by
  cases hoff : s.offline with
  | true =>
      have hrefused := Rejecting.run_rejectCompeting_offline hoff ⟨a.id, a.driverId, a.passengerId⟩ m k
      cases hrun.symm.trans hrefused
  | false =>
      obtain ⟨ids, -, hids, hsweeps⟩ :=
        Rejecting.sweeps_rejectCompeting (q := ⟨a.id, a.driverId, a.passengerId⟩) hs hoff ha hacc m k
      cases hsweeps with
      | waits hid hheld hwait => cases hrun.symm.trans hwait
      | ends hfree hend hrejected hsteady hrest =>
          obtain ⟨-, rfl⟩ := Prod.mk.inj (hrun.symm.trans hend)
          exact ⟨ids, hrejected, fun id => (hids id).trans hs.filed.competes_iff⟩

/-- What is left open of the proposals that have an actor in common with the accepted one. -/
theorem open_after_rejectCompeting (hs : s.Steady) (ha : s.row? a.id = some a)
    (hacc : a.status = .accepted) {m : Moment} {k : Metrics} {n : Nat} {l' : Ledger}
    (hrun : (rejectCompeting a.id a.driverId a.passengerId).run (Ledger.perform m) ⟨s, k⟩
      = (.done (.ok n), l')) (id : MatchId) (r : Proposal) :
    (l'.store.row? id = some r ∧ r.isOpen = true ∧ r.id ≠ a.id ∧
        (r.Involves a.driverId ∨ r.Involves a.passengerId)) ↔
      s.row? id = some r ∧ r.isOpen = true ∧ r.Crosses a := by
  obtain ⟨ids, hrejected, hids⟩ := rejected_of_run hs ha hacc hrun
  constructor
  · rintro ⟨hr, hopen, hne, hinvolved⟩
    rw [hrejected.row?_eq_map hids] at hr
    obtain ⟨b, hb, rfl⟩ := Option.map_eq_some_iff.mp hr
    by_cases hy : b.YieldsTo a
    · rw [if_pos hy] at hopen
      cases hopen
    · rw [if_neg hy] at hopen hne hinvolved ⊢
      have hdriver : b.driverId ≠ a.driverId := fun hd => hy ⟨hne, hopen, Or.inl hd⟩
      have hpassenger : b.passengerId ≠ a.passengerId := fun hp => hy ⟨hne, hopen, Or.inr hp⟩
      refine ⟨hb, hopen, hdriver, hpassenger, ?_⟩
      rcases hinvolved with (hd | hd) | (hp | hp)
      · exact absurd hd hdriver
      · exact Or.inr hd
      · exact Or.inl hp
      · exact absurd hp hpassenger
  · rintro ⟨hr, hopen, hcross⟩
    have hne : r.id ≠ a.id := hs.filed.id_ne_of_open hr hopen ha (Proposal.isOpen_of_accepted hacc)
    have hy : ¬ r.YieldsTo a := fun hy => hy.2.2.elim hcross.1 hcross.2.1
    refine ⟨?_, hopen, hne, hcross.2.2.symm.imp Or.inr Or.inl⟩
    rw [hrejected.row?_eq_map hids, hr, Option.map_some, if_neg hy]

/-- **The proposals that cross an accepted one stay open, and no others.**  When a rejection has come
to its end, whatever else is under way, an open proposal that involves the driver or the passenger of
the accepted one is one that was there before and in which neither has the same part.  So none is
left exactly if none such was there. -/
theorem crossing_stays_open (hs : s.Reached) (ha : s.row? a.id = some a)
    (hacc : a.status = .accepted) {m : Moment} {k : Metrics} {n : Nat} {l' : Ledger}
    (hrun : (rejectCompeting a.id a.driverId a.passengerId).run (Ledger.perform m) ⟨s, k⟩
      = (.done (.ok n), l')) :
    (∀ id r, (l'.store.row? id = some r ∧ r.isOpen = true ∧ r.id ≠ a.id ∧
        (r.Involves a.driverId ∨ r.Involves a.passengerId)) ↔
      s.row? id = some r ∧ r.isOpen = true ∧ r.Crosses a) ∧
    ((∀ id r, l'.store.row? id = some r → r.isOpen = true → r.id ≠ a.id →
        ¬ r.Involves a.driverId ∧ ¬ r.Involves a.passengerId) ↔
      ∀ id r, s.row? id = some r → r.isOpen = true → ¬ r.Crosses a) := by
  have hleft := open_after_rejectCompeting hs.steady ha hacc hrun
  refine ⟨hleft, fun hnone id r hr hopen hcross => ?_, fun hnone id r hr hopen hne => ?_⟩
  · obtain ⟨hr', -, hne, hinvolved⟩ := (hleft id r).2 ⟨hr, hopen, hcross⟩
    exact hinvolved.elim (hnone id r hr' hopen hne).1 (hnone id r hr' hopen hne).2
  · refine not_or.mp fun hinvolved => ?_
    obtain ⟨hr', -, hcross⟩ := (hleft id r).1 ⟨hr, hopen, hne, hinvolved⟩
    exact hnone id r hr' hopen hcross

/-- The rejection of the run above comes to its end. -/
theorem exists_run_sharing : ∃ n l',
    (rejectCompeting taken.id taken.driverId taken.passengerId).run (Ledger.perform (momentOf Uuid.nil))
      ⟨sharing.foldl Store.after {}, {}⟩ = (.done (.ok n), l') := by
  obtain ⟨ids, -, -, hsweeps⟩ := Rejecting.sweeps_rejectCompeting
    (q := ⟨taken.id, taken.driverId, taken.passengerId⟩) (a := taken) reached_sharing.steady rfl rfl rfl
    (momentOf Uuid.nil) {}
  cases hsweeps with
  | waits hid hheld hrun => exact absurd (free_of_no_line no_line_sharing _) hheld
  | ends hfree hrun hrejected hsteady hrest => exact ⟨_, _, hrun⟩

theorem crosses_taken : (crossing.toProposal (Uuid.fresh 2) ⟨0, 0⟩).Crosses taken :=
  ⟨by decide, by decide, Or.inr rfl⟩

theorem crossing_stays_open_sharing : ∃ n l',
    (rejectCompeting taken.id taken.driverId taken.passengerId).run (Ledger.perform (momentOf Uuid.nil))
      ⟨sharing.foldl Store.after {}, {}⟩ = (.done (.ok n), l') ∧
    ∃ r, l'.store.row? (Uuid.fresh 2) = some r ∧ r.isOpen = true ∧ r.Involves taken.driverId := by
  obtain ⟨n, l', hrun⟩ := exists_run_sharing
  have hstays := (crossing_stays_open (a := taken) reached_sharing rfl rfl hrun).1 (Uuid.fresh 2)
    (crossing.toProposal (Uuid.fresh 2) ⟨0, 0⟩)
  exact ⟨n, l', hrun, _, (hstays.2 ⟨rfl, rfl, crosses_taken⟩).1, rfl, Or.inr rfl⟩

/-- A rejection does not always take both actors out of the market. -/
theorem exists_open_involved : ∃ (s : Store) (a : Proposal) (m : Moment) (n : Nat) (l' : Ledger),
    s.Reached ∧ s.row? a.id = some a ∧ a.status = .accepted ∧
      (rejectCompeting a.id a.driverId a.passengerId).run (Ledger.perform m) ⟨s, {}⟩
        = (.done (.ok n), l') ∧
      ∃ id r, l'.store.row? id = some r ∧ r.isOpen = true ∧ r.id ≠ a.id ∧
        (r.Involves a.driverId ∨ r.Involves a.passengerId) := by
  obtain ⟨n, l', hrun⟩ := exists_run_sharing
  have hstays := open_after_rejectCompeting (a := taken) reached_sharing.steady rfl rfl hrun
    (Uuid.fresh 2) (crossing.toProposal (Uuid.fresh 2) ⟨0, 0⟩)
  exact ⟨_, taken, _, n, l', reached_sharing, rfl, rfl, hrun, _, _, hstays.2 ⟨rfl, rfl, crosses_taken⟩⟩

end Matching
end Dispatch
