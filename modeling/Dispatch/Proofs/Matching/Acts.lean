/-
One operation after the other.

An `Act` says who has made which operation, and at what moment.  What becomes of one row by several
acts can be told in two ways: by making the operations one at a time, each alone and from its
beginning to its end (`Ledger.afterActs`), or from the row only (`replay`).  They agree as long as
each operation goes for this row (`Act.GoesFor`): whatever else the operations do, they confirm no
other proposal, so what is accepted elsewhere stays accepted.
-/
import Dispatch.Proofs.Matching.Alone
import Dispatch.Proofs.Matching.Rows
import Mathlib.Data.List.Induction

namespace Dispatch

/-- An operation that somebody makes, and when. -/
structure Act where
  caller : Nat
  operation : Operation
  moment : Moment

/-! ### Confirmations of one proposal, and rejections -/

/-- An operation confirms a proposal, or it rejects others. -/
def Operation.Contends (m : MatchId) : Operation → Prop
  | .confirm id _ _ => id = m
  | .rejectCompeting _ _ _ => True
  | .propose _ => False

/-- The rows after a proposal has been confirmed and others have been rejected. -/
structure Store.Contended (m : MatchId) (s s' : Store) : Prop where
  /-- The proposal has the driver and the passenger that it had. -/
  pair : (s'.row? m).map Proposal.pair = (s.row? m).map Proposal.pair
  /-- Any other row is as it was, or it was open and has been rejected. -/
  others : ∀ id, id ≠ m → s'.row? id = s.row? id ∨
    ∃ r now, s.row? id = some r ∧ r.isOpen = true ∧ s'.row? id = some (r.rejectedAt now)

namespace Store.Contended

variable {m : MatchId} {s s' s'' : Store}

theorem refl (m : MatchId) (s : Store) : s.Contended m s := ⟨rfl, fun _ _ => Or.inl rfl⟩

theorem of_row? (h : s'.row? = s.row?) : s.Contended m s' :=
  ⟨by rw [h], fun id _ => Or.inl (by rw [h])⟩

theorem trans (h : s.Contended m s') (h' : s'.Contended m s'') : s.Contended m s'' where
  pair := h'.pair.trans h.pair
  others := by
    intro id hid
    rcases h.others id hid with hrow | ⟨r, now, hr, hopen, hrow⟩
    · rcases h'.others id hid with hrow' | ⟨r, now, hr, hopen, hrow'⟩
      · exact Or.inl (hrow'.trans hrow)
      · exact Or.inr ⟨r, now, hrow ▸ hr, hopen, hrow'⟩
    · refine Or.inr ⟨r, now, hr, hopen, ?_⟩
      rcases h'.others id hid with hrow' | ⟨r', now', hr', hopen', -⟩
      · exact hrow'.trans hrow
      · -- what has been rejected is not rejected again
        rw [hrow] at hr'
        obtain rfl := Option.some.inj hr'
        cases hopen'

/-- What is accepted elsewhere stays accepted. -/
theorem accepted (h : s.Contended m s') {id : MatchId} (hid : id ≠ m) {a : Proposal}
    (hacc : a.status = .accepted) : s'.row? id = some a ↔ s.row? id = some a := by
  rcases h.others id hid with hrow | ⟨r, now, hr, hopen, hrow⟩
  · rw [hrow]
  · rw [hrow, hr]
    refine iff_of_false ?_ ?_ <;> intro he <;> obtain rfl := Option.some.inj he
    · cases hacc
    · rw [(Proposal.not_isOpen_iff r).2 (Or.inl hacc)] at hopen
      cases hopen

/-- The driver and the passenger of the proposal. -/
theorem parties (h : s.Contended m s') {r' : Proposal} (hr' : s'.row? m = some r') :
    ∃ r, s.row? m = some r ∧ r.driverId = r'.driverId ∧ r.passengerId = r'.passengerId := by
  have hpair := h.pair
  rw [hr', Option.map_some, eq_comm, Option.map_eq_some_iff] at hpair
  obtain ⟨r, hr, hpair⟩ := hpair
  exact ⟨r, hr, congrArg Prod.fst hpair, congrArg Prod.snd hpair⟩

theorem of_update {id : MatchId} {r n : Proposal} (hr : s.row? id = some r)
    (hrow : s'.row? = Function.update s.row? id (some n)) (hn : n.pair = r.pair)
    (h : id = m ∨ r.isOpen = true ∧ ∃ now, n = r.rejectedAt now) : s.Contended m s' where
  pair := by
    by_cases hm : m = id
    · subst hm
      rw [hrow, Function.update_self, hr, Option.map_some, Option.map_some, hn]
    · rw [hrow, Function.update_of_ne hm]
  others := by
    intro id' hid'
    by_cases hid : id' = id
    · subst hid
      obtain ⟨hopen, now, rfl⟩ := h.resolve_left hid'
      exact Or.inr ⟨r, now, hr, hopen, by rw [hrow, Function.update_self]⟩
    · exact Or.inl (by rw [hrow, Function.update_of_ne hid])

end Store.Contended

/-! ### What an act makes of the row -/

/-- What an act makes of the row. -/
def Act.onRow (row : Option Proposal) (u : Act) : Option Proposal :=
  match u.operation with
  | .confirm id user role => Confirming.onRow ⟨id, user, role⟩ u.moment.now row
  | .rejectCompeting _ _ _ => row.map (Proposal.closedAt u.moment.now)
  | .propose _ => row

/-- What several acts make of the row. -/
def replay (row : Option Proposal) (us : List Act) : Option Proposal := us.foldl Act.onRow row

section Replay

variable {row : Option Proposal} {u : Act} {us us' : List Act}

@[simp] theorem replay_append : replay row (us ++ us') = replay (replay row us) us' :=
  List.foldl_append

@[simp] theorem replay_cons : replay row (u :: us) = replay (u.onRow row) us := rfl

@[simp] theorem replay_nil : replay row [] = row := rfl

theorem Act.onRow_later (r : Proposal) (u : Act) :
    ∃ r', u.onRow (some r) = some r' ∧ r.Later r' := by
  unfold onRow
  split
  · rename_i id user role _
    unfold Confirming.onRow
    split
    · rename_i r' hr'
      obtain ⟨p, hp, he, rfl⟩ := Confirming.exists_of_answer hr'
      obtain rfl := Option.some.inj hp
      exact ⟨_, rfl, .confirmedBy (Proposal.refusal?_eq_none.1 he).2.1 role _⟩
    · exact ⟨r, rfl, .refl r⟩
  · refine ⟨_, rfl, ?_⟩
    cases hopen : r.isOpen with
    | true => rw [Proposal.closedAt_of_isOpen hopen]; exact .rejectedAt hopen _
    | false => rw [Proposal.closedAt_of_not_isOpen hopen]; exact .refl r
  · exact ⟨r, rfl, .refl r⟩

/-- A row is later a later form of itself. -/
theorem replay_later (r : Proposal) (us : List Act) :
    ∃ r', replay (some r) us = some r' ∧ r.Later r' := by
  induction us generalizing r with
  | nil => exact ⟨r, rfl, .refl r⟩
  | cons u us ih =>
      obtain ⟨r', hr', hlater⟩ := u.onRow_later r
      obtain ⟨r'', hr'', hlater'⟩ := ih r'
      exact ⟨r'', by rw [replay_cons, hr', hr''], hlater.trans hlater'⟩

end Replay

/-! ### One at a time -/

/-- An operation is made alone: what it returns, and the ledger after it. -/
def Ledger.act (l : Ledger) (u : Act) : Option Outcome × Ledger :=
  let (p, l') := u.operation.program.run (Ledger.perform u.moment) l
  (p.result?, l')

/-- The ledger after some operations that are made one at a time. -/
def Ledger.afterActs (l : Ledger) (us : List Act) : Ledger := us.foldl (fun l u => (l.act u).2) l

/-- A rejection goes for a row: it is on account of another proposal, which is accepted, and the row
has the driver or the passenger that it is about. -/
def Rejecting.GoesFor (m : MatchId) (s : Store) (q : Rejecting) : Prop :=
  q.accepted ≠ m ∧ (∃ a, s.row? q.accepted = some a ∧ a.status = .accepted) ∧
    ∃ r, s.row? m = some r ∧ (r.driverId = q.driver ∨ r.passengerId = q.passenger)

/-- An operation goes for a row. -/
def Operation.GoesFor (m : MatchId) (s : Store) : Operation → Prop
  | .confirm id _ _ => id = m
  | .rejectCompeting accepted driver passenger =>
    Rejecting.GoesFor m s ⟨accepted, driver, passenger⟩
  | .propose _ => False

/-- Where some operations have led that were made one at a time. -/
structure Ledger.Stands (m : MatchId) (s : Store) (us : List Act) (l : Ledger) : Prop where
  quiet : l.store.Quiet
  online : l.store.offline = false
  contended : s.Contended m l.store
  /-- The row is what the acts make of it. -/
  row : l.store.row? m = replay (s.row? m) us

section Stands

open Store

variable {m : MatchId} {s : Store} {us : List Act} {l : Ledger} {u : Act}

theorem Ledger.act_of_ends {g : Stage} {r : Outcome} {l' : Ledger}
    (hu : Stage.first u.operation = g) (h : Stage.Ends u.moment g l r l') :
    l.act u = (some r, l') := by
  rw [act, Operation.program_eq, hu, h.run]
  rfl

theorem Act.onRow_pair (row : Option Proposal) (u : Act) :
    (u.onRow row).map Proposal.pair = row.map Proposal.pair := by
  cases row with
  | none =>
      unfold onRow
      split <;> rfl
  | some r =>
      obtain ⟨r', hr', hlater⟩ := u.onRow_later r
      rw [hr', Option.map_some, Option.map_some]
      unfold Proposal.pair
      rw [hlater.driverId, hlater.passengerId]

namespace Ledger.Stands

/-- A confirmation that is made alone returns what the row says. -/
theorem confirm (h : Stands m s us l) {user : ActorId} {role : Role}
    (hu : u.operation = .confirm m user role) :
    (l.act u).1 = some (.proposal (Confirming.answer ⟨m, user, role⟩ u.moment.now
        (replay (s.row? m) us))) ∧ Stands m s (us ++ [u]) (l.act u).2 := by
  obtain ⟨l', hend, hrow⟩ := Stage.ends_starting (m := u.moment)
    (Stage.Lone.of_quiet h.quiet h.online (.confirm m user role)) l.metrics
  have hact := Ledger.act_of_ends (by rw [hu]; rfl) hend
  have honRow : u.onRow (l.store.row? m) =
      Confirming.onRow ⟨m, user, role⟩ u.moment.now (l.store.row? m) := by
    rw [Act.onRow, hu]
  have hm : l'.store.row? m = u.onRow (l.store.row? m) := by
    rw [honRow, hrow]
    exact Function.update_self _ _ _
  rw [hact]
  refine ⟨by rw [h.row], hend.quiet, hend.online, h.contended.trans ⟨?_, ?_⟩, ?_⟩
  · rw [hm, u.onRow_pair]
  · intro id hid
    refine Or.inl ?_
    rw [hrow]
    exact Function.update_of_ne hid _ _
  · rw [hm, h.row, replay_append]
    rfl

/-- A rejection that is made alone closes the row. -/
theorem reject (h : Stands m s us l) {q : Rejecting}
    (hu : u.operation = .rejectCompeting q.accepted q.driver q.passenger) (hq : q.GoesFor m s) :
    Stands m s (us ++ [u]) (l.act u).2 := by
  obtain ⟨hne, ⟨a, ha, hacc⟩, r₀, hr₀, hparty⟩ := hq
  obtain ⟨n, l', hend, hrows⟩ := Stage.ends_checking (m := u.moment)
    (Stage.Lone.of_quiet h.quiet h.online (.rejectCompeting q.accepted q.driver q.passenger))
    ((h.contended.accepted hne hacc).2 ha) hacc l.metrics
  have hact := Ledger.act_of_ends (by rw [hu]; rfl) hend
  have hmem : ∀ id, id ∈ Stage.competing l.store q (l.store.rowsOf q.driver .driver) ↔
      id ≠ q.accepted ∧ ∃ r, l.store.row? id = some r ∧ r.isOpen = true ∧
        (r.driverId = q.driver ∨ r.passengerId = q.passenger) :=
    fun id => Stage.mem_competing fun _ _ => h.quiet.ok.indexed.id_eq
  have hm : l'.store.row? m = u.onRow (l.store.row? m) := by
    have honRow : u.onRow (l.store.row? m) =
        (l.store.row? m).map (Proposal.closedAt u.moment.now) := by
      rw [Act.onRow, hu]
    rw [honRow, hrows m]
    split
    · rfl
    · rename_i hnot
      cases hr : l.store.row? m with
      | none => rfl
      | some r =>
          -- the row has the parties in question, so if it does not compete it is closed
          obtain ⟨r', hr', hd, hp⟩ := h.contended.parties hr
          rw [hr₀] at hr'
          obtain rfl := Option.some.inj hr'
          have hclosed : r.isOpen = false := by
            refine Bool.eq_false_iff.mpr fun hopen => hnot ((hmem m).2 ?_)
            exact ⟨hne.symm, r, hr, hopen, by rw [← hd, ← hp]; exact hparty⟩
          rw [Option.map_some, Proposal.closedAt_of_not_isOpen hclosed]
  rw [hact]
  refine ⟨hend.quiet, hend.online, h.contended.trans ⟨?_, ?_⟩, ?_⟩
  · rw [hm, u.onRow_pair]
  · intro id _
    rw [hrows id]
    split
    · rename_i hid
      obtain ⟨-, r, hr, hopen, -⟩ := (hmem id).1 hid
      refine Or.inr ⟨r, u.moment.now, hr, hopen, ?_⟩
      rw [hr, Option.map_some, Proposal.closedAt_of_isOpen hopen]
    · exact Or.inl rfl
  · rw [hm, h.row, replay_append]
    rfl

theorem act (h : Stands m s us l) (hu : u.operation.GoesFor m s) :
    Stands m s (us ++ [u]) (l.act u).2 := by
  cases ho : u.operation with
  | propose d => rw [ho] at hu; cases hu
  | confirm id user role =>
      rw [ho] at hu
      obtain rfl : id = m := hu
      exact (h.confirm ho).2
  | rejectCompeting accepted driver passenger =>
      rw [ho] at hu
      exact h.reject (q := ⟨accepted, driver, passenger⟩) ho hu

end Ledger.Stands

/-- **Operations that are made one at a time** make of the row what the acts make of it. -/
theorem Store.Quiet.stands (hq : s.Quiet) (hon : s.offline = false)
    (hus : ∀ u ∈ us, u.operation.GoesFor m s) :
    Ledger.Stands m s us (Ledger.afterActs { store := s } us) := by
  induction us using List.reverseRecOn with
  | nil => exact ⟨hq, hon, .refl m s, rfl⟩
  | append_singleton us u ih =>
      have h := ih fun v hv => hus v (List.mem_append_left _ hv)
      rw [Ledger.afterActs, List.foldl_append]
      exact h.act (hus u (by simp))

end Stands
end Dispatch
