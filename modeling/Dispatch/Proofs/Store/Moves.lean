/-
Any number of parties at one match table.

A `Move` is a single call by somebody, or that somebody stops waiting for a lock, or that the
table cannot be reached any more, or can again.  `Admits` says which calls a party can make: a
transaction is used between its beginning and its end and by one call at a time, new rows get
identifiers that are not in use, and a batch update gives rows a final status.  Nothing is said
about the order of moves: what is proved of any sequence of them holds of every interleaving.

The rest of the file says what each operation on the table leaves alone.
-/
import Dispatch.Proofs.Run
import Dispatch.Proofs.Store.Lines
import Dispatch.Store.Steps

namespace Dispatch

/-- The new rows among some changes. -/
def newRowsOf (changes : List Staged) : List Proposal := changes.filterMap Staged.inserted?

/-- The rows that a transaction has staged as new ones. -/
def Transaction.newRows (x : Transaction) : List Proposal := newRowsOf x.staged

namespace Store

/-- The locks that each transaction holds. -/
def held (s : Store) : Holdings := fun t => (s.transaction t).held

/-- A row exists. -/
def Exists (s : Store) (id : MatchId) : Prop := (s.row? id).isSome = true

/-- A transaction has begun and has not ended. -/
def IsOpen (s : Store) (t : Ticket) : Prop := (s.transactions.find? t).isSome = true

/-- An identifier that no row has, and no row that is staged as a new one. -/
def Unused (s : Store) (id : MatchId) : Prop :=
  s.row? id = none ∧ ∀ t, ∀ r ∈ (s.transaction t).newRows, r.id ≠ id

/-- A party may ask for a row: it waits for no other one. -/
def MayAsk (s : Store) (t : Ticket) (id : MatchId) : Prop :=
  ∀ w, s.locks.waiting.find? t = some w → w.1 = id

/-- What one party or the surroundings do at a time. -/
inductive Move where
  | call (c : StoreCall) (m : Moment)
  /-- somebody stops waiting for a lock -/
  | withdraw (t : Ticket)
  | outage (offline : Bool)

/-- The calls that somebody can make. -/
def AdmitsCall (s : Store) (m : Moment) : StoreCall → Prop
  | .begin | .find _ _ | .get _ | .list _ _ | .rollback _ | .openBatch => True
  | .insert t _ => s.IsOpen t ∧ s.locks.waiting.find? t = none ∧ s.Unused m.freshId
  | .lock t id | .update t id _ _ _ => s.IsOpen t ∧ s.MayAsk t id
  | .commit t => s.IsOpen t ∧ s.locks.waiting.find? t = none
  | .updateRow t id status _ =>
    ¬ s.IsOpen t ∧ t < s.nextTicket ∧ s.MayAsk t id ∧ status.isTerminal = true

/-- The moves that are possible. -/
def Admits (s : Store) : Move → Prop
  | .call c m => s.AdmitsCall m c
  | .withdraw _ | .outage _ => True

/-- The table after a move. -/
def after (s : Store) : Move → Store
  | .call c m => (perform m c s).state
  | .withdraw t => { s with locks := s.locks.giveUp t }
  | .outage offline => { s with offline }

/-- A move enters no row for which somebody else stands at a lock that has been forgotten. -/
def EntersClear (s : Store) : Move → Prop
  | .call (.commit t) _ => ∀ r ∈ (s.transaction t).newRows, ∀ u l, u ≠ t →
      s.locks.InLine s.held u r.id l → s.locks.names.find? r.id = some l
  | _ => True

/-! ### Checking moves

Whether a move is possible can be computed.
-/

section Checking

variable (s : Store)

theorem unused_iff (id : MatchId) : s.Unused id ↔
    s.row? id = none ∧ ∀ e ∈ s.transactions.entries, ∀ r ∈ e.2.newRows, r.id ≠ id := by
  unfold Unused transaction
  refine and_congr_right fun _ => ⟨fun h e he r hr => ?_, fun h t r hr => ?_⟩
  · refine h e.1 r ?_
    rw [s.transactions.find?_eq_some_iff.2 he]
    exact hr
  · cases ht : s.transactions.find? t with
    | none => rw [ht] at hr; cases hr
    | some x =>
        rw [ht] at hr
        exact h _ (s.transactions.find?_eq_some_iff.1 ht) r hr

theorem mayAsk_iff (t : Ticket) (id : MatchId) :
    s.MayAsk t id ↔ (s.locks.waiting.find? t).all (fun w => decide (w.1 = id)) = true := by
  unfold MayAsk
  cases s.locks.waiting.find? t <;> simp

/-- Whoever is in line for a row has locked it, or waits for it. -/
theorem forall_inLine_iff (id : MatchId) (P : Ticket → LockId → Prop) :
    (∀ u l, s.locks.InLine s.held u id l → P u l) ↔
      (∀ e ∈ s.transactions.entries, ∀ h ∈ e.2.held, h.1 = id → P e.1 h.2) ∧
        ∀ e ∈ s.locks.waiting.entries, e.2.1 = id → P e.1 e.2.2 := by
  constructor
  · refine fun h => ⟨fun e he x hx hid => h _ _ (Or.inl ?_), fun e he hid => h _ _ (Or.inr ?_)⟩
    · unfold held transaction
      rw [s.transactions.find?_eq_some_iff.2 he, ← hid]
      exact hx
    · rw [s.locks.waiting.find?_eq_some_iff.2 he, ← hid]
  · rintro ⟨hheld, hwait⟩ u l (h | h)
    · unfold held transaction at h
      cases hu : s.transactions.find? u with
      | none => rw [hu] at h; cases h
      | some x =>
          rw [hu] at h
          exact hheld _ (s.transactions.find?_eq_some_iff.1 hu) _ h rfl
    · exact hwait _ (s.locks.waiting.find?_eq_some_iff.1 h) rfl

theorem entersClear_commit_iff (t : Ticket) (m : Moment) :
    s.EntersClear (.call (.commit t) m) ↔ ∀ r ∈ (s.transaction t).newRows,
      (∀ e ∈ s.transactions.entries, ∀ h ∈ e.2.held, h.1 = r.id →
          e.1 ≠ t → s.locks.names.find? r.id = some h.2) ∧
        ∀ e ∈ s.locks.waiting.entries, e.2.1 = r.id →
          e.1 ≠ t → s.locks.names.find? r.id = some e.2.2 := by
  refine forall₂_congr fun r _ => ?_
  rw [← s.forall_inLine_iff r.id fun u l => u ≠ t → s.locks.names.find? r.id = some l]
  exact ⟨fun h u l hin hu => h u l hu hin, fun h u l hu hin => h u l hin hu⟩

instance (id : MatchId) : Decidable (s.Exists id) := inferInstanceAs (Decidable (_ = true))
instance (t : Ticket) : Decidable (s.IsOpen t) := inferInstanceAs (Decidable (_ = true))
instance (id : MatchId) : Decidable (s.Unused id) := decidable_of_iff _ (s.unused_iff id).symm
instance (t : Ticket) (id : MatchId) : Decidable (s.MayAsk t id) :=
  decidable_of_iff _ (s.mayAsk_iff t id).symm

instance (m : Moment) : (c : StoreCall) → Decidable (s.AdmitsCall m c)
  | .begin | .find _ _ | .get _ | .list _ _ | .rollback _ | .openBatch =>
    inferInstanceAs (Decidable True)
  | .insert _ _ => inferInstanceAs (Decidable (_ ∧ _ ∧ _))
  | .lock _ _ | .update _ _ _ _ _ | .commit _ => inferInstanceAs (Decidable (_ ∧ _))
  | .updateRow _ _ _ _ => inferInstanceAs (Decidable (_ ∧ _ ∧ _ ∧ _))

instance : (a : Move) → Decidable (s.Admits a)
  | .call c m => inferInstanceAs (Decidable (s.AdmitsCall m c))
  | .withdraw _ | .outage _ => inferInstanceAs (Decidable True)

instance : (a : Move) → Decidable (s.EntersClear a)
  | .call (.commit t) m => decidable_of_iff _ (s.entersClear_commit_iff t m).symm
  | .call .begin _ | .call (.find _ _) _ | .call (.get _) _ | .call (.list _ _) _
  | .call (.insert _ _) _ | .call (.lock _ _) _ | .call (.update _ _ _ _ _) _
  | .call (.rollback _) _ | .call .openBatch _ | .call (.updateRow _ _ _ _) _
  | .withdraw _ | .outage _ => inferInstanceAs (Decidable True)

end Checking

/-! ### What the operations leave alone -/

variable (s : Store)

theorem transaction_setTransaction (t u : Ticket) (x : Transaction) :
    (s.setTransaction t x).transaction u = if u = t then x else s.transaction u := by
  show ((s.transactions.insert t x).find? u).getD {} = _
  rw [Table.find?_insert]
  split
  · rfl
  · rfl

theorem isOpen_setTransaction (t u : Ticket) (x : Transaction) :
    (s.setTransaction t x).IsOpen u ↔ u = t ∨ s.IsOpen u := by
  unfold Store.IsOpen
  show ((s.transactions.insert t x).find? u).isSome = true ↔ _
  rw [Table.find?_insert]
  by_cases hu : u = t <;> simp [hu]

/-- A transaction that is not open has staged nothing and locked nothing. -/
theorem transaction_of_not_isOpen {t : Ticket} (h : ¬ s.IsOpen t) : s.transaction t = {} := by
  unfold Store.IsOpen at h
  unfold transaction
  cases ht : s.transactions.find? t with
  | none => rfl
  | some x => rw [ht] at h; exact absurd rfl h

theorem transaction_endTransaction (t u : Ticket) :
    (s.endTransaction t).transaction u = if u = t then {} else s.transaction u := by
  show ((s.transactions.erase t).find? u).getD {} = _
  rw [Table.find?_erase]
  split
  · rfl
  · rfl

theorem isOpen_endTransaction (t u : Ticket) :
    (s.endTransaction t).IsOpen u ↔ u ≠ t ∧ s.IsOpen u := by
  unfold Store.IsOpen
  show ((s.transactions.erase t).find? u).isSome = true ↔ _
  rw [Table.find?_erase]
  by_cases hu : u = t <;> simp [hu]

theorem waiting_endTransaction (t u : Ticket) :
    (s.endTransaction t).locks.waiting.find? u
      = if u = t then none else s.locks.waiting.find? u := by
  show ((s.transaction t).held.foldl (fun ls h => ls.leave h.2 t) (s.locks.giveUp t)).waiting.find? u
    = _
  rw [LinesOK.waiting_leaveAll, LinesOK.waiting_giveUp]

/-! ### What concrete runs are about -/

/-- A draft, whose places do not matter here. -/
def someDraft : Draft where
  driverId := "d"
  passengerId := "p"
  driverLocation := { lat := 0.0, lng := 0.0 }
  passengerLocation := { lat := 0.0, lng := 0.0 }

/-- A moment in which the given identifier is the next one. -/
def momentOf (id : MatchId) : Moment := { now := ⟨0, 0⟩, freshId := id }

/-- One party enters a row. -/
def entering : List Move :=
  let m := momentOf Uuid.nil
  [.call .begin m, .call (.insert 0 someDraft) m, .call (.commit 0) m]

theorem along_entering :
    Run.Along after Admits {} entering ∧ Run.Along after EntersClear {} entering :=
  ⟨by decide +kernel, by decide +kernel⟩

end Store
end Dispatch
