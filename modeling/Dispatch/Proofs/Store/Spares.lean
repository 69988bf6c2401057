/-
What a call leaves alone.

Whatever one party calls, the transactions of all others stay as they are, and so do their places
in line: that is `Spares`.  Of calls that only ask for a lock, or let one go, more is true.  They
touch no row, no pair and nothing that is staged: that is `Settles`.

A party is `Idle` when it has no transaction open and waits for nothing.
-/
import Dispatch.Proofs.Store.Invariant

namespace Dispatch

namespace Store

/-- Nobody but one party is concerned: the transactions of all others and their places in line
are as before. -/
structure Spares (t : Ticket) (s s' : Store) : Prop where
  nextTicket : s.nextTicket ≤ s'.nextTicket
  offline : s'.offline = s.offline
  transaction : ∀ u, u ≠ t → s'.transaction u = s.transaction u
  isOpen : ∀ u, u ≠ t → (s'.IsOpen u ↔ s.IsOpen u)
  waiting : ∀ u, u ≠ t → s'.locks.waiting.find? u = s.locks.waiting.find? u

/-- Only the locks of one party are concerned. -/
structure Settles (t : Ticket) (s s' : Store) : Prop extends Spares t s s' where
  row : ∀ id, s'.row? id = s.row? id
  openPairs : ∀ p, s'.openPairs.find? p = s.openPairs.find? p
  staged : (s'.transaction t).staged = (s.transaction t).staged
  own : s'.IsOpen t ↔ s.IsOpen t

namespace Spares

variable {t : Ticket} {s s' s'' : Store}

theorem refl (t : Ticket) (s : Store) : Spares t s s :=
  ⟨Nat.le_refl _, rfl, fun _ _ => rfl, fun _ _ => Iff.rfl, fun _ _ => rfl⟩

theorem trans (h : Spares t s s') (h' : Spares t s' s'') : Spares t s s'' where
  nextTicket := Nat.le_trans h.nextTicket h'.nextTicket
  offline := h'.offline.trans h.offline
  transaction u hu := (h'.transaction u hu).trans (h.transaction u hu)
  isOpen u hu := (h'.isOpen u hu).trans (h.isOpen u hu)
  waiting u hu := (h'.waiting u hu).trans (h.waiting u hu)

/-- The places in line of all others are as before. -/
theorem inLine (h : Spares t s s') {u : Ticket} (hu : u ≠ t) {x : MatchId} {l : LockId} :
    s'.locks.InLine s'.held u x l ↔ s.locks.InLine s.held u x l := by
  unfold RowLocks.InLine held
  rw [h.waiting u hu, h.transaction u hu]

/-- Locks may be taken and let go, if nobody else stops or begins to wait. -/
theorem ofLocks {locks : RowLocks}
    (hw : ∀ u, u ≠ t → locks.waiting.find? u = s.locks.waiting.find? u) :
    Spares t s { s with locks } :=
  ⟨Nat.le_refl _, rfl, fun _ _ => rfl, fun _ _ => Iff.rfl, hw⟩

theorem setTransaction (s : Store) (t : Ticket) (x : Transaction) :
    Spares t s (s.setTransaction t x) where
  nextTicket := Nat.le_refl _
  offline := rfl
  transaction u hu := by rw [s.transaction_setTransaction, if_neg hu]
  isOpen u hu := by rw [s.isOpen_setTransaction]; simp [hu]
  waiting _ _ := rfl

theorem endTransaction (s : Store) (t : Ticket) : Spares t s (s.endTransaction t) where
  nextTicket := Nat.le_refl _
  offline := rfl
  transaction u hu := by rw [s.transaction_endTransaction, if_neg hu]
  isOpen u hu := by rw [s.isOpen_endTransaction]; simp [hu]
  waiting u hu := by rw [s.waiting_endTransaction, if_neg hu]

theorem beginTransaction (s : Store) : Spares s.nextTicket s s.beginTransaction.2 where
  nextTicket := Nat.le_succ _
  offline := rfl
  transaction u hu := by
    show (s.setTransaction s.nextTicket {}).transaction u = _
    rw [s.transaction_setTransaction, if_neg hu]
  isOpen u hu := by
    show (s.setTransaction s.nextTicket {}).IsOpen u ↔ _
    rw [s.isOpen_setTransaction]
    simp [hu]
  waiting _ _ := rfl

theorem openBatch (s : Store) (t : Ticket) : Spares t s s.openBatch.2 :=
  ⟨Nat.le_succ _, rfl, fun _ _ => rfl, fun _ _ => Iff.rfl, fun _ _ => rfl⟩

theorem ofSameRest (h : SameRest s s') (t : Ticket) : Spares t s s' := by
  have hop : ∀ u, s'.IsOpen u ↔ s.IsOpen u := by
    intro u; unfold Store.IsOpen; rw [h.transactions]
  exact ⟨Nat.le_of_eq h.nextTicket.symm, h.offline, fun u _ => h.transaction u, fun u _ => hop u,
    fun u _ => by rw [h.locks]⟩

end Spares

namespace Settles

variable {t : Ticket} {s s' s'' : Store}

theorem refl (t : Ticket) (s : Store) : Settles t s s :=
  ⟨Spares.refl t s, fun _ => rfl, fun _ => rfl, rfl, Iff.rfl⟩

theorem trans (h : Settles t s s') (h' : Settles t s' s'') : Settles t s s'' :=
  ⟨h.toSpares.trans h'.toSpares, fun id => (h'.row id).trans (h.row id),
    fun p => (h'.openPairs p).trans (h.openPairs p), h'.staged.trans h.staged, h'.own.trans h.own⟩

theorem ofLocks {locks : RowLocks}
    (hw : ∀ u, u ≠ t → locks.waiting.find? u = s.locks.waiting.find? u) :
    Settles t s { s with locks } :=
  ⟨Spares.ofLocks hw, fun _ => rfl, fun _ => rfl, rfl, Iff.rfl⟩

theorem setHeld {locks : RowLocks} {held : List (MatchId × LockId)} (ht : s.IsOpen t)
    (hw : ∀ u, u ≠ t → locks.waiting.find? u = s.locks.waiting.find? u) :
    Settles t s ({ s with locks }.setTransaction t { s.transaction t with held }) where
  toSpares := (Spares.ofLocks hw).trans (Spares.setTransaction _ t _)
  row _ := rfl
  openPairs _ := rfl
  staged := by rw [transaction_setTransaction, if_pos rfl]
  own := by
    rw [isOpen_setTransaction]
    simp only [true_or, true_iff]
    exact ht

theorem row?_eq (h : Settles t s s') : s'.row? = s.row? := funext h.row

/-- A transaction sees the same rows as before. -/
theorem current? (h : Settles t s s') (id : MatchId) : s'.current? t id = s.current? t id := by
  rw [Store.current?_eq, Store.current?_eq, h.row?_eq, h.staged]

end Settles

/-! ### Who is at work -/

/-- Nothing is under way with a ticket. -/
def Idle (s : Store) (t : Ticket) : Prop := ¬ s.IsOpen t ∧ s.locks.waiting.find? t = none

/-- Nothing is under way with any other ticket. -/
def Alone (s : Store) (t : Ticket) : Prop := ∀ u, u ≠ t → s.Idle u

variable {s s' : Store} {t u : Ticket}

/-- Whoever has nothing under way is in no line. -/
theorem Idle.not_inLine (h : s.Idle t) {x : MatchId} {l : LockId} :
    ¬ s.locks.InLine s.held t x l := by
  intro hin
  rcases hin with hin | hin
  · rw [s.held_of_not_isOpen h.1] at hin; cases hin
  · rw [h.2] at hin; cases hin

theorem not_alone_of_inLine {x : MatchId} {l : LockId} (hu : u ≠ t)
    (h : s.locks.InLine s.held u x l) : ¬ s.Alone t := fun ha => (ha u hu).not_inLine h

/-- Nothing is under way with the next ticket. -/
theorem idle_nextTicket (ok : LocksOK s) : s.Idle s.nextTicket := by
  refine ⟨ok.not_isOpen_nextTicket, ?_⟩
  cases hw : s.locks.waiting.find? s.nextTicket with
  | none => rfl
  | some w => exact absurd (ok.waiting_lt hw) (Nat.lt_irrefl _)

/-- Whoever is in line when a transaction has ended was in line before, and is somebody else. -/
theorem inLine_endTransaction {x : MatchId} {l : LockId}
    (h : (s.endTransaction t).locks.InLine (s.endTransaction t).held u x l) :
    u ≠ t ∧ s.locks.InLine s.held u x l := by
  have hu : u ≠ t := by
    rintro rfl
    have hidle : (s.endTransaction u).Idle u :=
      ⟨fun ho => ((s.isOpen_endTransaction u u).mp ho).1 rfl,
        by rw [s.waiting_endTransaction, if_pos rfl]⟩
    exact hidle.not_inLine h
  exact ⟨hu, ((Spares.endTransaction s t).inLine hu).mp h⟩

/-- What is not under way does not begin by a call of somebody else. -/
theorem Spares.idle (h : Spares t s s') (hu : u ≠ t) (hidle : s.Idle u) : s'.Idle u := by
  refine ⟨fun ho => hidle.1 ((h.isOpen u hu).1 ho), ?_⟩
  rw [h.waiting u hu, hidle.2]

end Store
end Dispatch
