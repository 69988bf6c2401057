/-
The order in which callers get the lock of a row.

A caller gets the lock of a row when a call of his that asks for it is answered, unless he has got
it already: a confirmation reads the row, writes it and reads it again under one lock.  A rejection
gets the lock, looks at the row and gives the lock back, all in one call.  `Traffic.lockOrder` lists
the callers of a run by the events in which they get the lock.
-/
import Dispatch.Proofs.Matching.Orderly

namespace Dispatch

/-- The call that a program makes next. -/
def Program.head? {Call : Type} {Reply : Call → Type} {α : Type} : Program Reply α → Option Call
  | .done _ => none
  | .call c _ => some c

/-- Whether a call has been answered. -/
def Turn.isAnswer {σ ρ : Type} : Turn σ ρ → Bool
  | .answer _ _ => true
  | .wait _ => false

/-- The row whose lock a call asks for, and the ticket that is to have it. -/
def StoreCall.asks? : StoreCall → Option (Ticket × MatchId)
  | .lock t id | .update t id _ _ _ | .updateRow t id _ _ => some (t, id)
  | _ => none

/-- Whether a call gets the lock of a row: it asks for it, has not got it, and is answered. -/
def Store.grants (s : Store) (m : MatchId) (mo : Moment) (c : StoreCall) : Bool :=
  match c.asks? with
  | some (t, id) =>
    decide (id = m) && !(s.transaction t).hasLocked id && (Store.perform mo c s).isAnswer
  | none => false

/-- Whether the next call of a program gets the lock of a row. -/
def Store.grantsNext (s : Store) (m : MatchId) (mo : Moment) (p : CallerProgram) : Bool :=
  match p.head? with
  | some (.store c) => s.grants m mo c
  | _ => false

namespace Traffic

/-- What a caller calls next. -/
def next? (x : Traffic) (k : Nat) : Option MatchCall := (x.callers[k]?).bind fun c => c.rest.head?

/-- The caller who gets the lock of a row in an event. -/
def gets? (x : Traffic) (m : MatchId) : Event → Option Nat
  | .go k mo =>
    match x.callers[k]? with
    | some c => if x.store.grantsNext m mo c.rest then some k else none
    | none => none
  | .arrive _ | .outage _ => none

/-- The callers who get the lock of a row, the first one first. -/
def lockOrder (m : MatchId) : Traffic → List Event → List Nat
  | _, [] => []
  | x, e :: rest => (x.gets? m e).toList ++ lockOrder m (x.after e) rest

variable {x : Traffic} {m : MatchId}

theorem lockOrder_concat (es : List Event) (e : Event) :
    lockOrder m x (es ++ [e]) = lockOrder m x es ++ ((es.foldl after x).gets? m e).toList := by
  induction es generalizing x with
  | nil => simp [lockOrder]
  | cons e' es ih =>
      rw [List.cons_append, lockOrder, lockOrder, ih (x := x.after e'), List.foldl_cons,
        List.append_assoc]

theorem gets?_go {k : Nat} {mo : Moment} {c : Caller} (hc : x.callers[k]? = some c) :
    x.gets? m (.go k mo) = if x.store.grantsNext m mo c.rest then some k else none := by
  rw [gets?, hc]

theorem gets?_go_of_none {k : Nat} {mo : Moment} (hc : x.callers[k]? = none) :
    x.gets? m (.go k mo) = none := by
  rw [gets?, hc]

end Traffic

/-! ### When the lock of a row is got -/

section Grants

variable {s s' : Store} {m id : MatchId} {mo : Moment} {t : Ticket}

theorem Store.grants_of_hasLocked {c : StoreCall} (hc : c.asks? = some (t, id))
    (h : (s.transaction t).hasLocked id = true) : s.grants m mo c = false := by
  simp [Store.grants, hc, h]

theorem Store.grants_of_ne {c : StoreCall} (hc : c.asks? = some (t, id)) (h : id ≠ m) :
    s.grants m mo c = false := by
  simp [Store.grants, hc, h]

theorem Store.grants_of_wait {c : StoreCall} (h : Store.perform mo c s = .wait s') :
    s.grants m mo c = false := by
  unfold Store.grants
  split
  · simp [h, Turn.isAnswer]
  · rfl

theorem Store.grants_of_answer {c : StoreCall} {r : c.Reply} (hc : c.asks? = some (t, id))
    (hfree : (s.transaction t).hasLocked id = false) (h : Store.perform mo c s = .answer r s') :
    s.grants id mo c = true := by
  simp [Store.grants, hc, hfree, h, Turn.isAnswer]

end Grants
end Dispatch
