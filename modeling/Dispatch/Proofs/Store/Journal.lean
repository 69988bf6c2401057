/-
What has been done at the match table, and in which order.

A `Journal` follows the moves of any number of parties.  For each transaction it keeps the calls by
which rows have been read or changed, with their answers.  When the transaction is committed they
become a block; each row that a batch update has gone through is a block of its own.  So the blocks
stand in the order in which they took effect.

`Journal.serially` is the journal of a run in which the blocks are made one after the other and
nothing else is done: each transaction is begun, makes its calls and is committed before the next one
begins.  A call finds the same moment as before, but the transactions have tickets of their own.
-/
import Dispatch.Proofs.Store.Calls

namespace Dispatch

namespace Store

/-- The calls that somebody can make.  A batch update may give rows any status. -/
def AllowsCall (s : Store) (m : Moment) : StoreCall → Prop
  | .updateRow t id _ _ => ¬ s.IsOpen t ∧ t < s.nextTicket ∧ s.MayAsk t id
  | c => s.AdmitsCall m c

/-- The moves that are possible then. -/
def Allows (s : Store) : Move → Prop
  | .call c m => s.AllowsCall m c
  | .withdraw _ | .outage _ => True

instance (s : Store) (m : Moment) : (c : StoreCall) → Decidable (s.AllowsCall m c)
  | .updateRow _ _ _ _ => inferInstanceAs (Decidable (_ ∧ _ ∧ _))
  | .begin | .find _ _ | .get _ | .list _ _ | .rollback _ | .openBatch =>
    inferInstanceAs (Decidable True)
  | .insert _ _ => inferInstanceAs (Decidable (_ ∧ _ ∧ _))
  | .lock _ _ | .update _ _ _ _ _ | .commit _ => inferInstanceAs (Decidable (_ ∧ _))

instance (s : Store) : (a : Move) → Decidable (s.Allows a)
  | .call c m => inferInstanceAs (Decidable (s.AllowsCall m c))
  | .withdraw _ | .outage _ => inferInstanceAs (Decidable True)

end Store

/-- A call by which a transaction reads or changes a row, and its answer. -/
inductive Answered where
  | insert (d : Draft) (m : Moment) (reply : Except StoreError Proposal)
  | lock (id : MatchId) (m : Moment) (reply : Except StoreError Proposal)
  | update (id : MatchId) (status : Status) (driverConfirmed passengerConfirmed : Bool)
      (m : Moment) (reply : Except StoreError Nat)

namespace Answered

/-- The call, made by the given transaction. -/
def call (t : Ticket) : Answered → StoreCall
  | insert d _ _ => .insert t d
  | lock id _ _ => .lock t id
  | update id status driver passenger _ _ => .update t id status driver passenger

/-- What the call found outside. -/
def moment : Answered → Moment
  | insert _ m _ | lock _ m _ | update _ _ _ _ m _ => m

/-- The row that the call asked for. -/
def asked? : Answered → Option MatchId
  | insert _ _ _ => none
  | lock id _ _ | update id _ _ _ _ _ => some id

/-- A row was staged or read, or one row was changed. -/
def Succeeded : Answered → Prop
  | insert _ _ reply | lock _ _ reply => ∃ r, reply = .ok r
  | update _ _ _ _ _ reply => reply = .ok 1

instance : (a : Answered) → Decidable a.Succeeded
  | insert _ _ (.ok r) | lock _ _ (.ok r) => isTrue ⟨r, rfl⟩
  | insert _ _ (.error _) | lock _ _ (.error _) => isFalse fun ⟨_, h⟩ => by cases h
  | update _ _ _ _ _ (.ok n) => decidable_of_iff (n = 1) ⟨congrArg _, Except.ok.inj⟩
  | update _ _ _ _ _ (.error _) => isFalse fun h => by cases h

end Answered

/-- Something that has taken effect. -/
inductive Block where
  /-- a transaction that has been committed -/
  | transaction (calls : List Answered) (m : Moment)
  /-- a row that a batch update has gone through, and whether it was changed -/
  | row (id : MatchId) (status : Status) (allowed : List Status) (m : Moment) (changed : Bool)

/-- All calls of a transaction have succeeded. -/
def Block.Succeeded : Block → Prop
  | transaction calls _ => ∀ a ∈ calls, a.Succeeded
  | row _ _ _ _ _ => True

instance : (b : Block) → Decidable b.Succeeded
  | .transaction calls _ => inferInstanceAs (Decidable (∀ a ∈ calls, a.Succeeded))
  | .row _ _ _ _ _ => inferInstanceAs (Decidable True)

/-- The match table, and what has been done at it. -/
structure Journal where
  store : Store := {}
  /-- what each open transaction has been answered, the first call first -/
  calls : Ticket → List Answered := fun _ => []
  /-- what has taken effect, the first block first -/
  blocks : List Block := []

namespace Journal

/-- One more call of a transaction. -/
def add (j : Journal) (t : Ticket) (a : Answered) : Journal :=
  { j with calls := Function.update j.calls t (j.calls t ++ [a]) }

/-- A transaction has ended. -/
def close (j : Journal) (t : Ticket) : Journal :=
  { j with calls := Function.update j.calls t [] }

/-- Notes a call that has been answered. -/
def note (j : Journal) (m : Moment) : (c : StoreCall) → c.Reply → Journal
  | .insert t d, reply => j.add t (.insert d m reply)
  | .lock t id, reply => j.add t (.lock id m reply)
  | .update t id status driver passenger, reply =>
    j.add t (.update id status driver passenger m reply)
  | .commit t, .ok _ => { j.close t with blocks := j.blocks ++ [.transaction (j.calls t) m] }
  | .commit t, .error _ => j.close t
  | .rollback t, _ => j.close t
  | .updateRow _ id status allowed, changed =>
    { j with blocks := j.blocks ++ [.row id status allowed m changed] }
  | .begin, _ | .find _ _, _ | .get _, _ | .list _ _, _ | .openBatch, _ => j

/-- The journal after a move.  A call that has to wait is not noted. -/
def after (j : Journal) : Store.Move → Journal
  | .call c m =>
    match Store.perform m c j.store with
    | .answer reply s => { j.note m c reply with store := s }
    | .wait s => { j with store := s }
  | a => { j with store := j.store.after a }

/-- The journal of a run. -/
def ofMoves (moves : List Store.Move) : Journal := moves.foldl after {}

variable {j : Journal}

theorem after_of_answer {c : StoreCall} {m : Moment} {reply : c.Reply} {s : Store}
    (h : Store.perform m c j.store = .answer reply s) :
    j.after (.call c m) = { j.note m c reply with store := s } := by
  rw [after, h]

theorem after_of_wait {c : StoreCall} {m : Moment} {s : Store}
    (h : Store.perform m c j.store = .wait s) :
    j.after (.call c m) = { j with store := s } := by
  rw [after, h]

/-- The store of a journal makes the moves of the run. -/
theorem store_after (j : Journal) (a : Store.Move) : (j.after a).store = j.store.after a := by
  cases a with
  | call c m =>
      show (j.after (.call c m)).store = (Store.perform m c j.store).state
      cases h : Store.perform m c j.store with
      | answer reply s => rw [after_of_answer h]; rfl
      | wait s => rw [after_of_wait h]; rfl
  | withdraw t => rfl
  | outage offline => rfl

end Journal

/-- The moves of a block that is made by itself, with the given ticket. -/
def Block.moves (t : Ticket) : Block → List Store.Move
  | transaction calls m =>
    .call .begin m :: calls.map (fun a => .call (a.call t) a.moment) ++ [.call (.commit t) m]
  | row id status allowed m _ => [.call .openBatch m, .call (.updateRow t id status allowed) m]

namespace Journal

/-- A block is made by itself, with the next ticket. -/
def make (k : Journal) (b : Block) : Journal := (b.moves k.store.nextTicket).foldl after k

/-- The journal of a run in which some blocks are made one after the other. -/
def serially (bs : List Block) : Journal := bs.foldl make {}

end Journal

/-! ### Repeating what a transaction has done

What a transaction reads is what it has staged, and below that the table.  `Replay` says that some
calls would be answered as they were if the rows were given ones: from one list of staged changes
they lead to another.
-/

/-- Calls that succeed on some rows, and what is staged before and after them. -/
inductive Replay (view : MatchId → Option Proposal) :
    List Staged → List Answered → List Staged → Prop where
  | nil (staged : List Staged) : Replay view staged [] staged
  | insert {staged staged' : List Staged} {rest : List Answered} (d : Draft) (m : Moment)
      (h : Replay view (staged ++ [.insert (d.toProposal m.freshId m.now)]) rest staged') :
      Replay view staged (.insert d m (.ok (d.toProposal m.freshId m.now)) :: rest) staged'
  | lock {staged staged' : List Staged} {rest : List Answered} (id : MatchId) (m : Moment)
      {r : Proposal} (hr : overlay view (staged.map Staged.row) id = some r)
      (h : Replay view staged rest staged') :
      Replay view staged (.lock id m (.ok r) :: rest) staged'
  | update {staged staged' : List Staged} {rest : List Answered} (id : MatchId) (status : Status)
      (driver passenger : Bool) (m : Moment) {r : Proposal}
      (hr : overlay view (staged.map Staged.row) id = some r) (hopen : r.isOpen = true)
      (h : Replay view (staged ++ [.update { r with
          status, driverConfirmed := driver, passengerConfirmed := passenger,
          updatedAt := m.now }]) rest staged') :
      Replay view staged (.update id status driver passenger m (.ok (1 : Nat)) :: rest) staged'

namespace Replay

variable {view view' : MatchId → Option Proposal} {staged staged' staged'' : List Staged}
  {calls calls' : List Answered}

/-- One after the other. -/
theorem append (h : Replay view staged calls staged') (h' : Replay view staged' calls' staged'') :
    Replay view staged (calls ++ calls') staged'' := by
  induction h with
  | nil => exact h'
  | insert d m _ ih => exact .insert d m (ih h')
  | lock id m hr _ ih => exact .lock id m hr (ih h')
  | update id status driver passenger m hr hopen _ ih =>
      exact .update id status driver passenger m hr hopen (ih h')

/-- Only the rows that are asked for matter. -/
theorem congr (h : Replay view staged calls staged')
    (hv : ∀ a ∈ calls, ∀ id, a.asked? = some id → view' id = view id) :
    Replay view' staged calls staged' := by
  have hsame : ∀ {rs : List Proposal} {id}, view' id = view id →
      overlay view' rs id = overlay view rs id := by
    intro rs id hid
    rw [overlay_apply, overlay_apply, hid]
  induction h with
  | nil staged => exact .nil staged
  | insert d m _ ih => exact .insert d m (ih fun a ha => hv a (List.mem_cons_of_mem _ ha))
  | lock id m hr _ ih =>
      refine .lock id m ?_ (ih fun a ha => hv a (List.mem_cons_of_mem _ ha))
      rw [hsame (hv _ List.mem_cons_self id rfl), hr]
  | update id status driver passenger m hr hopen _ ih =>
      refine .update id status driver passenger m ?_ hopen
        (ih fun a ha => hv a (List.mem_cons_of_mem _ ha))
      rw [hsame (hv _ List.mem_cons_self id rfl), hr]

/-- What is staged is only added to. -/
theorem isPrefix (h : Replay view staged calls staged') : staged <+: staged' := by
  induction h with
  | nil staged => exact List.prefix_refl staged
  | insert d m _ ih => exact (List.prefix_append _ _).trans ih
  | lock id m hr _ ih => exact ih
  | update id status driver passenger m hr hopen _ ih => exact (List.prefix_append _ _).trans ih

end Replay

/-! ### Tables with the same content -/

namespace Store

/-- The same rows are found, and the same open proposals of pairs. -/
structure SameTables (s s' : Store) : Prop where
  row : s'.row? = s.row?
  openPairs : ∀ p, s'.openPairs.find? p = s.openPairs.find? p

namespace SameTables

variable {s s' s'' : Store}

theorem refl (s : Store) : SameTables s s := ⟨rfl, fun _ => rfl⟩

theorem symm (h : SameTables s s') : SameTables s' s :=
  ⟨h.row.symm, fun p => (h.openPairs p).symm⟩

theorem trans (h : SameTables s s') (h' : SameTables s' s'') : SameTables s s'' :=
  ⟨h'.row.trans h.row, fun p => (h'.openPairs p).trans (h.openPairs p)⟩

theorem claimPair (h : SameTables s s') (r : Proposal) :
    SameTables (s.claimPair r) (s'.claimPair r) where
  row := by rw [row?_claimPair, row?_claimPair, h.row]
  openPairs p := by rw [find?_openPairs_claimPair, find?_openPairs_claimPair, h.openPairs]

theorem writeRow (h : SameTables s s') (r : Proposal) :
    SameTables (s.writeRow r) (s'.writeRow r) where
  row := by rw [row?_writeRow, row?_writeRow, h.row]
  openPairs p := by rw [find?_openPairs_writeRow, find?_openPairs_writeRow, h.openPairs]

theorem foldl {f : Store → Proposal → Store}
    (hf : ∀ {s s' : Store}, SameTables s s' → ∀ r, SameTables (f s r) (f s' r))
    (h : SameTables s s') (rs : List Proposal) : SameTables (rs.foldl f s) (rs.foldl f s') := by
  induction rs generalizing s s' with
  | nil => exact h
  | cons r rest ih => exact ih (hf h r)

/-- What is staged in the same way is written in the same way. -/
theorem written (h : SameTables s s') {t t' : Ticket}
    (hstaged : (s'.transaction t').staged = (s.transaction t).staged) :
    SameTables (s.written t) (s'.written t') := by
  unfold Store.written Transaction.newRows
  rw [hstaged]
  exact foldl writeRow (foldl claimPair h _) _

/-- A pair is free in both tables or in neither. -/
theorem freeInTurn (h : SameTables s s') {rs : List Proposal} (hfree : s.FreeInTurn rs) :
    s'.FreeInTurn rs := by
  induction rs generalizing s s' with
  | nil => trivial
  | cons r rest ih => exact ⟨(h.openPairs r.pair).trans hfree.1, ih (h.claimPair r) hfree.2⟩

theorem forgetLockIfAbsent (h : SameTables s s') (id : MatchId) :
    SameTables (s.forgetLockIfAbsent id) (s'.forgetLockIfAbsent id) := by
  have hforget : ∀ s : Store, SameTables s (s.forgetLockIfAbsent id) := by
    intro s
    unfold Store.forgetLockIfAbsent
    split
    · exact refl s
    · exact ⟨rfl, fun _ => rfl⟩
  exact ((hforget s).symm.trans h).trans (hforget s')

/-- A row of a batch update is changed in both tables or in neither. -/
theorem updateRow (h : SameTables s s') (id : MatchId) (status : Status) (allowed : List Status)
    (now : Time.Instant) :
    (s'.updateRow id status allowed now).1 = (s.updateRow id status allowed now).1 ∧
      SameTables (s.updateRow id status allowed now).2 (s'.updateRow id status allowed now).2 := by
  unfold Store.updateRow
  rw [h.row]
  cases s.row? id with
  | none => exact ⟨rfl, h.forgetLockIfAbsent id⟩
  | some r =>
      by_cases hr : r.status ∈ allowed
      · simp only [if_pos hr, true_and]
        exact h.writeRow _
      · simp only [if_neg hr, true_and]
        exact h

end SameTables

/-- Once a batch update has got the lock of a row, the locks do not matter. -/
theorem updateRow_answer {s s' : Store} {t : Ticket} {id : MatchId} {status : Status}
    {allowed : List Status} {m : Moment} {changed : Bool}
    (h : perform m (.updateRow t id status allowed) s = .answer changed s') :
    changed = (s.updateRow id status allowed m.now).1 ∧
      SameTables (s.updateRow id status allowed m.now).2 s' := by
  rw [perform] at h
  rcases hreq : s.locks.request t id with ⟨_ | l, locks⟩
  · rw [s.updateLocked_waits hreq] at h
    cases h
  · rw [s.updateLocked_granted hreq] at h
    cases h
    have hlocks : SameTables s { s with locks } := ⟨rfl, fun _ => rfl⟩
    obtain ⟨hchanged, htables⟩ := hlocks.updateRow id status allowed m.now
    exact ⟨hchanged, htables.trans ⟨rfl, fun _ => rfl⟩⟩

end Store
end Dispatch
