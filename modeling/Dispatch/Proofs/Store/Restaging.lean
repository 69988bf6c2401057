/-
What a transaction has staged is its own affair.

Nobody but the transaction itself looks at what it has staged.  So if it had staged other changes,
every call of somebody else would be answered in the same way and would lead to the same table, but
for these changes (`perform_restage`).

It takes a proof because transactions share a table: a call of somebody else may rewrite an entry
of it, append one or drop one, and the changed entry has to stay where it stands.  `Table.adjust`
changes an entry in place, and so it can be done before or after writing any other one.
-/
import Dispatch.Proofs.Store.Absence

namespace Dispatch

/-! ### Changing an entry in place -/

namespace Table

variable {κ α : Type} [DecidableEq κ] (w : Table κ α) {k x : κ} {f : α → α}

/-- Changes what stands under a key, if anything does. -/
def adjust (k : κ) (f : α → α) : Table κ α where
  entries := w.entries.map fun e => if e.1 = k then (e.1, f e.2) else e
  nodup_keys := by
    have hkeys : (fun e : κ × α => (if e.1 = k then (e.1, f e.2) else e).1) = Prod.fst := by
      funext e
      split <;> rfl
    rw [List.map_map, Function.comp_def, hkeys]
    exact w.nodup_keys

theorem find?_adjust : (w.adjust k f).find? x = if x = k then (w.find? x).map f else w.find? x := by
  obtain ⟨l, hl⟩ := w
  simp only [find?, adjust]
  clear hl
  induction l with
  | nil => simp [lookupIn]
  | cons e rest ih =>
      obtain ⟨k', a⟩ := e
      rw [List.map_cons, lookupIn]
      by_cases hk : k' = k
      · subst hk
        rw [if_pos rfl, lookupIn, ih]
        by_cases hx : k' = x
        · simp [hx]
        · simp [hx]
      · rw [if_neg hk, lookupIn, ih]
        by_cases hx : k' = x
        · simp [hx, hx ▸ hk]
        · simp [hx]

theorem insert_adjust (a : α) (h : x ≠ k) :
    (w.adjust k f).insert x a = (w.insert x a).adjust k f := by
  obtain ⟨l, hl⟩ := w
  simp only [insert, adjust, mk.injEq]
  clear hl
  induction l with
  | nil => simp [putIn, h]
  | cons e rest ih =>
      obtain ⟨k', b⟩ := e
      rw [List.map_cons]
      by_cases hx : k' = x
      · subst hx
        simp [putIn, h]
      · by_cases hk : k' = k
        · simp [putIn, hk, hk ▸ hx, ih]
        · simp [putIn, hx, hk, ih]

theorem erase_adjust : (w.adjust k f).erase x = (w.erase x).adjust k f := by
  simp only [erase, adjust, mk.injEq, List.filter_map]
  have hkey : ((fun e : κ × α => decide (e.1 ≠ x)) ∘ fun e => if e.1 = k then (e.1, f e.2) else e) =
      fun e => decide (e.1 ≠ x) := by
    funext e
    simp only [Function.comp]
    split <;> rfl
  rw [hkey]

/-- Changing an entry into itself changes nothing. -/
theorem adjust_self (h : ∀ a, w.find? k = some a → f a = a) : w.adjust k f = w := by
  have hentry : ∀ e ∈ w.entries, (if e.1 = k then (e.1, f e.2) else e) = e := by
    intro e he
    split
    · rename_i hk
      subst hk
      rw [h e.2 (w.find?_eq_some_iff.2 he)]
    · rfl
  obtain ⟨l, hl⟩ := w
  simp only [adjust, mk.injEq]
  exact (List.map_congr_left hentry).trans (List.map_id l)

end Table

namespace Store

variable (s : Store) {t u : Ticket} {changes : List Staged} {m : Moment}

/-- The table in which a transaction has staged other changes. -/
def restage (t : Ticket) (changes : List Staged) : Store :=
  { s with transactions := s.transactions.adjust t fun x => { x with staged := changes } }

theorem row?_restage : (s.restage t changes).row? = s.row? := rfl

theorem openPairs_restage : (s.restage t changes).openPairs = s.openPairs := rfl

theorem locks_restage : (s.restage t changes).locks = s.locks := rfl

theorem offline_restage : (s.restage t changes).offline = s.offline := rfl

/-- Staging what has been staged changes nothing. -/
theorem restage_self : s.restage t (s.transaction t).staged = s := by
  have hsame : ∀ x, s.transactions.find? t = some x →
      { x with staged := (s.transaction t).staged } = x := by
    intro x hx
    rw [transaction, hx]
    rfl
  rw [restage, s.transactions.adjust_self hsame]

theorem isOpen_restage : (s.restage t changes).IsOpen u ↔ s.IsOpen u := by
  unfold Store.IsOpen restage
  rw [Table.find?_adjust]
  split
  · rw [Option.isSome_map]
  · rfl

/-- What the others have staged and locked is what it was. -/
theorem transaction_restage_of_ne (hu : u ≠ t) :
    (s.restage t changes).transaction u = s.transaction u := by
  unfold transaction restage
  rw [Table.find?_adjust, if_neg hu]

theorem staged_restage_nil : ((s.restage t []).transaction t).staged = [] := by
  unfold transaction restage
  rw [Table.find?_adjust, if_pos rfl]
  cases s.transactions.find? t <;> rfl

theorem transaction_restage (h : s.IsOpen t) :
    (s.restage t changes).transaction t = { s.transaction t with staged := changes } := by
  obtain ⟨x, hx⟩ := Option.isSome_iff_exists.mp h
  unfold transaction restage
  rw [Table.find?_adjust, if_pos rfl, hx]
  rfl

/-- The locks are held by those who held them. -/
theorem held_restage : (s.restage t changes).held = s.held := by
  funext u
  unfold held
  by_cases hu : u = t
  · subst hu
    unfold transaction restage
    rw [Table.find?_adjust, if_pos rfl]
    cases s.transactions.find? u <;> rfl
  · rw [s.transaction_restage_of_ne hu]

theorem setTransaction_restage (hu : u ≠ t) (x : Transaction) :
    (s.restage t changes).setTransaction u x = (s.setTransaction u x).restage t changes := by
  simp only [setTransaction, restage, Table.insert_adjust _ _ hu]

theorem current?_restage (hu : u ≠ t) (id : MatchId) :
    (s.restage t changes).current? u id = s.current? u id := by
  rw [current?, s.transaction_restage_of_ne hu]
  rfl

/-! ### Writing -/

theorem writeRow_restage (r : Proposal) :
    (s.restage t changes).writeRow r = (s.writeRow r).restage t changes := by
  unfold writeRow releasePair
  rw [openPairs_restage]
  split <;> rfl

theorem foldl_restage {f : Store → Proposal → Store}
    (hf : ∀ s r, f (s.restage t changes) r = (f s r).restage t changes) (rs : List Proposal) :
    rs.foldl f (s.restage t changes) = (rs.foldl f s).restage t changes := by
  induction rs generalizing s with
  | nil => rfl
  | cons r rest ih => rw [List.foldl_cons, hf, ih, List.foldl_cons]

theorem claimAll_restage (claimed new : List Proposal) :
    claimAll claimed new (s.restage t changes) =
      ((claimAll claimed new s).1, (claimAll claimed new s).2.restage t changes) := by
  induction new generalizing s claimed with
  | nil => rfl
  | cons r rest ih =>
      have hback : claimed.foldl unclaimPair (s.restage t changes) =
          (claimed.foldl unclaimPair s).restage t changes :=
        s.foldl_restage (fun _ _ => rfl) claimed
      have hon := ih (s.claimPair r) (claimed ++ [r])
      rw [claimAll, claimAll, openPairs_restage]
      split
      · rw [hback]
      · exact hon

/-! ### Locks -/

theorem forgetLockIfAbsent_restage (id : MatchId) :
    (s.restage t changes).forgetLockIfAbsent id =
      (s.forgetLockIfAbsent id).restage t changes := by
  have hrows : (s.restage t changes).rows = s.rows := rfl
  unfold forgetLockIfAbsent
  rw [hrows]
  split <;> rfl

theorem lockRow_restage (hu : u ≠ t) (id : MatchId) : (s.restage t changes).lockRow u id =
    ((s.lockRow u id).1, (s.lockRow u id).2.restage t changes) := by
  unfold lockRow
  rw [s.transaction_restage_of_ne hu, locks_restage]
  dsimp only
  split
  · rfl
  · rcases s.locks.request u id with ⟨_ | l, locks⟩
    · rfl
    · exact congrArg (Prod.mk true) (setTransaction_restage { s with locks } hu _)

theorem unlockRow_restage (hu : u ≠ t) (id : MatchId) :
    (s.restage t changes).unlockRow u id = (s.unlockRow u id).restage t changes := by
  unfold unlockRow
  rw [s.transaction_restage_of_ne hu]
  exact setTransaction_restage { s with locks := _ } hu _

theorem readLocked_restage (hu : u ≠ t) (id : MatchId) : (s.restage t changes).readLocked u id =
    ((s.readLocked u id).1, (s.readLocked u id).2.restage t changes) := by
  unfold readLocked
  rw [s.current?_restage hu, s.unlockRow_restage hu, forgetLockIfAbsent_restage]
  cases s.current? u id <;> rfl

theorem beginTransaction_restage (hnew : s.nextTicket ≠ t) :
    (s.restage t changes).beginTransaction =
      (s.beginTransaction.1, s.beginTransaction.2.restage t changes) := by
  have hset : (s.restage t changes).setTransaction s.nextTicket {} =
      (s.setTransaction s.nextTicket {}).restage t changes := s.setTransaction_restage hnew {}
  show (s.nextTicket, { (s.restage t changes).setTransaction s.nextTicket {} with
    nextTicket := s.nextTicket + 1 }) = _
  rw [hset]
  rfl

theorem endTransaction_restage (hu : u ≠ t) :
    (s.restage t changes).endTransaction u = (s.endTransaction u).restage t changes := by
  unfold endTransaction
  rw [s.transaction_restage_of_ne hu]
  simp only [restage, Table.erase_adjust]

/-! ### Staging and committing -/

theorem stageInsert_restage (hu : u ≠ t) (d : Draft) (id : MatchId) (now : Time.Instant) :
    (s.restage t changes).stageInsert u d id now =
      ((s.stageInsert u d id now).1, (s.stageInsert u d id now).2.restage t changes) := by
  unfold stageInsert
  rw [s.transaction_restage_of_ne hu, openPairs_restage]
  dsimp only
  rw [s.setTransaction_restage hu]
  split <;> rfl

theorem stageUpdate_restage (hu : u ≠ t) (id : MatchId) (status : Status)
    (driver passenger : Bool) (now : Time.Instant) :
    (s.restage t changes).stageUpdate u id status driver passenger now =
      ((s.stageUpdate u id status driver passenger now).1,
        (s.stageUpdate u id status driver passenger now).2.restage t changes) := by
  unfold stageUpdate
  rw [s.current?_restage hu, s.transaction_restage_of_ne hu]
  cases s.current? u id with
  | none => rfl
  | some r =>
      dsimp only
      rw [s.setTransaction_restage hu]
      split <;> rfl

theorem writeStaged_restage (hu : u ≠ t) :
    (s.restage t changes).writeStaged u = (s.writeStaged u).restage t changes := by
  unfold writeStaged
  rw [s.transaction_restage_of_ne hu]
  exact s.foldl_restage (fun s r => s.writeRow_restage r) _

theorem commit_restage (hu : u ≠ t) : (s.restage t changes).commit u =
    ((s.commit u).1, (s.commit u).2.restage t changes) := by
  unfold commit claimStaged
  rw [s.transaction_restage_of_ne hu, offline_restage, claimAll_restage]
  split
  · rw [s.endTransaction_restage hu]
  · rcases claimAll [] _ s with ⟨e | ⟨⟩, s'⟩
    · exact congrArg (Prod.mk _) (s'.endTransaction_restage hu)
    · dsimp only
      rw [s'.writeStaged_restage hu, endTransaction_restage _ hu]

theorem updateRow_restage (id : MatchId) (status : Status) (allowed : List Status)
    (now : Time.Instant) : (s.restage t changes).updateRow id status allowed now =
      ((s.updateRow id status allowed now).1,
        (s.updateRow id status allowed now).2.restage t changes) := by
  unfold updateRow
  rw [row?_restage]
  cases s.row? id with
  | none => exact congrArg (Prod.mk false) (s.forgetLockIfAbsent_restage id)
  | some r =>
      dsimp only
      rw [s.writeRow_restage]
      split <;> rfl

/-! ### Calls -/

theorem withLock_restage {α : Type} (hu : u ≠ t) (id : MatchId)
    {f : Store → Except StoreError α × Store}
    (hf : ∀ s, f (s.restage t changes) = ((f s).1, (f s).2.restage t changes)) :
    (s.restage t changes).withLock u id f = (s.withLock u id f).mapState (restage · t changes) := by
  unfold withLock
  rw [s.lockRow_restage hu, offline_restage, locks_restage]
  split
  · rfl
  · rcases s.lockRow u id with ⟨_ | _, s'⟩
    · rfl
    · dsimp only
      rw [hf]
      rfl

theorem updateLocked_restage (id : MatchId) (status : Status) (allowed : List Status)
    (now : Time.Instant) : (s.restage t changes).updateLocked u id status allowed now =
      (s.updateLocked u id status allowed now).mapState (restage · t changes) := by
  rcases hreq : s.locks.request u id with ⟨_ | l, locks⟩
  · rw [s.updateLocked_waits hreq, (s.restage t changes).updateLocked_waits hreq]
    rfl
  · rw [s.updateLocked_granted hreq, (s.restage t changes).updateLocked_granted hreq]
    exact congrArg
      (fun p : Bool × Store => Turn.answer p.1 { p.2 with locks := p.2.locks.leave l u })
      (updateRow_restage { s with locks } id status allowed now)

/-- **Nobody looks at what somebody else has staged.** -/
theorem perform_restage {c : StoreCall} (hc : c.ticket? ≠ some t) (hnew : s.nextTicket ≠ t) :
    perform m c (s.restage t changes) = (perform m c s).mapState (restage · t changes) := by
  have hne {u : Ticket} (h : some u ≠ some t) : u ≠ t := fun he => h (congrArg some he)
  cases c with
  | begin =>
      rw [perform, perform, s.beginTransaction_restage hnew, offline_restage]
      split <;> rfl
  | find driver passenger => rfl
  | get id => rfl
  | list actor role => rfl
  | insert u d =>
      rw [perform, perform, s.stageInsert_restage (hne hc), offline_restage]
      split <;> rfl
  | lock u id => exact s.withLock_restage (hne hc) id fun s => s.readLocked_restage (hne hc) id
  | update u id status driver passenger =>
      refine s.withLock_restage (hne hc) id fun s => ?_
      rw [s.stageUpdate_restage (hne hc)]
  | commit u =>
      rw [perform, perform, s.commit_restage (hne hc)]
      rfl
  | rollback u =>
      rw [perform, perform, s.endTransaction_restage (hne hc)]
      rfl
  | openBatch =>
      rw [perform, perform, offline_restage]
      split <;> rfl
  | updateRow u id status allowed => exact s.updateLocked_restage id status allowed m.now

end Store

/-- The locks are in order whatever has been staged. -/
theorem LocksOK.restage {s : Store} (ok : LocksOK s) {t : Ticket} {changes : List Staged} :
    LocksOK (s.restage t changes) :=
  ok.congr rfl (congrFun s.held_restage) (fun _ => Iff.rfl)
    (fun _ h => Or.inl (s.isOpen_restage.1 h)) (Nat.le_refl _)

end Dispatch
