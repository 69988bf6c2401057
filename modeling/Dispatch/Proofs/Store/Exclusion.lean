/-
Row locks are exclusive.

`LocksOK` says of a match table that its lines agree with what its transactions hold
(`LinesOK`), and that tickets are drawn in order.  Every operation keeps it.  There is one
that needs care: entering a row.  Until then nothing was asked of those in line for the row,
and some of them may stand at a lock that has been forgotten; so a row may only be entered
when nobody does.
-/
import Dispatch.Proofs.Store.Asking
import Dispatch.Proofs.Store.Moves

namespace Dispatch

/-- The locks of a match table are in order. -/
structure LocksOK (s : Store) : Prop where
  lines : ∃ rowOf, LinesOK s.locks s.held rowOf s.Exists
  open_lt : ∀ {t}, s.IsOpen t → t < s.nextTicket
  waiting_lt : ∀ {t w}, s.locks.waiting.find? t = some w → t < s.nextTicket

namespace Store

theorem held_setTransaction (s : Store) (t : Ticket) (x : Transaction) :
    (s.setTransaction t x).held = Function.update s.held t x.held := by
  funext u
  show ((s.setTransaction t x).transaction u).held = _
  rw [transaction_setTransaction]
  by_cases hu : u = t
  · subst u
    rw [if_pos rfl, Function.update_self]
  · rw [if_neg hu, Function.update_of_ne hu]; rfl

theorem held_endTransaction (s : Store) (t : Ticket) :
    (s.endTransaction t).held = Function.update s.held t [] := by
  funext u
  show ((s.endTransaction t).transaction u).held = _
  rw [transaction_endTransaction]
  by_cases hu : u = t
  · subst u
    rw [if_pos rfl, Function.update_self]
  · rw [if_neg hu, Function.update_of_ne hu]; rfl

theorem held_of_not_isOpen (s : Store) {t : Ticket} (h : ¬ s.IsOpen t) : s.held t = [] := by
  show (s.transaction t).held = []
  rw [s.transaction_of_not_isOpen h]

theorem hasLocked_iff (s : Store) (t : Ticket) (id : MatchId) :
    (s.transaction t).hasLocked id = true ↔ ∃ l, (id, l) ∈ s.held t := by
  unfold Transaction.hasLocked
  rw [List.any_eq_true]
  constructor
  · rintro ⟨⟨x, l⟩, hmem, hx⟩
    obtain rfl : x = id := by simpa using hx
    exact ⟨l, hmem⟩
  · rintro ⟨l, hmem⟩
    exact ⟨(id, l), hmem, by simp⟩

variable {s : Store} {t : Ticket} {id : MatchId} {status : Status} {allowed : List Status}
  {now : Time.Instant}

theorem updateRow_of_none (h : s.row? id = none) :
    s.updateRow id status allowed now = (false, s.forgetLockIfAbsent id) := by
  rw [updateRow, h]

theorem updateRow_of_mem {r : Proposal} (h : s.row? id = some r) (hr : r.status ∈ allowed) :
    s.updateRow id status allowed now = (true, s.writeRow { r with status, updatedAt := now }) := by
  rw [updateRow, h]
  exact if_pos hr

theorem updateRow_of_not_mem {r : Proposal} (h : s.row? id = some r) (hr : r.status ∉ allowed) :
    s.updateRow id status allowed now = (false, s) := by
  rw [updateRow, h]
  exact if_neg hr

theorem updateLocked_waits (s : Store) {locks : RowLocks}
    (h : s.locks.request t id = (none, locks)) :
    s.updateLocked t id status allowed now = .wait { s with locks } := by
  rw [updateLocked, h]

theorem updateLocked_granted (s : Store) {l : LockId} {locks : RowLocks}
    (h : s.locks.request t id = (some l, locks)) :
    s.updateLocked t id status allowed now =
      .answer (updateRow { s with locks } id status allowed now).1
        { (updateRow { s with locks } id status allowed now).2 with
          locks := (updateRow { s with locks } id status allowed now).2.locks.leave l t } := by
  rw [updateLocked, h]

end Store

namespace LocksOK

variable {s : Store}

theorem empty : LocksOK {} where
  lines := by
    refine ⟨fun _ => Uuid.nil, ?_⟩
    have hline : ∀ l, (({} : Store).locks.line l) = [] := fun _ => rfl
    have hheld : ∀ t, ({} : Store).held t = [] := fun _ => rfl
    have hin : ∀ t x l, ¬ ({} : Store).locks.InLine ({} : Store).held t x l := by
      rintro t x l (h | h)
      · rw [hheld] at h; cases h
      · cases h
    constructor
    · intro t x l h; rw [hheld] at h; cases h
    · intro t x l h; cases h
    · intro t l h; rw [hline] at h; cases h
    · intro t x l h; exact absurd h (hin t x l)
    · intro x l h; cases h
    · intro t l h; rw [hline] at h; cases h
    · intro x l h; cases h
    · intro l; rw [hline]; exact List.nodup_nil
    · intro t x l h; cases h
    · intro t; rw [hheld]; exact List.nodup_nil
    · intro t x l h; exact absurd h (hin t x l)
  open_lt h := by cases h
  waiting_lt h := by cases h

/-- **Two transactions never hold the lock of the same row**, if the row exists. -/
theorem exclusive (ok : LocksOK s) {t u : Ticket} {x : MatchId} {l l' : LockId}
    (ht : (x, l) ∈ s.held t) (hu : (x, l') ∈ s.held u) (hx : s.Exists x) : t = u := by
  obtain ⟨rowOf, lines⟩ := ok.lines
  exact lines.exclusive ht hu hx

/-- Nothing changes if neither the lines nor the rows in existence do. -/
theorem congr (ok : LocksOK s) {s' : Store} (hlocks : s'.locks = s.locks)
    (hheld : ∀ t, s'.held t = s.held t) (hrow : ∀ x, s'.Exists x ↔ s.Exists x)
    (hopen : ∀ t, s'.IsOpen t → s.IsOpen t ∨ t < s'.nextTicket)
    (hnext : s.nextTicket ≤ s'.nextTicket) : LocksOK s' where
  lines := by
    obtain ⟨rowOf, lines⟩ := ok.lines
    refine ⟨rowOf, (lines.congr ?_ ?_ ?_ ?_ hheld).enter ?_⟩
    · intro l; rw [hlocks]
    · intro t; rw [hlocks]
    · intro x; rw [hlocks]
    · rw [hlocks]
    · intro x hx; exact Or.inl ((hrow x).1 hx)
  open_lt h := (hopen _ h).elim (fun h => Nat.lt_of_lt_of_le (ok.open_lt h) hnext) id
  waiting_lt h := by
    rw [hlocks] at h
    exact Nat.lt_of_lt_of_le (ok.waiting_lt h) hnext

theorem not_isOpen_nextTicket (ok : LocksOK s) : ¬ s.IsOpen s.nextTicket :=
  fun h => Nat.lt_irrefl _ (ok.open_lt h)

/-- Whoever has locked a row waits for none. -/
theorem waiting_eq_none_of_held (ok : LocksOK s) {t : Ticket} {x : MatchId} {l : LockId}
    (hask : s.MayAsk t x) (h : (x, l) ∈ s.held t) : s.locks.waiting.find? t = none := by
  obtain ⟨rowOf, lines⟩ := ok.lines
  cases hw : s.locks.waiting.find? t with
  | none => rfl
  | some w =>
      obtain ⟨y, l'⟩ := w
      obtain rfl : y = x := hask _ hw
      exact absurd rfl (lines.apart hw _ h)

/-! ### Beginning -/

theorem beginTransaction (ok : LocksOK s) : LocksOK s.beginTransaction.2 := by
  refine ok.congr rfl ?_ (fun _ => Iff.rfl) ?_ (Nat.le_succ _)
  · intro t
    show (s.setTransaction s.nextTicket {}).held t = _
    rw [Store.held_setTransaction]
    by_cases ht : t = s.nextTicket
    · subst t
      rw [Function.update_self, s.held_of_not_isOpen ok.not_isOpen_nextTicket]
    · rw [Function.update_of_ne ht]
  · intro t ht
    rcases (s.isOpen_setTransaction s.nextTicket t {}).1 ht with rfl | h
    · exact Or.inr (Nat.lt_succ_self _)
    · exact Or.inl h

theorem openBatch (ok : LocksOK s) : LocksOK s.openBatch.2 :=
  ok.congr rfl (fun _ => rfl) (fun _ => Iff.rfl) (fun _ h => Or.inl h) (Nat.le_succ _)

/-- Staging something needs no locks. -/
theorem stage (ok : LocksOK s) {t : Ticket} (ht : s.IsOpen t) (staged : List Staged) :
    LocksOK (s.setTransaction t { s.transaction t with staged }) := by
  refine ok.congr rfl ?_ (fun _ => Iff.rfl) ?_ (Nat.le_refl _)
  · intro u
    rw [Store.held_setTransaction]
    by_cases hu : u = t
    · subst u; rw [Function.update_self]; rfl
    · rw [Function.update_of_ne hu]
  · intro u hu
    rcases (s.isOpen_setTransaction t u _).1 hu with rfl | h
    · exact Or.inl ht
    · exact Or.inl h

/-! ### Rows -/

/-- Rows may be written.  A row that is new needs that nobody is in line for it but at the
right lock. -/
theorem write (ok : LocksOK s) {s' : Store} (hlocks : s'.locks = s.locks)
    (htrans : s'.transactions = s.transactions) (hnext : s'.nextTicket = s.nextTicket)
    (hrow : ∀ x, s'.Exists x → s.Exists x ∨
      ∀ t l, s.locks.InLine s.held t x l → s.locks.names.find? x = some l) : LocksOK s' where
  lines := by
    obtain ⟨rowOf, lines⟩ := ok.lines
    have hheld : s'.held = s.held := by
      funext t
      show ((s'.transactions.find? t).getD {}).held = _
      rw [htrans]
      rfl
    refine ⟨rowOf, ?_⟩
    rw [hlocks, hheld]
    exact lines.enter hrow
  open_lt h := by
    rw [hnext]
    unfold Store.IsOpen at h
    rw [htrans] at h
    exact ok.open_lt h
  waiting_lt h := by
    rw [hlocks] at h
    rw [hnext]
    exact ok.waiting_lt h

theorem forgetLockIfAbsent (ok : LocksOK s) (id : MatchId) :
    LocksOK (s.forgetLockIfAbsent id) := by
  unfold Store.forgetLockIfAbsent
  split
  · exact ok
  · rename_i habsent
    obtain ⟨rowOf, lines⟩ := ok.lines
    exact ⟨⟨rowOf, lines.forget habsent⟩, ok.open_lt, ok.waiting_lt⟩

/-! ### Asking and leaving -/

/-- Only those wait who have drawn a ticket. -/
theorem waiting_lt_request (ok : LocksOK s) {t : Ticket} (ht : t < s.nextTicket) (id : MatchId)
    {u : Ticket} {w : MatchId × LockId}
    (hw : (s.locks.request t id).2.waiting.find? u = some w) : u < s.nextTicket := by
  by_cases hu : u = t
  · subst u
    exact ht
  · rw [LinesOK.waiting_request s.locks id hu] at hw
    exact ok.waiting_lt hw

/-- What can come of asking for a row: it was locked before, or the lock is granted, or the
transaction waits for it. -/
theorem lockRow_cases (ok : LocksOK s) {t : Ticket} {id : MatchId} (ht : s.IsOpen t)
    (hask : s.MayAsk t id) :
    (∃ l, s.lockRow t id = (true, s) ∧ (id, l) ∈ s.held t) ∨
    (∃ l locks, s.lockRow t id = (true, { s with locks }.setTransaction t
        { s.transaction t with held := s.held t ++ [(id, l)] }) ∧
      locks.waiting.find? t = none ∧
      (∀ u, u ≠ t → locks.waiting.find? u = s.locks.waiting.find? u) ∧
      LocksOK ({ s with locks }.setTransaction t
        { s.transaction t with held := s.held t ++ [(id, l)] })) ∨
    (∃ l locks, s.lockRow t id = (false, { s with locks }) ∧
      locks.waiting.find? t = some (id, l) ∧ (∃ u l', u ≠ t ∧ s.locks.InLine s.held u id l') ∧
      (∀ u, u ≠ t → locks.waiting.find? u = s.locks.waiting.find? u) ∧
      LocksOK { s with locks }) := by
  unfold Store.lockRow
  by_cases hhas : (s.transaction t).hasLocked id = true
  · obtain ⟨l, hl⟩ := (s.hasLocked_iff t id).1 hhas
    exact Or.inl ⟨l, by simp [hhas], hl⟩
  right
  have hheld : ∀ h ∈ s.held t, h.1 ≠ id := by
    rintro ⟨x, l⟩ hmem rfl
    exact hhas ((s.hasLocked_iff t _).2 ⟨l, hmem⟩)
  obtain ⟨rowOf, lines⟩ := ok.lines
  have hreq := lines.request hask hheld
  have hother : ∀ u, u ≠ t → (s.locks.request t id).2.waiting.find? u = s.locks.waiting.find? u :=
    fun u hu => LinesOK.waiting_request s.locks id hu
  have hlt : ∀ {u w}, (s.locks.request t id).2.waiting.find? u = some w → u < s.nextTicket :=
    ok.waiting_lt_request (ok.open_lt ht) id
  simp only [if_neg hhas]
  rcases hr : s.locks.request t id with ⟨_ | l, locks⟩
  · rw [hr] at hreq hother hlt
    obtain ⟨⟨l, hwait⟩, rowOf', lines'⟩ := hreq
    have hsome := lines.others_of_not_granted hask hheld (by rw [hr])
    exact Or.inr ⟨l, locks, rfl, hwait, hsome, hother, ⟨rowOf', lines'⟩, ok.open_lt, hlt⟩
  · rw [hr] at hreq hother hlt
    obtain ⟨hwait, rowOf', lines'⟩ := hreq
    refine Or.inl ⟨l, locks, rfl, hwait, hother, ⟨rowOf', ?_⟩, ?_, hlt⟩
    · rw [Store.held_setTransaction]
      exact lines'
    · intro u hu
      rcases (Store.isOpen_setTransaction _ t u _).1 hu with rfl | h
      · exact ok.open_lt ht
      · exact ok.open_lt h

/-- The locks that a transaction holds for a row can be let go. -/
theorem unlockRow (ok : LocksOK s) {t : Ticket} (ht : s.IsOpen t) (id : MatchId) :
    LocksOK (s.unlockRow t id) := by
  obtain ⟨rowOf, lines⟩ := ok.lines
  have hsub : ((s.held t).filter fun h => h.1 == id).Sublist (s.held t) := List.filter_sublist
  have hall := lines.leaveAll _ (fun h hh => hsub.subset hh) ((hsub.map Prod.fst).nodup (lines.once t))
  refine ⟨⟨rowOf, ?_⟩, ?_, ?_⟩
  · show LinesOK _ (Store.held (Store.setTransaction _ t _)) _ _
    rw [Store.held_setTransaction]
    refine hall.congr (fun _ => rfl) (fun _ => rfl) (fun _ => rfl) rfl ?_
    intro u
    by_cases hu : u = t
    · subst u
      rw [Function.update_self, Function.update_self]
      refine List.filter_congr fun h hh => ?_
      by_cases hx : h.1 = id
      · have hin : h.1 ∈ ((s.held t).filter fun h => h.1 == id).map Prod.fst :=
          List.mem_map.mpr ⟨h, List.mem_filter.mpr ⟨hh, by simpa using hx⟩, rfl⟩
        simp [hx] at hin ⊢
        exact hin
      · have hnot : h.1 ∉ ((s.held t).filter fun h => h.1 == id).map Prod.fst := by
          intro hin
          obtain ⟨h', hmem, he⟩ := List.mem_map.mp hin
          have hid : h'.1 = id := by simpa using (List.mem_filter.mp hmem).2
          exact hx (he.symm.trans hid)
        simp only [hnot, not_false_eq_true, decide_true]
        simpa using hx
    · rw [Function.update_of_ne hu, Function.update_of_ne hu]; rfl
  · intro u hu
    rcases (Store.isOpen_setTransaction _ t u _).1 hu with rfl | h
    · exact ok.open_lt ht
    · exact ok.open_lt h
  · intro u w hw
    have hsame : (s.unlockRow t id).locks.waiting = s.locks.waiting :=
      LinesOK.waiting_leaveAll _ _ _
    rw [hsame] at hw
    exact ok.waiting_lt hw

theorem giveUp (ok : LocksOK s) (t : Ticket) : LocksOK { s with locks := s.locks.giveUp t } := by
  obtain ⟨rowOf, lines⟩ := ok.lines
  refine ⟨⟨rowOf, lines.giveUp t⟩, ok.open_lt, ?_⟩
  intro u w hw
  change (s.locks.giveUp t).waiting.find? u = some w at hw
  rw [LinesOK.waiting_giveUp] at hw
  split at hw
  · cases hw
  · exact ok.waiting_lt hw

theorem endTransaction (ok : LocksOK s) (t : Ticket) : LocksOK (s.endTransaction t) := by
  obtain ⟨rowOf, lines⟩ := (ok.giveUp t).lines
  have hall := lines.leaveAll (s.held t) (fun h hh => hh) (lines.once t)
  refine ⟨⟨rowOf, ?_⟩, ?_, ?_⟩
  · rw [Store.held_endTransaction]
    refine hall.congr (fun _ => rfl) (fun _ => rfl) (fun _ => rfl) rfl ?_
    intro u
    by_cases hu : u = t
    · subst u
      rw [Function.update_self, Function.update_self, eq_comm, List.filter_eq_nil_iff]
      intro h hh
      simpa using ⟨h.2, hh⟩
    · rw [Function.update_of_ne hu, Function.update_of_ne hu]; rfl
  · intro u hu
    exact ok.open_lt ((s.isOpen_endTransaction t u).1 hu).2
  · intro u w hw
    rw [s.waiting_endTransaction] at hw
    split at hw
    · cases hw
    · exact ok.waiting_lt hw

/-! ### Batch updates

A batch update holds a lock only within a call, and no transaction holds it then.
-/

/-- What can come of one row of a batch update: it waits, or it leaves the row as it is, or
it writes the row, which nobody else has locked. -/
theorem updateLocked_cases (ok : LocksOK s) {t : Ticket} {id : MatchId} {status : Status}
    {allowed : List Status} {now : Time.Instant} (hopen : ¬ s.IsOpen t) (hlt : t < s.nextTicket)
    (hask : s.MayAsk t id) :
    ∃ locks, LocksOK { s with locks } ∧
      (∀ u, u ≠ t → locks.waiting.find? u = s.locks.waiting.find? u) ∧
      ((∃ l, s.updateLocked t id status allowed now = .wait { s with locks } ∧
          locks.waiting.find? t = some (id, l) ∧
          ∃ u l', u ≠ t ∧ s.locks.InLine s.held u id l') ∨
        (locks.waiting.find? t = none ∧ (∀ u l, s.Exists id → (id, l) ∉ s.held u) ∧
          ((s.updateLocked t id status allowed now = .answer false { s with locks } ∧
              ∀ r, s.row? id = some r → r.status ∉ allowed) ∨
            ∃ r, s.row? id = some r ∧ r.status ∈ allowed ∧
              s.updateLocked t id status allowed now
                = .answer true ({ s with locks }.writeRow { r with status, updatedAt := now })))) := by
  have hnone : s.held t = [] := s.held_of_not_isOpen hopen
  obtain ⟨rowOf, lines⟩ := ok.lines
  have hheld : ∀ h ∈ s.held t, h.1 ≠ id := by rw [hnone]; intro h hh; cases hh
  have hreq := lines.request hask hheld
  have hother : ∀ u, u ≠ t → (s.locks.request t id).2.waiting.find? u = s.locks.waiting.find? u :=
    fun u hu => LinesOK.waiting_request s.locks id hu
  have hlt' : ∀ {u w}, (s.locks.request t id).2.waiting.find? u = some w → u < s.nextTicket :=
    ok.waiting_lt_request hlt id
  rcases hr : s.locks.request t id with ⟨_ | l, locks⟩
  · rw [hr] at hreq hother hlt'
    obtain ⟨⟨l, hwait⟩, rowOf', lines'⟩ := hreq
    exact ⟨locks, ⟨⟨rowOf', lines'⟩, ok.open_lt, hlt'⟩, hother,
      Or.inl ⟨l, s.updateLocked_waits hr, hwait, lines.others_of_not_granted hask hheld (by rw [hr])⟩⟩
  rw [hr] at hreq hother hlt'
  obtain ⟨hwait, rowOf', lines'⟩ := hreq
  rw [hnone, List.nil_append] at lines'
  have hfree : ∀ u l', s.Exists id → (id, l') ∉ s.held u :=
    fun u l' hx => lines'.not_held_of_taken hnone hx u l'
  rw [s.updateLocked_granted hr]
  cases hrow : s.row? id with
  | none =>
      have habsent : ¬ s.Exists id := by
        unfold Store.Exists
        rw [hrow]
        exact Bool.false_ne_true
      rw [Store.updateRow_of_none (show Store.row? { s with locks } id = none from hrow),
        Store.forgetLockIfAbsent, if_neg (show ¬ s.rows.contains id = true from habsent)]
      -- what the batch update held it has let go by the end of the call
      exact ⟨(locks.forget id).leave l t,
        ⟨⟨rowOf', (lines'.forget habsent).leave_only hnone⟩, ok.open_lt, hlt'⟩, hother, Or.inr ⟨hwait, hfree, Or.inl ⟨rfl, fun r h => by cases h⟩⟩⟩
  | some r =>
      refine ⟨locks.leave l t, ⟨⟨rowOf', lines'.leave_only hnone⟩, ok.open_lt, hlt'⟩, hother,
        Or.inr ⟨hwait, hfree, ?_⟩⟩
      have hrow' : Store.row? { s with locks } id = some r := hrow
      by_cases hallowed : r.status ∈ allowed
      · refine Or.inr ⟨r, rfl, hallowed, ?_⟩
        rw [Store.updateRow_of_mem hrow' hallowed]
        unfold Store.writeRow Store.releasePair
        split <;> rfl
      · refine Or.inl ⟨?_, ?_⟩
        · rw [Store.updateRow_of_not_mem hrow' hallowed]
        · rintro r' hr'
          obtain rfl := Option.some.inj hr'
          exact hallowed

end LocksOK
end Dispatch
