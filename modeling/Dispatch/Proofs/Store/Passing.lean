/-
Rows that are changed in passing.

A batch update goes through its rows one after the other.  If nobody stands at the lock of a row
(`Store.Free`), the lock is asked for, granted and let go in one call, and for everybody else the
table is as it was (`Store.Passed`): no line has changed, and the locks that were free are free.
If somebody stands there, the batch update has to wait.  Others may have transactions open all the
while.
-/
import Dispatch.Proofs.Store.Reached

namespace Dispatch

namespace RowLocks

variable {ls : RowLocks} {t : Ticket} {x : Uuid}

/-- A lock at which nobody stands is granted, and when it is let go all lines are what they were. -/
theorem request_of_nobody (hwait : ls.waiting.find? t = none) (hline : ls.line (ls.named x).1 = []) :
    ∃ ls', ls.request t x = (some (ls.named x).1, ls') ∧
      (∀ l, (ls'.leave (ls.named x).1 t).line l = ls.line l) ∧
      (∀ u, ls'.waiting.find? u = ls.waiting.find? u) ∧
      ∀ y, ls'.names.find? y = if y = x then some (ls.named x).1 else ls.names.find? y := by
  set l := (ls.named x).1 with hl
  set ls₁ := (ls.named x).2 with hls₁
  have hline₁ : ∀ l', ls₁.line l' = ls.line l' := ls.line_named x
  have hempty : ls₁.line l = [] := by rw [hline₁, hline]
  have htarget : ls.target t x = (l, ls₁) := ls.target_of_not_waiting hwait
  refine ⟨(ls₁.join l t).stopWaiting t, ?_, fun l' => ?_, fun u => ?_, fun y => ?_⟩
  · rw [ls.request_eq htarget, if_pos (ls₁.holds_join_of_nil t hempty)]
  · rw [line_leave]
    show (if l' = l then ((ls₁.join l t).line l).erase t else (ls₁.join l t).line l') = ls.line l'
    by_cases hl' : l' = l
    · rw [if_pos hl', line_join, hempty, hl', hline]
      simp
    · rw [if_neg hl', line_join, if_neg fun h => hl' h.1, hline₁]
  · show ((ls₁.join l t).waiting.erase t).find? u = ls.waiting.find? u
    rw [waiting_join, hls₁, ls.waiting_named, Table.find?_erase]
    split
    · rename_i hu
      rw [hu, hwait]
    · rfl
  · have hnames : (ls₁.join l t).names = ls₁.names := by unfold join; split <;> rfl
    show (ls₁.join l t).names.find? y = _
    rw [hnames, hls₁, ls.names_named]

/-- Whoever comes to a lock at which somebody stands has to wait. -/
theorem request_of_somebody {l : LockId} (hwait : ls.waiting.find? t = none)
    (hname : ls.names.find? x = some l) (hline : ls.line l ≠ []) (hnot : t ∉ ls.line l) :
    ∃ ls', ls.request t x = (none, ls') := by
  have htarget : ls.target t x = (l, ls) :=
    (ls.target_of_not_waiting hwait).trans (ls.named_of_some hname)
  refine ⟨ls.queueUp t x l, ?_⟩
  rw [ls.request_eq htarget, if_neg]
  rw [ls.holds_join_of_not_mem hline hnot]
  exact Bool.false_ne_true

/-- To see that nobody stands anywhere it is enough to look at the lines there are. -/
theorem no_line_iff (ls : RowLocks) : (∀ l, ls.line l = []) ↔ ∀ e ∈ ls.lines.entries, e.2 = [] := by
  constructor
  · intro h e he
    have hline := h e.1
    rwa [line, ls.lines.find?_eq_some_iff.2 he] at hline
  · intro h l
    unfold line
    cases hl : ls.lines.find? l with
    | none => rfl
    | some ts => exact h _ (ls.lines.find?_eq_some_iff.1 hl)

instance (ls : RowLocks) : Decidable (∀ l, ls.line l = []) := decidable_of_iff _ ls.no_line_iff.symm

end RowLocks

namespace Store

/-- Nobody stands at the lock of a row. -/
def Free (s : Store) (id : MatchId) : Prop :=
  ∀ l, s.locks.names.find? id = some l → s.locks.line l = []

/-- For everybody else the table is as it was: only tickets may have been drawn. -/
structure Passed (s s' : Store) : Prop where
  transactions : s'.transactions = s.transactions
  waiting : ∀ u, s'.locks.waiting.find? u = s.locks.waiting.find? u
  nextTicket : s.nextTicket ≤ s'.nextTicket
  offline : s'.offline = s.offline
  free : ∀ id, s'.Free id ↔ s.Free id

namespace Passed

variable {s s' s'' : Store}

theorem refl (s : Store) : Passed s s := ⟨rfl, fun _ => rfl, Nat.le_refl _, rfl, fun _ => .rfl⟩

theorem trans (h : Passed s s') (h' : Passed s' s'') : Passed s s'' where
  transactions := h'.transactions.trans h.transactions
  waiting u := (h'.waiting u).trans (h.waiting u)
  nextTicket := Nat.le_trans h.nextTicket h'.nextTicket
  offline := h'.offline.trans h.offline
  free id := (h'.free id).trans (h.free id)

theorem idle (h : Passed s s') {t : Ticket} (hidle : s.Idle t) : s'.Idle t := by
  refine ⟨fun ho => hidle.1 ?_, (h.waiting t).trans hidle.2⟩
  unfold Store.IsOpen at ho ⊢
  rwa [← h.transactions]

theorem openBatch (s : Store) : Passed s s.openBatch.2 :=
  ⟨rfl, fun _ => rfl, Nat.le_succ _, rfl, fun _ => .rfl⟩

end Passed

theorem free_of_no_line {s : Store} (h : ∀ l, s.locks.line l = []) (id : MatchId) : s.Free id :=
  fun l _ => h l

namespace Steady

variable {s : Store} {t : Ticket} {id : MatchId} {r : Proposal}

theorem idle_nextTicket (h : s.Steady) : s.Idle s.nextTicket := by
  have hidle : Idle { s with rows := ∅ } s.nextTicket := Store.idle_nextTicket h.queued
  exact hidle

theorem openBatch (h : s.Steady) : s.openBatch.2.Steady where
  queued := LocksOK.openBatch h.queued
  filed := h.filed
  leads := h.leads

/-- If the lock of a row is free, so is the one that a party who asks for the row goes to. -/
theorem line_named (h : s.Steady) (hfree : s.Free id) :
    s.locks.line (s.locks.named id).1 = [] := by
  obtain ⟨rowOf, lines⟩ := h.queued.linesOK
  cases hname : s.locks.names.find? id with
  | some l =>
      rw [s.locks.named_of_some hname]
      exact hfree l hname
  | none => exact lines.line_named_of_none hname

/-- **A row whose lock is free is changed in passing**, by a batch update that has not begun to wait
for anything. -/
theorem updateRow (h : s.Steady) (hidle : s.Idle t) (hlt : t < s.nextTicket) (hfree : s.Free id)
    (hr : s.row? id = some r) {allowed : List Status} (hmem : r.status ∈ allowed) (m : Moment)
    (status : Status) : ∃ s', perform m (.updateRow t id status allowed) s = .answer true s' ∧
      s'.contents = s.contents.writeRow { r with status, updatedAt := m.now } ∧ s'.Steady ∧
      Passed s s' := by
  obtain ⟨locks, hreq, hline, hwait, hname⟩ :=
    RowLocks.request_of_nobody hidle.2 (h.line_named hfree)
  set l := (s.locks.named id).1 with hl
  set r' : Proposal := { r with status, updatedAt := m.now } with hr'
  set s₁ : Store := { s with locks } with hs₁
  have hrest := sameRest_writeRow s₁ r'
  have hanswer : perform m (.updateRow t id status allowed) s
      = .answer true { s₁.writeRow r' with locks := locks.leave l t } := by
    rw [perform, s.updateLocked_granted hreq,
      updateRow_of_mem (show row? { s with locks } id = some r from hr) hmem]
    simp only [← hr', ← hs₁, hrest.locks]
    rfl
  have hask : s.MayAsk t id := fun w hw => by
    rw [hidle.2] at hw
    cases hw
  have hbase : ∃ b, s.row? r'.id = some b ∧ b.pair = r'.pair :=
    ⟨r, (congrArg s.row? (h.filed id r hr)).trans hr, rfl⟩
  refine ⟨_, hanswer, contents_writeRow s₁ r', ⟨?_, ?_, ?_⟩, ?_⟩
  · have hqueued := h.queued.updateRow hidle.1 hlt hask m status allowed
    rw [hanswer] at hqueued
    exact hqueued
  · exact Filed.update h.filed (row?_writeRow s₁ r')
  · have hleads : s₁.LeadsOpen := h.leads
    exact (hleads.writeRow hbase).congr (fun _ => rfl) fun _ => rfl
  · refine ⟨hrest.transactions, hwait, Nat.le_of_eq hrest.nextTicket.symm, hrest.offline, fun x => ?_⟩
    show (∀ l', locks.names.find? x = some l' → (locks.leave l t).line l' = []) ↔ s.Free x
    simp only [hname, hline]
    by_cases hx : x = id
    · -- nobody stands at the lock that has been granted
      subst hx
      refine ⟨fun _ => hfree, fun _ l' hl' => ?_⟩
      rw [if_pos rfl] at hl'
      obtain rfl := Option.some.inj hl'
      exact h.line_named hfree
    · simp only [if_neg hx]
      exact Iff.rfl

/-- At a row whose lock is not free a batch update has to wait. -/
theorem updateRow_waits (h : s.Steady) (hidle : s.Idle t) (hheld : ¬ s.Free id) (m : Moment)
    (status : Status) (allowed : List Status) :
    ∃ s', perform m (.updateRow t id status allowed) s = .wait s' := by
  unfold Free at hheld
  push Not at hheld
  obtain ⟨l, hname, hline⟩ := hheld
  obtain ⟨rowOf, lines⟩ := h.queued.linesOK
  have hnot : t ∉ s.locks.line l := fun ht => hidle.not_inLine (lines.known ht)
  obtain ⟨locks, hreq⟩ := RowLocks.request_of_somebody hidle.2 hname hline hnot
  exact ⟨_, s.updateLocked_waits hreq⟩

end Steady

end Store
end Dispatch
