/-
What comes of asking for a lock.

Whoever asks goes to the lock that he waits at, if he asks for the row that he waits for, or else
to the lock that is found under the row; there may be none, and then a new one is made.  At the
lock he joins the line, unless he stands in it.  If he stands first he has the lock, and otherwise
he waits.  Either way the lines are as they should be afterwards, and nobody has to wait for a row
that nobody else is in line for.
-/
import Dispatch.Proofs.Store.Lines

namespace Dispatch

namespace RowLocks

variable (s : RowLocks)

/-- The lock found under a row, once there is one. -/
theorem named_of_some {row : Uuid} {l : LockId} (h : s.names.find? row = some l) :
    s.named row = (l, s) := by
  rw [named, h]

/-- A new lock, for a row under which none is found. -/
theorem named_of_none {row : Uuid} (h : s.names.find? row = none) :
    s.named row = (s.next, { s with names := s.names.insert row s.next, next := s.next + 1 }) := by
  rw [named, h]

theorem waiting_named (row : Uuid) : (s.named row).2.waiting = s.waiting := by
  unfold named
  split <;> rfl

theorem names_named (row y : Uuid) : (s.named row).2.names.find? y
    = if y = row then some (s.named row).1 else s.names.find? y := by
  cases h : s.names.find? row with
  | some l =>
      rw [s.named_of_some h]
      split
      · subst y
        exact h
      · rfl
  | none =>
      rw [s.named_of_none h]
      exact Table.find?_insert _ _ _ _

theorem line_named (row : Uuid) (l : LockId) : (s.named row).2.line l = s.line l := by
  unfold named
  split
  · rfl
  · rfl

/-- Whoever joins a line behind others does not have the lock. -/
theorem holds_join_of_not_mem {l : LockId} {t : Ticket} (hne : s.line l ≠ []) (h : t ∉ s.line l) :
    (s.join l t).holds l t = false := by
  rw [holds, line_join, if_pos ⟨rfl, h⟩]
  cases hl : s.line l with
  | nil => exact absurd hl hne
  | cons u rest =>
      have hut : u ≠ t := fun he => h (by rw [hl, he]; exact List.mem_cons_self)
      simpa using hut

/-- Whoever joins a line in which nobody stands has the lock. -/
theorem holds_join_of_nil {l : LockId} (t : Ticket) (h : s.line l = []) :
    (s.join l t).holds l t = true := by
  rw [holds, line_join, h]
  simp

/-- Whoever waits for a row goes back to the lock that he waits at. -/
theorem target_of_waiting {t : Ticket} {row : Uuid} {l : LockId}
    (h : s.waiting.find? t = some (row, l)) : s.target t row = (l, s) := by
  rw [target, h]
  exact if_pos rfl

/-- Whoever waits nowhere goes to the lock that is found under the row. -/
theorem target_of_not_waiting {t : Ticket} {row : Uuid} (h : s.waiting.find? t = none) :
    s.target t row = s.named row := by
  rw [target, h]

/-- Asking for a lock is to queue up for it, and to wait no longer if one stands first. -/
theorem request_eq {t : Ticket} {row : Uuid} {l : LockId} {ls : RowLocks}
    (h : s.target t row = (l, ls)) :
    s.request t row = if (ls.join l t).holds l t then (some l, (ls.join l t).stopWaiting t)
      else (none, ls.queueUp t row l) := by
  rw [request, h]
  show (if (ls.join l t).holds l t then _ else _) = _
  split
  · rfl
  · simp [queueUp]

end RowLocks

namespace LinesOK

variable {ls : RowLocks} {held : Holdings} {rowOf : LockId → Uuid} {present : Uuid → Prop}
  {t : Ticket} {x : Uuid} {l : LockId}

/-! ### The lock of a row -/

/-- A row under which no lock is found gets a new one. -/
theorem newName (ok : LinesOK ls held rowOf present) (hx : ls.names.find? x = none) :
    LinesOK { ls with names := ls.names.insert x ls.next, next := ls.next + 1 } held
      (Function.update rowOf ls.next x) present := by
  have hname : ∀ y, (ls.names.insert x ls.next).find? y
      = if y = x then some ls.next else ls.names.find? y := fun y => Table.find?_insert _ _ _ _
  have hold : ∀ {l}, l < ls.next → Function.update rowOf ls.next x l = rowOf l :=
    fun h => Function.update_of_ne (Nat.ne_of_lt h) _ _
  exact {
    ok with
    known := by
      intro t l h
      rw [hold (ok.line_lt h)]
      exact ok.known h
    rowOf_inLine := by
      intro t y l h
      rw [hold (ok.line_lt (ok.mem_line h))]
      exact ok.rowOf_inLine h
    rowOf_name := by
      intro y l h
      rw [hname] at h
      split at h
      · obtain rfl := Option.some.inj h
        rw [Function.update_self]
        exact Eq.symm (by assumption)
      · rw [hold (ok.name_lt h)]
        exact ok.rowOf_name h
    line_lt := fun h => Nat.lt_succ_of_lt (ok.line_lt h)
    name_lt := by
      intro y l h
      rw [hname] at h
      split at h
      · obtain rfl := Option.some.inj h
        exact Nat.lt_succ_self _
      · exact Nat.lt_succ_of_lt (ok.name_lt h)
    current := by
      intro t y l h hy
      -- a row that somebody is in line for has a lock already
      have hfound := ok.current h hy
      rw [hname, if_neg, hfound]
      rintro rfl
      rw [hx] at hfound
      cases hfound }

/-- Every row has a lock after it has been looked for. -/
theorem named (ok : LinesOK ls held rowOf present) (x : Uuid) :
    ∃ rowOf', LinesOK (ls.named x).2 held rowOf' present ∧
      (ls.named x).2.names.find? x = some (ls.named x).1 := by
  cases hx : ls.names.find? x with
  | some l =>
      rw [ls.named_of_some hx]
      exact ⟨rowOf, ok, hx⟩
  | none =>
      rw [ls.named_of_none hx]
      exact ⟨_, ok.newName hx, Table.find?_insert_self _ _ _⟩

/-- A row is found under the lock that it has been given, and no other row is. -/
theorem named_iff (ok : LinesOK ls held rowOf present) (x y : Uuid) :
    (ls.named x).2.names.find? y = some (ls.named x).1 ↔ y = x := by
  obtain ⟨rowOf', ok', hname⟩ := ok.named x
  refine ⟨fun hy => (ok'.rowOf_name hy).symm.trans (ok'.rowOf_name hname), ?_⟩
  rintro rfl
  exact hname

/-- A new lock is one at which nobody stands. -/
theorem line_named_of_none (ok : LinesOK ls held rowOf present) (hx : ls.names.find? x = none) :
    ls.line (ls.named x).1 = [] := by
  rw [ls.named_of_none hx]
  refine List.eq_nil_iff_forall_not_mem.mpr fun u hu => ?_
  exact absurd (ok.line_lt hu) (Nat.lt_irrefl _)

/-! ### Asking -/

/-- What has become of the lines when somebody has asked for a row: he holds a lock, or he
waits for one. -/
def Asked (ls' : RowLocks) (held : Holdings) (present : Uuid → Prop) (t : Ticket) (x : Uuid) :
    Option LockId → Prop
  | some l => ls'.waiting.find? t = none ∧
      ∃ rowOf, LinesOK ls' (Function.update held t (held t ++ [(x, l)])) rowOf present
  | none => (∃ l, ls'.waiting.find? t = some (x, l)) ∧ ∃ rowOf, LinesOK ls' held rowOf present

/-- Whoever waits at a lock stands in its line. -/
theorem join_of_waiting (ok : LinesOK ls held rowOf present)
    (hwait : ls.waiting.find? t = some (x, l)) : ls.join l t = ls := by
  rw [RowLocks.join, if_pos (ok.standing hwait)]

/-- Whoever waits asks again: he takes the lock if he has come to the front, and waits on if not. -/
theorem request_of_waiting (ok : LinesOK ls held rowOf present)
    (hwait : ls.waiting.find? t = some (x, l)) :
    Asked (ls.request t x).2 held present t x (ls.request t x).1 := by
  have hjoin := ok.join_of_waiting hwait
  rw [ls.request_eq (ls.target_of_waiting hwait), hjoin]
  split
  · rename_i hfirst
    refine ⟨?_, rowOf, ok.take hwait (by simpa [RowLocks.holds] using hfirst)⟩
    show (ls.waiting.erase t).find? t = none
    rw [Table.find?_erase, if_pos rfl]
  · have hw : ∀ u, (ls.queueUp t x l).waiting.find? u = ls.waiting.find? u := by
      intro u
      show (ls.waiting.insert t (x, l)).find? u = _
      rw [Table.find?_insert]
      split
      · subst u
        exact hwait.symm
      · rfl
    refine ⟨⟨l, by rw [hw, hwait]⟩, rowOf, ok.congr ?_ hw ?_ ?_ (fun _ => rfl)⟩
    · intro l'
      show (ls.join l t).line l' = _
      rw [hjoin]
    · intro z
      show (ls.join l t).names.find? z = _
      rw [hjoin]
    · show (ls.join l t).next = _
      rw [hjoin]

/-- Whoever is in line nowhere asks for a row: he queues up, and takes the lock if he is the only
one there. -/
theorem request_of_not_waiting (ok : LinesOK ls held rowOf present)
    (hwait : ls.waiting.find? t = none) (hheld : ∀ h ∈ held t, h.1 ≠ x) :
    Asked (ls.request t x).2 held present t x (ls.request t x).1 := by
  obtain ⟨rowOf', ok', hname⟩ := ok.named x
  have htarget : ls.target t x = ls.named x := ls.target_of_not_waiting hwait
  have hwait' : (ls.named x).2.waiting.find? t = none := by rw [ls.waiting_named, hwait]
  set l := (ls.named x).1
  set ls₁ := (ls.named x).2
  have okq := ok'.queueUp hwait' hheld hname
  rw [ls.request_eq (show ls.target t x = (l, ls₁) from htarget)]
  split
  · rename_i hfirst
    have hw : (ls₁.queueUp t x l).waiting.find? t = some (x, l) := Table.find?_insert_self _ _ _
    have hhead : ((ls₁.join l t).line l).head? = some t := by
      simpa [RowLocks.holds] using hfirst
    refine ⟨?_, rowOf', (okq.take hw hhead).congr (fun _ => rfl) ?_ (fun _ => rfl) rfl
      (fun _ => rfl)⟩
    · show ((ls₁.join l t).waiting.erase t).find? t = none
      rw [Table.find?_erase, if_pos rfl]
    · intro u
      show ((ls₁.join l t).waiting.erase t).find? u
        = ((ls₁.waiting.insert t (x, l)).erase t).find? u
      rw [Table.find?_erase, Table.find?_erase, RowLocks.waiting_join]
      split
      · rfl
      · rw [Table.find?_insert_of_ne _ _ (by assumption)]
  · exact ⟨⟨l, Table.find?_insert_self _ _ _⟩, rowOf', okq⟩

/-- Whoever has not locked a row, and waits for no other, may ask for it. -/
theorem request (ok : LinesOK ls held rowOf present)
    (hask : ∀ w, ls.waiting.find? t = some w → w.1 = x) (hheld : ∀ h ∈ held t, h.1 ≠ x) :
    Asked (ls.request t x).2 held present t x (ls.request t x).1 := by
  cases hwait : ls.waiting.find? t with
  | some w =>
      obtain ⟨y, l⟩ := w
      obtain rfl : y = x := hask _ hwait
      exact ok.request_of_waiting hwait
  | none => exact ok.request_of_not_waiting hwait hheld

/-! ### Who has to wait -/

/-- Whoever stands alone at a lock stands first. -/
theorem holds_of_alone (hin : t ∈ ls.line l) (halone : ∀ u ∈ ls.line l, u = t) :
    ls.holds l t = true := by
  cases hl : ls.line l with
  | nil =>
      rw [hl] at hin
      cases hin
  | cons u rest =>
      obtain rfl : u = t := halone u (by rw [hl]; exact List.mem_cons_self)
      rw [RowLocks.holds, hl]
      simp

/-- Whoever asks for a row that nobody else is in line for is granted its lock. -/
theorem granted_of_alone (ok : LinesOK ls held rowOf present)
    (hask : ∀ w, ls.waiting.find? t = some w → w.1 = x) (hheld : ∀ h ∈ held t, h.1 ≠ x)
    (halone : ∀ u l, ls.InLine held u x l → u = t) : ∃ l, (ls.request t x).1 = some l := by
  cases hwait : ls.waiting.find? t with
  | some w =>
      obtain ⟨y, l⟩ := w
      obtain rfl : y = x := hask _ hwait
      have hrow : rowOf l = y := ok.rowOf_inLine (Or.inr hwait)
      have hfirst : ls.holds l t = true :=
        holds_of_alone (ok.standing hwait) fun u hu => halone u l (hrow ▸ ok.known hu)
      rw [ls.request_eq (ls.target_of_waiting hwait), ok.join_of_waiting hwait, if_pos hfirst]
      exact ⟨l, rfl⟩
  | none =>
      obtain ⟨rowOf', ok', hname⟩ := ok.named x
      have htarget : ls.target t x = ls.named x := ls.target_of_not_waiting hwait
      have hsame : (ls.named x).2.waiting = ls.waiting := ls.waiting_named x
      set l := (ls.named x).1
      set ls₁ := (ls.named x).2
      have hrow : rowOf' l = x := ok'.rowOf_name hname
      have hempty : ls₁.line l = [] := by
        refine List.eq_nil_iff_forall_not_mem.mpr fun u hu => ?_
        have hin : ls.InLine held u x l := by
          have hknown := ok'.known hu
          rw [hrow, RowLocks.InLine, hsame] at hknown
          exact hknown
        obtain rfl := halone u l hin
        rcases hin with h | h
        · exact hheld _ h rfl
        · rw [hwait] at h
          cases h
      have hfirst : (ls₁.join l t).holds l t = true := by
        rw [RowLocks.holds, RowLocks.line_join, hempty]
        simp
      rw [ls.request_eq (show ls.target t x = (l, ls₁) from htarget), if_pos hfirst]
      exact ⟨l, rfl⟩

/-- Whoever has to wait finds somebody else in line for the row. -/
theorem others_of_not_granted (ok : LinesOK ls held rowOf present)
    (hask : ∀ w, ls.waiting.find? t = some w → w.1 = x) (hheld : ∀ h ∈ held t, h.1 ≠ x)
    (h : (ls.request t x).1 = none) : ∃ u l, u ≠ t ∧ ls.InLine held u x l := by
  by_contra hnone
  obtain ⟨l, hl⟩ := ok.granted_of_alone hask hheld fun u l hu =>
    by_contra fun hne => hnone ⟨u, l, hne, hu⟩
  rw [h] at hl
  cases hl

/-- Asking concerns nobody else's waiting. -/
theorem waiting_request (ls : RowLocks) {t u : Ticket} (x : Uuid) (hu : u ≠ t) :
    (ls.request t x).2.waiting.find? u = ls.waiting.find? u := by
  have htarget : (ls.target t x).2.waiting = ls.waiting := by
    unfold RowLocks.target
    split
    · split
      · rfl
      · exact ls.waiting_named x
    · exact ls.waiting_named x
  rw [ls.request_eq (show ls.target t x = ((ls.target t x).1, (ls.target t x).2) from rfl)]
  split
  · show (((ls.target t x).2.join _ t).waiting.erase t).find? u = _
    rw [Table.find?_erase, if_neg hu, RowLocks.waiting_join, htarget]
  · show ((ls.target t x).2.waiting.insert t _).find? u = _
    rw [Table.find?_insert_of_ne _ _ hu, htarget]

end LinesOK
end Dispatch
