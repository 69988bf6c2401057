/-
Who stands in which line.

A party holds some locks and waits at one at most.  `LinesOK` says that the lines agree with
this: whoever holds a lock stands first in its line, whoever waits stands somewhere in it,
nobody else stands there, and every lock belongs to one row.  Its last field is what makes a
lock exclusive: all who are in line for a row that exists stand at the lock that is found
under the row, so that only one of them can be first.

Nothing else is needed to keep it so.  A lock is forgotten only when its row does not exist,
and then the last field says nothing about it; a new lock is made only for a row under which
none is found, and then nobody is in line for the row, if it exists.
-/
import Dispatch.Store.Locks
import Mathlib.Data.List.Nodup
import Mathlib.Logic.Function.Basic
import Mathlib.Tactic.Common

namespace Dispatch

namespace RowLocks

variable (s : RowLocks)

/-! ### What each change does to the lines -/

theorem line_join (l : LockId) (t : Ticket) (l' : LockId) :
    (s.join l t).line l' = if l' = l ∧ t ∉ s.line l then s.line l ++ [t] else s.line l' := by
  by_cases h : t ∈ s.line l
  · rw [join, if_pos h, if_neg (fun hc => hc.2 h)]
  · rw [join, if_neg h]
    by_cases hl : l' = l
    · rw [if_pos ⟨hl, h⟩, hl]
      show ((s.lines.insert l (s.line l ++ [t])).find? l).getD [] = _
      rw [Table.find?_insert_self]
      rfl
    · rw [if_neg (fun hc => hl hc.1)]
      show ((s.lines.insert l (s.line l ++ [t])).find? l').getD [] = _
      rw [Table.find?_insert_of_ne _ _ hl]
      rfl

@[simp] theorem names_join (l : LockId) (t : Ticket) : (s.join l t).names = s.names := by
  unfold join; split <;> rfl

@[simp] theorem waiting_join (l : LockId) (t : Ticket) : (s.join l t).waiting = s.waiting := by
  unfold join; split <;> rfl

@[simp] theorem next_join (l : LockId) (t : Ticket) : (s.join l t).next = s.next := by
  unfold join; split <;> rfl

theorem line_leave (l : LockId) (t : Ticket) (l' : LockId) :
    (s.leave l t).line l' = if l' = l then (s.line l).erase t else s.line l' := by
  show ((s.lines.insert l ((s.line l).erase t)).find? l').getD [] = _
  rw [Table.find?_insert]
  by_cases hl : l' = l
  · rw [if_pos hl, if_pos hl]; rfl
  · rw [if_neg hl, if_neg hl]; rfl

@[simp] theorem names_leave (l : LockId) (t : Ticket) : (s.leave l t).names = s.names := rfl
@[simp] theorem waiting_leave (l : LockId) (t : Ticket) : (s.leave l t).waiting = s.waiting := rfl

/-- Joins the line at a lock, and waits there. -/
def queueUp (t : Ticket) (row : Uuid) (l : LockId) : RowLocks :=
  { s.join l t with waiting := s.waiting.insert t (row, l) }

/-- Waits no longer, without leaving the line. -/
def stopWaiting (t : Ticket) : RowLocks := { s with waiting := s.waiting.erase t }

end RowLocks

/-- The locks that each party holds, with their rows. -/
abbrev Holdings : Type := Ticket → List (Uuid × LockId)

/-- Somebody is in line for a row at a lock: he holds the lock, or waits for it. -/
def RowLocks.InLine (ls : RowLocks) (held : Holdings) (t : Ticket) (x : Uuid) (l : LockId) :
    Prop :=
  (x, l) ∈ held t ∨ ls.waiting.find? t = some (x, l)

/-- The lines agree with what the parties hold and wait for. -/
structure LinesOK (ls : RowLocks) (held : Holdings) (rowOf : LockId → Uuid)
    (present : Uuid → Prop) : Prop where
  /-- Whoever holds a lock stands first in its line. -/
  first : ∀ {t x l}, (x, l) ∈ held t → (ls.line l).head? = some t
  /-- Whoever waits stands in the line. -/
  standing : ∀ {t x l}, ls.waiting.find? t = some (x, l) → t ∈ ls.line l
  /-- Nobody stands in a line unless he holds the lock or waits for it. -/
  known : ∀ {t l}, t ∈ ls.line l → ls.InLine held t (rowOf l) l
  /-- Every lock belongs to one row. -/
  rowOf_inLine : ∀ {t x l}, ls.InLine held t x l → rowOf l = x
  rowOf_name : ∀ {x l}, ls.names.find? x = some l → rowOf l = x
  /-- Locks are numbered in order of their making. -/
  line_lt : ∀ {t l}, t ∈ ls.line l → l < ls.next
  name_lt : ∀ {x l}, ls.names.find? x = some l → l < ls.next
  /-- Nobody stands in a line twice. -/
  nodup : ∀ l, (ls.line l).Nodup
  /-- Nobody waits for a row that he has locked, or has locked a row twice. -/
  apart : ∀ {t x l}, ls.waiting.find? t = some (x, l) → ∀ h ∈ held t, h.1 ≠ x
  once : ∀ t, ((held t).map Prod.fst).Nodup
  /-- All who are in line for a row that exists stand at the lock that is found under it. -/
  current : ∀ {t x l}, ls.InLine held t x l → present x → ls.names.find? x = some l

namespace LinesOK

variable {ls : RowLocks} {held : Holdings} {rowOf : LockId → Uuid} {present : Uuid → Prop}

theorem mem_line (ok : LinesOK ls held rowOf present) {t : Ticket} {x : Uuid} {l : LockId}
    (h : ls.InLine held t x l) : t ∈ ls.line l := by
  rcases h with h | h
  · exact List.mem_of_mem_head? (ok.first h)
  · exact ok.standing h

/-- Nobody holds a lock twice. -/
theorem nodup_locks (ok : LinesOK ls held rowOf present) (t : Ticket) :
    ((held t).map Prod.snd).Nodup := by
  refine List.Nodup.of_map rowOf ?_
  have hrows : ((held t).map Prod.snd).map rowOf = (held t).map Prod.fst := by
    rw [List.map_map]
    exact List.map_congr_left fun w hw => ok.rowOf_inLine (Or.inl hw)
  rw [hrows]
  exact ok.once t

/-- **A lock is exclusive**: only one party can have locked a row that exists. -/
theorem exclusive (ok : LinesOK ls held rowOf present) {t u : Ticket} {x : Uuid} {l l' : LockId}
    (ht : (x, l) ∈ held t) (hu : (x, l') ∈ held u) (hx : present x) : t = u := by
  have hl : some l = some l' := by
    rw [← ok.current (Or.inl ht) hx, ok.current (Or.inl hu) hx]
  have hfirst := ok.first ht
  rw [Option.some.inj hl, ok.first hu] at hfirst
  exact (Option.some.inj hfirst).symm

/-- Only what is looked up matters. -/
theorem congr (ok : LinesOK ls held rowOf present) {ls' : RowLocks} {held' : Holdings}
    (hline : ∀ l, ls'.line l = ls.line l)
    (hwait : ∀ t, ls'.waiting.find? t = ls.waiting.find? t)
    (hname : ∀ x, ls'.names.find? x = ls.names.find? x)
    (hnext : ls'.next = ls.next) (hheld : ∀ t, held' t = held t) :
    LinesOK ls' held' rowOf present := by
  have hin : ∀ t x l, ls'.InLine held' t x l ↔ ls.InLine held t x l := by
    intro t x l
    rw [RowLocks.InLine, RowLocks.InLine, hwait, hheld]
  exact {
    first := by
      intro t x l h
      rw [hheld] at h
      rw [hline]
      exact ok.first h
    standing := by
      intro t x l h
      rw [hwait] at h
      rw [hline]
      exact ok.standing h
    known := by
      intro t l h
      rw [hline] at h
      rw [hin]
      exact ok.known h
    rowOf_inLine := by
      intro t x l h
      rw [hin] at h
      exact ok.rowOf_inLine h
    rowOf_name := by
      intro x l h
      rw [hname] at h
      exact ok.rowOf_name h
    line_lt := by
      intro t l h
      rw [hline] at h
      rw [hnext]
      exact ok.line_lt h
    name_lt := by
      intro x l h
      rw [hname] at h
      rw [hnext]
      exact ok.name_lt h
    nodup := by
      intro l
      rw [hline]
      exact ok.nodup l
    apart := by
      intro t x l h
      rw [hwait] at h
      rw [hheld]
      exact ok.apart h
    once := by
      intro t
      rw [hheld]
      exact ok.once t
    current := by
      intro t x l h hx
      rw [hin] at h
      rw [hname]
      exact ok.current h hx }

/-! ### Rows that come into being -/

/-- Rows may come into being if all who are in line for them stand at the right lock. -/
theorem enter (ok : LinesOK ls held rowOf present) {present' : Uuid → Prop}
    (h : ∀ x, present' x → present x ∨ ∀ t l, ls.InLine held t x l → ls.names.find? x = some l) :
    LinesOK ls held rowOf present' := by
  refine { ok with current := ?_ }
  intro t x l hin hx
  rcases h x hx with hp | hp
  · exact ok.current hin hp
  · exact hp t l hin

/-- The lock of a row that does not exist may be forgotten. -/
theorem forget (ok : LinesOK ls held rowOf present) {x : Uuid} (hx : ¬ present x) :
    LinesOK (ls.forget x) held rowOf present := by
  have hname : ∀ y, (ls.forget x).names.find? y = if y = x then none else ls.names.find? y :=
    fun y => Table.find?_erase _ _ _
  refine { ok with rowOf_name := ?_, name_lt := ?_, current := ?_ }
  · intro y l h
    rw [hname] at h
    split at h
    · cases h
    · exact ok.rowOf_name h
  · intro y l h
    rw [hname] at h
    split at h
    · cases h
    · exact ok.name_lt h
  · intro t y l hin hy
    have hne : y ≠ x := by rintro rfl; exact hx hy
    rw [hname, if_neg hne]
    exact ok.current hin hy

/-! ### Standing in line -/

theorem inLine_queueUp {t : Ticket} {x : Uuid} {l : LockId} (hwait : ls.waiting.find? t = none)
    {u : Ticket} {y : Uuid} {l' : LockId} :
    (ls.queueUp t x l).InLine held u y l' ↔
      ls.InLine held u y l' ∨ (u = t ∧ y = x ∧ l' = l) := by
  unfold RowLocks.InLine
  show _ ∨ (ls.waiting.insert t (x, l)).find? u = _ ↔ _
  rw [Table.find?_insert]
  by_cases hu : u = t
  · subst u
    rw [if_pos rfl, hwait]
    simp only [Option.some.injEq, Prod.mk.injEq, reduceCtorEq, or_false, true_and]
    exact or_congr_right ⟨fun h => ⟨h.1.symm, h.2.symm⟩, fun h => ⟨h.1.symm, h.2.symm⟩⟩
  · rw [if_neg hu]
    simp only [hu, false_and, or_false]

/-- Somebody who is not in line for a row may join the line at the lock of the row. -/
theorem queueUp (ok : LinesOK ls held rowOf present) {t : Ticket} {x : Uuid} {l : LockId}
    (hwait : ls.waiting.find? t = none) (hheld : ∀ h ∈ held t, h.1 ≠ x)
    (hname : ls.names.find? x = some l) :
    LinesOK (ls.queueUp t x l) held rowOf present := by
  have hrow : rowOf l = x := ok.rowOf_name hname
  have hnot : t ∉ ls.line l := by
    intro hin
    rcases ok.known hin with h | h
    · exact hheld _ h hrow
    · rw [hwait] at h; cases h
  have hline : ∀ l', (ls.queueUp t x l).line l' = if l' = l then ls.line l ++ [t]
      else ls.line l' := by
    intro l'
    show (ls.join l t).line l' = _
    rw [RowLocks.line_join]
    simp only [hnot, not_false_eq_true, and_true]
  have hnames : (ls.queueUp t x l).names = ls.names := RowLocks.names_join ..
  have hnext : (ls.queueUp t x l).next = ls.next := RowLocks.next_join ..
  have hin := @inLine_queueUp ls held t x l hwait
  exact {
    first := by
      intro u y l' h
      have hf := ok.first h
      rw [hline]
      split
      · subst l'
        rw [List.head?_append, hf]
        rfl
      · exact hf
    standing := by
      intro u y l' h
      rw [hline]
      rcases hin.1 (Or.inr h) with h' | ⟨rfl, -, rfl⟩
      · have hmem := ok.mem_line h'
        split
        · subst l'; exact List.mem_append_left _ hmem
        · exact hmem
      · rw [if_pos rfl]; exact List.mem_append_right _ (List.mem_singleton_self _)
    known := by
      intro u l' h
      rw [hline] at h
      rw [hin]
      split at h
      · subst l'
        rcases List.mem_append.mp h with h | h
        · exact Or.inl (ok.known h)
        · exact Or.inr ⟨List.mem_singleton.mp h, hrow, rfl⟩
      · exact Or.inl (ok.known h)
    rowOf_inLine := by
      intro u y l' h
      rcases hin.1 h with h | ⟨-, rfl, rfl⟩
      · exact ok.rowOf_inLine h
      · exact hrow
    rowOf_name := by
      intro y l' h
      rw [hnames] at h
      exact ok.rowOf_name h
    line_lt := by
      intro u l' h
      rw [hline] at h
      rw [hnext]
      split at h
      · subst l'; exact ok.name_lt hname
      · exact ok.line_lt h
    name_lt := by
      intro y l' h
      rw [hnames] at h
      rw [hnext]
      exact ok.name_lt h
    nodup := by
      intro l'
      rw [hline]
      split
      · rw [List.nodup_append]
        refine ⟨ok.nodup l, by simp, ?_⟩
        intro a ha b hb hab
        rw [hab, List.mem_singleton.mp hb] at ha
        exact hnot ha
      · exact ok.nodup l'
    apart := by
      intro u y l' h
      by_cases hu : u = t
      · subst u
        rcases hin.1 (Or.inr h) with h' | ⟨-, rfl, -⟩
        · rcases h' with h' | h'
          · -- what one holds and what one waits for belong to different rows
            have hlock : (ls.waiting.insert t (x, l)).find? t = some (y, l') := h
            rw [Table.find?_insert_self] at hlock
            simp only [Option.some.injEq, Prod.mk.injEq] at hlock
            rw [← hlock.1]; exact hheld
          · rw [hwait] at h'; cases h'
        · exact hheld
      · have h' : (ls.waiting.insert t (x, l)).find? u = some (y, l') := h
        rw [Table.find?_insert_of_ne _ _ hu] at h'
        exact ok.apart h'
    once := ok.once
    current := by
      intro u y l' h hy
      rw [hnames]
      rcases hin.1 h with h | ⟨-, rfl, rfl⟩
      · exact ok.current h hy
      · exact hname }

/-- Whoever waits and stands first may take the lock. -/
theorem take (ok : LinesOK ls held rowOf present) {t : Ticket} {x : Uuid} {l : LockId}
    (hwait : ls.waiting.find? t = some (x, l)) (hfirst : (ls.line l).head? = some t) :
    LinesOK (ls.stopWaiting t) (Function.update held t (held t ++ [(x, l)])) rowOf present := by
  have hw : ∀ u, (ls.stopWaiting t).waiting.find? u
      = if u = t then none else ls.waiting.find? u := fun u => Table.find?_erase _ _ _
  have hin : ∀ {u y l'}, (ls.stopWaiting t).InLine
      (Function.update held t (held t ++ [(x, l)])) u y l' ↔ ls.InLine held u y l' := by
    intro u y l'
    unfold RowLocks.InLine
    rw [hw]
    by_cases hu : u = t
    · subst u
      rw [if_pos rfl, Function.update_self, List.mem_append, List.mem_singleton, hwait]
      simp only [reduceCtorEq, or_false, Option.some.injEq]
      exact or_congr_right eq_comm
    · rw [if_neg hu, Function.update_of_ne hu]
  have hheld : ∀ {u y l'}, (y, l') ∈ Function.update held t (held t ++ [(x, l)]) u →
      (y, l') ∈ held u ∨ (u = t ∧ y = x ∧ l' = l) := by
    intro u y l' h
    by_cases hu : u = t
    · subst u
      rw [Function.update_self, List.mem_append, List.mem_singleton, Prod.mk.injEq] at h
      exact h.imp_right fun h => ⟨rfl, h⟩
    · rw [Function.update_of_ne hu] at h
      exact Or.inl h
  exact {
    first := by
      intro u y l' h
      rcases hheld h with h | ⟨rfl, -, rfl⟩
      · exact ok.first h
      · exact hfirst
    standing := by
      intro u y l' h
      rw [hw] at h
      split at h
      · cases h
      · exact ok.standing h
    known := by
      intro u l' h
      rw [hin]
      exact ok.known h
    rowOf_inLine := by
      intro u y l' h
      rw [hin] at h
      exact ok.rowOf_inLine h
    rowOf_name := ok.rowOf_name
    line_lt := ok.line_lt
    name_lt := ok.name_lt
    nodup := ok.nodup
    apart := by
      intro u y l' h h' hmem
      rw [hw] at h
      split at h
      · cases h
      · rename_i hu
        rw [Function.update_of_ne hu] at hmem
        exact ok.apart h _ hmem
    once := by
      intro u
      by_cases hu : u = t
      · subst u
        rw [Function.update_self, List.map_append, List.nodup_append]
        refine ⟨ok.once t, by simp, ?_⟩
        intro a ha b hb hab
        obtain ⟨h', hmem, rfl⟩ := List.mem_map.mp ha
        exact ok.apart hwait h' hmem (hab.trans (by simpa using hb))
      · rw [Function.update_of_ne hu]; exact ok.once u
    current := by
      intro u y l' h hy
      rw [hin] at h
      exact ok.current h hy }

/-! ### Leaving -/

/-- Whoever is in line at a lock may leave it, whether he holds the lock or waits for it. -/
theorem depart (ok : LinesOK ls held rowOf present) {t : Ticket} {x : Uuid} {l : LockId}
    {waiting' : Table Ticket (Uuid × LockId)} {held' : Holdings}
    (hat : ls.InLine held t x l)
    (hw : ∀ {u w}, waiting'.find? u = some w → ls.waiting.find? u = some w)
    (hh : ∀ u, (held' u).Sublist (held u))
    (hgone : ¬ RowLocks.InLine { ls.leave l t with waiting := waiting' } held' t x l)
    (hstay : ∀ {u y l'}, ls.InLine held u y l' → (u = t → l' ≠ l) →
      RowLocks.InLine { ls.leave l t with waiting := waiting' } held' u y l') :
    LinesOK { ls.leave l t with waiting := waiting' } held' rowOf present := by
  set ls' : RowLocks := { ls.leave l t with waiting := waiting' }
  have hrow : rowOf l = x := ok.rowOf_inLine hat
  have hline : ∀ l', ls'.line l' = if l' = l then (ls.line l).erase t else ls.line l' :=
    ls.line_leave l t
  have hin : ∀ {u y l'}, ls'.InLine held' u y l' → ls.InLine held u y l' :=
    fun h => h.imp (fun h => (hh _).subset h) hw
  have hother : ∀ {u y}, ls'.InLine held' u y l → u ≠ t := by
    rintro u y h rfl
    obtain rfl : x = y := hrow.symm.trans (ok.rowOf_inLine (hin h))
    exact hgone h
  have hkeep : ∀ {u l'}, u ∈ ls'.line l' → u ∈ ls.line l' ∧ (u = t → l' ≠ l) := by
    intro u l' hu
    rw [hline] at hu
    split at hu
    · subst l'
      refine ⟨List.mem_of_mem_erase hu, ?_⟩
      rintro rfl
      exact absurd hu (ok.nodup l).not_mem_erase
    · exact ⟨hu, fun _ => by assumption⟩
  exact {
    first := by
      intro u y l' hu
      have hf := ok.first ((hh u).subset hu)
      rw [hline]
      split
      · subst l'
        have hut := hother (Or.inl hu)
        cases hl : ls.line l with
        | nil => rw [hl] at hf; cases hf
        | cons a rest =>
            rw [hl] at hf
            obtain rfl : a = u := by simpa using hf
            rw [List.erase_cons_tail (by simpa using hut)]
            rfl
      · exact hf
    standing := by
      intro u y l' hu
      have hmem := ok.standing (hw hu)
      rw [hline]
      split
      · subst l'; exact (List.mem_erase_of_ne (hother (Or.inr hu))).mpr hmem
      · exact hmem
    known := by
      intro u l' hu
      obtain ⟨hu, hne⟩ := hkeep hu
      exact hstay (ok.known hu) hne
    rowOf_inLine := by
      intro u y l' hu
      exact ok.rowOf_inLine (hin hu)
    rowOf_name := ok.rowOf_name
    line_lt := by
      intro u l' hu
      exact ok.line_lt (hkeep hu).1
    name_lt := ok.name_lt
    nodup := by
      intro l'
      rw [hline]
      split
      · exact (ok.nodup l).erase t
      · exact ok.nodup l'
    apart := by
      intro u y l' hu h' hmem
      exact ok.apart (hw hu) h' ((hh u).subset hmem)
    once := by
      intro u
      exact ((hh u).map Prod.fst).nodup (ok.once u)
    current := by
      intro u y l' hu hy
      exact ok.current (hin hu) hy }

/-- Whoever holds a lock may leave its line. -/
theorem leave (ok : LinesOK ls held rowOf present) {t : Ticket} {x : Uuid} {l : LockId}
    (h : (x, l) ∈ held t) :
    LinesOK (ls.leave l t) (Function.update held t ((held t).filter fun h => h.1 != x)) rowOf
      present := by
  have hrow : rowOf l = x := ok.rowOf_inLine (Or.inl h)
  have hheld : ∀ {u y l'}, (y, l') ∈ Function.update held t ((held t).filter fun h => h.1 != x) u ↔
      (y, l') ∈ held u ∧ (u = t → y ≠ x) := by
    intro u y l'
    by_cases hu : u = t
    · subst u
      rw [Function.update_self, List.mem_filter]
      simp
    · rw [Function.update_of_ne hu]
      simp [hu]
  refine ok.depart (Or.inl h) (fun hw => hw) ?_ ?_ ?_
  · intro u
    by_cases hu : u = t
    · subst u
      rw [Function.update_self]
      exact List.filter_sublist
    · rw [Function.update_of_ne hu]
  · rintro (hin | hin)
    · exact (hheld.1 hin).2 rfl rfl
    · exact ok.apart hin _ h rfl
  · rintro u y l' (hin | hin) hne
    · refine Or.inl (hheld.2 ⟨hin, ?_⟩)
      rintro hut rfl
      -- two locks that one party holds for one row are the same
      subst u
      have := List.inj_on_of_nodup_map (ok.once t) hin h rfl
      exact hne rfl (Prod.mk.inj this).2
    · exact Or.inr hin

/-- Whoever has just taken a lock, and holds nothing else, may let go of it again. -/
theorem leave_only {t : Ticket} {x : Uuid} {l : LockId}
    (ok : LinesOK ls (Function.update held t [(x, l)]) rowOf present)
    (hnone : held t = []) : LinesOK (ls.leave l t) held rowOf present := by
  have hself : (x, l) ∈ Function.update held t [(x, l)] t := by
    rw [Function.update_self]
    exact List.mem_singleton_self _
  refine (ok.leave hself).congr (fun _ => rfl) (fun _ => rfl) (fun _ => rfl) rfl fun u => ?_
  by_cases hu : u = t
  · subst u
    rw [Function.update_self, Function.update_self, hnone]
    simp
  · rw [Function.update_of_ne hu, Function.update_of_ne hu]

/-- Nobody has locked a row that exists if somebody else can take its lock. -/
theorem not_held_of_taken {t : Ticket} {x : Uuid} {l : LockId}
    (ok : LinesOK ls (Function.update held t [(x, l)]) rowOf present)
    (hnone : held t = []) (hx : present x) (u : Ticket) (l' : LockId) : (x, l') ∉ held u := by
  intro hmem
  have hut : u ≠ t := by
    rintro rfl
    rw [hnone] at hmem
    cases hmem
  have hself : (x, l) ∈ Function.update held t [(x, l)] t := by
    rw [Function.update_self]
    exact List.mem_singleton_self _
  have hmem' : (x, l') ∈ Function.update held t [(x, l)] u := by
    rw [Function.update_of_ne hut]
    exact hmem
  exact hut (ok.exclusive hmem' hself hx)

/-- Whoever waits may give up; whoever does not has nothing to give up. -/
theorem giveUp (ok : LinesOK ls held rowOf present) (t : Ticket) :
    LinesOK (ls.giveUp t) held rowOf present := by
  unfold RowLocks.giveUp
  cases hwait : ls.waiting.find? t with
  | none => exact ok
  | some w =>
      obtain ⟨x, l⟩ := w
      have hw : ∀ u, (ls.waiting.erase t).find? u = if u = t then none else ls.waiting.find? u :=
        fun u => Table.find?_erase _ _ _
      have hrow : rowOf l = x := ok.rowOf_inLine (Or.inr hwait)
      refine ok.depart (Or.inr hwait) ?_ (fun _ => List.Sublist.refl _) ?_ ?_
      · intro u w h
        rw [hw] at h
        split at h
        · cases h
        · exact h
      · rintro (hin | hin)
        · exact ok.apart hwait _ hin rfl
        · change (ls.waiting.erase t).find? t = _ at hin
          rw [hw, if_pos rfl] at hin
          cases hin
      · rintro u y l' (hin | hin) hne
        · exact Or.inl hin
        · refine Or.inr ?_
          show (ls.waiting.erase t).find? u = _
          rw [hw, if_neg, hin]
          rintro rfl
          rw [hwait] at hin
          exact hne rfl (Prod.mk.inj (Option.some.inj hin)).2.symm

/-- Nobody waits any more who has given up, and nobody else is concerned. -/
theorem waiting_giveUp (ls : RowLocks) (t u : Ticket) :
    (ls.giveUp t).waiting.find? u = if u = t then none else ls.waiting.find? u := by
  unfold RowLocks.giveUp
  split
  · exact Table.find?_erase _ _ _
  · rename_i h
    by_cases hu : u = t
    · rw [if_pos hu, hu, h]
    · rw [if_neg hu]

/-- Whoever holds some locks may leave all of their lines. -/
theorem leaveAll (ok : LinesOK ls held rowOf present) {t : Ticket}
    (hs : List (Uuid × LockId)) (hmem : ∀ h ∈ hs, h ∈ held t) (hnodup : (hs.map Prod.fst).Nodup) :
    LinesOK (hs.foldl (fun ls h => ls.leave h.2 t) ls)
      (Function.update held t ((held t).filter fun h => decide (h.1 ∉ hs.map Prod.fst))) rowOf
      present := by
  induction hs generalizing ls held with
  | nil =>
      refine ok.congr (fun _ => rfl) (fun _ => rfl) (fun _ => rfl) rfl fun u => ?_
      simp
  | cons h rest ih =>
      obtain ⟨x, l⟩ := h
      rw [List.map_cons, List.nodup_cons] at hnodup
      have okl := ok.leave (hmem (x, l) (by simp))
      have hrest : ∀ h ∈ rest,
          h ∈ Function.update held t ((held t).filter fun h => h.1 != x) t := by
        intro h hh
        rw [Function.update_self, List.mem_filter]
        refine ⟨hmem h (by simp [hh]), ?_⟩
        have hne : h.1 ≠ x := by
          rintro rfl
          exact hnodup.1 (List.mem_map.mpr ⟨h, hh, rfl⟩)
        simpa using hne
      refine (ih okl hrest hnodup.2).congr (fun _ => rfl) (fun _ => rfl) (fun _ => rfl) rfl ?_
      intro u
      by_cases hu : u = t
      · subst u
        rw [Function.update_self, Function.update_self, Function.update_self, List.filter_filter]
        refine List.filter_congr fun h _ => ?_
        rw [Bool.eq_iff_iff]
        simp only [List.map_cons, List.mem_cons, not_or, decide_eq_true_eq, Bool.and_eq_true,
          bne_iff_ne, ne_eq]
        exact and_comm
      · simp only [Function.update_of_ne hu]

/-- Leaving lines is no matter of waiting. -/
theorem waiting_leaveAll (ls : RowLocks) (t : Ticket) (hs : List (Uuid × LockId)) :
    (hs.foldl (fun ls h => ls.leave h.2 t) ls).waiting = ls.waiting := by
  induction hs generalizing ls with
  | nil => rfl
  | cons h rest ih => rw [List.foldl_cons, ih, RowLocks.waiting_leave]

/-- Giving up forgets no lock. -/
theorem names_giveUp (ls : RowLocks) (t : Ticket) : (ls.giveUp t).names = ls.names := by
  unfold RowLocks.giveUp
  split <;> rfl

/-- Neither does leaving lines. -/
theorem names_leaveAll (ls : RowLocks) (t : Ticket) (hs : List (Uuid × LockId)) :
    (hs.foldl (fun ls h => ls.leave h.2 t) ls).names = ls.names := by
  induction hs generalizing ls with
  | nil => rfl
  | cons h rest ih => rw [List.foldl_cons, ih, RowLocks.names_leave]

end LinesOK
end Dispatch
