/-
Batch updates.

A batch update goes through the rows that are named, one after the other, and each of them it locks,
looks at, and writes or leaves.  In the end those rows have the new status that were named and had a
status that was allowed, and in what order they were named, or how often, is not to be seen.

It can stop at a row that is locked, with some of the rows written and the others not.  Whoever stops
waiting there and begins again from the first row gets what he would have got by waiting, since to
give a status twice is to give it once.
-/
import Dispatch.Proofs.Matching.Competitors
import Dispatch.Proofs.Store.Updated

namespace Dispatch

namespace Store

/-! ### All rows -/

/-- A batch update, or what is left of one. -/
abbrev BatchProgram : Type := Program StoreCall.Reply (Except StoreError Nat)

/-- What is left of a batch update when some of its rows are done. -/
def batchFrom (t : Ticket) (status : Status) (allowed : List Status) (ids : List MatchId)
    (changed : Nat) : BatchProgram :=
  ids.foldr
    (fun id rest changed => .call (.updateRow t id status allowed) fun (b : Bool) =>
      rest (if b then changed + 1 else changed))
    (fun changed => .done (.ok changed)) changed

/-- What comes of a batch update, from some row on: it ends, or it waits at a row that somebody else
is in line for, with the rows before it done. -/
inductive Batched (m : Moment) (t : Ticket) (status : Status) (allowed : List Status) (s : Store)
    (ids : List MatchId) (changed : Nat) : BatchProgram × Store → Prop
  | ends {s' : Store} : s.Updated status allowed (fun _ => m.now) ids s' → s'.Steady →
      Spares t s s' → Batched m t status allowed s ids changed
        (.done (.ok (changed + ids.countP (s.allows allowed))), s')
  | waits {first rest : List MatchId} {id : MatchId} {l : LockId} {changed' : Nat} {s' : Store} :
      ids = first ++ id :: rest → s.Updated status allowed (fun _ => m.now) first s' → s'.Steady →
      Spares t s s' → ¬s'.IsOpen t → s'.locks.waiting.find? t = some (id, l) →
      (∃ u l, u ≠ t ∧ s.locks.InLine s.held u id l) →
      Batched m t status allowed s ids changed
        (batchFrom t status allowed (id :: rest) changed', s')

section Runs

variable {m m' : Moment} {s s' : Store} {t : Ticket} {id : MatchId} {status : Status}
  {allowed : List Status} {ids : List MatchId}

theorem run_batchFrom_of_answer {changed : Nat} {b : Bool}
    (h : perform m (.updateRow t id status allowed) s = .answer b s') :
    (batchFrom t status allowed (id :: ids) changed).run (perform m) s =
      (batchFrom t status allowed ids (if b then changed + 1 else changed)).run (perform m) s' := by
  refine (Program.run_call (perform m) (.updateRow t id status allowed) _ s).trans ?_
  rw [h]
  rfl

theorem run_batchFrom_of_wait {changed : Nat}
    (h : perform m (.updateRow t id status allowed) s = .wait s') :
    (batchFrom t status allowed (id :: ids) changed).run (perform m) s =
      (batchFrom t status allowed (id :: ids) changed, s') := by
  refine (Program.run_call (perform m) (.updateRow t id status allowed) _ s).trans ?_
  rw [h]
  rfl

/-- One row is done, and then the others. -/
theorem Batched.cons {changed : Nat} {left : BatchProgram × Store} (hid : id ∉ ids)
    (hupdated : s.Updated status allowed (fun _ => m.now) [id] s') (hspares : Spares t s s')
    (h : Batched m t status allowed s' ids
      (if s.allows allowed id then changed + 1 else changed) left) :
    Batched m t status allowed s (id :: ids) changed left := by
  have hsame : ∀ x ∈ ids, s'.allows allowed x = s.allows allowed x := fun x hx => by
    have hne : x ∉ [id] := fun h => hid (List.mem_singleton.mp h ▸ hx)
    rw [allows, allows, hupdated.row, if_neg hne]
  cases h with
  | ends hrest hsteady hspares' =>
      have hcount : (if s.allows allowed id then changed + 1 else changed) +
          ids.countP (s'.allows allowed) = changed + (id :: ids).countP (s.allows allowed) := by
        rw [List.countP_congr fun x hx => by rw [hsame x hx], List.countP_cons]
        split <;> omega
      rw [hcount]
      exact .ends (hupdated.append hrest) hsteady (hspares.trans hspares')
  | @waits first rest x l changed' s₂ hids hrest hsteady hspares' hopen hwait hothers =>
      obtain ⟨u, l', hu, hin⟩ := hothers
      have hsplit : id :: ids = (id :: first) ++ x :: rest := by
        rw [hids]
        rfl
      exact .waits hsplit (hupdated.append hrest) hsteady (hspares.trans hspares') hopen hwait
        ⟨u, l', hu, (hspares.inLine hu).mp hin⟩

/-- **What comes of the rows of a batch update**, by induction on the rows.  The first one may be a
row that it has been waiting for. -/
theorem Steady.batched (hs : s.Steady) (m : Moment) (status : Status) (allowed : List Status)
    (hopen : ¬s.IsOpen t) (hlt : t < s.nextTicket) (hnodup : ids.Nodup)
    (hask : ∀ id, ids.head? = some id → s.MayAsk t id) (changed : Nat) :
    Batched m t status allowed s ids changed
      ((batchFrom t status allowed ids changed).run (perform m) s) := by
  induction ids generalizing s changed with
  | nil => exact .ends (.nil rfl) hs (.refl t s)
  | cons id ids ih =>
      rw [List.nodup_cons] at hnodup
      rcases hs.updateRow_cases hopen hlt (hask id rfl) m status allowed with
        ⟨s', hwait, hc, hs', hspares, hopen', ⟨l, hl⟩, hothers⟩ |
        ⟨s', hanswer, hupdated, hs', hspares, hidle⟩
      · rw [run_batchFrom_of_wait hwait]
        exact .waits (List.nil_append _).symm (.nil hc) hs' hspares hopen' hl hothers
      · rw [run_batchFrom_of_answer hanswer]
        have hlt' := Nat.lt_of_lt_of_le hlt hspares.nextTicket
        refine .cons hnodup.1 hupdated hspares (ih hs' hidle.1 hlt' hnodup.2 (fun x _ w hw => ?_) _)
        rw [hidle.2] at hw
        cases hw

/-- Where nobody else is in line for the rows a batch update comes to its end. -/
theorem Batched.ends_of_alone {changed : Nat} {left : BatchProgram × Store}
    (h : Batched m t status allowed s ids changed left)
    (halone : ∀ id ∈ ids, ∀ u l, s.locks.InLine s.held u id l → u = t) :
    ∃ s', left = (.done (.ok (changed + ids.countP (s.allows allowed))), s') ∧
      s.Updated status allowed (fun _ => m.now) ids s' ∧ s'.Steady ∧ Spares t s s' := by
  cases h with
  | ends hupdated hsteady hspares => exact ⟨_, rfl, hupdated, hsteady, hspares⟩
  | waits hids hupdated hsteady hspares hopen hwait hothers =>
      obtain ⟨u, l, hu, hin⟩ := hothers
      refine absurd (halone _ ?_ u l hin) hu
      rw [hids]
      exact List.mem_append_right _ List.mem_cons_self

/-! ### The order in which rows are named -/

theorem pairwise_eraseDups {α : Type} [DecidableEq α] {R : α → α → Prop} {l : List α}
    (h : l.Pairwise R) : l.eraseDups.Pairwise R := by
  induction hn : l.length using Nat.strongRecOn generalizing l with
  | ind n ih =>
      cases l with
      | nil => simp
      | cons a l =>
          rw [List.pairwise_cons] at h
          rw [List.eraseDups_cons, List.pairwise_cons]
          refine ⟨fun b hb => h.1 b ?_, ih _ ?_ (h.2.filter _) rfl⟩
          · exact (List.mem_filter.mp (List.mem_eraseDups.mp hb)).1
          · have hle := List.length_filter_le (fun b => !b == a) l
            rw [List.length_cons] at hn
            omega

/-- As many digits that spell the same number are the same digits. -/
theorem digits_eq_of_foldl_eq {ds es : List (Fin 16)} (hlength : ds.length = es.length) {n k : Nat}
    (h : ds.foldl (fun n d => 16 * n + d.val) n = es.foldl (fun n d => 16 * n + d.val) k) :
    n = k ∧ ds = es := by
  induction ds generalizing es n k with
  | nil =>
      obtain rfl := List.length_eq_zero_iff.mp hlength.symm
      exact ⟨h, rfl⟩
  | cons d ds ih =>
      cases es with
      | nil => cases hlength
      | cons e es =>
          obtain ⟨hfirst, rfl⟩ := ih (Nat.succ.inj hlength) h
          have hfirst : 16 * n + d.val = 16 * k + e.val := hfirst
          have hd := d.isLt
          have he := e.isLt
          obtain rfl : d = e := Fin.ext (by omega)
          exact ⟨by omega, rfl⟩

theorem uuid_le_antisymm {a b : Uuid} (hab : a.le b = true) (hba : b.le a = true) : a = b := by
  rw [Uuid.le, decide_eq_true_eq] at hab hba
  obtain ⟨ds, hds⟩ := a
  obtain ⟨es, hes⟩ := b
  obtain ⟨-, rfl⟩ := digits_eq_of_foldl_eq (hds.trans hes.symm) (Nat.le_antisymm hab hba)
  rfl

theorem pairwise_sortedIds (ids : List MatchId) :
    (sortedIds ids).Pairwise fun a b => a.le b = true := by
  refine pairwise_eraseDups (List.pairwise_mergeSort ?_ ?_ ids)
  · intro a b c hab hbc
    rw [Uuid.le, decide_eq_true_eq] at *
    exact Nat.le_trans hab hbc
  · intro a b
    rw [Uuid.le, Uuid.le, Bool.or_eq_true, decide_eq_true_eq, decide_eq_true_eq]
    exact Nat.le_total _ _

/-- There is one way only to name rows in ascending order, and each once. -/
theorem eq_sortedIds {ids' : List MatchId} (hsorted : ids'.Pairwise fun a b => a.le b = true)
    (hnodup : ids'.Nodup) (h : ∀ id, id ∈ ids' ↔ id ∈ ids) : ids' = sortedIds ids := by
  refine List.Perm.eq_of_pairwise (fun _ _ _ _ => uuid_le_antisymm) hsorted
    (pairwise_sortedIds ids) ?_
  refine (List.perm_ext_iff_of_nodup hnodup (nodup_sortedIds _)).mpr fun id => ?_
  rw [mem_sortedIds, h]

/-- In what order rows are named, and how often, is not to be seen. -/
theorem sortedIds_congr {ids' : List MatchId} (h : ∀ id, id ∈ ids' ↔ id ∈ ids) :
    sortedIds ids' = sortedIds ids :=
  eq_sortedIds (pairwise_sortedIds ids') (nodup_sortedIds ids') fun _ => mem_sortedIds.trans (h _)

/-! ### A whole batch update -/

theorem run_batchUpdate_online (hon : s.offline = false) :
    (batchUpdate ids status allowed).run (perform m) s =
      (batchFrom s.nextTicket status allowed (sortedIds ids) 0).run (perform m) s.openBatch.2 := by
  refine (Program.run_call (perform m) .openBatch _ s).trans ?_
  rw [openBatch_online m hon]
  rfl

theorem run_batchUpdate_offline (hoff : s.offline = true) :
    (batchUpdate ids status allowed).run (perform m) s = (.done (.error .offline), s) := by
  refine (Program.run_call (perform m) .openBatch _ s).trans ?_
  rw [openBatch_offline m hoff]
  rfl

theorem Steady.batchUpdate (hs : s.Steady) (m : Moment) (ids : List MatchId) (status : Status)
    (allowed : List Status) : Batched m s.nextTicket status allowed s.openBatch.2 (sortedIds ids) 0
      ((batchFrom s.nextTicket status allowed (sortedIds ids) 0).run (perform m)
        s.openBatch.2) := by
  have hidle := hs.idle_nextTicket
  refine hs.openBatch.batched m status allowed hidle.1 (Nat.lt_succ_self _) (nodup_sortedIds ids)
    (fun id _ w hw => ?_) 0
  rw [show s.openBatch.2.locks = s.locks from rfl, hidle.2] at hw
  cases hw

/-- The number of rows that are given the status. -/
theorem Filed.countP_sortedIds (hs : s.Filed) : (sortedIds ids).countP (s.allows allowed) =
    s.rows.values.countP fun r => decide (r.id ∈ ids ∧ r.status ∈ allowed) := by
  rw [List.countP_eq_length_filter]
  refine hs.length_eq_countP ((nodup_sortedIds ids).filter _) _ fun id => ?_
  rw [List.mem_filter, mem_sortedIds, allows, Option.any_eq_true]
  constructor
  · rintro ⟨hid, r, hr, hallowed⟩
    exact ⟨r, hr, decide_eq_true ⟨by rwa [hs id r hr], of_decide_eq_true hallowed⟩⟩
  · rintro ⟨r, hr, hboth⟩
    obtain ⟨hid, hallowed⟩ := of_decide_eq_true hboth
    exact ⟨hs id r hr ▸ hid, r, hr, decide_eq_true hallowed⟩

/-- **Where nobody is in line for a row that is named, a batch update comes to its end.** -/
theorem Steady.run_batchUpdate (hs : s.Steady) (hon : s.offline = false) (m : Moment)
    (status : Status) (allowed : List Status)
    (hnobody : ∀ id ∈ ids, ∀ u l, ¬s.locks.InLine s.held u id l) :
    ∃ s', (Store.batchUpdate ids status allowed).run (perform m) s =
        (.done (.ok (s.rows.values.countP fun r => decide (r.id ∈ ids ∧ r.status ∈ allowed))), s') ∧
      s.Updated status allowed (fun _ => m.now) ids s' ∧ s'.Steady ∧ Spares s.nextTicket s s' := by
  obtain ⟨s', hrun, hupdated, hsteady, hspares⟩ :=
    (hs.batchUpdate m ids status allowed).ends_of_alone fun id hid u l hin =>
      absurd hin (hnobody id (mem_sortedIds.mp hid) u l)
  have hupdated : s.Updated status allowed (fun _ => m.now) (sortedIds ids) s' :=
    hupdated.congr_contents rfl rfl
  refine ⟨s', ?_, hupdated.congr (fun _ => mem_sortedIds) fun _ _ => rfl, hsteady,
    (Spares.openBatch s _).trans hspares⟩
  rw [run_batchUpdate_online hon, hrun, Nat.zero_add, ← hs.filed.countP_sortedIds]
  rfl

/-! ### Stopping, and beginning again -/

/-- Some parties are in line nowhere any more, and otherwise nothing has happened to a table. -/
structure Vacated (parties : List Ticket) (s s' : Store) : Prop where
  contents : s'.contents = s.contents
  nextTicket : s'.nextTicket = s.nextTicket
  offline : s'.offline = s.offline
  isOpen : ∀ u, s'.IsOpen u → s.IsOpen u
  waiting : ∀ u w, s'.locks.waiting.find? u = some w → s.locks.waiting.find? u = some w
  inLine : ∀ u id l, s'.locks.InLine s'.held u id l →
    u ∉ parties ∧ s.locks.InLine s.held u id l
  steady : s.Steady → s'.Steady

namespace Vacated

variable {h : Ticket} {parties parties' : List Ticket}

theorem nil (s : Store) : Vacated [] s s :=
  ⟨rfl, rfl, rfl, fun _ => id, fun _ _ => id, fun _ _ _ hin => ⟨List.not_mem_nil, hin⟩, id⟩

/-- Somebody without a transaction has stopped waiting. -/
theorem withdraw (hopen : ¬s.IsOpen t) :
    Vacated [t] s { s with locks := s.locks.giveUp t } where
  contents := rfl
  nextTicket := rfl
  offline := rfl
  isOpen _ := id
  waiting u w hw := by
    rw [LinesOK.waiting_giveUp] at hw
    split at hw
    · cases hw
    · exact hw
  inLine u id l hin := by
    rcases hin with hheld | hwait
    · refine ⟨?_, .inl hheld⟩
      rw [List.mem_singleton]
      rintro rfl
      change (id, l) ∈ s.held u at hheld
      rw [s.held_of_not_isOpen hopen] at hheld
      cases hheld
    · rw [LinesOK.waiting_giveUp] at hwait
      split at hwait
      · cases hwait
      · exact ⟨List.mem_singleton.not.mpr (by assumption), .inr hwait⟩
  steady hs := hs.congr_contents (LocksOK.giveUp hs.queued t) rfl

/-- A transaction has ended. -/
theorem endTransaction (s : Store) (h : Ticket) : Vacated [h] s (s.endTransaction h) where
  contents := rfl
  nextTicket := rfl
  offline := rfl
  isOpen u ho := ((s.isOpen_endTransaction h u).mp ho).2
  waiting u w hw := by
    rw [waiting_endTransaction] at hw
    split at hw
    · cases hw
    · exact hw
  inLine u id l hin := by
    obtain ⟨hu, hin⟩ := inLine_endTransaction hin
    exact ⟨List.mem_singleton.not.mpr hu, hin⟩
  steady hs := hs.congr_contents (LocksOK.endTransaction hs.queued h) rfl

theorem append (hv : Vacated parties s s₁) (hv' : Vacated parties' s₁ s') :
    Vacated (parties ++ parties') s s' where
  contents := hv'.contents.trans hv.contents
  nextTicket := hv'.nextTicket.trans hv.nextTicket
  offline := hv'.offline.trans hv.offline
  isOpen u ho := hv.isOpen u (hv'.isOpen u ho)
  waiting u w hw := hv.waiting u w (hv'.waiting u w hw)
  inLine u id l hin := by
    obtain ⟨hu', hin'⟩ := hv'.inLine u id l hin
    obtain ⟨hu, hin⟩ := hv.inLine u id l hin'
    exact ⟨fun hmem => (List.mem_append.mp hmem).elim hu hu', hin⟩
  steady hs := hv'.steady (hv.steady hs)

/-- Transactions have ended, one after the other. -/
theorem foldl_endTransaction (s : Store) (parties : List Ticket) :
    Vacated parties s (parties.foldl Store.endTransaction s) := by
  induction parties generalizing s with
  | nil => exact .nil s
  | cons h rest ih => exact (endTransaction s h).append (ih (s.endTransaction h))

end Vacated

/-- What is known of a batch update that waits: it has done the rows before the one it waits for, and
can stop waiting or go on from that row. -/
structure Interrupted (m : Moment) (t : Ticket) (status : Status) (allowed : List Status)
    (s : Store) (ids first rest : List MatchId) (id : MatchId) (s₁ : Store) : Prop where
  split : ids = first ++ id :: rest
  updated : s.Updated status allowed (fun _ => m.now) first s₁
  steady : s₁.Steady
  spares : Spares t s s₁
  notOpen : ¬s₁.IsOpen t
  waiting : ∃ l, s₁.locks.waiting.find? t = some (id, l)

theorem Batched.interrupted {c : StoreCall} {next : c.Reply → BatchProgram} {s₁ : Store}
    {changed : Nat} (h : Batched m t status allowed s ids changed (.call c next, s₁)) :
    ∃ first rest id changed', Interrupted m t status allowed s ids first rest id s₁ ∧
      .call c next = batchFrom t status allowed (id :: rest) changed' ∧
      giveUp c s₁ = { s₁ with locks := s₁.locks.giveUp t } := by
  generalize hleft : (Program.call c next, s₁) = left at h
  cases h with
  | ends _ _ _ => cases (Prod.mk.inj hleft).1
  | @waits first rest id l changed' s' hids hupdated hsteady hspares hopen hwait _ =>
      obtain ⟨hcall, rfl⟩ := Prod.mk.inj hleft
      refine ⟨first, rest, id, changed', ⟨hids, hupdated, hsteady, hspares, hopen, ⟨l, hwait⟩⟩,
        hcall, ?_⟩
      obtain ⟨rfl, -⟩ := Program.call.inj hcall
      rfl

section Interrupted

variable {first rest : List MatchId} {s₁ s₁' : Store} {parties : List Ticket}

/-- Whoever is in line for a row that is named, when the batch update waits. -/
theorem Interrupted.inLine (hi : Interrupted m t status allowed s ids first rest id s₁)
    (hparties : ∀ id ∈ ids, ∀ u l, s.locks.InLine s.held u id l → u ∈ parties) {x : MatchId}
    (hx : x ∈ ids) {u : Ticket} {l : LockId} (hin : s₁.locks.InLine s₁.held u x l) :
    u = t ∨ u ∈ parties := by
  by_cases hu : u = t
  · exact .inl hu
  · exact .inr (hparties x hx u l ((hi.spares.inLine hu).mp hin))

/-- **Beginning again.**  The caller has stopped waiting, the transactions in his way are over, and
he makes the same call once more. -/
theorem Interrupted.again (hi : Interrupted m t status allowed s (sortedIds ids) first rest id s₁)
    (hparties : ∀ id ∈ ids, ∀ u l, s.locks.InLine s.held u id l → u ∈ parties)
    (hon : s.offline = false) (hv : Vacated (t :: parties) s₁ s₁') (m' : Moment) :
    ∃ n s₂ clock, (Store.batchUpdate ids status allowed).run (perform m') s₁'
        = (.done (.ok n), s₂) ∧ s.Updated status allowed clock ids s₂ := by
  obtain ⟨s₂, hrun, hupdated, -, -⟩ := (hv.steady hi.steady).run_batchUpdate
    ((hv.offline.trans hi.spares.offline).trans hon) m' status allowed fun x hx u l hin => by
      obtain ⟨hu, hin⟩ := hv.inLine u x l hin
      exact hu (List.mem_cons.mpr
        (hi.inLine (fun y hy => hparties y (mem_sortedIds.mp hy)) (mem_sortedIds.mpr hx) hin))
  have hagain : s₁.Updated status allowed (fun _ => m'.now) ids s₂ :=
    hupdated.congr_contents hv.contents.symm rfl
  refine ⟨_, s₂, _, hrun, (hi.updated.trans hagain).congr (fun x => ?_) fun _ _ => rfl⟩
  -- the rows that were done the first time are done again
  rw [List.mem_append]
  refine ⟨fun hx => hx.elim (fun hx => mem_sortedIds.mp ?_) fun hx => hx, .inr⟩
  rw [hi.split]
  exact List.mem_append_left _ hx

/-- **Waiting.**  The transactions are over, and the batch update goes on from the row that it waited
for. -/
theorem Interrupted.resume (hi : Interrupted m t status allowed s ids first rest id s₁)
    (hparties : ∀ id ∈ ids, ∀ u l, s.locks.InLine s.held u id l → u ∈ parties)
    (hlt : t < s.nextTicket) (hnodup : ids.Nodup) (hv : Vacated parties s₁ s₁') (m' : Moment)
    (changed : Nat) :
    ∃ n s₂ clock, (batchFrom t status allowed (id :: rest) changed).run (perform m') s₁'
        = (.done (.ok n), s₂) ∧ s.Updated status allowed clock ids s₂ := by
  have hsub : ∀ x ∈ id :: rest, x ∈ ids := fun x hx => by
    rw [hi.split]
    exact List.mem_append_right _ hx
  have hopen : ¬s₁'.IsOpen t := fun ho => hi.notOpen (hv.isOpen t ho)
  -- it waits for the row that it goes on from, if it still waits
  have hask : ∀ x, (id :: rest).head? = some x → s₁'.MayAsk t x := by
    intro x hx w hw
    obtain ⟨l, hwait⟩ := hi.waiting
    have hw := hv.waiting t w hw
    rw [hwait] at hw
    obtain rfl := Option.some.inj hw
    exact Option.some.inj hx
  rw [hi.split] at hnodup
  have hlt' : t < s₁'.nextTicket := by
    rw [hv.nextTicket]
    exact Nat.lt_of_lt_of_le hlt hi.spares.nextTicket
  have hbatch := (hv.steady hi.steady).batched m' status allowed hopen hlt'
    hnodup.of_append_right hask changed
  obtain ⟨s₂, hrun, hupdated, -, -⟩ := hbatch.ends_of_alone fun x hx u l hin => by
    obtain ⟨hu, hin⟩ := hv.inLine u x l hin
    exact (hi.inLine hparties (hsub x hx) hin).resolve_right hu
  have hrest : s₁.Updated status allowed (fun _ => m'.now) (id :: rest) s₂ :=
    hupdated.congr_contents hv.contents.symm rfl
  have hboth := hi.updated.trans hrest
  rw [← hi.split] at hboth
  exact ⟨_, s₂, _, hrun, hboth⟩

end Interrupted

/-- **A batch update is one change of a set of rows.**

It is the same whatever the order in which rows are named, and however often.  If nobody is in line
for a row that is named, it gives the status to the rows that are named and have a status that is
allowed, counts them, and changes nothing else; while the table cannot be reached it does nothing.

If it waits, then it does not matter whether the caller waits until everybody who is in line for the
rows that are named has ended his transaction, or stops waiting and calls again after that, or calls
only then: all rows and pairs come out the same, but for the times of the changes. -/
theorem batchUpdate_setwise (hs : s.Reached) (ids : List MatchId) (status : Status)
    (allowed : List Status) :
    (∀ ids', (∀ id, id ∈ ids' ↔ id ∈ ids) →
      batchUpdate ids' status allowed = batchUpdate ids status allowed) ∧
    (s.offline = true → ∀ m,
      (batchUpdate ids status allowed).run (perform m) s = (.done (.error .offline), s)) ∧
    (s.offline = false → (∀ id ∈ ids, ∀ u l, ¬s.locks.InLine s.held u id l) → ∀ m, ∃ s',
      (batchUpdate ids status allowed).run (perform m) s =
        (.done (.ok (s.rows.values.countP fun r => decide (r.id ∈ ids ∧ r.status ∈ allowed))), s') ∧
      (∀ id, s'.row? id = (s.row? id).map fun r =>
        if r.id ∈ ids ∧ r.status ∈ allowed then { r with status, updatedAt := m.now } else r) ∧
      (∀ p, s'.openPairs.find? p = (s.openPairs.find? p).filter fun id =>
        !(status.isTerminal && (decide (id ∈ ids) && s.allows allowed id))) ∧
      Spares s.nextTicket s s') ∧
    (s.offline = false →
      ∀ parties : List Ticket, (∀ id ∈ ids, ∀ u l, s.locks.InLine s.held u id l → u ∈ parties) →
      ∀ m m' c next s₁, (batchUpdate ids status allowed).run (perform m) s = (.call c next, s₁) →
      ∃ n₁ n₂ n₃ s₂ s₃ s₄,
        (batchUpdate ids status allowed).run (perform m')
          (parties.foldl endTransaction (giveUp c s₁)) = (.done (.ok n₁), s₂) ∧
        (Program.call c next).run (perform m') (parties.foldl endTransaction s₁)
          = (.done (.ok n₂), s₃) ∧
        (batchUpdate ids status allowed).run (perform m') (parties.foldl endTransaction s)
          = (.done (.ok n₃), s₄) ∧
        (∀ id, (s₂.row? id).map Proposal.undated = (s₃.row? id).map Proposal.undated ∧
          (s₂.row? id).map Proposal.undated = (s₄.row? id).map Proposal.undated) ∧
        ∀ p, s₂.openPairs.find? p = s₃.openPairs.find? p ∧
          s₂.openPairs.find? p = s₄.openPairs.find? p) := by
  have hsteady := hs.steady
  refine ⟨fun ids' hids => ?_, fun hoff m => run_batchUpdate_offline hoff, fun hon hnobody m => ?_,
    fun hon parties hparties m m' c next s₁ hrun => ?_⟩
  · rw [batchUpdate, batchUpdate, sortedIds_congr hids]
  · obtain ⟨s', hrun, hupdated, -, hspares⟩ :=
      hsteady.run_batchUpdate hon m status allowed hnobody
    refine ⟨s', hrun, fun id => ?_, hupdated.openPairs, hspares⟩
    rw [hupdated.row]
    cases hr : s.row? id with
    | none => simp
    | some r =>
        have hfiled : r.id = id := hsteady.filed id r hr
        by_cases hid : id ∈ ids
        · simp [hid, hfiled, Proposal.given]
        · simp [hid, hfiled]
  · have hbatch := hsteady.batchUpdate m ids status allowed
    rw [run_batchUpdate_online hon] at hrun
    rw [hrun] at hbatch
    obtain ⟨first, rest, id, changed, hi, hcall, hgiveUp⟩ := hbatch.interrupted
    have hended := Vacated.foldl_endTransaction s parties
    obtain ⟨n₁, s₂, clock, hagain, hupdated⟩ := hi.again hparties hon
      ((Vacated.withdraw hi.notOpen).append (.foldl_endTransaction _ parties)) m'
    obtain ⟨n₂, s₃, clock', hresume, hupdated'⟩ := hi.resume
      (fun x hx => hparties x (mem_sortedIds.mp hx)) (Nat.lt_succ_self _) (nodup_sortedIds ids)
      (.foldl_endTransaction s₁ parties) m' changed
    obtain ⟨s₄, hafter, hupdated'', -, -⟩ := (hended.steady hsteady).run_batchUpdate
      (hended.offline.trans hon) m' status allowed fun x hx u l hin => by
        obtain ⟨hu, hin⟩ := hended.inLine u x l hin
        exact hu (hparties x hx u l hin)
    rw [hgiveUp, hcall]
    obtain ⟨hrow, hpair⟩ := hupdated.agree (hupdated'.congr (fun _ => mem_sortedIds) fun _ _ => rfl)
    obtain ⟨hrow', hpair'⟩ :=
      hupdated.agree (hupdated''.congr_contents hended.contents.symm rfl)
    exact ⟨n₁, n₂, _, s₂, s₃, s₄, hagain, hresume, hafter, fun id => ⟨hrow id, hrow' id⟩,
      fun p => ⟨hpair p, hpair' p⟩⟩

end Runs

/-! ### A run

Three rows are entered, and two of them are locked by a transaction each.  A batch update of all
three closes the first one and waits for the second.
-/

/-- The moves by which this comes about. -/
def holding : List Move :=
  let m := momentOf (Uuid.fresh 1)
  let m' := momentOf (Uuid.fresh 2)
  entering ++
    [.call .begin m, .call (.insert 1 { someDraft with passengerId := "q" }) m, .call (.commit 1) m,
     .call .begin m', .call (.insert 2 { someDraft with driverId := "e" }) m', .call (.commit 2) m',
     .call .begin m', .call (.lock 3 (Uuid.fresh 1)) m',
     .call .begin m', .call (.lock 4 (Uuid.fresh 2)) m']

/-- The rows that are entered, in ascending order. -/
def threeRows : List MatchId := [Uuid.nil, Uuid.fresh 2, Uuid.fresh 1]

theorem reached_entering : (entering.foldl after {}).Reached := ⟨entering, by decide +kernel, rfl⟩

theorem reached_holding : (holding.foldl after {}).Reached := ⟨holding, by decide +kernel, rfl⟩

theorem inLine_entering (u : Ticket) (l : LockId) : ¬(entering.foldl after {}).locks.InLine
    (entering.foldl after {}).held u Uuid.nil l :=
  (forall_inLine_iff _ Uuid.nil fun _ _ => False).2 ⟨by decide +kernel, by decide +kernel⟩ u l

theorem inLine_holding {id : MatchId} (hid : id ∈ threeRows) (u : Ticket) (l : LockId)
    (h : (holding.foldl after {}).locks.InLine (holding.foldl after {}).held u id l) :
    u ∈ [3, 4] := by
  have hall : ∀ id ∈ threeRows,
      (∀ e ∈ (holding.foldl after {}).transactions.entries, ∀ h ∈ e.2.held, h.1 = id →
        e.1 ∈ [3, 4]) ∧
      ∀ e ∈ (holding.foldl after {}).locks.waiting.entries, e.2.1 = id → e.1 ∈ [3, 4] := by
    decide +kernel
  exact (forall_inLine_iff _ id fun u _ => u ∈ [3, 4]).2 (hall id hid) u l h

/-- The batch update has to wait, and it has closed a row then. -/
theorem exists_run_holding (m : Moment) : ∃ c next s₁,
    (batchUpdate threeRows .rejected Status.openStates).run (perform m) (holding.foldl after {})
      = (.call c next, s₁) ∧ (s₁.row? Uuid.nil).map Proposal.status = some .rejected := by
  have hsorted : threeRows = sortedIds threeRows :=
    eq_sortedIds (by decide +kernel) (by decide +kernel) fun _ => Iff.rfl
  rw [run_batchUpdate_online rfl, ← hsorted]
  exact ⟨_, _, _, rfl, rfl⟩

theorem batchUpdate_setwise_holding :
    let m := momentOf Uuid.nil
    let batch := fun ids => batchUpdate ids .rejected Status.openStates
    (∃ s', (batch [Uuid.nil, Uuid.nil]).run (perform m) (entering.foldl after {})
      = (.done (.ok 1), s')) ∧
    ∃ c next s₁ n s₂,
      (batch threeRows).run (perform m) (holding.foldl after {}) = (.call c next, s₁) ∧
      (s₁.row? Uuid.nil).map Proposal.status = some .rejected ∧
      (batch threeRows).run (perform m) ([3, 4].foldl endTransaction (giveUp c s₁))
        = (.done (.ok n), s₂) := by
  intro m batch
  constructor
  · have hnobody : ∀ id ∈ [Uuid.nil, Uuid.nil], ∀ u l, ¬(entering.foldl after {}).locks.InLine
        (entering.foldl after {}).held u id l := by simpa using inLine_entering
    obtain ⟨s', hrun, -⟩ :=
      (batchUpdate_setwise reached_entering _ .rejected Status.openStates).2.2.1 rfl hnobody m
    exact ⟨s', hrun⟩
  · obtain ⟨c, next, s₁, hwait, hclosed⟩ := exists_run_holding m
    have hsetwise := batchUpdate_setwise reached_holding threeRows .rejected Status.openStates
    obtain ⟨n, -, -, s₂, -, -, hrun, -⟩ :=
      hsetwise.2.2.2 rfl [3, 4] (fun _ => inLine_holding) m m c next s₁ hwait
    exact ⟨c, next, s₁, n, s₂, hwait, hclosed, hrun⟩

end Store
end Dispatch
