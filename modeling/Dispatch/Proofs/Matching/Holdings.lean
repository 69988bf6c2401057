/-
What a caller has got hold of.

While an operation is under way its caller holds a ticket, and with the ticket perhaps a
transaction, and with the transaction perhaps the lock of a row.  `Holding.Holds` says what this
means for the table.  It stays true whatever others do (`Holds.frame`), because a call concerns
the ticket of its caller only and writes no row that somebody else has locked
(`Store.Advance`).
-/
import Dispatch.Proofs.Matching.Stages
import Dispatch.Proofs.Store.Calls

namespace Dispatch

namespace Store

/-- Nobody is in line for a row that does not exist. -/
def Present (s : Store) : Prop :=
  ∀ {u x l}, s.locks.InLine s.held u x l → s.Exists x

/-- A transaction has locked one row, and no other. -/
def LocksOnly (s : Store) (t : Ticket) (id : MatchId) : Prop :=
  (∃ l, (id, l) ∈ s.held t) ∧ ∀ h ∈ s.held t, h.1 = id

/-- Whoever waits waits for the row that he asks for, and the row exists. -/
def WaitsFor (s : Store) (t : Ticket) (asks : Option MatchId) : Prop :=
  ∀ w, s.locks.waiting.find? t = some w → asks = some w.1 ∧ s.Exists w.1

/-- The table has advanced by a call of one party, and is in order. -/
structure Advance (t : Ticket) (s s' : Store) : Prop extends Spares t s s' where
  ok : StoreOK s'
  present : s'.Present
  /-- Rows do not disappear. -/
  exists_mono : ∀ {x}, s.Exists x → s'.Exists x
  /-- What somebody else has locked is not written. -/
  locked : ∀ {u id l}, u ≠ t → (id, l) ∈ s.held u → s'.row? id = s.row? id

end Store

open Store

/-- What a holding means. -/
def Holding.Holds (s : Store) : Holding → Prop
  | nothing => True
  | begun t asks =>
    s.IsOpen t ∧ (s.transaction t).staged = [] ∧ s.held t = [] ∧ s.WaitsFor t asks
  | entering t d id now =>
    s.IsOpen t ∧ (s.transaction t).staged = [.insert (d.toProposal id now)] ∧ s.held t = [] ∧
      s.WaitsFor t none
  | reading t r =>
    s.IsOpen t ∧ (s.transaction t).staged = [] ∧ s.LocksOnly t r.id ∧ s.WaitsFor t none ∧
      s.row? r.id = some r
  | writing t r role now =>
    s.IsOpen t ∧ (s.transaction t).staged = [.update (r.confirmedBy role now)] ∧
      s.LocksOnly t r.id ∧ s.WaitsFor t none ∧ s.row? r.id = some r
  | ticket t asks => ¬ s.IsOpen t ∧ t < s.nextTicket ∧ s.WaitsFor t asks

namespace Store

variable {s s' : Store} {t : Ticket}

theorem WaitsFor.waiting_eq_none (h : s.WaitsFor t none) : s.locks.waiting.find? t = none := by
  cases hw : s.locks.waiting.find? t with
  | none => rfl
  | some w => cases (h w hw).1

theorem waitsFor_of_none {asks : Option MatchId} (h : s.locks.waiting.find? t = none) :
    s.WaitsFor t asks := by
  intro w hw
  rw [h] at hw
  cases hw

theorem WaitsFor.mayAsk {id : MatchId} (h : s.WaitsFor t (some id)) : s.MayAsk t id := by
  intro w hw
  exact (Option.some.inj (h w hw).1).symm

theorem mayAsk_of_none {id : MatchId} (h : s.locks.waiting.find? t = none) : s.MayAsk t id := by
  intro w hw
  rw [h] at hw
  cases hw

namespace Advance

/-- If nothing has happened, the table is in order as before. -/
theorem refl (ok : StoreOK s) (hp : s.Present) (t : Ticket) : Advance t s s :=
  ⟨Spares.refl t s, ok, hp, fun h => h, fun _ _ => rfl⟩

/-- A call that writes no rows; its caller is in line for existing rows only. -/
theorem of_row (hp : s.Present) (hs : Spares t s s') (ok : StoreOK s')
    (hrow : ∀ id, s'.row? id = s.row? id)
    (hown : ∀ {x l}, s'.locks.InLine s'.held t x l → s.Exists x) : Advance t s s' where
  toSpares := hs
  ok := ok
  present := by
    intro u x l h
    unfold Store.Exists
    rw [hrow]
    by_cases hu : u = t
    · subst u; exact hown h
    · exact hp ((hs.inLine hu).1 h)
  exists_mono := by
    intro x hx
    unfold Store.Exists
    rw [hrow]
    exact hx
  locked _ _ := hrow _

end Advance

end Store

namespace Holding.Holds

variable {s s' : Store} {h : Holding} {t : Ticket}

/-- Tickets are drawn before they are held. -/
theorem ticket_lt (ok : StoreOK s) (hh : h.Holds s) (ht : h.ticket? = some t) :
    t < s.nextTicket := by
  cases h with
  | nothing => cases ht
  | ticket t' asks => cases ht; exact hh.2.1
  | begun t' asks => cases ht; exact ok.locks.open_lt hh.1
  | entering t' d id now => cases ht; exact ok.locks.open_lt hh.1
  | reading t' r => cases ht; exact ok.locks.open_lt hh.1
  | writing t' r role now => cases ht; exact ok.locks.open_lt hh.1

/-- Whoever holds no more than a ticket has nothing under way. -/
theorem idle (hh : (Holding.ticket t none).Holds s) : s.Idle t := ⟨hh.1, hh.2.2.waiting_eq_none⟩

/-- Whoever has locked a row has a ticket, and the row exists and is as he has read it. -/
theorem exists_held (hh : h.Holds s) {r : Proposal} (hr : h.locked? = some r) :
    ∃ t l, h.ticket? = some t ∧ (r.id, l) ∈ s.held t ∧ s.row? r.id = some r := by
  cases h with
  | reading t r' =>
      obtain rfl := Option.some.inj hr
      obtain ⟨l, hl⟩ := hh.2.2.1.1
      exact ⟨t, l, rfl, hl, hh.2.2.2.2⟩
  | writing t r' role now =>
      obtain rfl := Option.some.inj hr
      obtain ⟨l, hl⟩ := hh.2.2.1.1
      exact ⟨t, l, rfl, hl, hh.2.2.2.2⟩
  | _ => cases hr

/-- **What somebody holds he still holds after a call of somebody else.** -/
theorem frame (hh : h.Holds s) (adv : Advance t s s') (hne : h.ticket? ≠ some t) : h.Holds s' := by
  have hwait : ∀ {u asks}, u ≠ t → s.WaitsFor u asks → s'.WaitsFor u asks := by
    intro u asks hu hw w h
    rw [adv.waiting u hu] at h
    exact ⟨(hw w h).1, adv.exists_mono (hw w h).2⟩
  have hheld : ∀ {u}, u ≠ t → s'.held u = s.held u := by
    intro u hu
    unfold Store.held
    rw [adv.transaction u hu]
  have hlocks : ∀ {u id}, u ≠ t → s.LocksOnly u id → s'.LocksOnly u id := by
    intro u id hu hl
    unfold LocksOnly
    rw [hheld hu]
    exact hl
  cases h with
  | nothing => trivial
  | begun u asks =>
      have hu : u ≠ t := fun he => hne (he ▸ rfl)
      obtain ⟨hopen, hstaged, hl, hw⟩ := hh
      exact ⟨(adv.isOpen u hu).2 hopen, by rw [adv.transaction u hu, hstaged],
        by rw [hheld hu, hl], hwait hu hw⟩
  | entering u d id now =>
      have hu : u ≠ t := fun he => hne (he ▸ rfl)
      obtain ⟨hopen, hstaged, hl, hw⟩ := hh
      exact ⟨(adv.isOpen u hu).2 hopen, by rw [adv.transaction u hu, hstaged],
        by rw [hheld hu, hl], hwait hu hw⟩
  | reading u r =>
      have hu : u ≠ t := fun he => hne (he ▸ rfl)
      obtain ⟨hopen, hstaged, hl, hw, hr⟩ := hh
      obtain ⟨l, hmem⟩ := hl.1
      exact ⟨(adv.isOpen u hu).2 hopen, by rw [adv.transaction u hu, hstaged],
        hlocks hu hl, hwait hu hw, by rw [adv.locked hu hmem, hr]⟩
  | writing u r role now =>
      have hu : u ≠ t := fun he => hne (he ▸ rfl)
      obtain ⟨hopen, hstaged, hl, hw, hr⟩ := hh
      obtain ⟨l, hmem⟩ := hl.1
      exact ⟨(adv.isOpen u hu).2 hopen, by rw [adv.transaction u hu, hstaged],
        hlocks hu hl, hwait hu hw, by rw [adv.locked hu hmem, hr]⟩
  | ticket u asks =>
      have hu : u ≠ t := fun he => hne (he ▸ rfl)
      obtain ⟨hopen, hlt, hw⟩ := hh
      exact ⟨fun ho => hopen ((adv.isOpen u hu).1 ho), Nat.lt_of_lt_of_le hlt adv.nextTicket,
        hwait hu hw⟩

/-- Whoever holds something is in line for existing rows only. -/
theorem exists_of_inLine (hh : h.Holds s) (ht : h.ticket? = some t) {x : MatchId} {l : LockId}
    (hin : s.locks.InLine s.held t x l) : s.Exists x := by
  have hrow : ∀ {r : Proposal}, s.row? r.id = some r → s.LocksOnly t r.id → (x, l) ∈ s.held t →
      s.Exists x := by
    intro r hr hl hmem
    have hx : x = r.id := hl.2 _ hmem
    unfold Store.Exists
    rw [hx, hr]
    rfl
  cases h with
  | nothing => cases ht
  | begun u asks =>
      cases ht
      rcases hin with hin | hin
      · rw [hh.2.2.1] at hin; cases hin
      · exact (hh.2.2.2 _ hin).2
  | entering u d id now =>
      cases ht
      rcases hin with hin | hin
      · rw [hh.2.2.1] at hin; cases hin
      · exact (hh.2.2.2 _ hin).2
  | reading u r =>
      cases ht
      rcases hin with hin | hin
      · exact hrow hh.2.2.2.2 hh.2.2.1 hin
      · exact (hh.2.2.2.1 _ hin).2
  | writing u r role now =>
      cases ht
      rcases hin with hin | hin
      · exact hrow hh.2.2.2.2 hh.2.2.1 hin
      · exact (hh.2.2.2.1 _ hin).2
  | ticket u asks =>
      cases ht
      rcases hin with hin | hin
      · rw [s.held_of_not_isOpen hh.1] at hin; cases hin
      · exact (hh.2.2 _ hin).2

end Holding.Holds

end Dispatch
