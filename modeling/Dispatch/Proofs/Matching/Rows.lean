/-
What becomes of the rows.

Two laws hold however the operations are interleaved, and whenever the table cannot be reached.
Between any two states of a run no row is lost, nothing of it changes but its status, its
confirmations and the time of its last change, no confirmation is taken back, and a row that is
accepted or rejected does not change at all (`Store.Later`).  And in every state every row makes
sense (`Proposal.Sound`): its status is what its confirmations say unless it has been rejected,
and a draft that breaks a rule has never become a row.

Both follow from the one thing that an event can do to the rows, `RowChange`.  A confirmation and
a rejection are of a row that is open when it is written, even if it was looked up long before:
the first has it locked since it was read, and the second looks at it again.
-/
import Dispatch.Proofs.Matching.Orderly

namespace Dispatch

/-! ### From one state to a later one -/

/-- What may have become of a proposal in the meantime. -/
structure Proposal.Later (r r' : Proposal) : Prop where
  id : r'.id = r.id
  driverId : r'.driverId = r.driverId
  passengerId : r'.passengerId = r.passengerId
  driverLocation : r'.driverLocation = r.driverLocation
  passengerLocation : r'.passengerLocation = r.passengerLocation
  targetLocation : r'.targetLocation = r.targetLocation
  createdAt : r'.createdAt = r.createdAt
  driverConfirmed : r.driverConfirmed = true → r'.driverConfirmed = true
  passengerConfirmed : r.passengerConfirmed = true → r'.passengerConfirmed = true
  /-- What is accepted or rejected does not change any more. -/
  closed : r.status = .accepted ∨ r.status = .rejected → r' = r

namespace Proposal

theorem not_isOpen_iff (r : Proposal) :
    r.isOpen = false ↔ r.status = .accepted ∨ r.status = .rejected := by
  unfold isOpen
  cases r.status <;> decide

namespace Later

variable {r r' r'' : Proposal}

theorem refl (r : Proposal) : r.Later r where
  id := rfl
  driverId := rfl
  passengerId := rfl
  driverLocation := rfl
  passengerLocation := rfl
  targetLocation := rfl
  createdAt := rfl
  driverConfirmed h := h
  passengerConfirmed h := h
  closed _ := rfl

theorem trans (h : r.Later r') (h' : r'.Later r'') : r.Later r'' where
  id := h'.id.trans h.id
  driverId := h'.driverId.trans h.driverId
  passengerId := h'.passengerId.trans h.passengerId
  driverLocation := h'.driverLocation.trans h.driverLocation
  passengerLocation := h'.passengerLocation.trans h.passengerLocation
  targetLocation := h'.targetLocation.trans h.targetLocation
  createdAt := h'.createdAt.trans h.createdAt
  driverConfirmed hd := h'.driverConfirmed (h.driverConfirmed hd)
  passengerConfirmed hp := h'.passengerConfirmed (h.passengerConfirmed hp)
  closed hc := by
    obtain rfl := h.closed hc
    exact h'.closed hc

theorem pair (h : r.Later r') : r'.pair = r.pair := congrArg₂ Prod.mk h.driverId h.passengerId

/-- An open proposal is confirmed in one more role. -/
theorem confirmedBy (hopen : r.isOpen = true) (role : Role) (now : Time.Instant) :
    r.Later (r.confirmedBy role now) where
  id := rfl
  driverId := rfl
  passengerId := rfl
  driverLocation := rfl
  passengerLocation := rfl
  targetLocation := rfl
  createdAt := rfl
  driverConfirmed h := by
    cases role with
    | driver => rfl
    | passenger => exact h
  passengerConfirmed h := by
    cases role with
    | driver => exact h
    | passenger => rfl
  closed h := by
    rw [(not_isOpen_iff r).2 h] at hopen
    cases hopen

/-- An open proposal is rejected. -/
theorem rejectedAt (hopen : r.isOpen = true) (now : Time.Instant) :
    r.Later (r.rejectedAt now) where
  id := rfl
  driverId := rfl
  passengerId := rfl
  driverLocation := rfl
  passengerLocation := rfl
  targetLocation := rfl
  createdAt := rfl
  driverConfirmed h := h
  passengerConfirmed h := h
  closed h := by
    rw [(not_isOpen_iff r).2 h] at hopen
    cases hopen

end Later
end Proposal

/-- What may have become of the rows in the meantime: none is lost, and each is a later form of
what it was. -/
def Store.Later (s s' : Store) : Prop :=
  ∀ id r, s.row? id = some r → ∃ r', s'.row? id = some r' ∧ r.Later r'

namespace Store.Later

variable {s s' s'' : Store}

theorem refl (s : Store) : s.Later s := fun _ r hr => ⟨r, hr, .refl r⟩

theorem trans (h : s.Later s') (h' : s'.Later s'') : s.Later s'' := by
  intro id r hr
  obtain ⟨r', hr', hlater⟩ := h id r hr
  obtain ⟨r'', hr'', hlater'⟩ := h' id r' hr'
  exact ⟨r'', hr'', hlater.trans hlater'⟩

theorem of_row? (hrow : s'.row? = s.row?) : s.Later s' :=
  fun id r hr => ⟨r, by rw [hrow, hr], .refl r⟩

/-- One row is written, over a row that may become it or over none. -/
theorem of_update {id : MatchId} {n : Proposal} (h : ∀ r, s.row? id = some r → r.Later n)
    (hrow : s'.row? = Function.update s.row? id (some n)) : s.Later s' := by
  intro id' r hr
  by_cases hid : id' = id
  · subst hid
    exact ⟨n, by rw [hrow, Function.update_self], h r hr⟩
  · exact ⟨r, by rw [hrow, Function.update_of_ne hid, hr], .refl r⟩

end Store.Later

/-- What an event can do to the rows makes them later forms of what they were. -/
theorem RowChange.later {s s' : Store} (h : RowChange s s') : s.Later s' := by
  cases h with
  | none hrow => exact .of_row? hrow
  | enters d id now hd hnew hrow =>
      refine .of_update (fun r hr => ?_) hrow
      rw [hnew] at hr
      cases hr
  | confirms id r user role now hr he hrow =>
      refine .of_update (fun r' hr' => ?_) hrow
      rw [hr] at hr'
      obtain rfl := Option.some.inj hr'
      exact .confirmedBy (Proposal.refusal?_eq_none.1 he).2.1 role now
  | rejects id r now hr hopen hrow =>
      refine .of_update (fun r' hr' => ?_) hrow
      rw [hr] at hr'
      obtain rfl := Option.some.inj hr'
      exact .rejectedAt hopen now

/-! ### In every state -/

/-- A row makes sense under the identifier under which it is found. -/
structure Proposal.Sound (id : MatchId) (r : Proposal) : Prop where
  /-- Its status is what its confirmations say, unless it has been rejected. -/
  status : r.status = Status.ofFlags r.driverConfirmed r.passengerConfirmed ∨ r.status = .rejected
  /-- What has been rejected has not been confirmed by both. -/
  rejected : r.status = .rejected → ¬ (r.driverConfirmed = true ∧ r.passengerConfirmed = true)
  /-- Nobody rides with himself. -/
  parties : r.driverId ≠ r.passengerId
  driver : Text.isBlank r.driverId = false
  passenger : Text.isBlank r.passengerId = false
  driverLocation : r.driverLocation.isFinite = true
  passengerLocation : r.passengerLocation.isFinite = true
  targetLocation : ∀ l, r.targetLocation = some l → l.isFinite = true
  key : r.id = id

namespace Proposal.Sound

variable {id : MatchId} {r : Proposal}

/-- A draft that breaks no rule makes sense as a row. -/
theorem toProposal {d : Draft} (hd : d.refusal? = none) (id : MatchId) (now : Time.Instant) :
    (d.toProposal id now).Sound id := by
  unfold Draft.refusal? at hd
  split at hd
  · cases hd
  rename_i hblank
  split at hd
  · cases hd
  rename_i hparties
  split at hd
  · rename_i hfinite
    unfold Draft.isFinite at hfinite
    rw [Bool.and_eq_true, Bool.and_eq_true, Option.all_eq_true] at hfinite
    exact {
      status := Or.inl rfl
      rejected := fun h => by cases h
      parties := hparties
      driver := Bool.eq_false_iff.mpr fun h => hblank (Or.inl h)
      passenger := Bool.eq_false_iff.mpr fun h => hblank (Or.inr h)
      driverLocation := hfinite.1.1
      passengerLocation := hfinite.1.2
      targetLocation := fun l hl => hfinite.2 l hl
      key := rfl }
  · cases hd

/-- A confirmation leaves a row that makes sense: it sets the status by the confirmations. -/
theorem confirmedBy (h : r.Sound id) (role : Role) (now : Time.Instant) :
    (r.confirmedBy role now).Sound id where
  status := Or.inl rfl
  rejected hrej := absurd hrej (Status.ofFlags_ne_rejected _ _)
  parties := h.parties
  driver := h.driver
  passenger := h.passenger
  driverLocation := h.driverLocation
  passengerLocation := h.passengerLocation
  targetLocation := h.targetLocation
  key := h.key

/-- A rejection leaves a row that makes sense: an open row has not been confirmed by both. -/
theorem rejectedAt (h : r.Sound id) (hopen : r.isOpen = true) (now : Time.Instant) :
    (r.rejectedAt now).Sound id where
  status := Or.inr rfl
  rejected := by
    rintro - ⟨hd, hp⟩
    change r.driverConfirmed = true at hd
    change r.passengerConfirmed = true at hp
    have hclosed : r.isOpen = false := by
      refine (not_isOpen_iff r).2 (h.status.imp (fun hs => ?_) fun hs => hs)
      rw [hs, hd, hp]
      rfl
    rw [hclosed] at hopen
    cases hopen
  parties := h.parties
  driver := h.driver
  passenger := h.passenger
  driverLocation := h.driverLocation
  passengerLocation := h.passengerLocation
  targetLocation := h.targetLocation
  key := h.key

end Proposal.Sound

/-- All rows make sense. -/
def Store.RowsSound (s : Store) : Prop := ∀ id r, s.row? id = some r → r.Sound id

theorem Store.RowsSound.of_update {s s' : Store} (h : s.RowsSound) {id : MatchId} {n : Proposal}
    (hn : n.Sound id) (hrow : s'.row? = Function.update s.row? id (some n)) : s'.RowsSound := by
  intro id' r hr
  rw [hrow, Function.update_apply] at hr
  split at hr
  · rename_i hid
    subst hid
    obtain rfl := Option.some.inj hr
    exact hn
  · exact h id' r hr

/-- What an event can do to the rows leaves rows that make sense. -/
theorem RowChange.sound {s s' : Store} (h : RowChange s s') (hs : s.RowsSound) : s'.RowsSound := by
  cases h with
  | none hrow => exact fun id r hr => hs id r (by rw [← hrow, hr])
  | enters d id now hd hnew hrow => exact hs.of_update (.toProposal hd id now) hrow
  | confirms id r user role now hr he hrow =>
      exact hs.of_update ((hs id r hr).confirmedBy role now) hrow
  | rejects id r now hr hopen hrow => exact hs.of_update ((hs id r hr).rejectedAt hopen now) hrow

/-! ### Throughout a run -/

namespace Traffic

open Store

variable {events : List Event}

/-- A run in which somebody proposes, and then both confirm at once. -/
def agreeing : List Event :=
  let m := momentOf Uuid.nil
  let m' := momentOf (Uuid.fresh 1)
  [.arrive (.propose someDraft), .go 0 m, .go 0 m, .go 0 m, .go 0 m', .go 0 m',
   .arrive (.confirm Uuid.nil "d" .driver), .arrive (.confirm Uuid.nil "p" .passenger),
   -- both begin, the driver is the first at the row, and the passenger waits for him
   .go 1 m', .go 2 m', .go 1 m', .go 2 m', .go 1 m', .go 1 m', .go 1 m', .go 1 m',
   .go 2 m', .go 2 m', .go 2 m', .go 2 m', .go 2 m']

/-- The run can happen, and in its end the proposal is accepted, if there is one: the kernel does
not know that zero is a finite number. -/
theorem along_agreeing : Run.Along after Admits {} agreeing ∧
    ((agreeing.foldl after {}).store.row? Uuid.nil).map Proposal.status
      = if someDraft.isFinite then some .accepted else none := by
  have harrive : ({} : Traffic).after (.arrive (.propose someDraft)) =
      { callers := [⟨.propose someDraft, (Stage.first (.propose someDraft)).program⟩] } := by
    rw [← Operation.program_eq]
    rfl
  rw [agreeing, List.foldl_cons, Run.Along, harrive, Stage.first_propose]
  cases hfinite : someDraft.isFinite with
  | true =>
      have hd : someDraft.refusal? = none := by
        rw [Draft.refusal?, hfinite]
        rfl
      rw [hd]
      decide +kernel
  | false =>
      have hd : someDraft.refusal? = some .placeNotFinite := by
        rw [Draft.refusal?, hfinite]
        rfl
      rw [hd]
      decide +kernel

/-- **Whatever the operations do, every row is later a later form of itself.** -/
theorem rows_later (hadm : Run.Along after Admits {} events) :
    (Run.states after {} events).Pairwise fun x y => x.store.Later y.store := by
  have hinv : ∀ {x : Traffic} {e : Event}, (∃ gs, Orderly x gs) → x.Admits e →
      ∃ gs, Orderly (x.after e) gs := fun ⟨_, h⟩ hadm => (h.after hadm).1
  have hstep : ∀ {x : Traffic} {e : Event}, (∃ gs, Orderly x gs) → x.Admits e →
      x.store.Later (x.after e).store := fun ⟨_, h⟩ hadm => (h.after hadm).2.later
  exact Run.pairwise hinv hstep (fun x => .refl x.store) .trans ⟨[], Orderly.opening .empty⟩ hadm

theorem rows_later_agreeing : Run.Along after Admits {} agreeing ∧
    (Run.states after {} agreeing).Pairwise fun x y => x.store.Later y.store :=
  ⟨along_agreeing.1, rows_later along_agreeing.1⟩

/-- **Whatever the operations do, and whenever the table cannot be reached, every row makes
sense.** -/
theorem rows_sound (hadm : Run.Along after Admits {} events) :
    ∀ x ∈ Run.states after {} events, x.store.RowsSound := by
  let Q : Traffic → Prop := fun x => (∃ gs, Orderly x gs) ∧ x.store.RowsSound
  have hinv : ∀ {x : Traffic} {e : Event}, Q x → x.Admits e → Q (x.after e) :=
    fun ⟨⟨_, h⟩, hs⟩ hadm => ⟨(h.after hadm).1, (h.after hadm).2.sound hs⟩
  have hempty : Q {} := ⟨⟨[], Orderly.opening .empty⟩, fun id r hr => by cases hr⟩
  intro x hx
  exact (Run.invariant hinv hempty hadm x hx).2

theorem rows_sound_agreeing : Run.Along after Admits {} agreeing ∧
    (agreeing.foldl after {}).store.RowsSound :=
  ⟨along_agreeing.1, rows_sound along_agreeing.1 _ (Run.foldl_mem_states _ agreeing)⟩

end Traffic
end Dispatch
