/-
What a rejection of competitors leaves behind.

The rejection first looks at the accepted row, then lists the rows of the driver and those of the
passenger, and then closes the open ones one by one.  Between any two of its calls others may enter
new rows, and nothing is said about those.  But a row that was there when the rejection began is
listed, if it is still open, and is closed when its turn comes.

So at each stage of the rejection there are some rows that it still has to close (`Stage.Due`), and
all other open competitors have come since it began (`Store.Swept`).  What others do in the meantime
keeps this, since a row is later a later form of itself; and at the end of the rejection there is
nothing left to close.
-/
import Dispatch.Proofs.Matching.Alone
import Dispatch.Proofs.Matching.Rows

namespace Dispatch

open Store

/-- A proposal has the driver or the passenger in common with an accepted one. -/
def Proposal.Competes (r : Proposal) (e : Accepted) : Prop :=
  r.driverId = e.driverId ∨ r.passengerId = e.passengerId

instance (r : Proposal) (e : Accepted) : Decidable (r.Competes e) :=
  inferInstanceAs (Decidable (_ ∨ _))

/-- What is rejected because of an accepted proposal. -/
def Accepted.rejecting (e : Accepted) : Rejecting := ⟨e.matchId, e.driverId, e.passengerId⟩

/-- The open competitors of an accepted proposal have come since a former state, but for some that
are still to be closed. -/
structure Store.Swept (s₀ : Store) (e : Accepted) (due : Proposal → Prop) (s : Store) : Prop where
  later : s₀.Later s
  competing : ∀ r, s.row? r.id = some r → r.isOpen = true → r.Competes e →
    s₀.row? r.id = none ∨ due r

namespace Stage

/-- A stage of the rejection of what competes with an accepted proposal. -/
def Rejects (q : Rejecting) : Stage → Prop
  | checking q' | listingDriven q' | listingRidden q' _ | opening q' _ | rejecting q' _ _ _ =>
    q' = q
  | finished _ | counting _ _ => True
  | _ => False

/-- An open competitor still has to be closed, if it was there at the beginning. -/
def Due (g : Stage) (r : Proposal) : Prop :=
  match g with
  | checking _ | listingDriven _ => True
  | listingRidden q driven => r.driverId = q.driver → r.id ∈ Matching.competitors q.accepted driven
  | opening _ ids | rejecting _ _ ids _ => r.id ∈ ids
  | _ => False

theorem Due.later {g : Stage} {r r' : Proposal} (h : r.Later r') (hdue : g.Due r) : g.Due r' := by
  unfold Due at hdue ⊢
  rw [h.id, h.driverId]
  exact hdue

variable {s s' : Store} {m : Moment} {g g' : Stage} {e : Accepted}

/-- **A call of the rejection**: it opens no row, and what it does not close it still has to. -/
theorem Goes.sweeps (h : Goes s m g g' s') (hrej : g.Rejects e.rejecting) (hon : s.offline = false)
    (hacc : ∃ a, s.row? e.matchId = some a ∧ a.status = .accepted) :
    g'.Rejects e.rejecting ∧ ∀ r, s'.row? r.id = some r → r.isOpen = true → r.Competes e →
      s.row? r.id = some r ∧ (g.Due r → g'.Due r) := by
  -- an open row in the list of its driver or its passenger is listed
  have hlisted : ∀ {r : Proposal} (role : Role), s.row? r.id = some r → r.isOpen = true →
      r.id ∈ Matching.competitors e.matchId (s.rowsOf (r.party role) role) := by
    intro r role hr hopen
    refine mem_competitors.2 ⟨r, mem_rowsOf.2 ⟨rfl, r.id, hr⟩, fun he => ?_, hopen, rfl⟩
    obtain ⟨a, ha, hstatus⟩ := hacc
    rw [he, ha] at hr
    obtain rfl := Option.some.inj hr
    rw [(Proposal.not_isOpen_iff a).2 (Or.inl hstatus)] at hopen
    cases hopen
  have hcompeting : ∀ {driven : List Proposal} {r : Proposal}, s.row? r.id = some r →
      r.isOpen = true → r.Competes e → (listingRidden e.rejecting driven).Due r →
      r.id ∈ competing s e.rejecting driven := by
    intro driven r hr hopen hc hdue
    rw [competing, mem_sortedIds, List.mem_append]
    rcases hc with hc | hc
    · exact Or.inl (hdue hc)
    · refine Or.inr ?_
      have hl := hlisted .passenger hr hopen
      rw [show r.party .passenger = e.passengerId from hc] at hl
      exact hl
  cases h with
  | finished r => exact ⟨trivial, fun r hr _ _ => ⟨hr, id⟩⟩
  | counted o r => exact ⟨trivial, fun r hr _ _ => ⟨hr, fun hdue => hdue⟩⟩
  | unreachable g hoff hrow =>
      rw [hon] at hoff
      cases hoff
  | notChecked q err ha =>
      obtain rfl := (hrej : q = e.rejecting)
      obtain ⟨a, hr, hstatus⟩ := hacc
      exact absurd hstatus (ha a hr)
  | checked q hr ha => exact ⟨hrej, fun r hr _ _ => ⟨hr, id⟩⟩
  | listedDriven q =>
      obtain rfl := (hrej : q = e.rejecting)
      refine ⟨rfl, fun r hr hopen _ => ⟨hr, fun _ hd => ?_⟩⟩
      have hl := hlisted .driver hr hopen
      rw [show r.party .driver = e.driverId from hd] at hl
      exact hl
  | noneListed q driven hnone =>
      obtain rfl := (hrej : q = e.rejecting)
      refine ⟨trivial, fun r hr hopen hc => ⟨hr, fun hdue => ?_⟩⟩
      have hl := hcompeting hr hopen hc hdue
      rw [hnone] at hl
      cases hl
  | listedRidden q driven _ =>
      obtain rfl := (hrej : q = e.rejecting)
      exact ⟨rfl, fun r hr hopen hc => ⟨hr, hcompeting hr hopen hc⟩⟩
  | opened q ids hrow =>
      refine ⟨hrej, fun r hr _ _ => ⟨by rw [← hrow, hr], fun hdue => ?_⟩⟩
      exact mem_sortedIds.2 hdue
  | waitsToReject q t id ids n _ _ hrow =>
      exact ⟨hrej, fun r hr _ _ => ⟨by rw [← hrow, hr], fun hdue => hdue⟩⟩
  | passed q t id ids n hclosed _ _ hrow =>
      refine ⟨hrej, fun r hr hopen _ => ?_⟩
      rw [hrow] at hr
      refine ⟨hr, fun hdue => (List.mem_cons.mp hdue).resolve_left fun hrid => ?_⟩
      rw [hclosed r (hrid ▸ hr)] at hopen
      cases hopen
  | @rejected q t id ids n r₀ _ hr₀ _ _ _ hrow =>
      refine ⟨hrej, fun r hr hopen _ => ?_⟩
      have hne : r.id ≠ id := by
        intro hrid
        rw [hrow, hrid, Function.update_self] at hr
        obtain rfl := Option.some.inj hr
        cases hopen
      rw [hrow, Function.update_of_ne hne] at hr
      exact ⟨hr, fun hdue => (List.mem_cons.mp hdue).resolve_left hne⟩
  | rejectedAll q t n => exact ⟨trivial, fun r hr _ _ => ⟨hr, fun hdue => by cases hdue⟩⟩
  | _ => exact hrej.elim

end Stage

namespace Store.Swept

variable {s₀ s s' : Store} {e : Accepted} {due due' : Proposal → Prop}

/-- When the rejection begins everything is due. -/
theorem begins (s : Store) (e : Accepted) : s.Swept e (Stage.checking e.rejecting).Due s :=
  ⟨.refl s, fun _ _ _ _ => Or.inr trivial⟩

/-- Whatever others do, the open competitors that are not due have come since. -/
theorem frame (h : s₀.Swept e due s) (hlater : s.Later s')
    (hdue : ∀ {r r' : Proposal}, r.Later r' → due r → due r') : s₀.Swept e due s' where
  later := h.later.trans hlater
  competing := by
    intro r' hr' hopen hc
    cases hr : s.row? r'.id with
    | none =>
        left
        cases hr₀ : s₀.row? r'.id with
        | none => rfl
        | some r₀ =>
            obtain ⟨r, hsome, -⟩ := h.later _ _ hr₀
            rw [hr] at hsome
            cases hsome
    | some r =>
        obtain ⟨r'', hr'', hl⟩ := hlater _ _ hr
        rw [hr'] at hr''
        obtain rfl := Option.some.inj hr''
        have hropen : r.isOpen = true := by
          by_contra hclosed
          rw [Bool.not_eq_true] at hclosed
          obtain rfl := hl.closed ((Proposal.not_isOpen_iff r).1 hclosed)
          exact absurd hopen (Bool.eq_false_iff.mp hclosed)
        have hrc : r.Competes e := by
          unfold Proposal.Competes at hc ⊢
          rwa [hl.driverId, hl.passengerId] at hc
        rw [hl.id] at hr ⊢
        exact (h.competing r hr hropen hrc).imp_right (hdue hl)

/-- A call of the rejection goes on with what is due. -/
theorem goes {m : Moment} {g g' : Stage} (h : s₀.Swept e g.Due s) (hgoes : Stage.Goes s m g g' s')
    (hlater : s.Later s') (hrej : g.Rejects e.rejecting) (hon : s.offline = false)
    (hacc : ∃ a, s.row? e.matchId = some a ∧ a.status = .accepted) : s₀.Swept e g'.Due s' where
  later := h.later.trans hlater
  competing := by
    intro r hr hopen hc
    obtain ⟨hrs, hdue⟩ := (hgoes.sweeps hrej hon hacc).2 r hr hopen hc
    exact (h.competing r hrs hopen hc).imp_right hdue

/-- When the rejection has finished, nothing is due any more. -/
theorem finished {r : Outcome} (h : s₀.Swept e (Stage.finished r).Due s) :
    s₀.Swept e (fun _ => False) s := h

end Store.Swept
end Dispatch
