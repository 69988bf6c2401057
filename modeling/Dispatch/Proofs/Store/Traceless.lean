/-
A transaction that is not committed leaves no trace.

Take any run, and leave out of it all that one transaction does that is dropped, or whose commits
fail.  What remains is a run in which everybody else is answered as he was before, and which ends
with the same rows and the same open pairs, entry for entry (`traceless`).  Tickets that are drawn
later are lower by one, and the others draw the same identifiers and find the same times.

Of two things that a transaction can do to others the statement has to be told.  Nobody else may
have had to wait at one of its locks.  And it may not have made the table forget a lock at which
somebody else stood, which is what happens to the lock of a row that does not exist: whoever asks
for the row afterwards gets another lock, and would have had to wait (`exists_trace`).
-/
import Dispatch.Proofs.Store.Absence

namespace Dispatch

/-- A call, and its reply unless it has to wait. -/
structure Response where
  call : StoreCall
  reply? : Option call.Reply

namespace Response

/-- The same response to the call with another ticket. -/
def mapTickets (f : Ticket → Ticket) (r : Response) : Response :=
  ⟨r.call.mapTickets f, r.reply?.map (r.call.mapReply f)⟩

/-- The call has to wait. -/
def waits (r : Response) : Bool := r.reply?.isNone

end Response

/-- The reply, unless one has to wait for it. -/
def Turn.reply? {σ ρ : Type} : Turn σ ρ → Option ρ
  | answer r _ => some r
  | wait _ => none

namespace Store

/-! ### What a transaction does, and what the others do -/

/-- A move is made by the transaction with the given ticket, which it has from its beginning. -/
def Move.IsBy (t : Ticket) (s : Store) : Move → Prop
  | .call .begin _ => s.offline = false ∧ s.nextTicket = t
  | .call c _ => c.ticket? = some t
  | .withdraw u => u = t
  | .outage _ => False

/-- The same move with another ticket. -/
def Move.mapTickets (f : Ticket → Ticket) : Move → Move
  | .call c m => .call (c.mapTickets f) m
  | .withdraw u => .withdraw (f u)
  | .outage offline => .outage offline

/-- What comes of a move. -/
def response (s : Store) : Move → List Response
  | .call c m => [⟨c, (perform m c s).reply?⟩]
  | .withdraw _ | .outage _ => []

instance (t : Ticket) (s : Store) : (a : Move) → Decidable (a.IsBy t s)
  | .call .begin _ => inferInstanceAs (Decidable (_ ∧ _))
  | .call (.find _ _) _ | .call (.get _) _ | .call (.list _ _) _ | .call (.insert _ _) _
  | .call (.lock _ _) _ | .call (.update _ _ _ _ _) _ | .call (.commit _) _
  | .call (.rollback _) _ | .call .openBatch _ | .call (.updateRow _ _ _ _) _ =>
    inferInstanceAs (Decidable (_ = _))
  | .withdraw u => inferInstanceAs (Decidable (u = t))
  | .outage _ => inferInstanceAs (Decidable False)

theorem Move.isBy_call {t : Ticket} {s : Store} {c : StoreCall} {m : Moment} (hc : c ≠ .begin) :
    (Move.call c m).IsBy t s ↔ c.ticket? = some t := by
  cases c with
  | begin => exact absurd rfl hc
  | find driver passenger => exact Iff.rfl
  | get id => exact Iff.rfl
  | list actor role => exact Iff.rfl
  | insert u d => exact Iff.rfl
  | lock u id => exact Iff.rfl
  | update u id status driver passenger => exact Iff.rfl
  | commit u => exact Iff.rfl
  | rollback u => exact Iff.rfl
  | openBatch => exact Iff.rfl
  | updateRow u id status allowed => exact Iff.rfl

/-- The moves of a run but for those of `t`.  Tickets are the ones that are drawn then. -/
def movesWithout (t : Ticket) : Store → List Move → List Move :=
  Run.collect after fun s a => if a.IsBy t s then [] else [a.mapTickets (closeUp t)]

/-- What comes of the moves of a run. -/
def responses : Store → List Move → List Response := Run.collect after response

/-- What comes of the moves of a run but for those of `t`. -/
def responsesWithout (t : Ticket) : Store → List Move → List Response :=
  Run.collect after fun s a =>
    if a.IsBy t s then [] else (s.response a).map (Response.mapTickets (closeUp t))

/-! ### What is required of the run -/

/-- The ticket `t` is that of a transaction, and no commit of it succeeds. -/
def Fails (t : Ticket) (s : Store) : Move → Prop
  | .call (.commit u) _ => u = t → (s.commit t).1.isOk = false
  | .call .openBatch _ => s.offline = true ∨ s.nextTicket ≠ t
  | .call (.updateRow u _ _ _) _ => u ≠ t
  | _ => True

/-- Nobody else is made to wait at a lock of `t`. -/
def HindersNone (t : Ticket) (s : Store) : Move → Prop
  | .call c m => ∀ u ∈ c.ticket?, u ≠ t → (perform m c s).state.Hinders t u = false
  | .withdraw _ | .outage _ => True

/-- No move of `t` makes the table forget a lock at which somebody else stands. -/
def ForgetsNone (t : Ticket) (s : Store) (a : Move) : Prop :=
  a.IsBy t s → ∀ e ∈ s.locks.names.entries, s.locks.Crowded t e.2 →
    (s.after a).locks.names.find? e.1 = some e.2

instance (t : Ticket) (s : Store) : (a : Move) → Decidable (Fails t s a)
  | .call (.commit u) _ => inferInstanceAs (Decidable (u = t → _))
  | .call .openBatch _ => inferInstanceAs (Decidable (_ ∨ _))
  | .call (.updateRow u _ _ _) _ => inferInstanceAs (Decidable (u ≠ t))
  | .call .begin _ | .call (.find _ _) _ | .call (.get _) _ | .call (.list _ _) _
  | .call (.insert _ _) _ | .call (.lock _ _) _ | .call (.update _ _ _ _ _) _
  | .call (.rollback _) _ | .withdraw _ | .outage _ => inferInstanceAs (Decidable True)

instance (t : Ticket) (s : Store) : (a : Move) → Decidable (HindersNone t s a)
  | .call c _ => inferInstanceAs (Decidable (∀ u ∈ c.ticket?, _))
  | .withdraw _ | .outage _ => inferInstanceAs (Decidable True)

instance (t : Ticket) (s : Store) (a : Move) : Decidable (ForgetsNone t s a) :=
  inferInstanceAs (Decidable (_ → ∀ e ∈ _, _))

/-! ### Single moves -/

/-- A run, and the one beside it in which `t` does nothing. -/
structure Beside (t : Ticket) (s s' : Store) : Prop where
  queued : Queued s
  seen : Seen s
  queued' : Queued s'
  seen' : Seen s'
  shadow : ∃ g, Shadow t g s s'

theorem Matches.reply {t : Ticket} {ρ ρ' : Type} {f : ρ → ρ'} {a : Turn Store ρ} {a' : Turn Store ρ'}
    (h : Matches t f a a') :
    a'.reply? = a.reply?.map f ∧ ∃ g, Shadow t g a.state a'.state := by
  cases a with
  | answer r s =>
      cases a' with
      | answer r' s' => exact ⟨congrArg some h.1, h.2⟩
      | wait s' => exact h.elim
  | wait s =>
      cases a' with
      | answer r' s' => exact h.elim
      | wait s' => exact ⟨rfl, h⟩

namespace Beside

variable {t : Ticket} {s s' : Store} {a : Move}

theorem empty (t : Ticket) : Beside t {} {} where
  queued := Queued.empty
  seen := Seen.empty
  queued' := Queued.empty
  seen' := Seen.empty
  shadow := by
    refine ⟨fun l => l, rfl, rfl, rfl, ?_, ?_, fun _ _ => rfl⟩
    · show (0 : Nat) = closeUp t 0
      rfl
    · refine ⟨fun _ _ => rfl, fun hl => absurd rfl hl, fun hl => absurd rfl hl, fun h => ?_,
        fun h => ?_⟩
      · cases h
      · cases h

/-- A move of `t` is not seen by the others. -/
theorem own (h : Beside t s s') (hallows : s.Allows a) (hby : a.IsBy t s) (hfails : Fails t s a)
    (hkept : ForgetsNone t s a) : Beside t (s.after a) s' := by
  obtain ⟨g, hg⟩ := h.shadow
  refine { h with queued := h.queued.after h.seen hallows, seen := h.seen.allowed hallows,
                  shadow := ⟨g, ?_⟩ }
  have hkept' : ∀ x l, s.locks.names.find? x = some l → s.locks.Crowded t l →
      (s.after a).locks.names.find? x = some l :=
    fun x l hx hl => hkept hby (x, l) (s.locks.names.find?_eq_some_iff.1 hx) hl
  cases a with
  | outage offline => exact hby.elim
  | withdraw u =>
      obtain rfl : u = t := hby
      exact hg.own (.ofLocks (.giveUp u s.locks)) hkept'
  | call c m =>
      by_cases hc : c = .begin
      · subst hc
        obtain ⟨hoff, rfl⟩ := hby
        have hbegin : s.after (.call .begin m) = s.beginTransaction.2 := by
          rw [Store.after, Store.perform, if_neg (by rw [hoff]; exact Bool.false_ne_true)]
          rfl
        rw [hbegin]
        exact hg.ownBegin
      · have hdoing : OwnDoing t s (Store.perform m c s).state := by
          refine .perform h.queued h.seen ((Move.isBy_call hc).1 hby) ?_ ?_
          · rintro id status allowed rfl
            exact hfails rfl
          · rintro rfl
            exact hfails rfl
        exact hg.own hdoing hkept'

/-- A move of somebody else has the same result in both runs. -/
theorem other (h : Beside t s s') (hallows : s.Allows a) (hby : ¬ a.IsBy t s) (hfails : Fails t s a)
    (hfree : HindersNone t s a) : s'.Allows (a.mapTickets (closeUp t)) ∧
      s'.response (a.mapTickets (closeUp t))
        = (s.response a).map (Response.mapTickets (closeUp t)) ∧
      Beside t (s.after a) (s'.after (a.mapTickets (closeUp t))) := by
  obtain ⟨g, hg⟩ := h.shadow
  -- what is not yet shown of the two tables follows from the moves being possible
  have hbeside : s'.Allows (a.mapTickets (closeUp t)) →
      (∃ g, Shadow t g (s.after a) (s'.after (a.mapTickets (closeUp t)))) →
      Beside t (s.after a) (s'.after (a.mapTickets (closeUp t))) := fun hallows' hshadow =>
    ⟨h.queued.after h.seen hallows, h.seen.allowed hallows, h.queued'.after h.seen' hallows',
      h.seen'.allowed hallows', hshadow⟩
  cases a with
  | outage offline =>
      exact ⟨trivial, rfl, hbeside trivial ⟨g, { hg with offline := rfl }⟩⟩
  | withdraw u =>
      obtain ⟨rowOf, ok⟩ := h.queued.linesOK
      have hlocks := hg.locks.giveUp ok (show u ≠ t from hby)
      exact ⟨trivial, rfl, hbeside trivial ⟨g, hg.ofLocks hlocks⟩⟩
  | call c m =>
      have hc : c.ticket? ≠ some t := by
        intro hc
        have hne : c ≠ .begin := by
          rintro rfl
          cases hc
        exact hby ((Move.isBy_call hne).2 hc)
      have hdraw : c = .begin ∨ c = .openBatch → s.offline = true ∨ s.nextTicket ≠ t := by
        rintro (rfl | rfl)
        · by_cases hoff : s.offline = true
          · exact Or.inl hoff
          · exact Or.inr fun hn => hby ⟨by simpa using hoff, hn⟩
        · exact hfails
      have hfree' : ∀ u ∈ c.ticket?, (Store.perform m c s).state.Hinders t u = false := by
        intro u hu
        refine hfree u hu ?_
        rintro rfl
        exact hc hu
      have hallows' := hg.allowsCall hc hallows
      obtain ⟨hreply, hstate⟩ := (hg.perform h.queued h.queued' hallows hc hdraw hfree').reply
      refine ⟨hallows', ?_, hbeside hallows' hstate⟩
      show [(⟨_, (Store.perform m (c.mapTickets (closeUp t)) s').reply?⟩ : Response)] = _
      rw [hreply]
      rfl

end Beside

/-! ### Runs -/

variable {t : Ticket} {s s' : Store} {moves : List Move}

/-- What holds of single moves holds of runs. -/
theorem Beside.run (h : Beside t s s') (hallows : Run.Along after Allows s moves)
    (hfails : Run.Along after (Fails t) s moves)
    (hfree : Run.Along after (HindersNone t) s moves)
    (hkept : Run.Along after (ForgetsNone t) s moves) :
    Run.Along after Allows s' (movesWithout t s moves) ∧
      responses s' (movesWithout t s moves) = responsesWithout t s moves ∧
      Beside t (moves.foldl after s) ((movesWithout t s moves).foldl after s') := by
  induction moves generalizing s s' with
  | nil => exact ⟨trivial, rfl, h⟩
  | cons a rest ih =>
      by_cases hby : a.IsBy t s
      · have hmoves : movesWithout t s (a :: rest) = movesWithout t (s.after a) rest := by
          unfold movesWithout
          rw [Run.collect, if_pos hby]
          rfl
        have hresponses : responsesWithout t s (a :: rest) = responsesWithout t (s.after a) rest := by
          unfold responsesWithout
          rw [Run.collect, if_pos hby]
          rfl
        rw [hmoves, hresponses]
        exact ih (h.own hallows.1 hby hfails.1 hkept.1) hallows.2 hfails.2 hfree.2 hkept.2
      · have hmoves : movesWithout t s (a :: rest)
            = a.mapTickets (closeUp t) :: movesWithout t (s.after a) rest := by
          unfold movesWithout
          rw [Run.collect, if_neg hby]
          rfl
        have hresponses : responsesWithout t s (a :: rest)
            = (s.response a).map (Response.mapTickets (closeUp t))
              ++ responsesWithout t (s.after a) rest := by
          unfold responsesWithout
          rw [Run.collect, if_neg hby]
        obtain ⟨hallows', hresponse, hnext⟩ := h.other hallows.1 hby hfails.1 hfree.1
        obtain ⟨halong, hrest, hend⟩ := ih hnext hallows.2 hfails.2 hfree.2 hkept.2
        rw [hmoves, hresponses, ← hresponse, ← hrest]
        exact ⟨⟨hallows', halong⟩, rfl, hend⟩

/-- **A transaction that is not committed leaves no trace**: without its moves everybody else is
answered as before, and the rows and the open pairs are the same in the end; if nobody else had to
wait at a lock of it, and it had no lock forgotten at which somebody else stood. -/
theorem traceless (hallows : Run.Along after Allows {} moves)
    (hfails : Run.Along after (Fails t) {} moves)
    (hfree : Run.Along after (HindersNone t) {} moves)
    (hkept : Run.Along after (ForgetsNone t) {} moves) :
    Run.Along after Allows {} (movesWithout t {} moves) ∧
      responses {} (movesWithout t {} moves) = responsesWithout t {} moves ∧
      ((movesWithout t {} moves).foldl after {}).rows = (moves.foldl after {}).rows ∧
      ((movesWithout t {} moves).foldl after {}).openPairs = (moves.foldl after {}).openPairs := by
  obtain ⟨hallows', hresponses, hend⟩ := (Beside.empty t).run hallows hfails hfree hkept
  obtain ⟨g, hg⟩ := hend.shadow
  exact ⟨hallows', hresponses, hg.rows, hg.openPairs⟩

/-- Two transactions stage a row for the same pair.  The first one commits too late: one of its rows
has been claimed already when the pair of the other is found taken. -/
def claimingInVain : List Move :=
  let m n := momentOf (Uuid.fresh n)
  [.call .begin (m 0), .call .begin (m 0),
   .call (.insert 0 someDraft) (m 0), .call (.insert 0 { someDraft with passengerId := "q" }) (m 1),
   .call (.insert 1 { someDraft with passengerId := "q" }) (m 2), .call (.commit 1) (m 0),
   .call (.commit 0) (m 0),
   -- the first pair is free again
   .call .begin (m 0), .call (.insert 2 someDraft) (m 3), .call (.commit 2) (m 0),
   .call (.list "d" .driver) (m 0)]

theorem traceless_claimingInVain :
    Run.Along after Allows {} claimingInVain ∧ Run.Along after (Fails 0) {} claimingInVain ∧
      Run.Along after (HindersNone 0) {} claimingInVain ∧
      Run.Along after (ForgetsNone 0) {} claimingInVain ∧
      (movesWithout 0 {} claimingInVain).length = 7 ∧
      responses {} (movesWithout 0 {} claimingInVain) = responsesWithout 0 {} claimingInVain ∧
      ((movesWithout 0 {} claimingInVain).foldl after {}).rows
        = (claimingInVain.foldl after {}).rows := by
  have hallows : Run.Along after Allows {} claimingInVain := by decide +kernel
  have hfails : Run.Along after (Fails 0) {} claimingInVain := by decide +kernel
  have hfree : Run.Along after (HindersNone 0) {} claimingInVain := by decide +kernel
  have hkept : Run.Along after (ForgetsNone 0) {} claimingInVain := by decide +kernel
  obtain ⟨-, hresponses, hrows, -⟩ := traceless hallows hfails hfree hkept
  exact ⟨hallows, hfails, hfree, hkept, by decide +kernel, hresponses, hrows⟩

/-- A row is staged, and not yet there; a transaction asks for it and makes the table forget a lock
of it that somebody else has got in the meantime. -/
def forgetting : List Move :=
  let m := momentOf Uuid.nil
  [.call .begin m, .call (.insert 0 someDraft) m,
   .call .begin m, .call (.update 1 Uuid.nil .pending false false) m,
   -- the transaction waits behind another one, which does not find the row and forgets the lock
   .call .begin m, .call (.lock 2 Uuid.nil) m, .call (.lock 1 Uuid.nil) m,
   -- a third one gets a new lock, which is forgotten as well
   .call .begin m, .call (.update 3 Uuid.nil .pending false false) m,
   .call (.lock 2 Uuid.nil) m, .call (.rollback 2) m,
   -- the row is entered, and locked although the third one has locked it
   .call (.commit 0) m, .call .begin m, .call (.lock 4 Uuid.nil) m]

/-- Without the last condition a transaction that is dropped does leave a trace: somebody else is
answered who would have had to wait. -/
theorem exists_trace :
    ∃ t moves, Run.Along after Allows {} moves ∧ Run.Along after (Fails t) {} moves ∧
      Run.Along after (HindersNone t) {} moves ∧
      responses {} (movesWithout t {} moves) ≠ responsesWithout t {} moves := by
  refine ⟨2, forgetting, by decide +kernel, by decide +kernel, by decide +kernel, fun h => ?_⟩
  have hwaits : (responses {} (movesWithout 2 {} forgetting)).map Response.waits
      ≠ (responsesWithout 2 {} forgetting).map Response.waits := by decide +kernel
  exact hwaits (congrArg _ h)

end Store
end Dispatch
