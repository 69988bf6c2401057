/-
All or nothing.

An operation is made alone on a vacant table, but the table may be out of reach at any of its
calls: before each call it is said anew whether it can be reached.  Whatever is said, the operation
comes to an end, and nobody is at work any more.  If its caller is told an error, the rows and the
pairs are what they were; if not, all that the operation is to do has been done.

What an operation comes to is its `Verdict`.  It is computed from the rows and the pairs, and from
what the calls find, so that whatever is under way or has been under way does not matter to it.  An
operation that is made again after an error therefore comes to what it would have come to at first.

The proofs go through the calls from the last one back to the first.  Every call is either refused,
and then the transaction is dropped, or answered as the lemmas on tables for one say.
-/
import Dispatch.Proofs.Matching.Confirmations
import Dispatch.Proofs.Store.Vacant

namespace Dispatch

open Store

/-- What a call finds: whether the table can be reached, the time, and an identifier. -/
structure Condition where
  offline : Bool
  moment : Moment

/-- Runs a program by itself, to its end or up to a call that has to wait.  Its first call is made
in the condition `w n`, the next one in `w (n + 1)`, and so on. -/
def attempt (w : Nat → Condition) : Nat → CallerProgram → Ledger → CallerProgram × Ledger
  | _, .done r, l => (.done r, l)
  | n, .call c next, l =>
    match Ledger.perform (w n).moment c { l with store.offline := (w n).offline } with
    | .answer reply l' => attempt w (n + 1) (next reply) l'
    | .wait l' => (.call c next, l')

/-- The error that a caller is told. -/
def Outcome.error? : Outcome → Option ServiceError
  | proposal (.error e) | rejections (.error e) => some e
  | proposal (.ok _) | rejections (.ok _) => none

/-- What an operation comes to: what its caller is told, and the rows and the pairs after it. -/
structure Verdict where
  told : Outcome
  table : Store

/-- A verdict that holds if the table can be reached; otherwise it is an error. -/
def Condition.ifReached {α : Type} (c : Condition) (tell : Except ServiceError α → Outcome)
    (s : Store) (v : Verdict) : Verdict :=
  if c.offline then ⟨tell (.error (.store .offline)), s⟩ else v

/-! ### What an operation comes to -/

section Verdicts

variable (w : Nat → Condition)

/-- What entering a draft comes to, if the row is staged in the condition `w n`. -/
def Draft.entryVerdict (n : Nat) (d : Draft) (s : Store) : Verdict :=
  (w n).ifReached .proposal s <|
    -- a closed row can occupy the pair; the transaction is dropped, and the pair looked up again
    if s.openPairs.contains d.pair then
      (w (n + 2)).ifReached .proposal s ⟨.proposal (.error (.store (.pairTaken d.pair))), s⟩
    else
      let r := d.toProposal (w n).moment.freshId (w n).moment.now
      (w (n + 1)).ifReached .proposal s ⟨.proposal (.ok r), s.claimPair r⟩

/-- What a proposal comes to. -/
def Draft.verdict (d : Draft) (s : Store) : Verdict :=
  match d.refusal? with
  | some r => ⟨.proposal (.error (.refused r)), s⟩
  | none => (w 0).ifReached .proposal s <|
    match s.openProposal? d.pair with
    | some p => ⟨.proposal (.ok p), s⟩
    | none => (w 1).ifReached .proposal s <| d.entryVerdict w 2 s

/-- What a confirmation comes to, if the row has been asked for and is written in the condition
`w n`. -/
def Confirming.writeVerdict (n : Nat) (q : Confirming) (s : Store) : Verdict :=
  match q.answer (w n).moment.now (s.row? q.id) with
  | .error e => ⟨.proposal (.error e), s⟩
  | .ok r => (w n).ifReached .proposal s <| (w (n + 1)).ifReached .proposal s <|
    (w (n + 2)).ifReached .proposal s ⟨.proposal (.ok r), s.writeRow r⟩

/-- What a confirmation comes to. -/
def Confirming.verdict (q : Confirming) (s : Store) : Verdict :=
  (w 0).ifReached .proposal s <| (w 1).ifReached .proposal s <| q.writeVerdict w 2 s

/-- Rejects rows one after the other, the first one in the condition `w n`. -/
def rejectInTurn : Nat → List MatchId → Store → Store
  | _, [], s => s
  | n, id :: ids, s =>
    rejectInTurn (n + 1) ids (match s.row? id with
      | some r => s.writeRow (r.rejectedAt (w n).moment.now)
      | none => s)

/-- What the rejection of some rows comes to, if the update is begun in the condition `w n`. -/
def rejectVerdict (n : Nat) (s : Store) : List MatchId → Verdict
  | [] => ⟨.rejections (.ok 0), s⟩
  | ids => (w n).ifReached .rejections s
    ⟨.rejections (.ok (sortedIds ids).length), rejectInTurn w (n + 1) (sortedIds ids) s⟩

/-- What a rejection comes to. -/
def Rejecting.verdict (q : Rejecting) (s : Store) : Verdict :=
  (w 0).ifReached .rejections s <|
    match s.row? q.accepted with
    | none => ⟨.rejections (.error (.store (.notFound q.accepted))), s⟩
    | some a =>
      if a.status ≠ .accepted then
        ⟨.rejections (.error (.refused (.notAccepted q.accepted a.status))), s⟩
      else (w 1).ifReached .rejections s <| (w 2).ifReached .rejections s <|
        rejectVerdict w 3 s (Stage.competing s q (s.rowsOf q.driver .driver))

/-- What an operation comes to. -/
def Operation.verdict (s : Store) : Operation → Verdict
  | .propose d => d.verdict w s
  | .confirm id user role => Confirming.verdict w ⟨id, user, role⟩ s
  | .rejectCompeting accepted driver passenger =>
    Rejecting.verdict w ⟨accepted, driver, passenger⟩ s

end Verdicts

/-! ### Runs that come to a verdict -/

/-- From a table on, a program comes to a verdict, and nobody is at work when it has ended. -/
def Comes (w : Nat → Condition) (n : Nat) (p : CallerProgram) (s : Store) (v : Verdict) : Prop :=
  ∀ k : Metrics, ∃ l, attempt w n p ⟨s, k⟩ = (.done v.told, l) ∧ l.store.Vacant ∧
    l.store.contents = v.table

variable {w : Nat → Condition} {n : Nat} {s c : Store} {t : Ticket}

namespace Comes

theorem done (h : s.Vacant) (hc : s.contents = c) (r : Outcome) : Comes w n (.done r) s ⟨r, c⟩ :=
  fun _ => ⟨_, rfl, h, hc⟩

/-- A call that is answered, and what follows it. -/
theorem call {a : StoreCall} {next : a.Reply → CallerProgram} {reply : a.Reply} {s' : Store}
    {v : Verdict}
    (ha : perform (w n).moment a { s with offline := (w n).offline } = .answer reply s')
    (h : Comes w (n + 1) (next reply) s' v) : Comes w n (.call (.store a) next) s v := by
  intro k
  obtain ⟨l, hrun, hl⟩ := h k
  refine ⟨l, ?_, hl⟩
  rw [attempt, Ledger.perform, ha]
  exact hrun

theorem count (h : s.Vacant) (hc : s.contents = c) (o : Observation) (r : Outcome) :
    Comes w n (thenCount o r) s ⟨r, c⟩ :=
  fun _ => ⟨_, rfl, h.outage _, hc⟩

/-- Either the table can be reached at a call, or not. -/
theorem ifReached {α : Type} {tell : Except ServiceError α → Outcome} {p : CallerProgram}
    {v : Verdict} {k : Nat}
    (hoff : (w k).offline = true → Comes w n p s ⟨tell (.error (.store .offline)), c⟩)
    (hon : (w k).offline = false → Comes w n p s v) :
    Comes w n p s ((w k).ifReached tell c v) := by
  unfold Condition.ifReached
  split
  · exact hoff (by assumption)
  · exact hon (by simpa using ‹¬ (w k).offline = true›)

/-- The pair is looked up. -/
theorem find {d p : ActorId} {next : Except StoreError (Option Proposal) → CallerProgram}
    {v : Verdict} (h : s.Vacant) (hc : s.contents = c)
    (hnext : ∀ e, next (.error e) = .done (.proposal (.error (.store e))))
    (hfound : ∀ s', s'.Vacant → s'.contents = c →
      Comes w (n + 1) (next (.ok (c.openProposal? (d, p)))) s' v) :
    Comes w n (.call (.store (.find d p)) next) s ((w n).ifReached .proposal c v) := by
  subst hc
  have h := h.outage (w n).offline
  refine .ifReached (fun hoff => .call (find_offline _ hoff d p) ?_) (fun hon => ?_)
  · rw [hnext]
    exact .done h rfl _
  · exact .call (find_online _ hon d p) (hfound _ h rfl)

/-- The transaction is dropped. -/
theorem rollback {changes : List Staged} {next : Unit → CallerProgram} {v : Verdict}
    (h : s.Sole t changes) (hc : s.contents = c)
    (hnext : ∀ s', s'.Vacant → s'.contents = c → Comes w (n + 1) (next ()) s' v) :
    Comes w n (.call (.store (.rollback t)) next) s v := by
  have ha : perform (w n).moment (.rollback t) { s with offline := (w n).offline }
      = .answer () (endTransaction { s with offline := (w n).offline } t) := rfl
  exact .call ha (hnext _ (h.outage _).endTransaction hc)

end Comes

/-! ### Proposing -/

section Proposing

variable {d : Draft}

theorem comes_searchingAgain (h : s.Vacant) (hc : s.contents = c)
    (hnone : c.openProposal? d.pair = none) (reason : String) :
    Comes w n (Proposing.searchAgain d reason) s
      ((w n).ifReached .proposal c ⟨.proposal (.error (.store (.conflict reason))), c⟩) := by
  refine .find h hc (fun _ => rfl) fun s' h' hc' => ?_
  rw [show c.openProposal? (d.driverId, d.passengerId) = none from hnone]
  exact .done h' hc' _

theorem comes_withdrawing {changes : List Staged} (h : s.Sole t changes) (hc : s.contents = c) :
    Comes w n (Proposing.withdraw d t (.store .offline)) s
      ⟨.proposal (.error (.store .offline)), c⟩ :=
  .rollback h hc fun _ h' hc' => .done h' hc' _

theorem comes_withdrawing_taken {changes : List Staged} (h : s.Sole t changes)
    (hc : s.contents = c) (hnone : c.openProposal? d.pair = none) :
    Comes w n (Proposing.withdraw d t (.store (.pairTaken d.pair))) s ((w (n + 1)).ifReached
      .proposal c ⟨.proposal (.error (.store (.pairTaken d.pair))), c⟩) :=
  .rollback h hc fun _ h' hc' => comes_searchingAgain h' hc' hnone _

theorem comes_committing {r : Proposal} (h : s.Sole t [.insert r]) (hc : s.contents = c)
    (hopen : r.isOpen = true) (hfree : c.openPairs.contains r.pair = false) :
    Comes w n (Proposing.commit d t r) s
      ((w n).ifReached .proposal c ⟨.proposal (.ok r), c.claimPair r⟩) := by
  subst hc
  have h := h.outage (w n).offline
  refine .ifReached (fun hoff => ?_) (fun hon => ?_)
  · exact .call (commit_offline _ hoff t) (comes_withdrawing (h.endTransaction.sole t) rfl)
  · obtain ⟨s', ha, hs', hc'⟩ := h.commit_insert (w n).moment hon hopen hfree
    exact .call ha (.count hs' hc' _ _)

theorem comes_inserting (h : s.Sole t []) (hc : s.contents = c)
    (hnone : c.openProposal? d.pair = none) :
    Comes w n (Proposing.insert d t) s (d.entryVerdict w n c) := by
  subst hc
  have h := h.outage (w n).offline
  refine .ifReached (fun hoff => ?_) (fun hon => ?_)
  · exact .call (insert_offline _ hoff t d) (comes_withdrawing h rfl)
  · cases htaken : s.openPairs.contains d.pair with
    | true =>
        rw [if_pos (show s.contents.openPairs.contains d.pair = true from htaken)]
        exact .call (insert_taken _ hon htaken) (comes_withdrawing_taken h rfl hnone)
    | false =>
        have hfree : s.contents.openPairs.contains d.pair = false := htaken
        rw [if_neg (by simp [hfree])]
        obtain ⟨s', ha, hs', hc'⟩ := h.insert (w n).moment hon hfree
        exact .call ha (comes_committing hs' hc' rfl hfree)

theorem comes_beginning (h : s.Vacant) (hc : s.contents = c)
    (hnone : c.openProposal? d.pair = none) :
    Comes w n (Proposing.begin d) s
      ((w n).ifReached .proposal c <| d.entryVerdict w (n + 1) c) := by
  subst hc
  have h := h.outage (w n).offline
  refine .ifReached (fun hoff => ?_) (fun hon => ?_)
  · exact .call (begin_offline _ hoff) (.done h rfl _)
  · obtain ⟨t, s', ha, hs', hc'⟩ := h.begin (w n).moment hon
    exact .call ha (comes_inserting hs' hc' hnone)

/-- **Proposing alone** comes to its verdict. -/
theorem comes_propose (h : s.Vacant) (d : Draft) :
    Comes w 0 (Operation.propose d).program s (d.verdict w s.contents) := by
  rw [Proposing.program_eq, Draft.verdict]
  cases d.refusal? with
  | some r => exact .done h rfl _
  | none =>
      refine .find h rfl (fun _ => rfl) fun s' h' hc' => ?_
      cases hp : s.contents.openProposal? d.pair with
      | some p =>
          rw [show s.contents.openProposal? (d.driverId, d.passengerId) = some p from hp]
          exact .count h' hc' _ _
      | none =>
          rw [show s.contents.openProposal? (d.driverId, d.passengerId) = none from hp]
          exact comes_beginning h' hc' hp

end Proposing

/-! ### Confirming -/

section Confirming

variable {q : Confirming} {r : Proposal}

theorem comes_dropping {changes : List Staged} (h : s.Sole t changes) (hc : s.contents = c)
    (e : ServiceError) : Comes w n (Confirming.drop t e) s ⟨.proposal (.error e), c⟩ :=
  .rollback h hc fun _ h' hc' => .count h' hc' _ _

theorem comes_closing (h : s.Sole t [.update r]) (hc : s.contents = c) :
    Comes w n (Confirming.commit t r) s
      ((w n).ifReached .proposal c ⟨.proposal (.ok r), c.writeRow r⟩) := by
  subst hc
  have h := h.outage (w n).offline
  refine .ifReached (fun hoff => ?_) (fun hon => ?_)
  · exact .call (commit_offline _ hoff t) (comes_dropping (h.endTransaction.sole t) rfl _)
  · obtain ⟨s', ha, hs', hc'⟩ := h.commit_update (w n).moment hon
    exact .call ha (.count hs' hc' _ _)

theorem comes_rereading (h : s.Sole t [.update r]) (hc : s.contents = c) (hid : r.id = q.id) :
    Comes w n (q.reread t) s ((w n).ifReached .proposal c <|
      (w (n + 1)).ifReached .proposal c ⟨.proposal (.ok r), c.writeRow r⟩) := by
  have h := h.outage (w n).offline
  refine .ifReached (fun hoff => ?_) (fun hon => ?_)
  · exact .call (h.withLock_offline hoff _ _) (comes_dropping h hc _)
  · have hr : overlay s.row? [r] q.id = some r := by
      rw [← hid]
      exact Function.update_self _ _ _
    obtain ⟨s', ha, hs', hc'⟩ := h.read (w n).moment hon hr
    exact .call ha (comes_closing hs' (hc'.trans hc))

theorem comes_updating (h : s.Sole t []) (hc : s.contents = c) (hr : c.row? q.id = some r)
    (hid : r.id = q.id) (hopen : r.isOpen = true) :
    Comes w n (q.update t r) s ((w n).ifReached .proposal c <|
      (w (n + 1)).ifReached .proposal c <| (w (n + 2)).ifReached .proposal c
        ⟨.proposal (.ok (r.confirmedBy q.role (w n).moment.now)),
          c.writeRow (r.confirmedBy q.role (w n).moment.now)⟩) := by
  subst hc
  have h := h.outage (w n).offline
  refine .ifReached (fun hoff => ?_) (fun hon => ?_)
  · exact .call (h.withLock_offline hoff _ _) (comes_dropping h rfl _)
  · obtain ⟨s', ha, hs', hc'⟩ := h.update (w n).moment hon hr hopen _ _ _
    exact .call ha (comes_rereading hs' hc' hid)

theorem comes_judging (h : s.Sole t []) (hc : s.contents = c) (hr : c.row? q.id = some r)
    (hid : r.id = q.id) : Comes w n (q.judge t r) s (q.writeVerdict w n c) := by
  rw [Confirming.writeVerdict, hr]
  unfold Confirming.judge
  cases he : r.refusal? q.user q.role with
  | some e =>
      rw [Confirming.answer_of_refusal he]
      exact comes_dropping h hc _
  | none =>
      rw [Confirming.answer_of_no_refusal he]
      exact comes_updating h hc hr hid (Proposal.refusal?_eq_none.1 he).2.1

theorem comes_asking (h : s.Sole t []) (hc : s.contents = c) :
    Comes w n (q.ask t) s ((w n).ifReached .proposal c <| q.writeVerdict w (n + 1) c) := by
  subst hc
  have h := h.outage (w n).offline
  refine .ifReached (fun hoff => ?_) (fun hon => ?_)
  · exact .call (h.withLock_offline hoff _ _) (comes_dropping h rfl _)
  · cases hr : s.row? q.id with
    | none =>
        obtain ⟨s', ha, hs', hc'⟩ := h.read_missing (w n).moment hon hr
        rw [Confirming.writeVerdict, row?_contents, hr]
        exact .call ha (comes_dropping hs' hc' _)
    | some r =>
        obtain ⟨s', ha, hs', hc'⟩ := h.read (w n).moment hon hr
        exact .call ha (comes_judging hs' hc' hr (h.filed _ _ hr))

/-- **Confirming alone** comes to its verdict. -/
theorem comes_confirm (h : s.Vacant) (q : Confirming) :
    Comes w 0 (Operation.confirm q.id q.user q.role).program s (q.verdict w s.contents) := by
  rw [Confirming.program_eq]
  have h := h.outage (w 0).offline
  refine .ifReached (fun hoff => ?_) (fun hon => ?_)
  · exact .call (begin_offline _ hoff) (.count h rfl _ _)
  · obtain ⟨t, s', ha, hs', hc'⟩ := h.begin (w 0).moment hon
    exact .call ha (comes_asking hs' hc')

end Confirming

/-! ### Rejecting -/

section Rejecting

variable {q : Rejecting}

/-- Rows that are open and apart are all rejected. -/
theorem comes_rejecting {ids : List MatchId} (h : s.Vacant) (hc : s.contents = c)
    (hnodup : ids.Nodup) (hopen : ∀ id ∈ ids, ∃ r, c.row? id = some r ∧ r.isOpen = true) (k : Nat) :
    Comes w n (Rejecting.reject t ids k) s
      ⟨.rejections (.ok (k + ids.length)), rejectInTurn w n ids c⟩ := by
  induction ids generalizing n s c k with
  | nil => exact .count h hc _ _
  | cons id ids ih =>
      obtain ⟨r, hr, hropen⟩ := hopen id List.mem_cons_self
      rw [List.nodup_cons] at hnodup
      have h := h.outage (w n).offline
      have hmem : r.status ∈ Status.openStates := by
        rw [Status.mem_openStates_iff]
        simpa [Proposal.isOpen] using hropen
      subst hc
      obtain ⟨s', ha, hs', hc'⟩ := h.updateRow (w n).moment hr hmem t .rejected
      rw [rejectInTurn, hr, List.length_cons, Nat.add_comm ids.length, ← Nat.add_assoc]
      refine .call ha (ih hs' hc' hnodup.2 (fun id' hid' => ?_) (k + 1))
      have hne : id' ≠ r.id := by
        rw [h.filed _ _ hr]
        rintro rfl
        exact hnodup.1 hid'
      rw [row?_writeRow, Function.update_of_ne]
      · exact hopen id' (List.mem_cons_of_mem _ hid')
      · exact hne

theorem comes_rejectListed {ids : List MatchId} (h : s.Vacant) (hc : s.contents = c)
    (hopen : ∀ id ∈ ids, ∃ r, c.row? id = some r ∧ r.isOpen = true) :
    Comes w n (Rejecting.rejectListed ids) s (rejectVerdict w n c ids) := by
  cases ids with
  | nil => exact .done h hc _
  | cons id ids =>
      have h := h.outage (w n).offline
      refine .ifReached (fun hoff => ?_) (fun hon => ?_)
      · exact .call (openBatch_offline _ hoff) (.done h hc _)
      · have hrun := comes_rejecting (w := w) (n := n + 1) (t := s.nextTicket) h.openBatch hc
          (nodup_sortedIds (id :: ids)) (fun id' hid' => hopen id' (mem_sortedIds.1 hid')) 0
        rw [Nat.zero_add] at hrun
        exact .call (openBatch_online _ hon) hrun

theorem comes_listingRidden (h : s.Vacant) (hc : s.contents = c) :
    Comes w n (q.listRidden (c.rowsOf q.driver .driver)) s ((w n).ifReached .rejections c <|
      rejectVerdict w (n + 1) c (Stage.competing c q (c.rowsOf q.driver .driver))) := by
  subst hc
  have h := h.outage (w n).offline
  refine .ifReached (fun hoff => ?_) (fun hon => ?_)
  · exact .call (list_offline _ hoff _ _) (.done h rfl _)
  · have hopen : ∀ id ∈ Stage.competing s q (s.rowsOf q.driver .driver),
        ∃ r, s.row? id = some r ∧ r.isOpen = true := fun id hid => by
      obtain ⟨-, r, hr, hropen, -⟩ := (Stage.mem_competing h.filed).1 hid
      exact ⟨r, hr, hropen⟩
    exact .call (list_online _ hon _ _) (comes_rejectListed h rfl hopen)

theorem comes_listingDriven (h : s.Vacant) (hc : s.contents = c) :
    Comes w n q.listDriven s ((w n).ifReached .rejections c <|
      (w (n + 1)).ifReached .rejections c <|
      rejectVerdict w (n + 2) c (Stage.competing c q (c.rowsOf q.driver .driver))) := by
  subst hc
  have h := h.outage (w n).offline
  refine .ifReached (fun hoff => ?_) (fun hon => ?_)
  · exact .call (list_offline _ hoff _ _) (.done h rfl _)
  · exact .call (list_online _ hon _ _) (comes_listingRidden h rfl)

/-- **Rejecting alone** comes to its verdict. -/
theorem comes_reject (h : s.Vacant) (q : Rejecting) :
    Comes w 0 (Operation.rejectCompeting q.accepted q.driver q.passenger).program s
      (q.verdict w s.contents) := by
  rw [Rejecting.program_eq, Rejecting.verdict, row?_contents]
  have h := h.outage (w 0).offline
  refine .ifReached (fun hoff => ?_) (fun hon => ?_)
  · exact .call (get_offline _ hoff _) (.done h rfl _)
  · have ha := get_online (w 0).moment (s := { s with offline := (w 0).offline }) hon q.accepted
    cases hr : s.row? q.accepted with
    | none =>
        rw [show row? { s with offline := (w 0).offline } q.accepted = none from hr] at ha
        exact .call ha (.done h rfl _)
    | some a =>
        rw [show row? { s with offline := (w 0).offline } q.accepted = some a from hr] at ha
        refine .call ha ?_
        show Comes w 1 (if a.status ≠ .accepted then _ else q.listDriven) _
          (if a.status ≠ .accepted then _ else _)
        by_cases hacc : a.status ≠ .accepted
        · rw [if_pos hacc, if_pos hacc]
          exact .done h rfl _
        · rw [if_neg hacc, if_neg hacc]
          exact comes_listingDriven h rfl

end Rejecting

/-- **An operation that is made alone** comes to its verdict. -/
theorem comes_verdict (h : s.Vacant) (o : Operation) :
    Comes w 0 o.program s (o.verdict w s.contents) := by
  cases o with
  | propose d => exact comes_propose h d
  | confirm id user role => exact comes_confirm h ⟨id, user, role⟩
  | rejectCompeting accepted driver passenger => exact comes_reject h ⟨accepted, driver, passenger⟩

/-! ### What an operation is to do -/

/-- A row that a rejection is to close: it is open, is not the accepted one, and has the driver or
the passenger in question. -/
def Rejecting.Competes (q : Rejecting) (s : Store) (id : MatchId) : Prop :=
  id ≠ q.accepted ∧ ∃ r, s.row? id = some r ∧ r.isOpen = true ∧
    (r.driverId = q.driver ∨ r.passengerId = q.passenger)

/-- Some rows have been rejected, and occupy their pairs no longer; all else is as before. -/
structure Closes (w : Nat → Condition) (ids : List MatchId) (s s' : Store) : Prop where
  rejected : ∀ {id r}, id ∈ ids → s.row? id = some r →
    ∃ n, s'.row? id = some (r.rejectedAt (w n).moment.now)
  kept : ∀ {id}, id ∉ ids → s'.row? id = s.row? id
  openPairs : ∀ p, s'.openPairs.find? p = (s.openPairs.find? p).filter fun id =>
    !(decide (id ∈ ids) && (s.row? id).any fun r => decide (r.pair = p))

/-- An operation has done all that it is to do between two tables, and its caller is told so.  A
proposal finds the open row of the pair, or enters one.  A confirmation writes the row.  A
rejection closes all that competes, and its caller is told how many rows that were. -/
def Operation.Accomplished (w : Nat → Condition) (s s' : Store) : Operation → Outcome → Prop
  | .propose d, .proposal (.ok p) =>
    (s.openProposal? d.pair = some p ∧ s'.rows = s.rows ∧ s'.openPairs = s.openPairs) ∨
    (s.openPairs.find? d.pair = none ∧
      (∃ n, p = d.toProposal (w n).moment.freshId (w n).moment.now) ∧
      s'.rows = s.rows.insert p.id p ∧ s'.openPairs = s.openPairs.insert d.pair p.id)
  | .confirm id user role, .proposal (.ok p) =>
    ∃ r n, s.row? id = some r ∧ r.refusal? user role = none ∧
      p = r.confirmedBy role (w n).moment.now ∧ s'.rows = s.rows.insert id p ∧
      s'.openPairs = if p.status = .accepted ∧ s.openPairs.find? p.pair = some id
        then s.openPairs.erase p.pair else s.openPairs
  | .rejectCompeting accepted driver passenger, .rejections (.ok n) =>
    (∃ a, s.row? accepted = some a ∧ a.status = .accepted) ∧
      ∃ ids : List MatchId, ids.Nodup ∧ n = ids.length ∧
        (∀ id, id ∈ ids ↔ Rejecting.Competes ⟨accepted, driver, passenger⟩ s id) ∧
        Closes w ids s s'
  | _, _ => False

namespace Closes

variable {ids : List MatchId} {id : MatchId} {r : Proposal}

theorem nil (w : Nat → Condition) (s : Store) : Closes w [] s s where
  rejected h := by cases h
  kept _ := rfl
  openPairs p := by
    cases s.openPairs.find? p <;> rfl

/-- One row is rejected, and then the others. -/
theorem cons {s' : Store} (hr : s.row? id = some r) (hid : r.id = id) (hnot : id ∉ ids)
    (h : Closes w ids (s.writeRow (r.rejectedAt (w n).moment.now)) s') :
    Closes w (id :: ids) s s' := by
  have hself : (s.writeRow (r.rejectedAt (w n).moment.now)).row? id
      = some (r.rejectedAt (w n).moment.now) := by
    rw [row?_writeRow, ← hid]
    exact Function.update_self _ _ _
  have hother : ∀ {x}, x ≠ id → (s.writeRow (r.rejectedAt (w n).moment.now)).row? x = s.row? x := by
    intro x hx
    rw [row?_writeRow]
    exact Function.update_of_ne (hid ▸ hx) _ _
  refine ⟨fun {x y} hx hy => ?_, fun {x} hx => ?_, fun p => ?_⟩
  · rcases List.mem_cons.mp hx with rfl | hx
    · rw [hr] at hy
      obtain rfl := Option.some.inj hy
      exact ⟨n, by rw [h.kept hnot, hself]⟩
    · have hne : x ≠ id := fun he => hnot (he ▸ hx)
      exact h.rejected hx (by rw [hother hne, hy])
  · rw [List.mem_cons, not_or] at hx
    rw [h.kept hx.2, hother hx.1]
  · rw [h.openPairs, find?_openPairs_writeRow]
    have hpair : (r.rejectedAt (w n).moment.now).pair = r.pair := rfl
    have hself' : (r.rejectedAt (w n).moment.now).id = id := hid
    have hterm : (r.rejectedAt (w n).moment.now).status.isTerminal = true := rfl
    rw [hpair, hself', hterm]
    cases hp : s.openPairs.find? p with
    | none => simp
    | some x =>
        by_cases hx : x = id
        · subst hx
          by_cases hrp : p = r.pair
          · simp [hrp, hr, Option.filter_some]
          · simp [hrp, hr, hnot, Ne.symm hrp, Option.filter_some]
        · simp [hx, hother hx, Option.filter_some]

theorem rejectInTurn {s : Store} (hfiled : s.Filed) (hnodup : ids.Nodup)
    (hrows : ∀ id ∈ ids, ∃ r, s.row? id = some r) : Closes w ids s (rejectInTurn w n ids s) := by
  induction ids generalizing n s with
  | nil => exact .nil w s
  | cons id ids ih =>
      obtain ⟨r, hr⟩ := hrows id List.mem_cons_self
      rw [List.nodup_cons] at hnodup
      have hid := hfiled _ _ hr
      rw [Dispatch.rejectInTurn, hr]
      refine .cons hr hid hnodup.1 (ih ?_ hnodup.2 fun x hx => ?_)
      · exact hfiled.update (row?_writeRow s (r.rejectedAt (w n).moment.now))
      · have hne : x ≠ r.id := by
          rw [hid]
          rintro rfl
          exact hnodup.1 hx
        rw [row?_writeRow, show (r.rejectedAt (w n).moment.now).id = r.id from rfl,
          Function.update_of_ne hne]
        exact hrows x (List.mem_cons_of_mem _ hx)

end Closes

/-! ### Errors leave no trace -/

/-- No rule of the service is broken by the service itself. -/
theorem Refusal.kind_ne_internal (r : Refusal) : r.kind ≠ .internal := by
  cases r <;> nofun

/-- A confirmation closes a row only by accepting it. -/
theorem Proposal.isTerminal_confirmedBy (r : Proposal) (role : Role) (now : Time.Instant) :
    (r.confirmedBy role now).status.isTerminal = true ↔ (r.confirmedBy role now).status = .accepted := by
  show (Status.ofFlags (r.flagsAfter role).1 (r.flagsAfter role).2).isTerminal = true ↔
    Status.ofFlags (r.flagsAfter role).1 (r.flagsAfter role).2 = .accepted
  generalize (r.flagsAfter role).1 = driver
  generalize (r.flagsAfter role).2 = passenger
  cases driver <;> cases passenger <;> decide

/-- A caller has been told an error and nothing has changed, or the operation has done all that it
is to do. -/
def Verdict.Undivided (o : Operation) (w : Nat → Condition) (s : Store) (v : Verdict) : Prop :=
  match v.told.error? with
  | some e => v.table = s ∧ e.kind ≠ .internal
  | none => o.Accomplished w s v.table v.told

namespace Verdict.Undivided

variable {o : Operation} {v : Verdict}

theorem ifReached {α : Type} {tell : Except ServiceError α → Outcome}
    (htell : (tell (.error (.store .offline))).error? = some (.store .offline)) {x : Condition}
    (h : v.Undivided o w s) : (x.ifReached tell s v).Undivided o w s := by
  unfold Condition.ifReached
  split
  · unfold Undivided
    rw [htell]
    exact ⟨rfl, nofun⟩
  · exact h

theorem propose (d : Draft) (s : Store) : (d.verdict w s).Undivided (.propose d) w s := by
  unfold Draft.verdict
  cases d.refusal? with
  | some r => exact ⟨rfl, r.kind_ne_internal⟩
  | none =>
      refine ifReached rfl ?_
      cases hp : s.openProposal? d.pair with
      | some p => exact Or.inl ⟨hp, rfl, rfl⟩
      | none =>
          refine ifReached rfl (ifReached rfl ?_)
          -- what is left is whether the pair is taken
          cases hfree : s.openPairs.find? d.pair with
          | some id =>
              rw [if_pos (by simp [Table.contains, hfree])]
              exact ifReached rfl ⟨rfl, fun h => by cases h⟩
          | none =>
              rw [if_neg (by simp [Table.contains, hfree])]
              exact ifReached rfl (Or.inr ⟨hfree, ⟨2, rfl⟩, rfl, rfl⟩)

theorem confirm (q : Confirming) (hfiled : s.Filed) :
    (q.verdict w s).Undivided (.confirm q.id q.user q.role) w s := by
  unfold Confirming.verdict Confirming.writeVerdict
  refine ifReached rfl (ifReached rfl ?_)
  cases ha : q.answer (w 2).moment.now (s.row? q.id) with
  | error e =>
      refine ⟨rfl, fun hk => ?_⟩
      have hkind := Confirming.kind_of_answer ha
      rw [hk] at hkind
      exact absurd hkind (by decide)
  | ok p =>
      obtain ⟨r, hr, he, rfl⟩ := Confirming.exists_of_answer ha
      have hid : r.id = q.id := hfiled _ _ hr
      refine ifReached rfl (ifReached rfl (ifReached rfl ⟨r, 2, hr, he, rfl, ?_, ?_⟩))
      · rw [rows_writeRow, show (r.confirmedBy q.role (w 2).moment.now).id = q.id from hid]
      · rw [openPairs_writeRow, show (r.confirmedBy q.role (w 2).moment.now).id = q.id from hid]
        simp only [Proposal.isTerminal_confirmedBy]

theorem reject (q : Rejecting) (hfiled : s.Filed) : (q.verdict w s).Undivided
    (.rejectCompeting q.accepted q.driver q.passenger) w s := by
  unfold Rejecting.verdict
  refine ifReached rfl ?_
  cases ha : s.row? q.accepted with
  | none => exact ⟨rfl, nofun⟩
  | some a =>
      show Undivided _ w s (if a.status ≠ .accepted then _ else _)
      by_cases hacc : a.status ≠ .accepted
      · rw [if_pos hacc]
        exact ⟨rfl, nofun⟩
      · rw [if_neg hacc]
        refine ifReached rfl (ifReached rfl ?_)
        have hmem : ∀ id, id ∈ Stage.competing s q (s.rowsOf q.driver .driver) ↔ q.Competes s id :=
          fun id => Stage.mem_competing hfiled
        have haccepted : ∃ a, s.row? q.accepted = some a ∧ a.status = .accepted :=
          ⟨a, ha, Decidable.not_not.mp hacc⟩
        generalize Stage.competing s q (s.rowsOf q.driver .driver) = ids at hmem
        cases ids with
        | nil => exact ⟨haccepted, [], List.nodup_nil, rfl, hmem, .nil w s⟩
        | cons x ids =>
            have hmem' : ∀ id, id ∈ sortedIds (x :: ids) ↔ q.Competes s id :=
              fun id => mem_sortedIds.trans (hmem id)
            refine ifReached rfl ⟨haccepted, sortedIds (x :: ids), nodup_sortedIds _, rfl, hmem', ?_⟩
            refine .rejectInTurn hfiled (nodup_sortedIds _) fun id hid => ?_
            obtain ⟨-, r, hr, -⟩ := (hmem' id).1 hid
            exact ⟨r, hr⟩

end Verdict.Undivided

/-- **An operation is done as a whole or not at all**, whatever its verdict. -/
theorem Operation.undivided (hfiled : s.Filed) (o : Operation) :
    (o.verdict w s).Undivided o w s := by
  cases o with
  | propose d => exact .propose d s
  | confirm id user role => exact .confirm ⟨id, user, role⟩ hfiled
  | rejectCompeting accepted driver passenger =>
      exact .reject ⟨accepted, driver, passenger⟩ hfiled

/-! ### Retrying -/

theorem Closes.of_contents {s s' : Store} {ids : List MatchId}
    (h : Closes w ids s.contents s'.contents) : Closes w ids s s' :=
  ⟨h.rejected, h.kept, h.openPairs⟩

/-- What an operation has done is seen from the rows and the pairs. -/
theorem Operation.Accomplished.of_contents {s s' : Store} {o : Operation} {r : Outcome}
    (h : o.Accomplished w s.contents s'.contents r) : o.Accomplished w s s' r := by
  cases o with
  | propose d => rcases r with (e | p) | (e | k) <;> exact h
  | confirm id user role => rcases r with (e | p) | (e | k) <;> exact h
  | rejectCompeting accepted driver passenger =>
      rcases r with (e | p) | (e | k)
      · exact h
      · exact h
      · exact h
      · obtain ⟨ha, ids, hnodup, hk, hmem, hcloses⟩ := h
        exact ⟨ha, ids, hnodup, hk, hmem, hcloses.of_contents⟩

/-- **An operation is done as a whole or not at all.**  On a vacant table, whatever the operation
and whenever the table is out of reach, it comes to an end and the table is vacant again: no
transaction is open and no lock is held.  If the caller is told an error the rows and the pairs are
as before; otherwise all has been done that was to be done.  And whatever the error, retryable or
not, the operation made once more comes to what it would have come to at first: the caller is told
the same, and the rows and the pairs are the same. -/
theorem all_or_nothing (l : Ledger) (hv : l.store.Vacant) (o : Operation) (w : Nat → Condition) :
    ∃ r l', attempt w 0 o.program l = (.done r, l') ∧ l'.store.Vacant ∧
      (r.error? = none → o.Accomplished w l.store l'.store r) ∧
      ∀ e, r.error? = some e → e.kind ≠ .internal ∧
        l'.store.rows = l.store.rows ∧ l'.store.openPairs = l.store.openPairs ∧
        ∀ w' : Nat → Condition, ∃ r' again first,
          attempt w' 0 o.program l' = (.done r', again) ∧
          attempt w' 0 o.program l = (.done r', first) ∧
          again.store.rows = first.store.rows ∧
          again.store.openPairs = first.store.openPairs := by
  obtain ⟨l', hrun, hv', hcontents⟩ := comes_verdict (w := w) hv o l.metrics
  have hwhole := Operation.undivided (w := w) (s := l.store.contents) hv.filed o
  refine ⟨_, l', hrun, hv', fun hnone => ?_, fun e he => ?_⟩
  · unfold Verdict.Undivided at hwhole
    rw [hnone, ← hcontents] at hwhole
    exact hwhole.of_contents
  · unfold Verdict.Undivided at hwhole
    rw [he, ← hcontents] at hwhole
    obtain ⟨hsame, hkind⟩ := hwhole
    obtain ⟨hrows, hpairs⟩ := contents_eq_iff.1 hsame
    refine ⟨hkind, hrows, hpairs, fun w' => ?_⟩
    obtain ⟨again, hagain, -, hcagain⟩ := comes_verdict (w := w') hv' o l'.metrics
    obtain ⟨first, hfirst, -, hcfirst⟩ := comes_verdict (w := w') hv o l.metrics
    rw [hsame] at hagain hcagain
    obtain ⟨hrows', hpairs'⟩ := contents_eq_iff.1 (hcagain.trans hcfirst.symm)
    exact ⟨_, again, first, hagain, hfirst, hrows', hpairs'⟩

/-- A row has been entered, and is to be confirmed, but this cannot be committed. -/
theorem all_or_nothing_uncommitted :
    let s := entering.foldl Store.after {}
    let w := fun n => { offline := n == 4, moment := momentOf Uuid.nil : Condition }
    s.Vacant ∧ ∃ l', attempt w 0 (Operation.confirm Uuid.nil "d" .driver).program { store := s }
        = (.done (.proposal (.error (.store .offline))), l') ∧
      l'.store.rows = s.rows ∧ l'.store.openPairs = s.openPairs := by
  intro s w
  have hv : s.Vacant := vacant_of_moves (by decide +kernel) Traffic.quiet_entering.idle
  obtain ⟨r, l', hrun, -, -, herr⟩ := all_or_nothing { store := s } hv
    (.confirm Uuid.nil "d" .driver) w
  obtain ⟨_, hrun', -⟩ := comes_verdict (w := w) hv (.confirm Uuid.nil "d" .driver) {}
  have htold : (Operation.verdict w s.contents (.confirm Uuid.nil "d" .driver)).told
      = .proposal (.error (.store .offline)) := by
    rfl
  rw [htold] at hrun'
  obtain rfl := Program.done.inj (congrArg Prod.fst (hrun.symm.trans hrun'))
  obtain ⟨-, hrows, hpairs, -⟩ := herr _ rfl
  exact ⟨hv, l', hrun, hrows, hpairs⟩

end Dispatch
