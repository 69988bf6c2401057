/-
One call of one operation.

`Stage.Goes` lists what can come of the next call at each stage: the stage that follows, and what
has become of the rows.  Most calls write nothing.  Three do: a new row is entered, a row that is
locked is written with one more confirmation, and a row that is open and locked by nobody is
rejected.  Of the calls that ask for the lock of a row it is listed too how they are answered, and
that they wait only if somebody else is there.

That nothing else can come of a call, whatever the table is like, is `Stage.exists_step`; it also
says that afterwards the caller holds what the next stage says he holds.
-/
import Dispatch.Proofs.Matching.Answers

namespace Dispatch

open Store

namespace Stage

/-- What follows a call that is refused because the table cannot be reached. -/
def unreachable : Stage → Stage
  | searching _ | beginning _ | searchingAgain _ _ =>
    finished (.proposal (.error (.store .offline)))
  | starting _ => counting (.confirmation (.ofResult (.error (.store .offline))))
      (.proposal (.error (.store .offline)))
  | asking q t => dropping q t (.begun t (some q.id)) (.store .offline)
  | updating q t r => dropping q t (.reading t r) (.store .offline)
  | rereading q t r now => dropping q t (.writing t r q.role now) (.store .offline)
  | closing q t _ _ => dropping q t (.ticket t none) (.store .offline)
  | checking _ | listingDriven _ | listingRidden _ _ | opening _ _ =>
    finished (.rejections (.error (.store .offline)))
  | g => g

/-- The identifiers of the open competitors of an accepted proposal. -/
def competing (s : Store) (q : Rejecting) (driven : List Proposal) : List MatchId :=
  sortedIds (Matching.competitors q.accepted driven
    ++ Matching.competitors q.accepted (s.rowsOf q.passenger .passenger))

/-- What can come of the next call at a stage: the next stage, and the table after the call. -/
inductive Goes (s : Store) (m : Moment) : Stage → Stage → Store → Prop where
  | finished (r : Outcome) : Goes s m (.finished r) (.finished r) s
  | counted (o : Observation) (r : Outcome) : Goes s m (.counting o r) (.finished r) s
  | unreachable (g : Stage) {s' : Store} (hoff : s.offline = true) (hrow : s'.row? = s.row?) :
      Goes s m g g.unreachable s'
  | found (d : Draft) {p : Proposal} (hp : s.openProposal? d.pair = some p) :
      Goes s m (.searching d) (.counting (.creation .existing) (.proposal (.ok p))) s
  | notFound (d : Draft) (hp : s.openProposal? d.pair = none) : Goes s m (.searching d) (.beginning d) s
  | begun (d : Draft) {s' : Store} (hrow : s'.row? = s.row?) :
      Goes s m (.beginning d) (.inserting d s.nextTicket) s'
  | notInserted (d : Draft) (t : Ticket) {e : StoreError} (he : NotEntered s d e) :
      Goes s m (.inserting d t) (.withdrawing d t (.begun t none) (.store e)) s
  | inserted (d : Draft) (t : Ticket) {s' : Store} (hrow : s'.row? = s.row?) :
      Goes s m (.inserting d t) (.committing d t m.freshId m.now) s'
  | notEntered (d : Draft) (t : Ticket) (id : MatchId) (now : Time.Instant) {e : StoreError}
      {s' : Store} (he : NotEntered s d e) (hrow : s'.row? = s.row?) :
      Goes s m (.committing d t id now) (.withdrawing d t (.ticket t none) (.store e)) s'
  | entered (d : Draft) (t : Ticket) (id : MatchId) (now : Time.Instant) {s' : Store}
      (hnew : s.row? id = none)
      (hrow : s'.row? = Function.update s.row? id (some (d.toProposal id now))) :
      Goes s m (.committing d t id now)
        (.counting (.creation .created) (.proposal (.ok (d.toProposal id now)))) s'
  | conflicting (d : Draft) (t : Ticket) (h : Holding) (reason : String) {s' : Store}
      (hrow : s'.row? = s.row?) :
      Goes s m (.withdrawing d t h (.store (.conflict reason))) (.searchingAgain d reason) s'
  | withdrawn (d : Draft) (t : Ticket) (h : Holding) {e : ServiceError} {s' : Store}
      (he : ∀ reason, e ≠ .store (.conflict reason)) (hrow : s'.row? = s.row?) :
      Goes s m (.withdrawing d t h e) (.finished (.proposal (.error e))) s'
  | foundAgain (d : Draft) (reason : String) {p : Proposal}
      (hp : s.openProposal? d.pair = some p) : Goes s m (.searchingAgain d reason)
      (.counting (.creation .existing) (.proposal (.ok p))) s
  | notFoundAgain (d : Draft) (reason : String) (hp : s.openProposal? d.pair = none) : Goes s m (.searchingAgain d reason)
      (.finished (.proposal (.error (.store (.conflict reason))))) s
  | started (q : Confirming) {s' : Store} (hrow : s'.row? = s.row?) :
      Goes s m (.starting q) (.asking q s.nextTicket) s'
  | waits (q : Confirming) (t : Ticket) {s' : Store}
      (h : Store.perform m (.lock t q.id) s = .wait s') (halone : ¬ s.Alone t)
      (hrow : s'.row? = s.row?) :
      Goes s m (.asking q t) (.asking q t) s'
  | missing (q : Confirming) (t : Ticket) {s' : Store} (hr : s.row? q.id = none)
      (h : Store.perform m (.lock t q.id) s = .answer (.error (.notFound q.id)) s')
      (hrow : s'.row? = s.row?) :
      Goes s m (.asking q t) (.dropping q t (.begun t none) (.store (.notFound q.id))) s'
  | refused (q : Confirming) (t : Ticket) {r : Proposal} {e : Refusal} {s' : Store}
      (hr : s.row? q.id = some r) (he : r.refusal? q.user q.role = some e)
      (h : Store.perform m (.lock t q.id) s = .answer (.ok r) s') (hrow : s'.row? = s.row?) :
      Goes s m (.asking q t) (.dropping q t (.reading t r) (.refused e)) s'
  | read (q : Confirming) (t : Ticket) {r : Proposal} {s' : Store}
      (hr : s.row? q.id = some r) (he : r.refusal? q.user q.role = none)
      (h : Store.perform m (.lock t q.id) s = .answer (.ok r) s') (hrow : s'.row? = s.row?) :
      Goes s m (.asking q t) (.updating q t r) s'
  | updated (q : Confirming) (t : Ticket) (r : Proposal) {s' : Store} (hrow : s'.row? = s.row?) :
      Goes s m (.updating q t r) (.rereading q t r m.now) s'
  | reread (q : Confirming) (t : Ticket) (r : Proposal) (now : Time.Instant) :
      Goes s m (.rereading q t r now) (.closing q t r now) s
  | closed (q : Confirming) (t : Ticket) {r : Proposal} (now : Time.Instant) {s' : Store}
      (hid : r.id = q.id) (hr : s.row? q.id = some r) (he : r.refusal? q.user q.role = none)
      (hrow : s'.row? = Function.update s.row? q.id (some (r.confirmedBy q.role now))) :
      Goes s m (.closing q t r now)
        (.counting (.confirmation (.ofResult (.ok (r.confirmedBy q.role now))))
          (.proposal (.ok (r.confirmedBy q.role now)))) s'
  | dropped (q : Confirming) (t : Ticket) (h : Holding) (e : ServiceError) {s' : Store}
      (hrow : s'.row? = s.row?) :
      Goes s m (.dropping q t h e)
        (.counting (.confirmation (.ofResult (.error e))) (.proposal (.error e))) s'
  | notChecked (q : Rejecting) (e : ServiceError)
      (ha : ∀ r, s.row? q.accepted = some r → r.status ≠ .accepted) :
      Goes s m (.checking q) (.finished (.rejections (.error e))) s
  | checked (q : Rejecting) {r : Proposal} (hr : s.row? q.accepted = some r)
      (ha : r.status = .accepted) : Goes s m (.checking q) (.listingDriven q) s
  | listedDriven (q : Rejecting) :
      Goes s m (.listingDriven q) (.listingRidden q (s.rowsOf q.driver .driver)) s
  | noneListed (q : Rejecting) (driven : List Proposal) (h : competing s q driven = []) :
      Goes s m (.listingRidden q driven) (.finished (.rejections (.ok 0))) s
  | listedRidden (q : Rejecting) (driven : List Proposal) (h : competing s q driven ≠ []) :
      Goes s m (.listingRidden q driven) (.opening q (competing s q driven)) s
  | opened (q : Rejecting) (ids : List MatchId) {s' : Store} (hrow : s'.row? = s.row?) :
      Goes s m (.opening q ids) (.rejecting q s.nextTicket (sortedIds ids) 0) s'
  | waitsToReject (q : Rejecting) (t : Ticket) (id : MatchId) (ids : List MatchId) (n : Nat)
      {s' : Store} (h : Store.perform m (.updateRow t id .rejected Status.openStates) s = .wait s')
      (halone : ¬ s.Alone t) (hrow : s'.row? = s.row?) :
      Goes s m (.rejecting q t (id :: ids) n) (.rejecting q t (id :: ids) n) s'
  | passed (q : Rejecting) (t : Ticket) (id : MatchId) (ids : List MatchId) (n : Nat)
      {s' : Store} (hclosed : ∀ r, s.row? id = some r → r.isOpen = false)
      (h : Store.perform m (.updateRow t id .rejected Status.openStates) s = .answer false s')
      (hfree : ∀ u l, s.Exists id → (id, l) ∉ s.held u) (hrow : s'.row? = s.row?) :
      Goes s m (.rejecting q t (id :: ids) n) (.rejecting q t ids n) s'
  | rejected (q : Rejecting) (t : Ticket) (id : MatchId) (ids : List MatchId) (n : Nat)
      {r : Proposal} {s' : Store} (hr : s.row? id = some r) (hopen : r.isOpen = true)
      (h : Store.perform m (.updateRow t id .rejected Status.openStates) s = .answer true s')
      (hfree : ∀ u l, s.Exists id → (id, l) ∉ s.held u)
      (hrow : s'.row? = Function.update s.row? id (some (r.rejectedAt m.now))) :
      Goes s m (.rejecting q t (id :: ids) n) (.rejecting q t ids (n + 1)) s'
  | rejectedAll (q : Rejecting) (t : Ticket) (n : Nat) :
      Goes s m (.rejecting q t [] n) (.finished (.rejections (.ok n))) s

/-- The ticket under which the next call is made: the one that is held, or a new one. -/
def actor (s : Store) (g : Stage) : Ticket := g.holding.ticket?.getD s.nextTicket

end Stage

/-! ### Single calls -/

/-- The next call of a program has been made.  If nobody else is there it has been answered, and so
the program runs on from there. -/
structure Called (m : Moment) (t : Ticket) (p : CallerProgram) (l : Ledger) (p' : CallerProgram)
    (l' : Ledger) : Prop where
  step : p.step (Ledger.perform m) l = (p', l')
  run : l.store.Alone t → p.run (Ledger.perform m) l = p'.run (Ledger.perform m) l'

section Called

variable {m : Moment} {t : Ticket} {s s' : Store} {k : Metrics}

theorem called_done (r : Outcome) (l : Ledger) : Called m t (.done r) l (.done r) l :=
  ⟨rfl, fun _ => rfl⟩

theorem called_count (o : Observation) (r : Outcome) : Called m t (thenCount o r) ⟨s, k⟩ (.done r)
    ⟨s, k.record o⟩ := ⟨rfl, fun _ => rfl⟩

theorem called_answer {c : StoreCall} {next : MatchCall.Reply (.store c) → CallerProgram}
    {r : c.Reply} (h : Store.perform m c s = .answer r s') :
    Called m t (.call (.store c) next) ⟨s, k⟩ (next r) ⟨s', k⟩ where
  step := by
    rw [Program.step, Ledger.perform, h]
    rfl
  run _ := by
    rw [Program.run, Ledger.perform, h]
    rfl

theorem called_wait {c : StoreCall} {next : MatchCall.Reply (.store c) → CallerProgram}
    (h : Store.perform m c s = .wait s') (halone : ¬ s.Alone t) :
    Called m t (.call (.store c) next) ⟨s, k⟩ (.call (.store c) next) ⟨s', k⟩ where
  step := by
    rw [Program.step, Ledger.perform, h]
    rfl
  run ha := absurd ha halone

end Called

/-- A confirmation breaks no rule if it is by the right actor, of an open proposal, and new. -/
theorem Proposal.refusal?_eq_none {r : Proposal} {user : ActorId} {role : Role} :
    r.refusal? user role = none ↔
      r.party role = user ∧ r.isOpen = true ∧ r.hasConfirmed role = false := by
  unfold Proposal.refusal? Proposal.isOpen
  by_cases hparty : r.party role = user <;> by_cases hterm : r.status.isTerminal = true <;>
    by_cases hconf : r.hasConfirmed role = true <;> simp [hparty, hterm, hconf]

namespace Stage

variable {s : Store} {m : Moment} {o : Operation} {g : Stage}

/-- A single call: what can come of it, and what the caller holds then. -/
structure Step (s : Store) (k : Metrics) (m : Moment) (o : Operation) (g g' : Stage) (s' : Store)
    (k' : Metrics) : Prop where
  called : Called m (g.actor s) g.program ⟨s, k⟩ g'.program ⟨s', k'⟩
  goes : Goes s m g g' s'
  of : Of o g'
  advance : Advance (g.actor s) s s'
  holds : g'.holding.Holds s'
  ticket : ∀ u, g'.holding.ticket? = some u → u = g.actor s
  idle : g'.holding.ticket? = none → s'.Idle (g.actor s)

namespace Step

variable {s' : Store} {k k' : Metrics} {g' : Stage} {t : Ticket}

/-- A call by a caller who holds nothing, in which the table stays as it is. -/
theorem reading (ok : StoreOK s) (hp : s.Present) (hg : g.holding = .nothing)
    (hg' : g'.holding = .nothing)
    (called : Called m s.nextTicket g.program ⟨s, k⟩ g'.program ⟨s, k'⟩) (goes : Goes s m g g' s)
    (of : Of o g') : Step s k m o g g' s k' := by
  have ha : g.actor s = s.nextTicket := by
    rw [actor, hg]
    rfl
  constructor
  · rw [ha]
    exact called
  · exact goes
  · exact of
  · exact Advance.refl ok hp _
  · rw [hg']
    trivial
  · intro u hu
    rw [hg'] at hu
    cases hu
  · intro _
    rw [ha]
    exact idle_nextTicket ok.locks

/-- A call by a caller who holds a ticket afterwards. -/
theorem keeping (ha : g.actor s = t) (ht : g'.holding.ticket? = some t)
    (called : Called m t g.program ⟨s, k⟩ g'.program ⟨s', k'⟩) (goes : Goes s m g g' s')
    (of : Of o g') (adv : Advance t s s') (holds : g'.holding.Holds s') :
    Step s k m o g g' s' k' := by
  subst ha
  refine ⟨called, goes, of, adv, holds, ?_, ?_⟩
  · intro u hu
    rw [ht] at hu
    exact (Option.some.inj hu).symm
  · intro hu
    rw [ht] at hu
    cases hu

/-- A call with which a caller ends what he has under way. -/
theorem ending (ha : g.actor s = t) (hg' : g'.holding = .nothing)
    (called : Called m t g.program ⟨s, k⟩ g'.program ⟨s', k'⟩) (goes : Goes s m g g' s')
    (of : Of o g') (adv : Advance t s s') (ended : s'.Idle t) : Step s k m o g g' s' k' := by
  subst ha
  refine ⟨called, goes, of, adv, ?_, ?_, fun _ => ended⟩
  · rw [hg']
    trivial
  · intro u hu
    rw [hg'] at hu
    cases hu

end Step

theorem actor_of_holding {t : Ticket} (h : g.holding.ticket? = some t) : g.actor s = t := by
  rw [actor, h]
  rfl

/-! ### The stages at which the answer decides how it goes on -/

/-- A proposal that is withdrawn is searched for again if there was a conflict, and then only. -/
theorem exists_step_withdrawing (ok : StoreOK s) (hp : s.Present) {d : Draft}
    (hd : d.refusal? = none) {t : Ticket} {h : Holding} (ht : h.ticket? = some t)
    (e : ServiceError) (k : Metrics) :
    ∃ g' s' k', Step s k m (.propose d) (.withdrawing d t h e) g' s' k' := by
  obtain ⟨s', hroll, adv, hended, hrow⟩ := rollback_cases ok hp t m
  have ha : (withdrawing d t h e).actor s = t := actor_of_holding ht
  by_cases hc : ∃ reason, e = .store (.conflict reason)
  · obtain ⟨reason, rfl⟩ := hc
    exact ⟨searchingAgain d reason, s', k, .ending ha rfl (called_answer hroll)
      (.conflicting d t h reason hrow) (.searchingAgain hd _) adv hended⟩
  · have hentered : Proposing.entered d (.error e) = .done (.proposal (.error e)) := by
      cases e with
      | store e =>
          cases e with
          | conflict reason => exact absurd ⟨reason, rfl⟩ hc
          | _ => rfl
      | _ => rfl
    have hcalled : Called m t (withdrawing d t h e).program ⟨s, k⟩
        (Proposing.entered d (.error e)) ⟨s', k⟩ := called_answer hroll
    rw [hentered] at hcalled
    exact ⟨finished (.proposal (.error e)), s', k, .ending ha rfl hcalled
      (.withdrawn d t h (not_exists.mp hc) hrow)
      (.finished _ _) adv hended⟩

/-- Whoever asks for a row waits, or learns that it is not there, or reads it; and then he is
refused or goes on. -/
theorem exists_step_asking (ok : StoreOK s) (hp : s.Present) {q : Confirming} {t : Ticket}
    (hh : (Holding.begun t (some q.id)).Holds s) (k : Metrics) :
    ∃ g' s' k', Step s k m (.confirm q.id q.user q.role) (.asking q t) g' s' k' := by
  rcases ask_cases ok hp hh m with ⟨hoff, h⟩ |
    ⟨s', adv, hrow, ⟨h, halone, hholds⟩ | ⟨hr, h, hholds⟩ | ⟨r, hr, h, hholds⟩⟩
  · exact ⟨dropping q t (.begun t (some q.id)) _, s, k, .keeping rfl rfl (called_answer h)
      (.unreachable _ hoff rfl) (.dropping q rfl _) (.refl ok hp _) hh⟩
  · exact ⟨asking q t, s', k, .keeping rfl rfl (called_wait h halone) (.waits q t h halone hrow)
      (.asking q t) adv hholds⟩
  · exact ⟨dropping q t (.begun t none) _, s', k, .keeping rfl rfl (called_answer h)
      (.missing q t hr h hrow) (.dropping q rfl _) adv hholds⟩
  · have hid : r.id = q.id := ok.indexed.id_eq hr
    have hask : Called m t (asking q t).program ⟨s, k⟩ (q.judge t r) ⟨s', k⟩ := called_answer h
    unfold Confirming.judge at hask
    cases he : r.refusal? q.user q.role with
    | some e =>
        rw [he] at hask
        exact ⟨dropping q t (.reading t r) (.refused e), s', k, .keeping rfl rfl hask
          (.refused q t hr he h hrow) (.dropping q rfl _) adv hholds⟩
    | none =>
        rw [he] at hask
        exact ⟨updating q t r, s', k, .keeping rfl rfl hask (.read q t hr he h hrow)
          (.updating hid he t) adv hholds⟩

/-- Competitors are looked for only if the proposal has been accepted. -/
theorem exists_step_checking (ok : StoreOK s) (hp : s.Present) (q : Rejecting) (k : Metrics) :
    ∃ g' s' k', Step s k m (.rejectCompeting q.accepted q.driver q.passenger) (.checking q)
      g' s' k' := by
  rcases get_cases s m q.accepted with ⟨hoff, h⟩ | ⟨hr, h⟩ | ⟨r, hr, h⟩
  · exact ⟨finished _, s, k, .reading ok hp rfl rfl (called_answer h) (.unreachable _ hoff rfl)
      (.finished _ _)⟩
  · refine ⟨finished _, s, k, .reading ok hp rfl rfl (called_answer h) (.notChecked q _ ?_)
      (.finished _ _)⟩
    intro r hr'
    rw [hr] at hr'
    cases hr'
  · have hcheck : Called m s.nextTicket (checking q).program ⟨s, k⟩
        (if r.status ≠ .accepted then
            .done (.rejections (.error (.refused (.notAccepted q.accepted r.status))))
          else q.listDriven) ⟨s, k⟩ := called_answer h
    by_cases ha : r.status = .accepted
    · rw [if_neg (not_not.mpr ha)] at hcheck
      exact ⟨listingDriven q, s, k, .reading ok hp rfl rfl hcheck (.checked q hr ha)
        (.listingDriven q)⟩
    · rw [if_pos ha] at hcheck
      refine ⟨finished _, s, k, .reading ok hp rfl rfl hcheck (.notChecked q _ ?_) (.finished _ _)⟩
      intro r' hr'
      rw [hr] at hr'
      obtain rfl := Option.some.inj hr'
      exact ha

/-- A batch update is begun only if there are competitors. -/
theorem exists_step_listingRidden (ok : StoreOK s) (hp : s.Present) (q : Rejecting)
    (driven : List Proposal) (k : Metrics) :
    ∃ g' s' k', Step s k m (.rejectCompeting q.accepted q.driver q.passenger)
      (.listingRidden q driven) g' s' k' := by
  rcases list_cases s m q.passenger .passenger with ⟨hoff, h⟩ | h
  · exact ⟨finished _, s, k, .reading ok hp rfl rfl (called_answer h) (.unreachable _ hoff rfl)
      (.finished _ _)⟩
  have hlist : Called m s.nextTicket (listingRidden q driven).program ⟨s, k⟩
      (Rejecting.rejectListed (competing s q driven)) ⟨s, k⟩ := called_answer h
  by_cases hne : competing s q driven = []
  · rw [hne] at hlist
    exact ⟨finished _, s, k, .reading ok hp rfl rfl hlist (.noneListed q driven hne)
      (.finished _ _)⟩
  · rw [Rejecting.rejectListed_of_ne_nil hne] at hlist
    exact ⟨opening q (competing s q driven), s, k, .reading ok hp rfl rfl hlist
      (.listedRidden q driven hne) (.opening q _)⟩

/-- Of a batch update, the first row that is left is waited for, or passed over, or rejected. -/
theorem exists_step_rejecting (ok : StoreOK s) (hp : s.Present) {q : Rejecting} {t : Ticket}
    {ids : List MatchId} (hh : (Holding.ticket t ids.head?).Holds s) (n : Nat) (k : Metrics) :
    ∃ g' s' k', Step s k m (.rejectCompeting q.accepted q.driver q.passenger)
      (.rejecting q t ids n) g' s' k' := by
  cases ids with
  | nil =>
      exact ⟨finished _, s, _, .ending rfl rfl (called_count _ _) (.rejectedAll q t n)
        (.finished _ _) (.refl ok hp _) hh.idle⟩
  | cons id ids =>
      obtain ⟨s', adv, ⟨h, halone, hrow, hholds⟩ |
        ⟨hholds, hfree, ⟨h, hrow, hclosed⟩ | ⟨r, hr, hopen, h, hrow⟩⟩⟩ := reject_cases ok hp hh m
      · exact ⟨rejecting q t (id :: ids) n, s', k, .keeping rfl rfl (called_wait h halone)
          (.waitsToReject q t id ids n h halone hrow) (.rejecting q t _ n) adv hholds⟩
      · exact ⟨rejecting q t ids n, s', k, .keeping rfl rfl (called_answer h)
          (.passed q t id ids n hclosed h hfree hrow) (.rejecting q t ids n) adv (hholds _)⟩
      · exact ⟨rejecting q t ids (n + 1), s', k, .keeping rfl rfl (called_answer h)
          (.rejected q t id ids n hr hopen h hfree hrow) (.rejecting q t ids _) adv (hholds _)⟩

/-! ### Every stage -/

/-- **What can come of a call is one of the things listed.** -/
theorem exists_step (ok : StoreOK s) (hp : s.Present)
    (hfresh : ∀ d t, g = .inserting d t → s.Unused m.freshId) (hof : Of o g)
    (hh : g.holding.Holds s) (k : Metrics) : ∃ g' s' k', Step s k m o g g' s' k' := by
  cases hof with
  | finished _ r =>
      exact ⟨finished r, s, k, .reading ok hp rfl rfl (called_done r _) (.finished r)
        (.finished o r)⟩
  | counting _ obs r =>
      exact ⟨finished r, s, _, .reading ok hp rfl rfl (called_count obs r) (.counted obs r)
        (.finished o r)⟩
  | @searching d hd =>
      rcases find_cases s m d.driverId d.passengerId with ⟨hoff, h⟩ | h
      · exact ⟨finished _, s, k, .reading ok hp rfl rfl (called_answer h)
          (.unreachable _ hoff rfl) (.finished _ _)⟩
      cases hfound : s.openProposal? (d.driverId, d.passengerId) with
      | none =>
          exact ⟨beginning d, s, k, .reading ok hp rfl rfl (called_answer (hfound ▸ h))
            (.notFound d hfound) (.beginning hd)⟩
      | some p =>
          exact ⟨counting _ _, s, k, .reading ok hp rfl rfl (called_answer (hfound ▸ h))
            (.found d hfound) (.counting _ _ _)⟩
  | @searchingAgain d hd reason =>
      rcases find_cases s m d.driverId d.passengerId with ⟨hoff, h⟩ | h
      · exact ⟨finished _, s, k, .reading ok hp rfl rfl (called_answer h)
          (.unreachable _ hoff rfl) (.finished _ _)⟩
      cases hfound : s.openProposal? (d.driverId, d.passengerId) with
      | none =>
          exact ⟨finished _, s, k, .reading ok hp rfl rfl (called_answer (hfound ▸ h))
            (.notFoundAgain d reason hfound) (.finished _ _)⟩
      | some p =>
          exact ⟨counting _ _, s, k, .reading ok hp rfl rfl (called_answer (hfound ▸ h))
            (.foundAgain d reason hfound) (.counting _ _ _)⟩
  | @beginning d hd =>
      rcases begin_cases ok hp m with ⟨hoff, h⟩ | ⟨s', h, adv, hrow, hholds⟩
      · exact ⟨finished _, s, k, .reading ok hp rfl rfl (called_answer h)
          (.unreachable _ hoff rfl) (.finished _ _)⟩
      · exact ⟨inserting d s.nextTicket, s', k, .keeping rfl rfl (called_answer h)
          (.begun d hrow) (.inserting hd _) adv (hholds none)⟩
  | @inserting d hd t =>
      rcases insert_cases ok hp (d := d) hh (hfresh d t rfl) with
        ⟨e, h, he⟩ | ⟨s', h, adv, hrow, hholds⟩
      · exact ⟨withdrawing d t (.begun t none) (.store e), s, k, .keeping rfl rfl (called_answer h)
          (.notInserted d t he) (.withdrawing hd rfl _) (.refl ok hp _) hh⟩
      · exact ⟨committing d t m.freshId m.now, s', k, .keeping rfl rfl (called_answer h)
          (.inserted d t hrow) (.committing hd _ _ _) adv hholds⟩
  | @committing d hd t id now =>
      obtain ⟨s', adv, ⟨e, h, he, hrow, hholds⟩ | ⟨h, hended, hnew, hrow⟩⟩ :=
        enter_cases ok hp hh m
      · exact ⟨withdrawing d t (.ticket t none) (.store e), s', k, .keeping rfl rfl
          (called_answer h) (.notEntered d t id now he hrow) (.withdrawing hd rfl _) adv hholds⟩
      · exact ⟨counting _ _, s', k, .ending rfl rfl (called_answer h)
          (.entered d t id now hnew hrow) (.counting _ _ _) adv hended⟩
  | withdrawing hd ht e => exact exists_step_withdrawing ok hp hd ht e k
  | starting q =>
      rcases begin_cases ok hp m with ⟨hoff, h⟩ | ⟨s', h, adv, hrow, hholds⟩
      · exact ⟨counting _ _, s, k, .reading ok hp rfl rfl (called_answer h)
          (.unreachable _ hoff rfl) (.counting _ _ _)⟩
      · exact ⟨asking q s.nextTicket, s', k, .keeping rfl rfl (called_answer h)
          (.started q hrow) (.asking q _) adv (hholds (some q.id))⟩
  | asking q t => exact exists_step_asking ok hp hh k
  | @updating q r hid he t =>
      rcases update_cases ok hp hh (Proposal.refusal?_eq_none.1 he).2.1 q.role m with
        ⟨hoff, h⟩ | ⟨s', h, adv, hrow, hholds⟩
      · rw [hid] at h
        exact ⟨dropping q t (.reading t r) _, s, k, .keeping rfl rfl (called_answer h)
          (.unreachable _ hoff rfl) (.dropping q rfl _) (.refl ok hp _) hh⟩
      · rw [hid] at h
        exact ⟨rereading q t r m.now, s', k, .keeping rfl rfl (called_answer h)
          (.updated q t r hrow) (.rereading hid he t _) adv hholds⟩
  | @rereading q r hid he t now =>
      rcases reread_cases hh m with ⟨hoff, h⟩ | h
      · rw [hid] at h
        exact ⟨dropping q t (.writing t r q.role now) _, s, k, .keeping rfl rfl (called_answer h)
          (.unreachable _ hoff rfl) (.dropping q rfl _) (.refl ok hp _) hh⟩
      · rw [hid] at h
        exact ⟨closing q t r now, s, k, .keeping rfl rfl (called_answer h) (.reread q t r now)
          (.closing hid he t now) (.refl ok hp _) hh⟩
  | @closing q r hid he t now =>
      have hr : s.row? q.id = some r := hid ▸ hh.2.2.2.2
      obtain ⟨s', adv, ⟨hoff, h, hrow, hholds⟩ | ⟨h, hended, hrow⟩⟩ := close_cases ok hp hh m
      · exact ⟨dropping q t (.ticket t none) _, s', k, .keeping rfl rfl (called_answer h)
          (.unreachable _ hoff hrow) (.dropping q rfl _) adv hholds⟩
      · rw [hid] at hrow
        exact ⟨counting _ _, s', k, .ending rfl rfl (called_answer h)
          (.closed q t now hid hr he hrow) (.counting _ _ _) adv hended⟩
  | @dropping q t h ht e =>
      obtain ⟨s', hroll, adv, hended, hrow⟩ := rollback_cases ok hp t m
      exact ⟨counting _ _, s', k, .ending (actor_of_holding ht) rfl (called_answer hroll)
        (.dropped q t h e hrow) (.counting _ _ _) adv hended⟩
  | checking q => exact exists_step_checking ok hp q k
  | listingDriven q =>
      rcases list_cases s m q.driver .driver with ⟨hoff, h⟩ | h
      · exact ⟨finished _, s, k, .reading ok hp rfl rfl (called_answer h)
          (.unreachable _ hoff rfl) (.finished _ _)⟩
      · exact ⟨listingRidden q _, s, k, .reading ok hp rfl rfl (called_answer h)
          (.listedDriven q) (.listingRidden q _)⟩
  | listingRidden q driven => exact exists_step_listingRidden ok hp q driven k
  | opening q ids =>
      rcases openBatch_cases ok hp m with ⟨hoff, h⟩ | ⟨s', h, adv, hrow, hholds⟩
      · exact ⟨finished _, s, k, .reading ok hp rfl rfl (called_answer h)
          (.unreachable _ hoff rfl) (.finished _ _)⟩
      · exact ⟨rejecting q s.nextTicket (sortedIds ids) 0, s', k, .keeping rfl rfl
          (called_answer h) (.opened q ids hrow) (.rejecting q _ _ _) adv (hholds _)⟩
  | rejecting q t ids n => exact exists_step_rejecting ok hp hh n k

end Stage
end Dispatch
