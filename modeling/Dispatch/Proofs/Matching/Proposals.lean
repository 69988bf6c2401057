/-
Proposals for one pair, all at once.

Looking a pair up and entering a row are different calls, and between them somebody else may enter
a row for the same pair.  Whoever comes too late learns it when he looks the pair up, or when he
stages his row, or not before he commits.  Whenever he learns it, the pair has an open proposal by
then (`Stage.Agrees`); and where nobody confirms or rejects, rows stay as they were entered, so that
the second search finds it.

So all who propose for a pair are told one and the same proposal, and none of them hears of a
conflict.  Nobody ever waits: after seven calls at the latest everybody has been told.
-/
import Dispatch.Proofs.Matching.Orderly

namespace Dispatch

open Store

/-- An event of a run in which all that anybody asks for is a proposal. -/
def Event.Proposes : Event → Prop
  | .arrive (.propose _) | .go _ _ => True
  | .arrive _ | .outage _ => False

/-- Whether it is the turn of the given caller. -/
def Event.isTurnOf (k : Nat) : Event → Bool
  | .go j _ => j == k
  | .arrive _ | .outage _ => false

/-- A draft that breaks a rule is a bad request. -/
theorem Draft.kind_of_refusal? (d : Draft) {e : Refusal} (h : d.refusal? = some e) :
    e.kind = .badRequest := by
  unfold Draft.refusal? at h
  split at h
  · cases h; rfl
  · split at h
    · cases h; rfl
    · split at h
      · cases h
      · cases h; rfl

/-! ### Rows that stay -/

/-- All rows are still there as they were. -/
def Store.Keeps (s s' : Store) : Prop := ∀ id r, s.row? id = some r → s'.row? id = some r

/-- The open proposal of a pair is still found if all rows are kept. -/
theorem Store.Keeps.openProposal? {s s' : Store} (h : s.Keeps s') (ix : Indexed s)
    (ix' : Indexed s') {p : Pair} {r : Proposal} (hr : s.openProposal? p = some r) :
    s'.openProposal? p = some r := by
  obtain ⟨hrow, hopen, hpair⟩ := ix.openProposal?_eq_some_iff.1 hr
  exact ix'.openProposal?_eq_some_iff.2 ⟨h _ _ hrow, hopen, hpair⟩

/-- A new row takes the place of none. -/
theorem Store.Keeps.enter {s s' : Store} {id : MatchId} {r : Proposal} (hnew : s.row? id = none)
    (hrow : s'.row? = Function.update s.row? id (some r)) : s.Keeps s' := by
  intro id' r' hr'
  rw [hrow, Function.update_apply]
  split
  · rename_i he
    rw [he, hnew] at hr'
    cases hr'
  · exact hr'

/-- Rows that are the same are kept. -/
theorem Store.Keeps.of_eq {s s' : Store} (h : s'.row? = s.row?) : s.Keeps s' := by
  intro id r hr
  rw [h]
  exact hr

namespace Stage

/-- What whoever proposes has learned: the proposal that he is told is the open one of the pair, and
if he has been too late there is one. -/
def Agrees (s : Store) (d : Draft) : Stage → Prop
  | .counting _ out | .finished out =>
    ∃ r, s.openProposal? d.pair = some r ∧ out = .proposal (.ok r)
  | .withdrawing _ _ _ e => s.openProposal? d.pair ≠ none ∧ ∃ reason, e = .store (.conflict reason)
  | .searchingAgain _ _ => s.openProposal? d.pair ≠ none
  | _ => True

/-- How many calls a proposal still takes, at most. -/
def callsLeft : Stage → Nat
  | .searching _ => 7
  | .beginning _ => 6
  | .inserting _ _ => 5
  | .committing _ _ _ _ => 4
  | .withdrawing _ _ _ _ => 3
  | .searchingAgain _ _ => 2
  | .counting _ _ => 1
  | _ => 0

theorem callsLeft_le (g : Stage) : g.callsLeft ≤ 7 := by
  cases g <;> simp [callsLeft]

variable {s s' : Store} {m : Moment} {d : Draft} {g g' : Stage}

/-- What has been learned stays true as long as the open proposal of the pair stays. -/
theorem Agrees.mono (h : g.Agrees s d)
    (hkept : ∀ r, s.openProposal? d.pair = some r → s'.openProposal? d.pair = some r) :
    g.Agrees s' d := by
  have hsome : s.openProposal? d.pair ≠ none → s'.openProposal? d.pair ≠ none := by
    intro h
    obtain ⟨r, hr⟩ := Option.ne_none_iff_exists'.mp h
    rw [hkept r hr]
    exact Option.some_ne_none r
  cases g with
  | counting o out => exact h.imp fun r hr => ⟨hkept r hr.1, hr.2⟩
  | finished out => exact h.imp fun r hr => ⟨hkept r hr.1, hr.2⟩
  | withdrawing d' t hold e => exact ⟨hsome h.1, h.2⟩
  | searchingAgain d' reason => exact hsome h
  | _ => trivial

/-- What a call of somebody who proposes does to the rows: nothing, or a row for his pair is new. -/
inductive Enters (d : Draft) (s s' : Store) : Prop where
  | nothing (hrow : s'.row? = s.row?)
  | row (id : MatchId) (now : Time.Instant) (hnew : s.row? id = none)
      (hrow : s'.row? = Function.update s.row? id (some (d.toProposal id now)))

theorem Enters.keeps (h : Enters d s s') : s.Keeps s' := by
  cases h with
  | nothing hrow => exact .of_eq hrow
  | row id now hnew hrow => exact .enter hnew hrow

/-- A call by somebody who proposes brings him nearer to the end. -/
theorem Goes.callsLeft_lt (h : Goes s m g g' s') (hof : Of (.propose d) g)
    (hon : s.offline = false) : g'.callsLeft < g.callsLeft ∨ g'.callsLeft = 0 := by
  cases h with
  | unreachable g hoff hrow =>
      rw [hon] at hoff
      cases hoff
  | _ => first | (cases hof; done) | simp [callsLeft]

/-- **A call by somebody who proposes** enters at most a row for his pair, and what he has learned is
true. -/
theorem Goes.agrees (h : Goes s m g g' s') (hof : Of (.propose d) g) (hon : s.offline = false)
    (ix : Indexed s) (ix' : Indexed s') : Enters d s s' ∧ (g.Agrees s d → g'.Agrees s' d) := by
  have hsame : s'.row? = s.row? → ∀ r, s.openProposal? d.pair = some r →
      s'.openProposal? d.pair = some r := fun hrow r =>
    (Keeps.of_eq hrow).openProposal? ix ix'
  have hlate : ∀ {e}, NotEntered s d e → s'.row? = s.row? →
      s'.openProposal? d.pair ≠ none ∧ ∃ reason, ServiceError.store e = .store (.conflict reason) := by
    rintro e (⟨hoff, -⟩ | ⟨rfl, htaken⟩) hrow
    · rw [hon] at hoff
      cases hoff
    · obtain ⟨r, hr⟩ := Option.ne_none_iff_exists'.mp htaken
      rw [hsame hrow r hr]
      exact ⟨Option.some_ne_none r, _, rfl⟩
  cases h with
  | unreachable g hoff hrow =>
      rw [hon] at hoff
      cases hoff
  | finished r => exact ⟨.nothing rfl, id⟩
  | counted o r => exact ⟨.nothing rfl, id⟩
  | found d' hp =>
      cases hof
      exact ⟨.nothing rfl, fun _ => ⟨_, hp, rfl⟩⟩
  | notFound d' hp => exact ⟨.nothing rfl, fun _ => trivial⟩
  | begun d' hrow => exact ⟨.nothing hrow, fun _ => trivial⟩
  | notInserted d' t he =>
      cases hof
      exact ⟨.nothing rfl, fun _ => hlate he rfl⟩
  | inserted d' t hrow => exact ⟨.nothing hrow, fun _ => trivial⟩
  | notEntered d' t id now he hrow =>
      cases hof
      exact ⟨.nothing hrow, fun _ => hlate he hrow⟩
  | entered d' t id now hnew hrow =>
      cases hof
      have hr : s'.row? id = some (d.toProposal id now) := by
        rw [hrow, Function.update_self]
      exact ⟨.row id now hnew hrow, fun _ =>
        ⟨_, ix'.openProposal?_eq_some_iff.2 ⟨hr, rfl, rfl⟩, rfl⟩⟩
  | conflicting d' t hold reason hrow =>
      exact ⟨.nothing hrow, fun hg => (hg.mono (hsame hrow)).1⟩
  | withdrawn d' t hold he hrow =>
      refine ⟨.nothing hrow, fun hg => ?_⟩
      obtain ⟨reason, hreason⟩ := hg.2
      exact absurd hreason (he reason)
  | foundAgain d' reason hp =>
      cases hof
      exact ⟨.nothing rfl, fun _ => ⟨_, hp, rfl⟩⟩
  | notFoundAgain d' reason hp =>
      cases hof
      exact ⟨.nothing rfl, fun hg => absurd hp hg⟩
  | _ => cases hof

end Stage

namespace Traffic

/-- What each caller has learned: he proposes, and if his draft breaks a rule he is refused. -/
def Informed (s : Store) (o : Operation) (g : Stage) : Prop :=
  ∃ d, o = .propose d ∧ match d.refusal? with
    | some e => g = .finished (.proposal (.error (.refused e)))
    | none => g.Agrees s d

/-- A row for the pair that has been added. -/
def Added (s s' : Store) (p : Pair) (r : Proposal) : Prop :=
  s.row? r.id = none ∧ s'.row? r.id = some r ∧ r.pair = p

/-- A state of a run in which everybody proposes, which began with the table `s`. -/
structure Race (s : Store) (x : Traffic) (gs : List Stage) : Prop extends Orderly x gs where
  online : x.store.offline = false
  kept : s.Keeps x.store
  /-- A row is added only for a pair that had no open proposal, and it is open. -/
  added : ∀ {p r}, Added s x.store p r → s.openProposal? p = none ∧ r.isOpen = true
  informed : ∀ {k : Nat} {c : Caller} {g : Stage}, x.callers[k]? = some c → gs[k]? = some g →
    Informed x.store c.operation g

theorem informed_first (s : Store) (d : Draft) :
    Informed s (.propose d) (Stage.first (.propose d)) := by
  refine ⟨d, rfl, ?_⟩
  rw [Stage.first_propose]
  cases d.refusal? with
  | some e => rfl
  | none => trivial

theorem Informed.mono {s s' : Store} {o : Operation} {g : Stage} (h : Informed s o g)
    (hkept : ∀ p r, s.openProposal? p = some r → s'.openProposal? p = some r) :
    Informed s' o g := by
  obtain ⟨d, hd, h⟩ := h
  refine ⟨d, hd, ?_⟩
  cases hr : d.refusal? with
  | none =>
      rw [hr] at h
      exact h.mono (hkept d.pair)
  | some e =>
      rw [hr] at h
      exact h

namespace Race

variable {s : Store} {x : Traffic} {gs : List Stage}

theorem opening (hq : s.Quiet) (hon : s.offline = false) : Race s (.opening s) [] where
  toOrderly := .opening hq
  online := hon
  kept _ _ h := h
  added h := by
    have habsent := h.1
    rw [show s.row? _ = some _ from h.2.1] at habsent
    cases habsent
  informed h := by simp [Traffic.opening] at h

theorem arrive (hx : Race s x gs) (d : Draft) :
    Race s (x.after (.arrive (.propose d))) (gs ++ [Stage.first (.propose d)]) where
  toOrderly := hx.toOrderly.arrive _
  online := hx.online
  kept := hx.kept
  added := hx.added
  informed := by
    intro k c g hc hg
    rcases hx.arrive_cases hc hg with ⟨hc, hg⟩ | ⟨rfl, rfl⟩
    · exact hx.informed hc hg
    · exact informed_first _ d

/-- A new row is for a pair that had no open proposal in the beginning. -/
theorem added_of_enters (hx : Race s x gs) (ix : Indexed s) {s' : Store} (ix' : Indexed s')
    {d : Draft} (h : Stage.Enters d x.store s') {p : Pair} {r : Proposal} (hr : Added s s' p r) :
    s.openProposal? p = none ∧ r.isOpen = true := by
  cases h with
  | nothing hrow => exact hx.added ⟨hr.1, hrow ▸ hr.2.1, hr.2.2⟩
  | row id now hnew hrow =>
      obtain ⟨habsent, hfound, hpair⟩ := hr
      by_cases hid : r.id = id
      · have hfound' := hfound
        rw [hrow, hid, Function.update_self] at hfound'
        obtain rfl := Option.some.inj hfound'
        refine ⟨Option.eq_none_iff_forall_ne_some.mpr fun r₀ hr₀ => ?_, rfl⟩
        -- an open proposal of the pair would still be there, and be the new row
        obtain ⟨hrow₀, hopen₀, hpair₀⟩ := ix.openProposal?_eq_some_iff.1 hr₀
        have hkept := Keeps.enter hnew hrow _ _ (hx.kept _ _ hrow₀)
        have hsame := ix'.unique hkept hfound hopen₀ rfl (hpair₀.trans hpair.symm)
        rw [hsame, habsent] at hrow₀
        cases hrow₀
      · rw [hrow, Function.update_of_ne hid] at hfound
        exact hx.added ⟨habsent, hfound, hpair⟩

theorem go (hx : Race s x gs) (ix : Indexed s) {k : Nat} {m : Moment} {c : Caller}
    {g : Stage} (hfresh : x.store.Unused m.freshId) (hc : x.callers[k]? = some c)
    (hg : gs[k]? = some g) :
    ∃ g', Race s (x.after (.go k m)) (gs.set k g') ∧
      (g'.callsLeft < g.callsLeft ∨ g'.callsLeft = 0) := by
  obtain ⟨g', s', metrics', step, hafter, h'⟩ := hx.toOrderly.go (fun _ _ _ => hfresh) hc hg
  have ho := (hx.stage hc hg).2.1
  obtain ⟨d, hd, hlearned⟩ := hx.informed hc hg
  rw [hd] at ho
  obtain ⟨henters, hagrees⟩ := step.goes.agrees ho hx.online hx.ok.indexed step.advance.ok.indexed
  have hkeeps : x.store.Keeps s' := henters.keeps
  refine ⟨g', ?_, step.goes.callsLeft_lt ho hx.online⟩
  rw [hafter] at h' ⊢
  exact {
    toOrderly := h'
    online := step.advance.offline.trans hx.online
    kept := fun id r hr => hkeeps id r (hx.kept id r hr)
    added := hx.added_of_enters ix step.advance.ok.indexed henters
    informed := by
      intro j c' g'' hc' hg''
      rcases getElem?_set_cases hc' with ⟨rfl, rfl⟩ | ⟨hj, hc'⟩
      · obtain ⟨-, rfl⟩ | ⟨hj, -⟩ := getElem?_set_cases hg''
        · refine ⟨d, hd, ?_⟩
          cases hr : d.refusal? with
          | none =>
              rw [hr] at hlearned
              exact hagrees hlearned
          | some e =>
              rw [hr] at hlearned
              subst hlearned
              cases step.goes with
              | finished _ => rfl
              | unreachable _ _ _ => rfl
        · exact absurd rfl hj
      · obtain ⟨hj', -⟩ | ⟨-, hg''⟩ := getElem?_set_cases hg''
        · exact absurd hj' hj
        · exact (hx.informed hc' hg'').mono fun p r =>
            hkeeps.openProposal? hx.ok.indexed step.advance.ok.indexed }

/-- Every event goes on with the race, and who makes a call comes nearer to his end. -/
theorem after (hx : Race s x gs) (ix : Indexed s) {e : Event} (hadm : x.Admits e)
    (he : e.Proposes) :
    ∃ gs', Race s (x.after e) gs' ∧ ∀ {k : Nat} {g : Stage}, gs[k]? = some g →
      ∃ g', gs'[k]? = some g' ∧ g'.callsLeft ≤ g.callsLeft - if e.isTurnOf k then 1 else 0 := by
  cases e with
  | outage offline => exact he.elim
  | arrive o =>
      cases o with
      | propose d =>
          refine ⟨_, hx.arrive d, fun hg => ⟨_, ?_, Nat.le_refl _⟩⟩
          rw [List.getElem?_append_left (List.getElem?_eq_some_iff.mp hg).1]
          exact hg
      | _ => exact he.elim
  | go j m =>
      cases hc : x.callers[j]? with
      | none =>
          rw [after_go_of_none hc]
          refine ⟨gs, hx, fun {k g} hg => ⟨g, hg, ?_⟩⟩
          obtain ⟨c, hc'⟩ := hx.exists_caller hg
          have hjk : j ≠ k := by
            rintro rfl
            rw [hc] at hc'
            cases hc'
          rw [Event.isTurnOf, if_neg (by simpa using hjk)]
          exact Nat.le_refl _
      | some c =>
          obtain ⟨g, hg⟩ := hx.exists_stage hc
          obtain ⟨g', hx', hless⟩ := hx.go ix hadm hc hg
          refine ⟨_, hx', fun {k h} hh => ?_⟩
          by_cases hjk : j = k
          · subst hjk
            obtain rfl := Option.some.inj (hg.symm.trans hh)
            refine ⟨g', List.getElem?_set_self (List.getElem?_eq_some_iff.mp hg).1, ?_⟩
            rw [Event.isTurnOf, if_pos (by simp)]
            omega
          · refine ⟨h, (List.getElem?_set_ne hjk).trans hh, ?_⟩
            rw [Event.isTurnOf, if_neg (by simpa using hjk)]
            exact Nat.le_refl _

/-- **A run goes on with the race**, and each caller comes nearer to his end by every call. -/
theorem run (hx : Race s x gs) (ix : Indexed s) {events : List Event}
    (hadm : Run.Along Traffic.after Admits x events) (hev : ∀ e ∈ events, e.Proposes) :
    ∃ gs', Race s (events.foldl Traffic.after x) gs' ∧ ∀ {k : Nat} {g : Stage}, gs[k]? = some g →
      ∃ g', gs'[k]? = some g' ∧ g'.callsLeft ≤ g.callsLeft - events.countP (Event.isTurnOf k) := by
  induction events generalizing x gs with
  | nil => exact ⟨gs, hx, fun hg => ⟨_, hg, Nat.le_refl _⟩⟩
  | cons e rest ih =>
      obtain ⟨gs₁, hx₁, hless₁⟩ := hx.after ix hadm.1 (hev e (by simp))
      obtain ⟨gs₂, hx₂, hless₂⟩ := ih hx₁ hadm.2 fun e' he' => hev e' (by simp [he'])
      refine ⟨gs₂, hx₂, fun {k g} hg => ?_⟩
      obtain ⟨g₁, hg₁, hle₁⟩ := hless₁ hg
      obtain ⟨g₂, hg₂, hle₂⟩ := hless₂ hg₁
      refine ⟨g₂, hg₂, ?_⟩
      rw [List.countP_cons]
      omega

end Race

/-! ### What everybody is told -/

/-- Somebody has proposed for the pair, with a draft that breaks no rule, and has been told this. -/
def Told (x : Traffic) (p : Pair) (out : Outcome) : Prop :=
  ∃ k c d, x.callers[k]? = some c ∧ c.operation = .propose d ∧ d.refusal? = none ∧ d.pair = p ∧
    x.outcome? k = some out

/-- What is said of a run in which everybody proposes, from the table `s` to the state `x`. -/
structure ProposedOnce (s : Store) (events : List Event) (x : Traffic) : Prop where
  /-- Whoever proposes for a pair is told its open proposal, as it stands in the table. -/
  told : ∀ p out, x.Told p out →
    ∃ r, out = .proposal (.ok r) ∧ x.store.openProposal? p = some r ∧ x.store.row? r.id = some r
  /-- All who propose for a pair are told the same. -/
  same : ∀ p out out', x.Told p out → x.Told p out' → out = out'
  /-- A proposal that was open already is what they are told, and no row is added. -/
  existing : ∀ p r, s.openProposal? p = some r →
    (∀ out, x.Told p out → out = .proposal (.ok r)) ∧ ∀ r', ¬ Added s x.store p r'
  /-- If none was open, one row is added for all of them, and that is what they are told. -/
  added : ∀ p, s.openProposal? p = none →
    (∀ r r', Added s x.store p r → Added s x.store p r' → r = r') ∧
      ∀ out, x.Told p out → ∃ r, Added s x.store p r ∧ out = .proposal (.ok r)
  /-- Rows that were there are left as they were. -/
  kept : s.Keeps x.store
  /-- Nobody hears of a conflict. -/
  no_conflict : ∀ k e, x.outcome? k = some (.proposal (.error e)) → e.kind ≠ .conflict
  /-- Whoever has made seven calls has been told something. -/
  ends : ∀ before rest, events = before ++ rest →
    ∀ k < (before.foldl after (.opening s)).callers.length,
      7 ≤ rest.countP (Event.isTurnOf k) → x.outcome? k ≠ none

namespace Race

variable {s : Store} {x : Traffic} {gs : List Stage} {p : Pair}

/-- Whoever has been told something is told the open proposal of his pair. -/
theorem told (hx : Race s x gs) {out : Outcome} (h : x.Told p out) :
    ∃ r, out = .proposal (.ok r) ∧ x.store.openProposal? p = some r ∧
      x.store.row? r.id = some r := by
  obtain ⟨k, c, d, hc, ho, hd, rfl, hout⟩ := h
  obtain ⟨g, hg⟩ := hx.exists_stage hc
  have hfin : g = .finished out := by
    rw [outcome?, hc, Option.bind_some, (hx.stage hc hg).1] at hout
    exact Stage.eq_finished hout
  obtain ⟨d', hd', hlearned⟩ := hx.informed hc hg
  obtain rfl := Operation.propose.inj (ho.symm.trans hd')
  rw [hd, hfin] at hlearned
  obtain ⟨r, hr, rfl⟩ := hlearned
  exact ⟨r, rfl, hr, (hx.ok.indexed.openProposal?_eq_some_iff.1 hr).1⟩

/-- A row that has been added is the open proposal of its pair. -/
theorem openProposal?_of_added (hx : Race s x gs) {r : Proposal} (h : Added s x.store p r) :
    x.store.openProposal? p = some r :=
  hx.ok.indexed.openProposal?_eq_some_iff.2 ⟨h.2.1, (hx.added h).2, h.2.2⟩

/-- An open proposal of a pair that had none has been added. -/
theorem added_of_openProposal? (hx : Race s x gs) (ix : Indexed s)
    (hnone : s.openProposal? p = none) {r : Proposal} (hr : x.store.openProposal? p = some r) :
    Added s x.store p r := by
  obtain ⟨hrow, hopen, hpair⟩ := hx.ok.indexed.openProposal?_eq_some_iff.1 hr
  refine ⟨?_, hrow, hpair⟩
  cases hold : s.row? r.id with
  | none => rfl
  | some r₀ =>
      -- a row that was there would have been open there already
      obtain rfl := Option.some.inj ((hx.kept _ _ hold).symm.trans hrow)
      rw [ix.openProposal?_eq_some_iff.2 ⟨hold, hopen, hpair⟩] at hnone
      cases hnone

/-- Whoever is told of an error has broken a rule. -/
theorem refusal_of_error (hx : Race s x gs) {k : Nat} {e : ServiceError}
    (hout : x.outcome? k = some (.proposal (.error e))) :
    ∃ d refusal, Draft.refusal? d = some refusal ∧ e = .refused refusal := by
  obtain ⟨c, hc, hrest⟩ := Option.bind_eq_some_iff.mp hout
  obtain ⟨g, hg⟩ := hx.exists_stage hc
  rw [(hx.stage hc hg).1] at hrest
  have hfin := Stage.eq_finished hrest
  obtain ⟨d, -, h⟩ := hx.informed hc hg
  cases hr : d.refusal? with
  | some refusal =>
      rw [hr, hfin] at h
      exact ⟨d, refusal, hr, Except.error.inj (Outcome.proposal.inj (Stage.finished.inj h))⟩
  | none =>
      rw [hr, hfin] at h
      obtain ⟨r, -, h⟩ := h
      cases h

/-- Whoever has no call left has been told something. -/
theorem outcome?_of_callsLeft (hx : Race s x gs) {k : Nat} {g : Stage} (hg : gs[k]? = some g)
    (hleft : g.callsLeft = 0) : x.outcome? k ≠ none := by
  obtain ⟨c, hc⟩ := hx.exists_caller hg
  obtain ⟨hrest, hof, -⟩ := hx.stage hc hg
  obtain ⟨d, hd, -⟩ := hx.informed hc hg
  rw [hd] at hof
  obtain ⟨out, rfl⟩ : ∃ out, g = .finished out := by
    cases hof with
    | finished _ out => exact ⟨out, rfl⟩
    | _ => cases hleft
  rw [outcome?, hc, Option.bind_some, hrest]
  exact Option.some_ne_none out

end Race

/-- **Of any number of proposals for one pair only one is entered, and everybody is told of it.** -/
theorem proposed_once {s : Store} (hq : s.Quiet) (hon : s.offline = false) {events : List Event}
    (hadm : Run.Along after Admits (.opening s) events) (hev : ∀ e ∈ events, e.Proposes) :
    ProposedOnce s events (events.foldl after (.opening s)) := by
  obtain ⟨gs, hx, -⟩ := (Race.opening hq hon).run hq.ok.indexed hadm hev
  constructor
  · intro p out h
    exact hx.told h
  · intro p out out' h h'
    obtain ⟨r, rfl, hr, -⟩ := hx.told h
    obtain ⟨r', rfl, hr', -⟩ := hx.told h'
    rw [hr] at hr'
    rw [Option.some.inj hr']
  · intro p r hr
    refine ⟨fun out h => ?_, fun r' h => ?_⟩
    · obtain ⟨r', rfl, hr', -⟩ := hx.told h
      rw [hx.kept.openProposal? hq.ok.indexed hx.ok.indexed hr] at hr'
      rw [Option.some.inj hr']
    · rw [(hx.added h).1] at hr
      cases hr
  · intro p hnone
    refine ⟨fun r r' h h' => ?_, fun out h => ?_⟩
    · have hsame := hx.openProposal?_of_added h
      rw [hx.openProposal?_of_added h'] at hsame
      exact (Option.some.inj hsame).symm
    · obtain ⟨r, rfl, hr, -⟩ := hx.told h
      exact ⟨r, hx.added_of_openProposal? hq.ok.indexed hnone hr, rfl⟩
  · exact hx.kept
  · intro k e hout
    obtain ⟨d, refusal, hd, rfl⟩ := hx.refusal_of_error hout
    rw [show (ServiceError.refused refusal).kind = refusal.kind from rfl, d.kind_of_refusal? hd]
    decide
  · rintro before rest rfl k hk hturns
    obtain ⟨hadm₁, hadm₂⟩ := Run.along_append.1 hadm
    obtain ⟨gs₁, hx₁, -⟩ := (Race.opening hq hon).run hq.ok.indexed hadm₁ fun e he =>
      hev e (List.mem_append_left _ he)
    obtain ⟨gs₂, hx₂, hless⟩ := hx₁.run hq.ok.indexed hadm₂ fun e he =>
      hev e (List.mem_append_right _ he)
    obtain ⟨g, hg⟩ := hx₁.exists_stage (List.getElem?_eq_getElem hk)
    obtain ⟨g', hg', hle⟩ := hless hg
    rw [List.foldl_append]
    refine hx₂.outcome?_of_callsLeft hg' ?_
    have := g.callsLeft_le
    omega

/-- Three propose for one pair, and somebody for another.  The first two find nothing and stage their
rows; one of them commits, and the other finds his pair taken when he commits.  The third finds it
taken when he stages his row. -/
def racing : List Event :=
  let m := fun n => momentOf (Uuid.fresh n)
  [.arrive (.propose someDraft), .arrive (.propose someDraft), .arrive (.propose someDraft),
   .arrive (.propose { someDraft with passengerId := "q" }),
   .go 0 (m 0), .go 1 (m 0), .go 2 (m 0), .go 3 (m 0), .go 0 (m 0), .go 1 (m 0), .go 2 (m 0),
   .go 0 (m 0), .go 1 (m 1), .go 1 (m 2), .go 2 (m 2), .go 0 (m 2), .go 2 (m 2), .go 2 (m 2),
   .go 0 (m 2), .go 0 (m 2), .go 3 (m 2), .go 3 (m 2), .go 1 (m 3), .go 0 (m 3), .go 2 (m 3),
   .go 3 (m 3), .go 3 (m 3)]

theorem proposed_once_racing :
    Store.Quiet {} ∧ ({} : Store).offline = false ∧
      Run.Along after Admits (.opening {}) racing ∧ (∀ e ∈ racing, e.Proposes) ∧
      ProposedOnce {} racing (racing.foldl after (.opening {})) := by
  have hadm : Run.Along after Admits (.opening {}) racing := by decide +kernel
  have hev : ∀ e ∈ racing, e.Proposes := by simp [racing, Event.Proposes]
  exact ⟨.empty, rfl, hadm, hev, proposed_once .empty rfl hadm hev⟩

end Traffic
end Dispatch
