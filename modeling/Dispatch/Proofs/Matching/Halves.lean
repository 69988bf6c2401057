/-
Between the two halves of a commit.

The first half of a commit enters the new rows, and the second half writes all that the
transaction has staged.  Nothing comes between them in a call of the table; here somebody stands
between them while any number of operations are under way.

The rows that he updates are locked, so nobody else writes them.  His new rows are not: they are
there for all to see, and anybody may confirm them or reject them.  The second half writes them
once more, as they have been staged, and so it takes back what has been done to them.  That this
is all that can go wrong, and that it does, is `Traffic.second_half_exact_iff` and
`Traffic.exists_undone_between_halves`.

For the others the table is as good as in order: what is wrong with it is that somebody has staged
rows as new that are there already, and nobody else looks at what he has staged.  So the invariant,
`Traffic.Interlude`, speaks of the table in which he has staged nothing.
-/
import Dispatch.Proofs.Matching.Rows
import Dispatch.Proofs.Store.Index
import Dispatch.Proofs.Store.Restaging

namespace Dispatch

open Store

/-! ### After the first half -/

/-- Of rows with identifiers of their own, each is found. -/
theorem overlay_of_nodup {view : MatchId → Option Proposal} {rs : List Proposal}
    (hnodup : (rs.map Proposal.id).Nodup) {r : Proposal} (hr : r ∈ rs) :
    overlay view rs r.id = some r := by
  induction rs generalizing view with
  | nil => cases hr
  | cons a rest ih =>
      rw [List.map_cons, List.nodup_cons] at hnodup
      rw [overlay_cons]
      rcases List.mem_cons.mp hr with rfl | hr
      · rw [overlay_of_not_mem, Function.update_self]
        exact fun r' hr' he => hnodup.1 (List.mem_map.mpr ⟨r', hr', he⟩)
      · exact ih hnodup.2 hr

/-- A table in order, and what the first half of a commit leads to. -/
structure Store.FirstHalf (s : Store) (t : Ticket) (s₁ : Store) : Prop where
  ok : StoreOK s
  present : s.Present
  begun : s.IsOpen t
  claims : s.claimStaged t = (.ok (), s₁)

namespace Store.FirstHalf

variable {s s₁ : Store} {t : Ticket}

/-- The new rows are entered, each under a pair that is free in its turn. -/
theorem claimed (h : s.FirstHalf t s₁) : s.FreeInTurn (s.transaction t).newRows ∧
    s₁ = (s.transaction t).newRows.foldl claimPair s := by
  have hclaims : claimAll [] (s.transaction t).newRows s = (.ok (), s₁) := h.claims
  rcases @claimAll_cases s [] trivial (s.transaction t).newRows with
    ⟨hall, hfree⟩ | ⟨r, -, rs, hall, -⟩
  · rw [List.foldl_nil, List.nil_append, hclaims] at hall
    exact ⟨hfree, congrArg Prod.snd hall⟩
  · rw [List.foldl_nil, hclaims] at hall
    cases hall

theorem row?_eq (h : s.FirstHalf t s₁) : s₁.row? = overlay s.row? (s.transaction t).newRows := by
  rw [h.claimed.2, row?_foldl_claimPair]

theorem sameRest (h : s.FirstHalf t s₁) : SameRest s s₁ := by
  rw [h.claimed.2]
  exact SameRest.foldl sameRest_claimPair _ s

/-- The new rows are there. -/
theorem row?_of_mem (h : s.FirstHalf t s₁) {r : Proposal} (hr : r ∈ (s.transaction t).newRows) :
    s₁.row? r.id = some r := by
  rw [h.row?_eq]
  exact overlay_of_nodup (h.ok.coherent t).new_nodup hr

/-- A row that is not new is what it was. -/
theorem row?_of_ne (h : s.FirstHalf t s₁) {id : MatchId}
    (hid : ∀ r ∈ (s.transaction t).newRows, r.id ≠ id) : s₁.row? id = s.row? id := by
  rw [h.row?_eq, overlay_of_not_mem hid]

/-- Every row is there that was there. -/
theorem exists_mono (h : s.FirstHalf t s₁) {id : MatchId} (hx : s.Exists id) : s₁.Exists id := by
  unfold Store.Exists at hx ⊢
  rw [h.row?_eq, overlay_apply, Option.isSome_or, hx, Bool.or_true]

/-- What the others have staged is what it was. -/
theorem transaction_restage (h : s.FirstHalf t s₁) {u : Ticket} (hu : u ≠ t) :
    (s₁.restage t []).transaction u = s.transaction u := by
  rw [transaction_restage_of_ne _ hu, h.sameRest.transaction]

/-- **For the others the table is in order after the first half.** -/
theorem storeOK (h : s.FirstHalf t s₁) : StoreOK (s₁.restage t []) := by
  have hnew : ∀ {u r}, r ∈ ((s₁.restage t []).transaction u).newRows →
      r ∈ (s.transaction u).newRows := by
    intro u r hr
    by_cases hu : u = t
    · subst hu
      rw [Transaction.newRows, staged_restage_nil] at hr
      cases hr
    · rw [h.transaction_restage hu] at hr
      exact hr
  refine ⟨?_, ?_, fun u => ?_, fun hr hr' => h.ok.distinct (hnew hr) (hnew hr'), fun {u r} hr => ?_⟩
  · -- nobody is in line for a new row
    have hrest := h.sameRest
    refine (h.ok.locks.write hrest.locks hrest.transactions hrest.nextTicket fun x _ => ?_).restage
    by_cases hx : s.Exists x
    · exact Or.inl hx
    · exact Or.inr fun u l hin => absurd (h.present hin) hx
  · obtain ⟨hfree, rfl⟩ := h.claimed
    have hco := h.ok.coherent t
    exact (h.ok.indexed.claims hfree hco.new_absent hco.new_nodup).congr (fun _ => rfl) fun _ => rfl
  · by_cases hu : u = t
    · subst hu
      rw [staged_restage_nil]
      exact .nil _
    · rw [h.transaction_restage hu]
      refine h.ok.stagedOK.coherent_of_row? fun c hc => h.row?_of_ne fun r hr => ?_
      exact (h.ok.stagedOK.apart hu hc (mem_newRowsOf.1 hr)).symm
  · by_cases hu : u = t
    · subst hu
      rw [staged_restage_nil] at hr
      cases hr
    · unfold Store.held
      rw [h.transaction_restage hu] at hr ⊢
      exact h.ok.locked hr

/-- Nobody is in line for a row that does not exist. -/
theorem present_restage (h : s.FirstHalf t s₁) : (s₁.restage t []).Present := by
  intro u x l hin
  rw [held_restage, locks_restage] at hin
  unfold RowLocks.InLine Store.held at hin
  rw [h.sameRest.locks, h.sameRest.transaction] at hin
  exact h.exists_mono (h.present hin)

end Store.FirstHalf

/-! ### While others go on -/

/-- Every call is made with the ticket that is held, or with none. -/
theorem Stage.Of.ticket_of_call {o : Operation} {g : Stage} (h : Stage.Of o g) {c : StoreCall}
    {next : MatchCall.Reply (.store c) → CallerProgram} (hc : g.program = .call (.store c) next)
    {u : Ticket} (hu : c.ticket? = some u) : g.holding.ticket? = some u := by
  cases h with
  | withdrawing hd ht e => cases hc; exact ht.trans hu
  | dropping q ht e => cases hc; exact ht.trans hu
  | rejecting q t ids n =>
      cases ids with
      | nil => cases hc
      | cons id rest => cases hc; exact hu
  | _ => cases hc <;> exact hu

/-- The table in which a transaction has staged other changes, and the counts. -/
def Ledger.restage (l : Ledger) (t : Ticket) (changes : List Staged) : Ledger :=
  { l with store := l.store.restage t changes }

/-- A program that does not speak for a transaction does not see what it has staged. -/
theorem Ledger.step_restage {l : Ledger} {t : Ticket} {p : CallerProgram} (m : Moment)
    (changes : List Staged) (hp : ∀ c next, p = .call (.store c) next → c.ticket? ≠ some t)
    (hnew : l.store.nextTicket ≠ t) :
    p.step (Ledger.perform m) (l.restage t changes) =
      ((p.step (Ledger.perform m) l).1, (p.step (Ledger.perform m) l).2.restage t changes) := by
  cases p with
  | done r => rfl
  | call c next =>
      cases c with
      | count o => rfl
      | store c =>
          have hperform : Store.perform m c (l.restage t changes).store =
              (Store.perform m c l.store).mapState (·.restage t changes) :=
            l.store.perform_restage (hp c next rfl) hnew
          rw [Program.step, Program.step, Ledger.perform, Ledger.perform, hperform]
          cases Store.perform m c l.store <;> rfl

namespace Traffic

variable {x : Traffic} {gs : List Stage} {s₁ : Store} {t : Ticket}

/-- The state in which a transaction has staged other changes. -/
def restage (x : Traffic) (t : Ticket) (changes : List Staged) : Traffic :=
  { x with ledger := x.ledger.restage t changes }

/-- Nobody who has called speaks for a transaction. -/
structure Unspoken (x : Traffic) (t : Ticket) : Prop where
  callers : ∀ caller ∈ x.callers, ∀ c next, caller.rest = .call (.store c) next →
    c.ticket? ≠ some t
  /-- Nor will anybody who calls. -/
  drawn : x.store.nextTicket ≠ t

/-- What happens does not depend on what somebody has staged for whom nobody speaks. -/
theorem after_restage (changes : List Staged) (h : x.Unspoken t) (e : Event) :
    (x.restage t changes).after e = (x.after e).restage t changes := by
  cases e with
  | arrive o => rfl
  | outage offline => rfl
  | go k m =>
      cases hc : x.callers[k]? with
      | none =>
          rw [after_go_of_none hc,
            after_go_of_none (show (x.restage t changes).callers[k]? = none from hc)]
      | some c =>
          have hstep := Ledger.step_restage m changes (h.callers c (List.mem_of_getElem? hc))
            h.drawn
          have hledger : (x.restage t changes).ledger = x.ledger.restage t changes := rfl
          rw [after_go hc, after_go (show (x.restage t changes).callers[k]? = some c from hc),
            hledger, hstep]
          rfl

/-- Operations are under way while somebody stands between the halves of a commit; the first half
has left the table as `s₁`. -/
structure Interlude (s₁ : Store) (t : Ticket) (x : Traffic) (gs : List Stage) : Prop where
  /-- If he had staged nothing, everything would be in order. -/
  attended : Attended (x.restage t []) gs
  /-- All others hold other tickets. -/
  others : ∀ g ∈ gs, g.holding.ticket? ≠ some t
  begun : x.store.IsOpen t
  /-- Nobody has touched what he has staged and locked. -/
  transaction : x.store.transaction t = s₁.transaction t
  later : s₁.Later x.store
  /-- The rows that he has locked are as they were. -/
  locked : ∀ {id l}, (id, l) ∈ s₁.held t → x.store.row? id = s₁.row? id

namespace Interlude

theorem unspoken (h : Interlude s₁ t x gs) : x.Unspoken t where
  callers := by
    intro caller hmem c next hc ht
    obtain ⟨k, hk⟩ := List.mem_iff_getElem?.mp hmem
    obtain ⟨g, hg⟩ := h.attended.exists_stage (x := x.restage t []) hk
    obtain ⟨hrest, hof, -⟩ := h.attended.stage hk hg
    exact h.others g (List.mem_of_getElem? hg) (hof.ticket_of_call (hrest ▸ hc) ht)
  drawn he := by
    have hlt := h.attended.ok.locks.open_lt (x.store.isOpen_restage.2 h.begun)
    exact Nat.lt_irrefl t (he ▸ hlt)

/-- An identifier that is fresh is so for those who do not see what he has staged. -/
theorem unused {id : MatchId} (h : x.store.Unused id) : (x.restage t []).store.Unused id := by
  refine ⟨h.1, fun u r hr => ?_⟩
  have hstore : (x.restage t []).store = x.store.restage t [] := rfl
  rw [hstore] at hr
  unfold Transaction.newRows at hr
  by_cases hu : u = t
  · subst hu
    rw [staged_restage_nil] at hr
    cases hr
  · rw [transaction_restage_of_ne _ hu] at hr
    exact h.2 u r hr

/-- What somebody has staged is what it was, as he has staged it and nobody sees it. -/
theorem staged_after (h : Interlude s₁ t x gs) {e : Event} (begun : (x.after e).store.IsOpen t) :
    ((x.after e).store.transaction t).staged = (x.store.transaction t).staged := by
  -- the event is the same when what he has staged is put in the place of itself
  have hsame : x.restage t (x.store.transaction t).staged = x := by
    show { x with ledger := { x.ledger with store := x.store.restage t _ } } = x
    rw [x.store.restage_self]
  have hafter := after_restage (x.store.transaction t).staged h.unspoken e
  rw [hsame] at hafter
  have htransaction : (x.after e).store.transaction t =
      { (x.after e).store.transaction t with staged := (x.store.transaction t).staged } := by
    conv_lhs => rw [hafter]
    exact transaction_restage _ begun
  rw [htransaction]

/-- After an event that concerns others. -/
theorem step (h : Interlude s₁ t x gs) {e : Event} {gs' : List Stage}
    (attended : Attended ((x.restage t []).after e) gs')
    (others : ∀ g ∈ gs', g.holding.ticket? ≠ some t)
    (begun : ((x.restage t []).after e).store.IsOpen t)
    (held : ((x.restage t []).after e).store.held t = (x.restage t []).store.held t)
    (later : (x.restage t []).store.Later ((x.restage t []).after e).store)
    (locked : ∀ {id l}, (id, l) ∈ (x.restage t []).store.held t →
      ((x.restage t []).after e).store.row? id = x.store.row? id) :
    Interlude s₁ t (x.after e) gs' := by
  have hheld₁ : (x.restage t []).store.held t = s₁.held t :=
    (congrFun x.store.held_restage t).trans (congrArg Transaction.held h.transaction)
  rw [hheld₁] at held locked
  rw [after_restage [] h.unspoken] at attended begun held later locked
  have hbegun : (x.after e).store.IsOpen t := (x.after e).store.isOpen_restage.1 begun
  have hheld : (x.after e).store.held t = s₁.held t :=
    (congrFun (x.after e).store.held_restage t).symm.trans held
  refine ⟨attended, others, hbegun, ?_, h.later.trans later, fun hl => ?_⟩
  · have hstaged : ((x.after e).store.transaction t).staged = (s₁.transaction t).staged :=
      (h.staged_after hbegun).trans (congrArg Transaction.staged h.transaction)
    exact congrArg₂ Transaction.mk hstaged hheld
  · exact (locked hl).trans (h.locked hl)

/-- Nobody acts for him. -/
theorem ne_actor (h : Interlude s₁ t x gs) {g : Stage} (hg : g ∈ gs) :
    t ≠ g.actor (x.restage t []).store := by
  unfold Stage.actor
  cases ht : g.holding.ticket? with
  | none => exact Ne.symm h.unspoken.drawn
  | some u =>
      rintro rfl
      exact h.others g hg ht

/-- **It goes on, whatever the others do.** -/
theorem after (h : Interlude s₁ t x gs) {e : Event} (hadm : x.Admits e) :
    ∃ gs', Interlude s₁ t (x.after e) gs' := by
  have hbegun : (x.restage t []).store.IsOpen t := x.store.isOpen_restage.2 h.begun
  cases e with
  | arrive o =>
      have hfirst : (Stage.first o).holding.ticket? ≠ some t := by
        rw [Stage.holding_first]
        exact fun ht => by cases ht
      exact ⟨_, h.step (h.attended.arrive o) (Run.forall_mem_concat h.others hfirst) hbegun rfl
        (.of_row? rfl) fun _ => rfl⟩
  | outage offline =>
      exact ⟨gs, h.step (h.attended.outage offline) h.others hbegun rfl (.of_row? rfl)
        fun _ => rfl⟩
  | go k m =>
      cases hc : x.callers[k]? with
      | none =>
          rw [after_go_of_none hc]
          exact ⟨gs, h⟩
      | some c =>
          obtain ⟨g, hg⟩ := h.attended.exists_stage (x := x.restage t []) hc
          obtain ⟨g', s', metrics', step, hafter, h'⟩ :=
            h.attended.go (fun _ _ _ => unused hadm) hc hg
          have hactor := h.ne_actor (List.mem_of_getElem? hg)
          have hstore : ((x.restage t []).after (.go k m)).store = s' := by rw [hafter]
          refine ⟨_, h.step h' (Run.forall_mem_set h.others ?_ k) ?_ ?_ ?_ fun hl => ?_⟩
          · exact fun ht => hactor (step.ticket t ht)
          · rw [hstore]
            exact (step.advance.isOpen t hactor).2 hbegun
          · rw [hstore]
            exact congrArg Transaction.held (step.advance.transaction t hactor)
          · rw [hstore]
            exact (step.goes.rowChange (h.attended.stage (x := x.restage t []) hc hg).2.1).later
          · rw [hstore]
            exact step.advance.locked hactor hl

/-- It begins when the first half of the commit has been made. -/
theorem opening {s : Store} (h : s.FirstHalf t s₁) : Interlude s₁ t (opening s₁) [] where
  attended := .opening h.storeOK h.present_restage
  others := List.forall_mem_nil _
  begun := by
    unfold Store.IsOpen
    show (s₁.transactions.find? t).isSome = true
    rw [h.sameRest.transactions]
    exact h.begun
  transaction := rfl
  later := .refl s₁
  locked _ := rfl

/-- It goes on throughout a run. -/
theorem foldl (h : Interlude s₁ t x gs) {events : List Event}
    (hadm : Run.Along Traffic.after Admits x events) :
    ∃ gs', Interlude s₁ t (events.foldl Traffic.after x) gs' :=
  Run.invariant (Q := fun x => ∃ gs, Interlude s₁ t x gs) (fun ⟨_, h⟩ hadm => h.after hadm) ⟨gs, h⟩
    hadm _ (Run.foldl_mem_states x events)

end Interlude
end Traffic

/-! ### What the second half takes back -/

/-- A row has been confirmed in a role. -/
def Store.HasConfirmed (s : Store) (id : MatchId) (role : Role) : Prop :=
  ∃ r, s.row? id = some r ∧ r.hasConfirmed role = true

instance (s : Store) (id : MatchId) (role : Role) : Decidable (s.HasConfirmed id role) :=
  decidable_of_iff ((s.row? id).any (Proposal.hasConfirmed · role) = true) (Option.any_eq_true _ _)

/-- A row has been accepted or rejected. -/
def Store.HasClosed (s : Store) (id : MatchId) : Prop :=
  ∃ r, s.row? id = some r ∧ r.isOpen = false

/-- What has been confirmed or closed between two states is so in a third one. -/
structure Store.Preserves (s₁ s₂ s₃ : Store) : Prop where
  confirmed : ∀ id role, s₂.HasConfirmed id role → ¬ s₁.HasConfirmed id role →
    s₃.HasConfirmed id role
  closed : ∀ id, s₂.HasClosed id → ¬ s₁.HasClosed id → s₃.HasClosed id

/-- What has been done to a row since it was entered, another form of it repeats. -/
structure Proposal.Repeats (r q w : Proposal) : Prop where
  confirmed : ∀ role, q.hasConfirmed role = true → r.hasConfirmed role = true ∨
    w.hasConfirmed role = true
  closed : q.isOpen = false → w.isOpen = false

/-- If nothing is undone, a new row says in the end all that has been done to it. -/
theorem Store.FirstHalf.repeats {s s₁ s₂ s₃ : Store} {t : Ticket} (h : s.FirstHalf t s₁)
    (hkept : Preserves s₁ s₂ s₃) {r q w : Proposal} (hr : r ∈ (s.transaction t).newRows)
    (hq : s₂.row? r.id = some q) (hw : s₃.row? r.id = some w) : r.Repeats q w where
  confirmed role hrole := by
    by_cases hconf : s₁.HasConfirmed r.id role
    · obtain ⟨r', hr', hrole'⟩ := hconf
      obtain rfl := Option.some.inj ((h.row?_of_mem hr).symm.trans hr')
      exact Or.inl hrole'
    · obtain ⟨w', hw', hrole'⟩ := hkept.confirmed r.id role ⟨q, hq, hrole⟩ hconf
      obtain rfl := Option.some.inj (hw.symm.trans hw')
      exact Or.inr hrole'
  closed hclosed := by
    have hopen : ¬ s₁.HasClosed r.id := by
      rintro ⟨r', hr', hclosed'⟩
      obtain rfl := Option.some.inj ((h.row?_of_mem hr).symm.trans hr')
      rw [((h.ok.coherent t).new_absent r hr).2] at hclosed'
      cases hclosed'
    obtain ⟨w', hw', hclosed'⟩ := hkept.closed r.id ⟨q, hq, hclosed⟩ hopen
    obtain rfl := Option.some.inj (hw.symm.trans hw')
    exact hclosed'

namespace Traffic

variable {x : Traffic} {gs : List Stage} {s₁ : Store} {t : Ticket}

namespace Interlude

section SecondHalf

variable {s : Store} (h : Interlude s₁ t x gs) (first : s.FirstHalf t s₁)

include h first

/-- What he has staged and locked, he staged and locked before the first half. -/
theorem transaction_eq : x.store.transaction t = s.transaction t :=
  h.transaction.trans (first.sameRest.transaction t)

theorem writeStaged_eq : x.store.writeStaged t =
    ((s.transaction t).staged.map Staged.row).foldl writeRow x.store := by
  rw [writeStaged, h.transaction_eq first]

/-- The rows after the second half. -/
theorem row?_writeStaged : (x.store.writeStaged t).row? =
    overlay x.store.row? ((s.transaction t).staged.map Staged.row) := by
  rw [h.writeStaged_eq first, row?_foldl_writeRow]

/-- No row is lost. -/
theorem exists_written {id : MatchId} {q : Proposal} (hq : x.store.row? id = some q) :
    ∃ w, (x.store.writeStaged t).row? id = some w := by
  refine Option.isSome_iff_exists.mp ?_
  rw [h.row?_writeStaged first, overlay_apply, hq, Option.isSome_or, Option.isSome_some,
    Bool.or_true]

/-- A row that he updates, and has not entered himself, nobody has touched. -/
theorem row?_of_staged {c : Staged} (hc : c ∈ (s.transaction t).staged)
    (hold : ∀ r ∈ (s.transaction t).newRows, r.id ≠ c.row.id) :
    x.store.row? c.row.id = s.row? c.row.id := by
  rw [← first.row?_of_ne hold]
  cases c with
  | insert r => exact absurd rfl (hold r (mem_newRowsOf.2 hc))
  | update r =>
      obtain ⟨l, hl⟩ := first.ok.locked hc
      refine h.locked (l := l) ?_
      unfold Store.held
      rw [first.sameRest.transaction]
      exact hl

/-- A row that is there before the second half is a new one, or the second half leaves it as it
is, or it was open at the outset and has been so ever since. -/
theorem cases_of_row? {id : MatchId} {q : Proposal} (hq : x.store.row? id = some q) :
    (∃ r ∈ (s.transaction t).newRows, r.id = id) ∨ (x.store.writeStaged t).row? id = some q ∨
      s₁.row? id = some q ∧ q.isOpen = true := by
  by_cases hnew : ∃ r ∈ (s.transaction t).newRows, r.id = id
  · exact Or.inl hnew
  have hold : ∀ r ∈ (s.transaction t).newRows, r.id ≠ id := fun r hr he => hnew ⟨r, hr, he⟩
  refine Or.inr ?_
  by_cases hmem : ∃ c ∈ (s.transaction t).staged, c.row.id = id
  · obtain ⟨c, hc, rfl⟩ := hmem
    have hrow : s.row? c.row.id = some q := (h.row?_of_staged first hc hold).symm.trans hq
    refine Or.inr ⟨(first.row?_of_ne hold).trans hrow, ?_⟩
    cases hopen : q.isOpen with
    | true => rfl
    | false => exact absurd rfl ((first.ok.coherent t).ne_of_closed hrow hopen hc)
  · refine Or.inl ?_
    rw [h.row?_writeStaged first, overlay_of_not_mem, hq]
    intro r hr he
    obtain ⟨c, hc, rfl⟩ := List.mem_map.mp hr
    exact hmem ⟨c, hc, he⟩

/-- Every row that the second half writes has the pair of the one that is there. -/
theorem pair_of_staged {c : Staged} (hc : c ∈ (s.transaction t).staged) :
    ∃ q, x.store.row? c.row.id = some q ∧ q.pair = c.row.pair := by
  obtain ⟨b, hb, hpair⟩ := (first.ok.coherent t).pair_eq hc
  have hb₁ : s₁.row? c.row.id = some b := by
    rw [first.row?_eq]
    exact hb
  obtain ⟨q, hq, hlater⟩ := h.later _ b hb₁
  exact ⟨q, hq, hlater.pair.trans hpair⟩

/-- **The second half keeps the index of pairs exact just if it opens no row that is closed.** -/
theorem pairsExact_iff : (x.store.writeStaged t).PairsExact ↔
    ∀ id q w, x.store.row? id = some q → q.isOpen = false →
      (x.store.writeStaged t).row? id = some w → w.isOpen = false := by
  have ix : Indexed x.store := h.attended.ok.indexed.congr (fun _ => rfl) fun _ => rfl
  have hrow := h.row?_writeStaged first
  have hkey : ∀ {id r}, (x.store.writeStaged t).row? id = some r → r.id = id := by
    intro id r hr
    rw [hrow] at hr
    exact (overlay_cases hr).elim And.right ix.id_eq
  have hbase : ∀ r ∈ (s.transaction t).staged.map Staged.row,
      ∃ q, x.store.row? r.id = some q ∧ q.pair = r.pair :=
    List.forall_mem_map.mpr fun c hc => h.pair_of_staged first hc
  have hlast : ∀ r ∈ (s.transaction t).staged.map Staged.row, ∀ r',
      overlay x.store.row? ((s.transaction t).staged.map Staged.row) r.id = some r' →
      r'.isOpen = true → r.isOpen = true := by
    intro r hr r' hr' hopen
    rw [overlay_of_mem x.store.row? s.row? hr] at hr'
    obtain ⟨c, hc, rfl⟩ := List.mem_map.mp hr
    exact (first.ok.coherent t).isOpen_of_last hc hr' hopen
  rw [hrow, ← ix.foldl_writeRow_iff hbase hlast, ← h.writeStaged_eq first]
  exact ⟨Indexed.of_pairsExact hkey, Indexed.pairsExact⟩

/-- If what he has staged for his new rows says all that has been done to them, a row that has been
closed is so in the end. -/
theorem closed_of_repeats (hrep : ∀ r ∈ (s.transaction t).newRows, ∀ q w,
      x.store.row? r.id = some q → (x.store.writeStaged t).row? r.id = some w → r.Repeats q w)
    {id : MatchId} {q w : Proposal} (hq : x.store.row? id = some q) (hclosed : q.isOpen = false)
    (hw : (x.store.writeStaged t).row? id = some w) : w.isOpen = false := by
  rcases h.cases_of_row? first hq with ⟨r, hr, rfl⟩ | hsame | ⟨-, hopen⟩
  · exact (hrep r hr q w hq hw).closed hclosed
  · rw [hsame] at hw
    obtain rfl := Option.some.inj hw
    exact hclosed
  · rw [hclosed] at hopen
    cases hopen

/-- **The second half undoes nothing, and keeps the index exact, just if what he has staged for
his new rows says all that has been done to them.** -/
theorem preserves_iff :
    Preserves s₁ x.store (x.store.writeStaged t) ∧ (x.store.writeStaged t).PairsExact ↔
      ∀ r ∈ (s.transaction t).newRows, ∀ q w, x.store.row? r.id = some q →
        (x.store.writeStaged t).row? r.id = some w → r.Repeats q w := by
  refine ⟨fun hkept r hr q w => first.repeats hkept.1 hr, fun hrep => ⟨⟨?_, ?_⟩, ?_⟩⟩
  · rintro id role ⟨q, hq, hrole⟩ hnot
    rcases h.cases_of_row? first hq with ⟨r, hr, rfl⟩ | hsame | ⟨hsame, -⟩
    · obtain ⟨w, hw⟩ := h.exists_written first hq
      refine ⟨w, hw, ((hrep r hr q w hq hw).confirmed role hrole).resolve_left fun hconf => ?_⟩
      exact hnot ⟨r, first.row?_of_mem hr, hconf⟩
    · exact ⟨q, hsame, hrole⟩
    · exact absurd ⟨q, hsame, hrole⟩ hnot
  · rintro id ⟨q, hq, hclosed⟩ -
    obtain ⟨w, hw⟩ := h.exists_written first hq
    exact ⟨w, hw, h.closed_of_repeats first hrep hq hclosed hw⟩
  · refine (h.pairsExact_iff first).2 fun id q w hq hclosed hw => ?_
    exact h.closed_of_repeats first hrep hq hclosed hw

/-- If he has staged one new row and nothing else, all is well just if nobody has confirmed it or
closed it in the meantime. -/
theorem preserves_iff_of_insert {r : Proposal} (hstaged : (s.transaction t).staged = [.insert r]) :
    Preserves s₁ x.store (x.store.writeStaged t) ∧ (x.store.writeStaged t).PairsExact ↔
      ∀ q, x.store.row? r.id = some q →
        q.isOpen = true ∧ ∀ role, q.hasConfirmed role = true → r.hasConfirmed role = true := by
  have hnew : (s.transaction t).newRows = [r] := by
    rw [Transaction.newRows, hstaged]
    rfl
  have hr : r ∈ (s.transaction t).newRows := by
    rw [hnew]
    exact List.mem_singleton_self r
  have hopen : r.isOpen = true := ((first.ok.coherent t).new_absent r hr).2
  have hw : (x.store.writeStaged t).row? r.id = some r := by
    rw [h.row?_writeStaged first, hstaged]
    exact Function.update_self _ _ _
  rw [h.preserves_iff first, hnew, List.forall_mem_singleton]
  constructor
  · intro hrep q hq
    have hrq := hrep q r hq hw
    refine ⟨?_, fun role hrole => (hrq.confirmed role hrole).elim id id⟩
    cases hqo : q.isOpen with
    | true => rfl
    | false =>
        rw [hrq.closed hqo] at hopen
        cases hopen
  · intro hq q w hq' hw'
    obtain ⟨hqo, hconf⟩ := hq q hq'
    refine ⟨fun role hrole => Or.inl (hconf role hrole), fun hclosed => ?_⟩
    rw [hqo] at hclosed
    cases hclosed

end SecondHalf

end Interlude

/-- **What others have done between the two halves of a commit is kept, and the index of pairs is
exact, just if what has been staged for the new rows says it too.**  Nobody touches the other rows
that are staged.  So a commit that enters one new row undoes what has been done to it, whatever it
is, and nothing else. -/
theorem second_half_exact_iff {s : Store} {events : List Event} (ok : StoreOK s)
    (hp : s.Present) (ht : s.IsOpen t) (hclaim : s.claimStaged t = (.ok (), s₁))
    (hadm : Run.Along after Admits (opening s₁) events) :
    let s₂ := (events.foldl after (opening s₁)).store
    let s₃ := s₂.writeStaged t
    (∀ c ∈ (s.transaction t).staged, (∀ r ∈ (s.transaction t).newRows, r.id ≠ c.row.id) →
      s₂.row? c.row.id = s.row? c.row.id) ∧
    (Preserves s₁ s₂ s₃ ∧ s₃.PairsExact ↔ ∀ r ∈ (s.transaction t).newRows, ∀ q w,
      s₂.row? r.id = some q → s₃.row? r.id = some w → r.Repeats q w) ∧
    ∀ r, (s.transaction t).staged = [.insert r] →
      (Preserves s₁ s₂ s₃ ∧ s₃.PairsExact ↔ ∀ q, s₂.row? r.id = some q →
        q.isOpen = true ∧ ∀ role, q.hasConfirmed role = true → r.hasConfirmed role = true) := by
  intro s₂ s₃
  have first : s.FirstHalf t s₁ := ⟨ok, hp, ht, hclaim⟩
  obtain ⟨gs, h⟩ := (Interlude.opening first).foldl hadm
  exact ⟨fun c hc hold => h.row?_of_staged first hc hold, h.preserves_iff first,
    fun r hr => h.preserves_iff_of_insert first hr⟩

/-! ### A confirmation that is lost

Somebody stages a new row and makes the first half of his commit.  The driver sees the proposal,
confirms it and is told so.  Then the second half writes the row as it was staged.
-/

/-- The moves before the commit. -/
def staging : List Store.Move :=
  let m := momentOf Uuid.nil
  [.call .begin m, .call (.insert 0 someDraft) m]

/-- The driver confirms. -/
def confirming : List Event :=
  let m := momentOf (Uuid.fresh 1)
  [.arrive (.confirm Uuid.nil "d" .driver), .go 0 m, .go 0 m, .go 0 m, .go 0 m, .go 0 m, .go 0 m]

/-- The table before the commit. -/
def staged : Store := staging.foldl Store.after {}

theorem storeOK_staged : StoreOK staged := by
  have hadm : Run.Along Store.after Store.Admits {} staging := by decide +kernel
  have hclear : Run.Along Store.after EntersClear {} staging := by decide +kernel
  exact StoreOK.empty.of_mem_states hadm hclear _ (Run.foldl_mem_states _ staging)

/-- Nobody is in line for anything. -/
theorem present_staged : staged.Present := by
  have hheld : ∀ e ∈ staged.transactions.entries, e.2.held = [] := by decide +kernel
  have hwaiting : staged.locks.waiting.entries = [] := by rfl
  rintro u x l (hin | hin)
  · exfalso
    unfold Store.held Store.transaction at hin
    cases hu : staged.transactions.find? u with
    | none =>
        rw [hu] at hin
        cases hin
    | some y =>
        rw [hu] at hin
        have hy := hheld (u, y) (staged.transactions.find?_eq_some_iff.1 hu)
        change (x, l) ∈ y.held at hin
        rw [hy] at hin
        cases hin
  · have hmem := staged.locks.waiting.find?_eq_some_iff.1 hin
    rw [hwaiting] at hmem
    cases hmem

theorem along_confirming :
    Run.Along after Admits (opening (staged.claimStaged 0).2) confirming := by
  decide +kernel

theorem second_half_exact_iff_confirming :
    let r := someDraft.toProposal Uuid.nil ⟨0, 0⟩
    let s₁ := (staged.claimStaged 0).2
    let s₂ := (confirming.foldl after (opening s₁)).store
    StoreOK staged ∧ staged.Present ∧ staged.IsOpen 0 ∧ staged.claimStaged 0 = (.ok (), s₁) ∧
      Run.Along after Admits (opening s₁) confirming ∧
      (staged.transaction 0).staged = [.insert r] ∧
      (Preserves s₁ s₂ (s₂.writeStaged 0) ∧ (s₂.writeStaged 0).PairsExact ↔
        ∀ q, s₂.row? r.id = some q →
          q.isOpen = true ∧ ∀ role, q.hasConfirmed role = true → r.hasConfirmed role = true) :=
  ⟨storeOK_staged, present_staged, by rfl, by rfl, along_confirming, by rfl,
    (second_half_exact_iff storeOK_staged present_staged (by rfl) (by rfl)
      along_confirming).2.2 _ (by rfl)⟩

/-- **What somebody has confirmed between the two halves of a commit, and has been told so, the
second half takes back.** -/
theorem exists_undone_between_halves : ∃ s t s₁ events, StoreOK s ∧ s.Present ∧ s.IsOpen t ∧
    s.claimStaged t = (.ok (), s₁) ∧ Run.Along after Admits (opening s₁) events ∧
    (∀ c ∈ (events.foldl after (opening s₁)).callers, c.rest.result?.isSome) ∧
    ∃ id role, ¬ s₁.HasConfirmed id role ∧
      (events.foldl after (opening s₁)).store.HasConfirmed id role ∧
      ¬ ((events.foldl after (opening s₁)).store.writeStaged t).HasConfirmed id role := by
  exact ⟨staged, 0, (staged.claimStaged 0).2, confirming, storeOK_staged, present_staged, by rfl,
    by rfl, along_confirming, by decide +kernel, Uuid.nil, .driver, by decide +kernel,
    by decide +kernel, by decide +kernel⟩

end Traffic
end Dispatch
