/-
All operations at once.

`Traffic.Attended` is the invariant of any number of operations under way: each caller is at a
stage of his operation, holds what the stage says he holds, and no two hold the same ticket; and
the table is in order.  It survives every event.  A call of one caller advances the table, and
all others, who hold other tickets, keep what they hold.  `Traffic.Orderly` says besides that
nobody else is at work on the table.

What a whole event can do to the rows is `RowChange`: nothing, or one of three things to one row.
-/
import Dispatch.Proofs.Matching.Steps

namespace Dispatch

open Store

/-- The table is in order, and nobody is at work on it. -/
structure Store.Quiet (s : Store) : Prop where
  ok : StoreOK s
  idle : ∀ t, s.Idle t

theorem Store.Quiet.empty : Store.Quiet {} where
  ok := StoreOK.empty
  idle _ := ⟨fun h => (by cases h), rfl⟩

theorem Store.Quiet.present {s : Store} (h : s.Quiet) : s.Present :=
  fun hin => absurd hin (h.idle _).not_inLine

theorem getElem?_concat_cases {α : Type} {as : List α} {a b : α} {k : Nat}
    (h : (as ++ [a])[k]? = some b) : as[k]? = some b ∨ k = as.length ∧ b = a := by
  rcases Nat.lt_trichotomy k as.length with hk | hk | hk
  · rw [List.getElem?_append_left hk] at h
    exact Or.inl h
  · rw [hk, List.getElem?_concat_length] at h
    exact Or.inr ⟨hk, (Option.some.inj h).symm⟩
  · rw [List.getElem?_eq_none (by simp; omega)] at h
    cases h

theorem getElem?_set_cases {α : Type} {as : List α} {a b : α} {j k : Nat}
    (h : (as.set k a)[j]? = some b) : j = k ∧ b = a ∨ j ≠ k ∧ as[j]? = some b := by
  by_cases hj : j = k
  · subst hj
    have hlt : j < as.length := by
      rw [← List.length_set]
      exact (List.getElem?_eq_some_iff.mp h).1
    rw [List.getElem?_set_self hlt] at h
    exact Or.inl ⟨rfl, (Option.some.inj h).symm⟩
  · rw [List.getElem?_set_ne (Ne.symm hj)] at h
    exact Or.inr ⟨hj, h⟩

/-- What an event can do to the rows. -/
inductive RowChange (s s' : Store) : Prop where
  | none (hrow : s'.row? = s.row?)
  | enters (d : Draft) (id : MatchId) (now : Time.Instant) (hd : d.refusal? = .none)
      (hnew : s.row? id = .none)
      (hrow : s'.row? = Function.update s.row? id (some (d.toProposal id now)))
  | confirms (id : MatchId) (r : Proposal) (user : ActorId) (role : Role) (now : Time.Instant)
      (hr : s.row? id = some r) (he : r.refusal? user role = .none)
      (hrow : s'.row? = Function.update s.row? id (some (r.confirmedBy role now)))
  | rejects (id : MatchId) (r : Proposal) (now : Time.Instant)
      (hr : s.row? id = some r) (hopen : r.isOpen = true)
      (hrow : s'.row? = Function.update s.row? id (some (r.rejectedAt now)))

/-- A single call changes at most one row. -/
theorem Stage.Goes.rowChange {s s' : Store} {m : Moment} {o : Operation} {g g' : Stage}
    (h : Stage.Goes s m g g' s') (hof : Stage.Of o g) : RowChange s s' := by
  cases h with
  | entered d t id now hnew hrow =>
      cases hof with
      | committing hd => exact .enters d id now hd hnew hrow
  | @closed q t r now _ hid hr he hrow => exact .confirms q.id r q.user q.role now hr he hrow
  | @rejected q t id ids n r _ hr hopen _ _ hrow => exact .rejects id r m.now hr hopen hrow
  | _ => first | exact .none rfl | exact .none (by assumption)

namespace Traffic

/-- Each caller is at a stage of his operation and holds what the stage says, no two hold the same
ticket, and the table is in order. -/
structure Attended (x : Traffic) (gs : List Stage) : Prop where
  length : gs.length = x.callers.length
  stage : ∀ {k : Nat} {c : Caller} {g : Stage}, x.callers[k]? = some c → gs[k]? = some g →
    c.rest = g.program ∧ Stage.Of c.operation g ∧ g.holding.Holds x.store
  tickets : ∀ {i j : Nat} {g h : Stage} {t : Ticket}, gs[i]? = some g → gs[j]? = some h →
    g.holding.ticket? = some t → h.holding.ticket? = some t → i = j
  ok : StoreOK x.store
  present : x.store.Present

/-- Nobody else is at work on the table. -/
structure Orderly (x : Traffic) (gs : List Stage) : Prop extends Attended x gs where
  /-- Nothing is under way but what somebody holds the ticket for. -/
  idle : ∀ t, (∀ g ∈ gs, g.holding.ticket? ≠ some t) → x.store.Idle t

variable {x : Traffic} {gs : List Stage}

theorem after_go {k : Nat} {m : Moment} {c : Caller} (hc : x.callers[k]? = some c) :
    x.after (.go k m) =
      { ledger := (c.rest.step (Ledger.perform m) x.ledger).2
        callers := x.callers.set k
          { c with rest := (c.rest.step (Ledger.perform m) x.ledger).1 } } := by
  rw [after, hc]

theorem after_go_of_none {k : Nat} {m : Moment} (hc : x.callers[k]? = none) :
    x.after (.go k m) = x := by
  rw [after, hc]

/-! ### Whoever else is at work -/

namespace Attended

/-- Before anybody has called. -/
theorem opening {s : Store} (ok : StoreOK s) (hp : s.Present) :
    Attended (Traffic.opening s) [] where
  length := rfl
  stage h := by simp [Traffic.opening] at h
  tickets h := by simp at h
  ok := ok
  present := hp

/-- Every caller is at some stage. -/
theorem exists_stage (h : Attended x gs) {k : Nat} {c : Caller} (hc : x.callers[k]? = some c) :
    ∃ g, gs[k]? = some g := by
  have hlt : k < gs.length := by
    rw [h.length]
    exact (List.getElem?_eq_some_iff.mp hc).1
  exact ⟨gs[k], List.getElem?_eq_getElem hlt⟩

/-- Every stage is somebody's. -/
theorem exists_caller (h : Attended x gs) {k : Nat} {g : Stage} (hg : gs[k]? = some g) :
    ∃ c, x.callers[k]? = some c := by
  have hlt : k < x.callers.length := by
    rw [← h.length]
    exact (List.getElem?_eq_some_iff.mp hg).1
  exact ⟨x.callers[k], List.getElem?_eq_getElem hlt⟩

/-- Nobody shares the lock of a row. -/
theorem locks_unique (h : Attended x gs) {i j : Nat} {g g' : Stage} (hi : gs[i]? = some g)
    (hj : gs[j]? = some g') {r r' : Proposal} (hr : g.holding.locked? = some r)
    (hr' : g'.holding.locked? = some r') (hid : r.id = r'.id) : i = j := by
  obtain ⟨c, hc⟩ := h.exists_caller hi
  obtain ⟨c', hc'⟩ := h.exists_caller hj
  obtain ⟨t, l, ht, hl, hrow⟩ := (h.stage hc hi).2.2.exists_held hr
  obtain ⟨t', l', ht', hl', -⟩ := (h.stage hc' hj).2.2.exists_held hr'
  have hx : x.store.Exists r.id := by
    unfold Store.Exists
    rw [hrow]
    rfl
  rw [← hid] at hl'
  have htt := h.ok.locks.exclusive hl hl' hx
  exact h.tickets hi hj ht (htt ▸ ht')

/-- When somebody has called, each caller is one who was there before, or he. -/
theorem arrive_cases (h : Attended x gs) {o : Operation} {k : Nat} {c : Caller} {g : Stage}
    (hc : (x.after (.arrive o)).callers[k]? = some c) (hg : (gs ++ [Stage.first o])[k]? = some g) :
    (x.callers[k]? = some c ∧ gs[k]? = some g) ∨
      (c = { operation := o, rest := o.program } ∧ g = Stage.first o) := by
  rcases getElem?_concat_cases hc with hc | ⟨hk, rfl⟩
  · rcases getElem?_concat_cases hg with hg | ⟨hk, -⟩
    · exact Or.inl ⟨hc, hg⟩
    · rw [hk, h.length] at hc
      simp at hc
  · rw [hk, ← h.length, List.getElem?_concat_length] at hg
    exact Or.inr ⟨rfl, (Option.some.inj hg).symm⟩

theorem arrive (h : Attended x gs) (o : Operation) :
    Attended (x.after (.arrive o)) (gs ++ [Stage.first o]) where
  length := by
    rw [after, List.length_append, List.length_append, h.length]
    rfl
  stage := by
    intro k c g hc hg
    rcases h.arrive_cases hc hg with ⟨hc, hg⟩ | ⟨rfl, rfl⟩
    · exact h.stage hc hg
    · exact ⟨o.program_eq, Stage.of_first o, by rw [Stage.holding_first]; trivial⟩
  tickets := by
    have hold : ∀ {i : Nat} {g : Stage} {t : Ticket}, (gs ++ [Stage.first o])[i]? = some g →
        g.holding.ticket? = some t → gs[i]? = some g := by
      intro i g t hg ht
      rcases getElem?_concat_cases hg with hg | ⟨-, rfl⟩
      · exact hg
      · rw [Stage.holding_first] at ht
        cases ht
    intro i j g g' t hg hg' ht ht'
    exact h.tickets (hold hg ht) (hold hg' ht') ht ht'
  ok := h.ok
  present := h.present

theorem outage (h : Attended x gs) (offline : Bool) : Attended (x.after (.outage offline)) gs where
  length := h.length
  stage := by
    intro k c g hc hg
    obtain ⟨hrest, hof, hh⟩ := h.stage hc hg
    refine ⟨hrest, hof, ?_⟩
    cases hhold : g.holding with
    | nothing => trivial
    | _ => rw [hhold] at hh; exact hh
  tickets := h.tickets
  ok := h.ok.outage offline
  present := h.present

/-- Whoever else holds a ticket holds another one than the caller. -/
theorem ticket_ne_actor (h : Attended x gs) {j k : Nat} {g g' : Stage} (hg : gs[k]? = some g)
    (hg' : gs[j]? = some g') (hj : j ≠ k) : g'.holding.ticket? ≠ some (g.actor x.store) := by
  intro ht
  obtain ⟨c, hc⟩ := h.exists_caller hg'
  have hlt := (h.stage hc hg').2.2.ticket_lt h.ok ht
  unfold Stage.actor at ht hlt
  cases hgt : g.holding.ticket? with
  | some t =>
      rw [hgt] at ht
      exact hj (h.tickets hg' hg ht hgt)
  | none =>
      rw [hgt] at hlt
      exact Nat.lt_irrefl _ hlt

/-- In the place of one caller there is somebody at another stage, and all others are where they
were. -/
theorem put (h : Attended x gs) {k : Nat} {c' : Caller} {g g' : Stage} {s' : Store}
    {metrics' : Metrics} (hg : gs[k]? = some g) (rest : c'.rest = g'.program)
    (of : Stage.Of c'.operation g') (adv : Advance (g.actor x.store) x.store s')
    (holds : g'.holding.Holds s')
    (ticket : ∀ u, g'.holding.ticket? = some u → u = g.actor x.store) :
    Attended { ledger := ⟨s', metrics'⟩, callers := x.callers.set k c' } (gs.set k g') where
  length := by rw [List.length_set, List.length_set, h.length]
  stage := by
    intro j c'' g'' hc'' hg''
    rcases getElem?_set_cases hc'' with ⟨rfl, rfl⟩ | ⟨hj, hc''⟩
    · obtain ⟨-, rfl⟩ | ⟨hj, -⟩ := getElem?_set_cases hg''
      · exact ⟨rest, of, holds⟩
      · exact absurd rfl hj
    · obtain ⟨hj', -⟩ | ⟨-, hg''⟩ := getElem?_set_cases hg''
      · exact absurd hj' hj
      · obtain ⟨hrest', hof', hh'⟩ := h.stage hc'' hg''
        exact ⟨hrest', hof', hh'.frame adv (h.ticket_ne_actor hg hg'' hj)⟩
  tickets := by
    intro i j g₁ g₂ t h₁ h₂ ht₁ ht₂
    rcases getElem?_set_cases h₁ with ⟨hi, h₁'⟩ | ⟨hi, h₁'⟩ <;>
      rcases getElem?_set_cases h₂ with ⟨hj, h₂'⟩ | ⟨hj, h₂'⟩
    · exact hi.trans hj.symm
    · subst h₁'
      exact absurd (ticket t ht₁ ▸ ht₂) (h.ticket_ne_actor hg h₂' hj)
    · subst h₂'
      exact absurd (ticket t ht₂ ▸ ht₁) (h.ticket_ne_actor hg h₁' hi)
    · exact h.tickets h₁' h₂' ht₁ ht₂
  ok := adv.ok
  present := adv.present

/-- **A call keeps the table in order**: it is one of the calls listed, and nobody else is
concerned. -/
theorem go (h : Attended x gs) {k : Nat} {m : Moment} {c : Caller} {g : Stage}
    (hfresh : ∀ d t, g = .inserting d t → x.store.Unused m.freshId)
    (hc : x.callers[k]? = some c) (hg : gs[k]? = some g) :
    ∃ g' s' metrics', Stage.Step x.store x.ledger.metrics m c.operation g g' s' metrics' ∧
      x.after (.go k m) = { ledger := ⟨s', metrics'⟩
                            callers := x.callers.set k { c with rest := g'.program } } ∧
      Attended (x.after (.go k m)) (gs.set k g') := by
  obtain ⟨hrest, hof, hh⟩ := h.stage hc hg
  obtain ⟨g', s', metrics', step⟩ :=
    Stage.exists_step h.ok h.present hfresh hof hh x.ledger.metrics
  have hafter : x.after (.go k m) =
      { ledger := ⟨s', metrics'⟩
        callers := x.callers.set k { c with rest := g'.program } } := by
    have hledger : x.ledger = ⟨x.store, x.ledger.metrics⟩ := rfl
    rw [after_go hc, hrest, hledger, step.called.step]
  exact ⟨g', s', metrics', step, hafter,
    hafter ▸ h.put hg rfl step.of step.advance step.holds step.ticket⟩

end Attended

/-! ### Nobody else -/

namespace Orderly

/-- Before anybody has called. -/
theorem opening {s : Store} (h : s.Quiet) : Orderly (opening s) [] where
  toAttended := .opening h.ok h.present
  idle t _ := h.idle t

theorem arrive (h : Orderly x gs) (o : Operation) :
    Orderly (x.after (.arrive o)) (gs ++ [Stage.first o]) where
  toAttended := h.toAttended.arrive o
  idle t ht := h.idle t fun g hg => ht g (List.mem_append_left _ hg)

theorem outage (h : Orderly x gs) (offline : Bool) : Orderly (x.after (.outage offline)) gs where
  toAttended := h.toAttended.outage offline
  idle := h.idle

/-- In the place of one caller there is somebody at another stage, and all others are where they
were. -/
theorem put (h : Orderly x gs) {k : Nat} {c' : Caller} {g g' : Stage} {s' : Store}
    {metrics' : Metrics} (hg : gs[k]? = some g) (rest : c'.rest = g'.program)
    (of : Stage.Of c'.operation g') (adv : Advance (g.actor x.store) x.store s')
    (holds : g'.holding.Holds s')
    (ticket : ∀ u, g'.holding.ticket? = some u → u = g.actor x.store)
    (idle : g'.holding.ticket? = none → s'.Idle (g.actor x.store)) :
    Orderly { ledger := ⟨s', metrics'⟩, callers := x.callers.set k c' } (gs.set k g') where
  toAttended := h.toAttended.put hg rest of adv holds ticket
  idle := by
    intro t ht
    have hk : k < gs.length := (List.getElem?_eq_some_iff.mp hg).1
    by_cases hact : t = g.actor x.store
    · subst hact
      refine idle ?_
      cases hg' : g'.holding.ticket? with
      | none => rfl
      | some u =>
          have hu := ticket u hg'
          exact absurd (hu ▸ hg') (ht g' (List.mem_set hk g'))
    · refine adv.idle hact (h.idle t fun h' hmem hh' => ?_)
      obtain ⟨j, hj⟩ := List.mem_iff_getElem?.mp hmem
      by_cases hjk : j = k
      · subst hjk
        rw [hg] at hj
        obtain rfl := Option.some.inj hj
        exact hact (Stage.actor_of_holding hh').symm
      · refine ht h' (List.mem_iff_getElem?.mpr ⟨j, ?_⟩) hh'
        rw [List.getElem?_set_ne (Ne.symm hjk)]
        exact hj

/-- A caller who has made a call is at the next stage. -/
theorem set (h : Orderly x gs) {k : Nat} {m : Moment} {c : Caller} {g g' : Stage} {s' : Store}
    {metrics' : Metrics} (hg : gs[k]? = some g)
    (step : Stage.Step x.store x.ledger.metrics m c.operation g g' s' metrics') :
    Orderly { ledger := ⟨s', metrics'⟩
              callers := x.callers.set k { c with rest := g'.program } } (gs.set k g') :=
  h.put hg rfl step.of step.advance step.holds step.ticket step.idle

/-- A caller who has gone away, and has nothing under way any more, is as good as finished. -/
theorem abandon (h : Orderly x gs) {k : Nat} (c : Caller) {g : Stage} {s' : Store} (r : Outcome)
    (hg : gs[k]? = some g) (adv : Advance (g.actor x.store) x.store s')
    (hidle : s'.Idle (g.actor x.store)) :
    Orderly { ledger := ⟨s', x.ledger.metrics⟩
              callers := x.callers.set k { c with rest := (Stage.finished r).program } }
      (gs.set k (.finished r)) :=
  h.put hg rfl (.finished _ r) adv trivial (fun u hu => by cases hu) fun _ => hidle

/-- **A call keeps everything in order**: it is one of the calls listed, and nobody else is
concerned. -/
theorem go (h : Orderly x gs) {k : Nat} {m : Moment} {c : Caller} {g : Stage}
    (hfresh : ∀ d t, g = .inserting d t → x.store.Unused m.freshId)
    (hc : x.callers[k]? = some c) (hg : gs[k]? = some g) :
    ∃ g' s' metrics', Stage.Step x.store x.ledger.metrics m c.operation g g' s' metrics' ∧
      x.after (.go k m) = { ledger := ⟨s', metrics'⟩
                            callers := x.callers.set k { c with rest := g'.program } } ∧
      Orderly (x.after (.go k m)) (gs.set k g') := by
  obtain ⟨g', s', metrics', step, hafter, -⟩ := h.toAttended.go hfresh hc hg
  exact ⟨g', s', metrics', step, hafter, hafter ▸ h.set hg step⟩

/-- **Every event keeps everything in order**, and changes at most one row. -/
theorem after (h : Orderly x gs) {e : Event} (hadm : x.Admits e) :
    (∃ gs', Orderly (x.after e) gs') ∧ RowChange x.store (x.after e).store := by
  cases e with
  | arrive o => exact ⟨⟨_, h.arrive o⟩, .none rfl⟩
  | outage offline => exact ⟨⟨_, h.outage offline⟩, .none rfl⟩
  | go k m =>
      cases hc : x.callers[k]? with
      | none =>
          rw [after_go_of_none hc]
          exact ⟨⟨_, h⟩, .none rfl⟩
      | some c =>
          obtain ⟨g, hg⟩ := h.exists_stage hc
          obtain ⟨g', s', metrics', step, hafter, h'⟩ := h.go (fun _ _ _ => hadm) hc hg
          refine ⟨⟨_, h'⟩, ?_⟩
          rw [hafter]
          exact step.goes.rowChange (h.stage hc hg).2.1

/-- When everybody has been told what has come of his operation, nobody is at work on the table. -/
theorem quiet (h : Orderly x gs) (htold : ∀ c ∈ x.callers, c.rest.result? ≠ none) :
    x.store.Quiet where
  ok := h.ok
  idle t := h.idle t fun g hg ht => by
    obtain ⟨k, hk⟩ := List.mem_iff_getElem?.mp hg
    obtain ⟨c, hc⟩ := h.exists_caller hk
    obtain ⟨r, hr⟩ := Option.ne_none_iff_exists'.mp (htold c (List.mem_of_getElem? hc))
    rw [(h.stage hc hk).1] at hr
    rw [Stage.eq_finished hr] at ht
    cases ht

end Orderly

/-- **Everything is in order in every state of a run**, from a table on which nobody is at work. -/
theorem exists_orderly {s : Store} (h : s.Quiet) {events : List Event}
    (hadm : Run.Along after Admits (opening s) events) :
    ∀ x ∈ Run.states after (opening s) events, ∃ gs, Orderly x gs :=
  Run.invariant (fun ⟨_, h⟩ hadm => (h.after hadm).1) ⟨[], .opening h⟩ hadm

/-- Between operations the table is in order, and nobody is at work on it. -/
theorem quiet_of_told {s : Store} (h : s.Quiet) {events : List Event}
    (hadm : Run.Along after Admits (opening s) events)
    (htold : ∀ c ∈ (events.foldl after (opening s)).callers, c.rest.result? ≠ none) :
    (events.foldl after (opening s)).store.Quiet := by
  obtain ⟨gs, hx⟩ := exists_orderly h hadm _ (Run.foldl_mem_states _ events)
  exact hx.quiet htold

end Traffic
end Dispatch
