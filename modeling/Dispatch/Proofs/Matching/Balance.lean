/-
The counts and the rows.

What is counted is counted by the callers, each in a call of its own after the table has answered, while
the rows change inside the table.  In between the two disagree, but by no more than what the callers
have yet to count (`Stage.uncounted`): every call either changes the rows and leaves the caller with so
much more to count, or counts it.

That balance is proved once for any quantity of the rows that a new row, a confirmation and a rejection
increase by a fixed amount each (`Law`); the number of rows, of accepted and of rejected ones and of
their confirmations are four of these.  Between the operations nothing is left to count, and so the
counts are the rows' (`Traffic.counts_agree`).  Whatever is neither accepted nor rejected is open, and
the pairs of the open rows are those in the index.
-/
import Mathlib.Algebra.GroupWithZero.Nat
import Dispatch.Proofs.Matching.Rows

namespace Dispatch

open Store

/-! ### Sums over a table -/

namespace Table

variable {κ α : Type}

/-- The sum of a quantity over the values of a table. -/
def sum (t : Table κ α) (w : α → Nat) : Nat := (t.values.map w).sum

variable [DecidableEq κ] {t t' : Table κ α}

/-- Tables in which the same is found have the same entries. -/
theorem entries_perm (h : t'.find? = t.find?) : t'.entries.Perm t.entries := by
  rw [List.perm_ext_iff_of_nodup t'.nodup_keys.of_map t.nodup_keys.of_map]
  rintro ⟨k, a⟩
  rw [← t'.find?_eq_some_iff, ← t.find?_eq_some_iff, h]

theorem sum_congr (h : t'.find? = t.find?) (w : α → Nat) : t'.sum w = t.sum w :=
  (((entries_perm h).map Prod.snd).map w).sum_nat

/-- A value that is written comes in the place of what was there. -/
theorem sum_insert (t : Table κ α) (k : κ) (a : α) (w : α → Nat) :
    (t.insert k a).sum w + (t.find? k).elim 0 w = t.sum w + w a := by
  obtain ⟨l, hl⟩ := t
  simp only [sum, values, insert, find?]
  clear hl
  induction l with
  | nil => simp [putIn, lookupIn]
  | cons e rest ih =>
      obtain ⟨k', a'⟩ := e
      by_cases hk : k' = k
      · simp only [putIn, lookupIn, if_pos hk, List.map_cons, List.sum_cons, Option.elim_some]
        omega
      · simp only [putIn, lookupIn, if_neg hk, List.map_cons, List.sum_cons]
        omega

theorem sum_update {k : κ} {a : α} (h : t'.find? = Function.update t.find? k (some a)) (w : α → Nat) :
    t'.sum w + (t.find? k).elim 0 w = t.sum w + w a := by
  rw [← sum_insert t k a w]
  refine congrArg (· + _) (sum_congr ?_ w)
  funext x
  rw [h, find?_insert, Function.update_apply]

end Table

/-! ### Quantities that are counted -/

/-- A quantity of the rows that every change of a row increases by a fixed amount. -/
structure Law where
  /-- so much a row has of it -/
  weight : Proposal → Nat
  /-- by a new row -/
  created : Nat
  /-- by the confirmation with which a row is accepted -/
  accepted : Nat
  /-- by any other confirmation -/
  confirmed : Nat
  /-- by a rejection -/
  rejected : Nat
  enters : ∀ (d : Draft) (id : MatchId) (now : Time.Instant), weight (d.toProposal id now) = created
  confirms : ∀ {r : Proposal} {user : ActorId} {role : Role}, r.refusal? user role = none →
    ∀ now, weight (r.confirmedBy role now)
      = weight r + if (r.confirmedBy role now).status = .accepted then accepted else confirmed
  rejects : ∀ {r : Proposal}, r.isOpen = true → ∀ now, weight (r.rejectedAt now) = weight r + rejected

/-- Whoever confirms is not rejected, and what is confirmed was open. -/
theorem Proposal.ne_of_refusal? {r : Proposal} {user : ActorId} {role : Role}
    (h : r.refusal? user role = none) : r.status ≠ .accepted ∧ r.status ≠ .rejected := by
  have hopen := (refusal?_eq_none.1 h).2.1
  rw [← not_or, ← not_isOpen_iff, hopen]
  decide

namespace Law

/-- How many rows there are. -/
def rows : Law where
  weight _ := 1
  created := 1
  accepted := 0
  confirmed := 0
  rejected := 0
  enters _ _ _ := rfl
  confirms _ _ := by simp
  rejects _ _ := rfl

/-- How many rows are accepted. -/
def acceptedRows : Law where
  weight r := if r.status = .accepted then 1 else 0
  created := 0
  accepted := 1
  confirmed := 0
  rejected := 0
  enters _ _ _ := rfl
  confirms h now := by rw [if_neg (Proposal.ne_of_refusal? h).1, Nat.zero_add]
  rejects {r} hopen now := by
    have hne : r.status ≠ .accepted := fun hs => by
      rw [(Proposal.not_isOpen_iff r).2 (.inl hs)] at hopen
      cases hopen
    rw [if_neg hne]
    rfl

/-- How many confirmations the rows have. -/
def confirmations : Law where
  weight r := r.driverConfirmed.toNat + r.passengerConfirmed.toNat
  created := 0
  accepted := 1
  confirmed := 1
  rejected := 0
  enters _ _ _ := rfl
  confirms {r user role} h now := by
    have hnew := (Proposal.refusal?_eq_none.1 h).2.2
    rw [ite_self]
    cases role with
    | driver =>
        have hold : r.driverConfirmed = false := hnew
        simp [Proposal.confirmedBy, Proposal.flagsAfter, hold, Nat.add_comm]
    | passenger =>
        have hold : r.passengerConfirmed = false := hnew
        simp [Proposal.confirmedBy, Proposal.flagsAfter, hold]
  rejects _ _ := rfl

/-- How many rows are rejected. -/
def rejectedRows : Law where
  weight r := if r.status = .rejected then 1 else 0
  created := 0
  accepted := 0
  confirmed := 0
  rejected := 1
  enters _ _ _ := rfl
  confirms {r user role} h now := by
    have hne : (r.confirmedBy role now).status ≠ .rejected := Status.ofFlags_ne_rejected _ _
    rw [if_neg (Proposal.ne_of_refusal? h).2, if_neg hne, ite_self]
  rejects {r} hopen now := by
    have hne : r.status ≠ .rejected := fun hs => by
      rw [(Proposal.not_isOpen_iff r).2 (.inr hs)] at hopen
      cases hopen
    rw [if_neg hne]
    rfl

variable (w : Law)

/-- How much of the quantity an observation stands for. -/
def credit : Observation → Nat
  | .creation .created => w.created
  | .creation .existing => 0
  | .confirmation .accepted => w.accepted
  | .confirmation .confirmed => w.confirmed
  | .confirmation (.failed _) => 0
  | .rejections n => n * w.rejected
  | .poolSize _ _ => 0

/-- How much of the quantity has been counted. -/
def counted (k : Metrics) : Nat :=
  w.created * Metrics.count k.creations .created + w.accepted * Metrics.count k.confirmations .accepted
    + w.confirmed * Metrics.count k.confirmations .confirmed + k.rejections * w.rejected

theorem counted_record (k : Metrics) (o : Observation) :
    w.counted (k.record o) = w.counted k + w.credit o := by
  have hinsert : ∀ {κ : Type} [DecidableEq κ] (t : Table κ Nat) (x y : κ),
      Metrics.count (t.insert x (Metrics.count t x + 1)) y
        = Metrics.count t y + if y = x then 1 else 0 := by
    intro κ _ t x y
    unfold Metrics.count
    rw [Table.find?_insert]
    by_cases hy : y = x
    · subst hy
      simp
    · simp [hy]
  cases o with
  | creation c =>
      cases c <;> simp [counted, credit, Metrics.record, hinsert, Nat.mul_add]
      omega
  | confirmation c =>
      cases c <;> simp [counted, credit, Metrics.record, hinsert, Nat.mul_add]
      · omega
      · omega
  | rejections n =>
      simp only [counted, credit, Metrics.record, Nat.add_mul]
      omega
  | poolSize pool n => rfl

end Law

/-! ### What is yet to be counted -/

namespace Stage

variable {m : Moment} {s s' : Store} {k k' : Metrics} {o : Operation} {g g' : Stage}

/-- What is counted by the next call, if it counts anything, and what the caller is told then. -/
def observes? : Stage → Option (Observation × Outcome)
  | counting o r => some (o, r)
  | rejecting _ _ [] n => some (.rejections n, .rejections (.ok n))
  | _ => none

theorem program_of_observes {obs : Observation} {r : Outcome} (h : g.observes? = some (obs, r)) :
    g.program = thenCount obs r := by
  cases g with
  | counting obs' r' =>
      obtain ⟨rfl, rfl⟩ := Prod.mk.inj (Option.some.inj h)
      rfl
  | rejecting q t ids n =>
      cases ids with
      | nil =>
          obtain ⟨rfl, rfl⟩ := Prod.mk.inj (Option.some.inj h)
          rfl
      | cons id ids => cases h
  | _ => cases h

/-- Any other call is one on the table. -/
theorem calls_table (h : g.observes? = none) :
    (∃ r, g = .finished r) ∨ ∃ c next, g.program = .call (.store c) next := by
  cases g with
  | finished r => exact .inl ⟨r, rfl⟩
  | counting o r => cases h
  | rejecting q t ids n =>
      cases ids with
      | nil => cases h
      | cons id ids => exact .inr ⟨_, _, rfl⟩
  | _ => exact .inr ⟨_, _, rfl⟩

/-- What a caller has done to the rows and has not counted yet. -/
def uncounted (w : Law) : Stage → Nat
  | counting o _ => w.credit o
  | rejecting _ _ _ n => w.credit (.rejections n)
  | _ => 0

theorem uncounted_of_observes (w : Law) {obs : Observation} {r : Outcome}
    (h : g.observes? = some (obs, r)) : g.uncounted w = w.credit obs := by
  cases g with
  | counting obs' r' =>
      obtain ⟨rfl, rfl⟩ := Prod.mk.inj (Option.some.inj h)
      rfl
  | rejecting q t ids n =>
      cases ids with
      | nil =>
          obtain ⟨rfl, rfl⟩ := Prod.mk.inj (Option.some.inj h)
          rfl
      | cons id ids => cases h
  | _ => cases h

theorem uncounted_first (w : Law) (o : Operation) : (first o).uncounted w = 0 := by
  cases o with
  | propose d => rw [first_propose]; cases d.refusal? <;> rfl
  | confirm id user role => rfl
  | rejectCompeting accepted driver passenger => rfl

/-- A call on the table counts nothing, and a call that counts changes no row. -/
theorem Step.counts (w : Law) (h : Step s k m o g g' s' k') :
    (g.observes? = none ∧ k' = k) ∨
    (s' = s ∧ w.counted k' + g'.uncounted w = w.counted k + g.uncounted w) := by
  have hstep := h.called.step
  cases hobserves : g.observes? with
  | none =>
      refine .inl ⟨rfl, ?_⟩
      rcases calls_table hobserves with ⟨r, rfl⟩ | ⟨c, next, hcall⟩
      · exact (Ledger.mk.inj (Prod.mk.inj hstep).2).2.symm
      · rw [hcall, Program.step, Ledger.perform] at hstep
        cases hturn : Store.perform m c s with
        | answer r s₁ =>
            rw [hturn] at hstep
            exact (Ledger.mk.inj (Prod.mk.inj hstep).2).2.symm
        | wait s₁ =>
            rw [hturn] at hstep
            exact (Ledger.mk.inj (Prod.mk.inj hstep).2).2.symm
  | some x =>
      obtain ⟨obs, r⟩ := x
      refine .inr ?_
      rw [program_of_observes hobserves] at hstep
      obtain ⟨hdone, hledger⟩ := Prod.mk.inj hstep
      obtain ⟨rfl, rfl⟩ := Ledger.mk.inj hledger
      obtain rfl := eq_finished (congrArg Program.result? hdone.symm)
      exact ⟨rfl, by rw [w.counted_record, uncounted_of_observes w hobserves]; rfl⟩

theorem uncounted_unreachable (w : Law) (hg : g.observes? = none) :
    g.unreachable.uncounted w = g.uncounted w := by
  cases g with
  | counting o r => cases hg
  | _ => rfl

/-- **A call on the table changes the rows by as much as the caller has more to count then.** -/
theorem Goes.uncounted (w : Law) (h : Goes s m g g' s') (hg : g.observes? = none) :
    s'.rows.sum w.weight + g.uncounted w = s.rows.sum w.weight + g'.uncounted w := by
  have hsame : s'.row? = s.row? → s'.rows.sum w.weight = s.rows.sum w.weight :=
    fun hrow => Table.sum_congr hrow w.weight
  cases h with
  | unreachable g hoff hrow => rw [hsame hrow, uncounted_unreachable w hg]
  | entered d t id now hnew hrow =>
      have hsum := Table.sum_update hrow w.weight
      have hnew : s.rows.find? id = none := hnew
      rw [hnew, w.enters] at hsum
      exact hsum
  | @closed q t r now _ hid hr he hrow =>
      have hsum := Table.sum_update hrow w.weight
      have hr : s.rows.find? q.id = some r := hr
      rw [hr, w.confirms he, Option.elim_some] at hsum
      show _ = _ + w.credit (.confirmation (.ofResult (.ok (r.confirmedBy q.role now))))
      by_cases hacc : (r.confirmedBy q.role now).status = .accepted
      · rw [if_pos hacc] at hsum
        rw [Confirmation.ofResult, if_pos hacc]
        show _ + 0 = _ + w.accepted
        omega
      · rw [if_neg hacc] at hsum
        rw [Confirmation.ofResult, if_neg hacc]
        show _ + 0 = _ + w.confirmed
        omega
  | @rejected q t id ids n r _ hr hopen _ _ hrow =>
      have hsum := Table.sum_update hrow w.weight
      have hr : s.rows.find? id = some r := hr
      rw [hr, w.rejects hopen, Option.elim_some] at hsum
      show _ + n * w.rejected = _ + (n + 1) * w.rejected
      rw [Nat.add_mul]
      omega
  | counted o r => cases hg
  | rejectedAll q t n => cases hg
  | opened q ids hrow =>
      show _ + 0 = _ + 0 * w.rejected
      rw [hsame hrow, Nat.zero_mul]
  | _ => first | rfl | exact congrArg (· + _) (hsame (by assumption))

/-- What is in the rows and what has been counted differ after a call by as much more as the caller
has yet to count. -/
theorem Step.balance (w : Law) (h : Step s k m o g g' s' k') :
    s'.rows.sum w.weight + w.counted k + g.uncounted w
      = s.rows.sum w.weight + w.counted k' + g'.uncounted w := by
  rcases h.counts w with ⟨hg, rfl⟩ | ⟨rfl, hcounted⟩
  · have hgoes := h.goes.uncounted w hg
    omega
  · omega

end Stage

/-! ### Any number of callers -/

namespace Traffic

variable {x : Traffic} {gs : List Stage} {w : Law}

/-- The rows have what has been counted, and what the callers have yet to count. -/
def Balanced (w : Law) (x : Traffic) (gs : List Stage) : Prop :=
  x.store.rows.sum w.weight = w.counted x.ledger.metrics + (gs.map (Stage.uncounted w)).sum

theorem sum_set (f : Stage → Nat) {k : Nat} {g : Stage} (hg : gs[k]? = some g) (g' : Stage) :
    ((gs.set k g').map f).sum + f g = (gs.map f).sum + f g' := by
  induction gs generalizing k with
  | nil => cases hg
  | cons h gs ih =>
      cases k with
      | zero =>
          obtain rfl := Option.some.inj hg
          simp only [List.set_cons_zero, List.map_cons, List.sum_cons]
          omega
      | succ k =>
          have hrest := ih (k := k) hg
          simp only [List.set_cons_succ, List.map_cons, List.sum_cons]
          omega

theorem Balanced.go (h : Balanced w x gs) {k : Nat} {m : Moment} {c : Caller} {o : Operation}
    {g g' : Stage} {s' : Store} {metrics' : Metrics} (hg : gs[k]? = some g)
    (step : Stage.Step x.store x.ledger.metrics m o g g' s' metrics') :
    Balanced w { ledger := ⟨s', metrics'⟩, callers := x.callers.set k c } (gs.set k g') := by
  have hbalance := step.balance w
  have hset := sum_set (Stage.uncounted w) hg g'
  unfold Balanced at h ⊢
  show s'.rows.sum w.weight = w.counted metrics' + _
  have hledger : x.ledger.store.rows.sum w.weight = _ := h
  omega

/-- **Every event keeps the balance.** -/
theorem Balanced.after (h : Balanced w x gs) (horderly : Orderly x gs) {e : Event}
    (hadm : x.Admits e) : ∃ gs', Orderly (x.after e) gs' ∧ Balanced w (x.after e) gs' := by
  cases e with
  | arrive o =>
      refine ⟨_, horderly.arrive o, ?_⟩
      unfold Balanced
      rw [List.map_append, List.sum_append_nat, List.map_singleton, List.sum_singleton,
        Stage.uncounted_first]
      exact h
  | outage offline => exact ⟨_, horderly.outage offline, h⟩
  | go k m =>
      cases hc : x.callers[k]? with
      | none =>
          rw [after_go_of_none hc]
          exact ⟨_, horderly, h⟩
      | some c =>
          obtain ⟨g, hg⟩ := horderly.exists_stage hc
          obtain ⟨g', s', metrics', step, hafter, h'⟩ := horderly.go (fun _ _ _ => hadm) hc hg
          refine ⟨_, h', ?_⟩
          rw [hafter]
          exact h.go hg step

/-- When everybody has been told what has come of his operation, nothing is left to count. -/
theorem Balanced.of_told (h : Balanced w x gs) (horderly : Orderly x gs)
    (htold : ∀ c ∈ x.callers, c.rest.result? ≠ none) :
    x.store.rows.sum w.weight = w.counted x.ledger.metrics := by
  have hnone : ∀ n ∈ gs.map (Stage.uncounted w), n = 0 := by
    intro n hn
    obtain ⟨g, hg, rfl⟩ := List.mem_map.mp hn
    obtain ⟨k, hk⟩ := List.mem_iff_getElem?.mp hg
    obtain ⟨c, hc⟩ := horderly.exists_caller hk
    obtain ⟨r, hr⟩ := Option.ne_none_iff_exists'.mp (htold c (List.mem_of_getElem? hc))
    rw [(horderly.stage hc hk).1] at hr
    rw [Stage.eq_finished hr]
    rfl
  rw [h, List.sum_eq_zero_iff_forall_eq_nat.mpr hnone, Nat.add_zero]

/-- In the beginning there is no row, and nothing has been counted. -/
theorem balanced_nil : Balanced w {} [] := by
  show 0 = w.created * 0 + w.accepted * 0 + w.confirmed * 0 + 0 * w.rejected + 0
  omega

/-- **The balance holds in every state of a run.** -/
theorem exists_balanced (w : Law) {events : List Event} (hadm : Run.Along after Admits {} events) :
    ∀ x ∈ Run.states after {} events, ∃ gs, Orderly x gs ∧ Balanced w x gs :=
  Run.invariant (fun ⟨_, horderly, h⟩ hadm => h.after horderly hadm)
    ⟨[], Orderly.opening .empty, balanced_nil⟩ hadm

end Traffic

/-! ### The open rows and their pairs -/

/-- There are as many pairs in the index as open rows. -/
theorem Indexed.size_openPairs {s : Store} (h : Indexed s) :
    s.openPairs.size = s.rows.values.countP Proposal.isOpen := by
  have hpairs : ∀ p id, (p, id) ∈ s.openPairs.entries ↔
      ∃ r, (id, r) ∈ s.rows.entries ∧ r.isOpen = true ∧ r.pair = p := by
    intro p id
    rw [← s.openPairs.find?_eq_some_iff, h.pairs]
    exact exists_congr fun r => and_congr_left' s.rows.find?_eq_some_iff
  have hids : (s.openPairs.entries.map Prod.snd).Nodup := by
    refine List.Nodup.map_on ?_ s.openPairs.nodup_keys.of_map
    rintro ⟨p, id⟩ hp ⟨p', id'⟩ hp' rfl
    obtain ⟨r, hr, -, rfl⟩ := (hpairs p id).mp hp
    obtain ⟨r', hr', -, rfl⟩ := (hpairs p' id).mp hp'
    have hsame := (s.rows.find?_eq_some_iff.mpr hr).symm.trans (s.rows.find?_eq_some_iff.mpr hr')
    rw [Option.some.inj hsame]
  have hperm : (s.openPairs.entries.map Prod.snd).Perm
      ((s.rows.entries.filter fun e => e.2.isOpen).map Prod.fst) := by
    rw [List.perm_ext_iff_of_nodup hids ((List.filter_sublist.map Prod.fst).nodup s.rows.nodup_keys)]
    intro id
    rw [List.mem_map, List.mem_map]
    constructor
    · rintro ⟨⟨p, id⟩, hp, rfl⟩
      obtain ⟨r, hr, hopen, -⟩ := (hpairs p id).mp hp
      exact ⟨(id, r), List.mem_filter.mpr ⟨hr, hopen⟩, rfl⟩
    · rintro ⟨⟨id, r⟩, hr, rfl⟩
      obtain ⟨hr, hopen⟩ := List.mem_filter.mp hr
      exact ⟨(r.pair, id), (hpairs r.pair id).mpr ⟨r, hr, hopen, rfl⟩, rfl⟩
  rw [Table.size, ← List.length_map Prod.snd, hperm.length_eq, List.length_map, Table.values,
    List.countP_map, List.countP_eq_length_filter]
  rfl

/-- A row is open, or accepted, or rejected. -/
theorem length_eq_countP_isOpen (rs : List Proposal) :
    rs.length = rs.countP Proposal.isOpen + rs.countP (fun r => r.status = .accepted)
      + rs.countP fun r => r.status = .rejected := by
  induction rs with
  | nil => rfl
  | cons r rs ih =>
      rw [List.length_cons, List.countP_cons, List.countP_cons, List.countP_cons, ih]
      unfold Proposal.isOpen
      cases r.status <;> simp [Status.isTerminal] <;> omega

theorem sum_ite_eq_countP {α : Type} (p : α → Prop) [DecidablePred p] (as : List α) :
    (as.map fun a => if p a then 1 else 0).sum = as.countP fun a => p a := by
  induction as with
  | nil => rfl
  | cons a as ih =>
      rw [List.map_cons, List.sum_cons, ih, List.countP_cons]
      by_cases h : p a
      · simp [h, Nat.add_comm]
      · simp [h]

/-- The counts are what can be read off the rows. -/
structure Ledger.Agrees (l : Ledger) : Prop where
  created : Metrics.count l.metrics.creations .created = l.store.rows.size
  accepted : Metrics.count l.metrics.confirmations .accepted
    = l.store.rows.values.countP fun r => r.status = .accepted
  /-- all confirmations, rejected rows included -/
  confirmations : Metrics.count l.metrics.confirmations .accepted
      + Metrics.count l.metrics.confirmations .confirmed
    = (l.store.rows.values.map fun r => r.driverConfirmed.toNat + r.passengerConfirmed.toNat).sum
  rejected : l.metrics.rejections = l.store.rows.values.countP fun r => r.status = .rejected
  /-- the pairs in the index are those that have been created and neither accepted nor rejected -/
  pairs : l.store.openPairs.size + Metrics.count l.metrics.confirmations .accepted
      + l.metrics.rejections
    = Metrics.count l.metrics.creations .created

namespace Traffic

variable {events : List Event}

/-- **Between the operations the counts agree with the rows**, however the operations have been
interleaved, and whenever the table could not be reached. -/
theorem counts_agree (hadm : Run.Along after Admits {} events) :
    ∀ x ∈ Run.states after {} events, (∀ c ∈ x.callers, c.rest.result? ≠ none) → x.ledger.Agrees := by
  intro x hx htold
  have hcounted : ∀ w : Law, x.store.rows.sum w.weight = w.counted x.ledger.metrics := by
    intro w
    obtain ⟨gs, horderly, h⟩ := exists_balanced w hadm x hx
    exact h.of_told horderly htold
  obtain ⟨gs, horderly, -⟩ := exists_balanced .rows hadm x hx
  have hcreated : Metrics.count x.ledger.metrics.creations .created = x.store.rows.size := by
    have h := hcounted .rows
    rw [Table.sum, Law.rows, List.map_const', List.sum_replicate_nat] at h
    simp [Law.counted, Table.values] at h
    exact h.symm
  have haccepted : Metrics.count x.ledger.metrics.confirmations .accepted
      = x.store.rows.values.countP fun r => r.status = .accepted := by
    have h := hcounted .acceptedRows
    rw [Table.sum, Law.acceptedRows, sum_ite_eq_countP] at h
    simp [Law.counted] at h
    exact h.symm
  have hrejected : x.ledger.metrics.rejections
      = x.store.rows.values.countP fun r => r.status = .rejected := by
    have h := hcounted .rejectedRows
    rw [Table.sum, Law.rejectedRows, sum_ite_eq_countP] at h
    simp [Law.counted] at h
    exact h.symm
  refine ⟨hcreated, haccepted, ?_, hrejected, ?_⟩
  · have h := hcounted .confirmations
    simp [Law.confirmations, Law.counted] at h
    exact h.symm
  · have hstatus := length_eq_countP_isOpen x.store.rows.values
    rw [← horderly.ok.indexed.size_openPairs, ← haccepted, ← hrejected] at hstatus
    rw [hcreated, ← hstatus]
    exact List.length_map _

/-- In the end of the run in which somebody proposes and both confirm, everybody has been told what has
come of it, whether or not the kernel knows that the places are finite. -/
theorem told_agreeing : ∀ c ∈ (agreeing.foldl after {}).callers, c.rest.result? ≠ none := by
  have harrive : ({} : Traffic).after (.arrive (.propose someDraft)) =
      { callers := [⟨.propose someDraft, (Stage.first (.propose someDraft)).program⟩] } := by
    rw [← Operation.program_eq]
    rfl
  rw [agreeing, List.foldl_cons, harrive, Stage.first_propose]
  have hrefusal : someDraft.refusal? = if someDraft.isFinite then none else some .placeNotFinite := rfl
  rw [hrefusal]
  cases someDraft.isFinite with
  | true => decide +kernel
  | false => decide +kernel

theorem counts_agree_agreeing : Run.Along after Admits {} agreeing ∧
    (∀ c ∈ (agreeing.foldl after {}).callers, c.rest.result? ≠ none) ∧
    (agreeing.foldl after {}).ledger.Agrees :=
  ⟨along_agreeing.1, told_agreeing,
    counts_agree along_agreeing.1 _ (Run.foldl_mem_states _ agreeing) told_agreeing⟩

end Traffic
end Dispatch
