/-
What a rejection does.

A rejection lists the open rows that have the driver or the passenger of an accepted proposal in the
same part, and closes them one by one.  If nobody stands at the lock of any of them it comes to its
end; otherwise it has to wait (`Sweeps`).  What it leaves behind depends on the identifiers of the
rows alone and not on their order (`Store.Rejected`): each of the rows is rejected, and a pair that
led to one of them leads nowhere.

A pair leads to open rows of its own only.  If it led to a row that competes with the accepted
proposal, all that have the pair compete with it, and so the pairs of the rejected rows are exactly
the ones that are let go, although the index of pairs need not be exact otherwise.

The driver is looked for among the drivers and the passenger among the passengers.  An open proposal
in which the driver of the accepted one is to ride, or its passenger is to drive, is not found in
this way, and stays open.
-/
import Dispatch.Proofs.Matching.AllOrNothing
import Dispatch.Proofs.Store.Passing
import Mathlib.Data.List.Perm.Subperm

namespace Dispatch

/-! ### Tables that have lost entries -/

namespace Table

variable {κ α : Type} [DecidableEq κ]

theorem keys_insert_of_mem (t : Table κ α) {k : κ} (h : (t.find? k).isSome) (b : α) :
    (t.insert k b).keys = t.keys := by
  obtain ⟨l, hl⟩ := t
  change (lookupIn k l).isSome at h
  show (putIn k b l).map Prod.fst = l.map Prod.fst
  clear hl
  induction l with
  | nil => cases h
  | cons e rest ih =>
      obtain ⟨k', a'⟩ := e
      by_cases hk : k' = k
      · simp [putIn, hk]
      · rw [lookupIn, if_neg hk] at h
        rw [putIn, if_neg hk, List.map_cons, List.map_cons, ih h]

theorem keys_erase_sublist (t : Table κ α) (k : κ) : (t.erase k).keys.Sublist t.keys :=
  List.filter_sublist.map Prod.fst

/-- The keys that are left, in their order. -/
theorem keys_of_sublist {t t' : Table κ α} (h : t'.keys.Sublist t.keys) :
    t'.keys = t.keys.filter fun k => (t'.find? k).isSome := by
  have hself : (t'.keys.filter fun k => (t'.find? k).isSome) = t'.keys :=
    List.filter_eq_self.mpr fun k hk => t'.mem_keys_iff.1 hk
  have hle : (t.keys.filter fun k => (t'.find? k).isSome).length ≤ t'.keys.length := by
    have hnodup : (t.keys.filter fun k => (t'.find? k).isSome).Nodup := t.nodup_keys.filter _
    refine (List.subperm_of_subset hnodup fun k hk => ?_).length_le
    exact t'.mem_keys_iff.2 (List.mem_filter.mp hk).2
  have hsub := h.filter fun k => (t'.find? k).isSome
  rw [hself] at hsub
  exact hsub.eq_of_length_le hle

theorem entries_eq (t : Table κ α) :
    t.entries = t.keys.filterMap fun k => (t.find? k).map fun a => (k, a) := by
  have hself : ∀ e ∈ t.entries, ((t.find? e.1).map fun a => (e.1, a)) = some e := fun e he => by
    rw [t.find?_eq_some_iff.2 he]
    rfl
  rw [keys, List.filterMap_map]
  exact (List.filterMap_some.symm.trans (List.filterMap_congr fun e he => (hself e he).symm))

/-- Two tables that come of one by losing entries, and in which the same is found, are the same. -/
theorem eq_of_find?_eq {t t₁ t₂ : Table κ α} (h₁ : t₁.keys.Sublist t.keys)
    (h₂ : t₂.keys.Sublist t.keys) (h : ∀ k, t₁.find? k = t₂.find? k) : t₁ = t₂ := by
  have hkeys : t₁.keys = t₂.keys := by
    rw [keys_of_sublist h₁, keys_of_sublist h₂]
    exact List.filter_congr fun k _ => by rw [h]
  have hentries : t₁.entries = t₂.entries := by
    rw [entries_eq t₁, entries_eq t₂, hkeys]
    exact List.filterMap_congr fun k _ => by rw [h]
  cases t₁
  cases t₂
  obtain rfl := hentries
  rfl

end Table

/-! ### Rows that have been rejected -/

theorem Proposal.isOpen_of_accepted {r : Proposal} (h : r.status = .accepted) :
    r.isOpen = false := by
  rw [isOpen, h]
  rfl

namespace Store

/-- Some rows have been rejected, and no pair leads to them any more.  All else is as before. -/
structure Rejected (now : Time.Instant) (ids : List MatchId) (s s' : Store) : Prop where
  row : ∀ id, s'.row? id =
    if id ∈ ids then (s.row? id).map fun r => r.rejectedAt now else s.row? id
  openPairs : ∀ p, s'.openPairs.find? p = (s.openPairs.find? p).filter fun id => decide (id ∉ ids)
  rowKeys : s'.rows.keys.Sublist s.rows.keys
  pairKeys : s'.openPairs.keys.Sublist s.openPairs.keys

namespace Rejected

variable {now : Time.Instant} {ids ids' : List MatchId} {s s₁ s₂ s' : Store} {id : MatchId}
  {r : Proposal}

/-- None has been rejected. -/
theorem nil (hrows : s'.rows = s.rows) (hpairs : s'.openPairs = s.openPairs) :
    Rejected now [] s s' where
  row id := congrArg (fun rows => rows.find? id) hrows
  openPairs p := by
    rw [hpairs]
    cases s.openPairs.find? p <;> rfl
  rowKeys := hrows ▸ .refl _
  pairKeys := hpairs ▸ .refl _

/-- First some rows are rejected, and then others.  If the clock stands still it does not matter
whether a row is rejected twice. -/
theorem trans (h : Rejected now ids s s₁) (h' : Rejected now ids' s₁ s') :
    Rejected now (ids ++ ids') s s' where
  row id := by
    rw [h'.row, h.row]
    by_cases hid : id ∈ ids
    · rw [if_pos hid, if_pos (List.mem_append_left _ hid)]
      split
      · rw [Option.map_map]
        rfl
      · rfl
    · rw [if_neg hid]
      simp only [List.mem_append, hid, false_or]
  openPairs p := by
    rw [h'.openPairs, h.openPairs, Option.filter_filter]
    congr 1
    funext id
    simp
  rowKeys := h'.rowKeys.trans h.rowKeys
  pairKeys := h'.pairKeys.trans h.pairKeys

/-- One row is rejected. -/
theorem single (hleads : s.LeadsOpen) (hr : s.row? id = some r) (hid : r.id = id)
    (hc : s'.contents = s.contents.writeRow (r.rejectedAt now)) : Rejected now [id] s s' := by
  have hrows : s'.rows = s.rows.insert id (r.rejectedAt now) := by
    have hrow := congrArg Store.rows hc
    rw [rows_writeRow, show (r.rejectedAt now).id = id from hid] at hrow
    exact hrow
  have hpairs : s'.openPairs = if s.openPairs.find? r.pair = some id
      then s.openPairs.erase r.pair else s.openPairs := by
    have hpair := congrArg Store.openPairs hc
    rw [openPairs_writeRow, show (r.rejectedAt now).id = id from hid] at hpair
    exact hpair.trans (if_congr (and_iff_right rfl) rfl rfl)
  refine ⟨fun x => ?_, fun p => ?_, ?_, ?_⟩
  · show s'.rows.find? x = _
    rw [hrows, Table.find?_insert]
    by_cases hx : x = id
    · subst hx
      simp [hr]
    · simp [hx, row?]
  · -- the only pair that can lead to the row is its own
    have hown : s.openPairs.find? p = some id → p = r.pair := fun hp => by
      obtain ⟨r', hr', -, hpair⟩ := hleads p id hp
      obtain rfl := Option.some.inj (hr.symm.trans hr')
      exact hpair.symm
    rw [hpairs]
    cases hp : s.openPairs.find? p with
    | none =>
        split
        · rw [Table.find?_erase, hp]
          simp
        · rw [hp]
          rfl
    | some x =>
        by_cases hx : x = id
        · subst hx
          obtain rfl := hown hp
          rw [if_pos hp, Table.find?_erase, if_pos rfl]
          simp [Option.filter_some]
        · have hkept : (if s.openPairs.find? r.pair = some id then s.openPairs.erase r.pair
              else s.openPairs).find? p = some x := by
            split
            · rename_i hled
              rw [Table.find?_erase, if_neg, hp]
              rintro rfl
              exact hx (Option.some.inj (hp.symm.trans hled))
            · exact hp
          rw [hkept]
          simp [hx, Option.filter_some]
  · rw [hrows, Table.keys_insert_of_mem]
    exact (congrArg Option.isSome hr).trans rfl
  · rw [hpairs]
    split
    · exact Table.keys_erase_sublist _ _
    · exact .refl _

theorem congr (h : Rejected now ids s s') (hsame : ∀ id, id ∈ ids ↔ id ∈ ids') :
    Rejected now ids' s s' where
  row id := (h.row id).trans (if_congr (hsame id) rfl rfl)
  openPairs p := by
    rw [h.openPairs]
    congr 1
    funext id
    rw [decide_eq_decide, hsame]
  rowKeys := h.rowKeys
  pairKeys := h.pairKeys

/-- **What is left depends on which rows are rejected**, and not on their order. -/
theorem tables_eq (h₁ : Rejected now ids s s₁) (h₂ : Rejected now ids s s₂) :
    s₂.rows = s₁.rows ∧ s₂.openPairs = s₁.openPairs := by
  refine ⟨Table.eq_of_find?_eq h₂.rowKeys h₁.rowKeys fun id => ?_,
    Table.eq_of_find?_eq h₂.pairKeys h₁.pairKeys fun p => ?_⟩
  · exact (h₂.row id).trans (h₁.row id).symm
  · exact (h₂.openPairs p).trans (h₁.openPairs p).symm

/-- An accepted row competes with nothing, and is left alone. -/
theorem row?_of_accepted (h : Rejected now ids s s') {q : Rejecting}
    (hids : ∀ id, id ∈ ids ↔ q.Competes s id) (hr : s.row? id = some r)
    (hacc : r.status = .accepted) : s'.row? id = some r := by
  rw [h.row, if_neg, hr]
  intro hid
  obtain ⟨-, r', hr', hopen, -⟩ := (hids id).1 hid
  obtain rfl := Option.some.inj (hr.symm.trans hr')
  rw [Proposal.isOpen_of_accepted hacc] at hopen
  cases hopen

/-- Whatever competes afterwards has competed before, and has not been rejected. -/
theorem competes_iff (h : Rejected now ids s s') {q : Rejecting} :
    q.Competes s' id ↔ q.Competes s id ∧ id ∉ ids := by
  unfold Rejecting.Competes
  rw [h.row]
  by_cases hid : id ∈ ids
  · rw [if_pos hid]
    refine ⟨fun ⟨_, r', hr', hopen, _⟩ => ?_, fun hc => absurd hid hc.2⟩
    obtain ⟨r, -, rfl⟩ := Option.map_eq_some_iff.mp hr'
    cases hopen
  · rw [if_neg hid]
    exact (and_iff_left hid).symm

end Rejected
end Store

/-! ### Runs -/

namespace Program

section

variable {α : Type} {m : Moment} {s s' : Store} {k : Metrics} {c : StoreCall}
  {next : c.Reply → Program MatchCall.Reply α}

theorem run_answer {r : c.Reply} (h : Store.perform m c s = .answer r s') :
    (call (.store c) next : Program MatchCall.Reply α).run (Ledger.perform m) ⟨s, k⟩
      = (next r).run (Ledger.perform m) ⟨s', k⟩ := by
  rw [run_call, Ledger.perform, h]
  rfl

theorem run_wait (h : Store.perform m c s = .wait s') :
    (call (.store c) next : Program MatchCall.Reply α).run (Ledger.perform m) ⟨s, k⟩
      = (.call (.store c) next, ⟨s', k⟩) := by
  rw [run_call, Ledger.perform, h]
  rfl

end

variable {α β σ : Type} {h : Handler MatchCall.Reply σ} {p : Program MatchCall.Reply α} {f : α → β}
  {a : α} {s s' : σ}

/-- What comes of a program whose result is only given another form. -/
theorem run_map_done (hf : Function.Injective f) :
    (p.bind fun a => .done (f a)).run h s = (.done (f a), s') ↔ p.run h s = (.done a, s') := by
  rw [run_bind]
  rcases p.run h s with ⟨b | ⟨c, next⟩, s₁⟩
  · simp [hf.eq_iff]
  · simp

theorem run_map_call {c : MatchCall} {next : c.Reply → Program MatchCall.Reply β}
    (hrun : (p.bind fun a => .done (f a)).run h s = (.call c next, s')) :
    ∃ next', p.run h s = (.call c next', s') := by
  rw [run_bind] at hrun
  rcases hp : p.run h s with ⟨b | ⟨c', next'⟩, s₁⟩
  · rw [hp] at hrun
    cases hrun
  · rw [hp] at hrun
    cases hrun
    exact ⟨next', rfl⟩

end Program

theorem Metrics.record_rejections_add (k : Metrics) (n n' : Nat) :
    (k.record (.rejections n)).record (.rejections n') = k.record (.rejections (n + n')) := by
  simp only [record, Nat.add_assoc]

/-- What comes of a program that is to reject some rows.  If all their locks are free, it ends with
a result and has counted some rejections; otherwise it is left waiting. -/
inductive Sweeps {α : Type} (m : Moment) (s : Store) (k : Metrics) (ids : List MatchId) (n : Nat)
    (told : α) (p : Program MatchCall.Reply α) : Prop where
  | ends {s' : Store} (hfree : ∀ id ∈ ids, s.Free id)
      (hrun : p.run (Ledger.perform m) ⟨s, k⟩ = (.done told, ⟨s', k.record (.rejections n)⟩))
      (hrejected : s.Rejected m.now ids s') (hsteady : s'.Steady) (hrest : s.Passed s')
  | waits {id : MatchId} (hid : id ∈ ids) (hheld : ¬ s.Free id) {c : MatchCall}
      {next : c.Reply → Program MatchCall.Reply α} {l' : Ledger}
      (hrun : p.run (Ledger.perform m) ⟨s, k⟩ = (.call c next, l'))

namespace Sweeps

variable {α β : Type} {m : Moment} {s s' : Store} {k : Metrics} {ids ids' : List MatchId}
  {n n' : Nat} {told : α} {told' : β}

/-- A call that is answered, and then the rest. -/
theorem call {c : StoreCall} {r : c.Reply} {next : c.Reply → Program MatchCall.Reply α}
    (hc : Store.perform m c s = .answer r s') (hfree : ∀ id ∈ ids, s.Free id)
    (hrejected : s.Rejected m.now ids s') (hrest : s.Passed s')
    (h : Sweeps m s' k ids' n told (next r)) :
    Sweeps m s k (ids ++ ids') n told (.call (.store c) next) := by
  cases h with
  | ends hfree' hrun hrejected' hsteady hrest' =>
      refine .ends (fun id hid => ?_) ((Program.run_answer hc).trans hrun)
        (hrejected.trans hrejected') hsteady (hrest.trans hrest')
      exact (List.mem_append.mp hid).elim (hfree id) fun hid => (hrest.free id).1 (hfree' id hid)
  | waits hid hheld hrun =>
      exact .waits (List.mem_append_right _ hid) (fun hf => hheld ((hrest.free _).2 hf))
        ((Program.run_answer hc).trans hrun)

theorem congr {p p' : Program MatchCall.Reply α} (h : Sweeps m s k ids n told p)
    (hrun : p'.run (Ledger.perform m) ⟨s, k⟩ = p.run (Ledger.perform m) ⟨s, k⟩) :
    Sweeps m s k ids n told p' := by
  cases h with
  | ends hfree hrun' hrejected hsteady hrest =>
      exact .ends hfree (hrun.trans hrun') hrejected hsteady hrest
  | waits hid hheld hrun' => exact .waits hid hheld (hrun.trans hrun')

theorem done (hs : s.Steady) (k : Metrics) (told : α) : Sweeps m s k [] 0 told (.done told) :=
  .ends (fun _ => nofun) rfl (.nil rfl rfl) hs (.refl s)

/-- A program that comes to its end, and then another one. -/
theorem bind {p : Program MatchCall.Reply α} {f : α → Program MatchCall.Reply β}
    (hrun : p.run (Ledger.perform m) ⟨s, k⟩ = (.done told, ⟨s', k.record (.rejections n)⟩))
    (hfree : ∀ id ∈ ids, s.Free id) (hrejected : s.Rejected m.now ids s')
    (hrest : s.Passed s')
    (h : Sweeps m s' (k.record (.rejections n)) ids' n' told' (f told)) :
    Sweeps m s k (ids ++ ids') (n + n') told' (p.bind f) := by
  have hbind : (p.bind f).run (Ledger.perform m) ⟨s, k⟩
      = (f told).run (Ledger.perform m) ⟨s', k.record (.rejections n)⟩ := by
    rw [Program.run_bind, hrun]
  cases h with
  | ends hfree' hrun' hrejected' hsteady hrest' =>
      rw [k.record_rejections_add] at hrun'
      refine .ends (fun id hid => ?_) (hbind.trans hrun') (hrejected.trans hrejected') hsteady
        (hrest.trans hrest')
      exact (List.mem_append.mp hid).elim (hfree id) fun hid => (hrest.free id).1 (hfree' id hid)
  | waits hid hheld hrun' =>
      exact .waits (List.mem_append_right _ hid) (fun hf => hheld ((hrest.free _).2 hf))
        (hbind.trans hrun')

/-- If a program waits, so does what is to follow. -/
theorem bind_of_waits {p : Program MatchCall.Reply α} {f : α → Program MatchCall.Reply β}
    {id : MatchId} (hid : id ∈ ids) (hheld : ¬ s.Free id) {c : MatchCall}
    {next : c.Reply → Program MatchCall.Reply α} {l' : Ledger}
    (hrun : p.run (Ledger.perform m) ⟨s, k⟩ = (.call c next, l')) :
    Sweeps m s k ids n told' (p.bind f) := by
  have hbind : (p.bind f).run (Ledger.perform m) ⟨s, k⟩ = (.call c fun r => (next r).bind f, l') := by
    rw [Program.run_bind, hrun]
  exact .waits hid hheld hbind

/-- The result of a program is given another form. -/
theorem map {p : Program MatchCall.Reply α} (f : α → β) (h : Sweeps m s k ids n told p) :
    Sweeps m s k ids n (f told) (p.bind fun a => .done (f a)) := by
  cases h with
  | ends hfree hrun hrejected hsteady hrest =>
      have hdone := Sweeps.done (m := m) hsteady (k.record (.rejections n)) (f told)
      have hbind := bind (f := fun a => .done (f a)) hrun hfree hrejected hrest hdone
      rwa [List.append_nil, Nat.add_zero] at hbind
  | waits hid hheld hrun => exact bind_of_waits hid hheld hrun

theorem perm {p : Program MatchCall.Reply α} (h : Sweeps m s k ids n told p)
    (hperm : ids.Perm ids') : Sweeps m s k ids' n told p := by
  cases h with
  | ends hfree hrun hrejected hsteady hrest =>
      exact .ends (fun id hid => hfree id (hperm.mem_iff.2 hid)) hrun
        (hrejected.congr fun _ => hperm.mem_iff) hsteady hrest
  | waits hid hheld hrun => exact .waits (hperm.mem_iff.1 hid) hheld hrun

/-- A program whose result is only given another form. -/
theorem of_map {p : Program MatchCall.Reply α} {f : α → β} (hf : Function.Injective f)
    (h : Sweeps m s k ids n (f told) (p.bind fun a => .done (f a))) : Sweeps m s k ids n told p := by
  cases h with
  | ends hfree hrun hrejected hsteady hrest =>
      exact .ends hfree ((Program.run_map_done hf).1 hrun) hrejected hsteady hrest
  | waits hid hheld hrun =>
      obtain ⟨next, hrun⟩ := Program.run_map_call hrun
      exact .waits hid hheld hrun

end Sweeps

/-! ### Rejecting what competes -/

namespace Rejecting

variable {m : Moment} {s : Store} {k : Metrics} {q : Rejecting} {a : Proposal}

open Store

/-- Rows that are open are rejected one by one. -/
theorem sweeps_reject {t : Ticket} {ids : List MatchId} (hs : s.Steady) (hidle : s.Idle t)
    (hlt : t < s.nextTicket) (hnodup : ids.Nodup)
    (hopen : ∀ id ∈ ids, ∃ r, s.row? id = some r ∧ r.isOpen = true) (n : Nat) :
    Sweeps m s k ids (n + ids.length) (.rejections (.ok (n + ids.length))) (reject t ids n) := by
  induction ids generalizing s n with
  | nil => exact .ends (fun _ => nofun) rfl (.nil rfl rfl) hs (.refl s)
  | cons id ids ih =>
      obtain ⟨r, hr, hro⟩ := hopen id List.mem_cons_self
      rw [List.nodup_cons] at hnodup
      have hmem : r.status ∈ Status.openStates := by
        rw [Status.mem_openStates_iff]
        simpa [Proposal.isOpen] using hro
      by_cases hfree : s.Free id
      · obtain ⟨s', hanswer, hcontents, hs', hrest⟩ :=
          hs.updateRow hidle hlt hfree hr hmem m .rejected
        have hrejected : s.Rejected m.now [id] s' := .single hs.leads hr (hs.filed id r hr) hcontents
        have hopen' : ∀ id' ∈ ids, ∃ r, s'.row? id' = some r ∧ r.isOpen = true := fun id' hid' => by
          have hne : id' ∉ [id] := fun h => hnodup.1 (List.mem_singleton.mp h ▸ hid')
          rw [hrejected.row, if_neg hne]
          exact hopen id' (List.mem_cons_of_mem _ hid')
        have hrows := ih hs' (hrest.idle hidle) (Nat.lt_of_lt_of_le hlt hrest.nextTicket) hnodup.2
          hopen' (n + 1)
        rw [List.length_cons, show n + (ids.length + 1) = n + 1 + ids.length by omega]
        exact .call hanswer (fun x hx => List.mem_singleton.mp hx ▸ hfree) hrejected hrest hrows
      · obtain ⟨s', hwait⟩ := hs.updateRow_waits hidle hfree m .rejected Status.openStates
        exact .waits List.mem_cons_self hfree (Program.run_wait hwait)

theorem sweeps_rejectListed {ids : List MatchId} (hs : s.Steady) (hon : s.offline = false)
    (hopen : ∀ id ∈ ids, ∃ r, s.row? id = some r ∧ r.isOpen = true) :
    Sweeps m s k (sortedIds ids) (sortedIds ids).length
      (.rejections (.ok (sortedIds ids).length)) (rejectListed ids) := by
  cases ids with
  | nil =>
      have hnil : sortedIds [] = [] := by simp [sortedIds]
      rw [hnil]
      exact .done hs k _
  | cons id ids =>
      have hrows := sweeps_reject (m := m) (k := k) hs.openBatch hs.idle_nextTicket
        (Nat.lt_succ_self _) (nodup_sortedIds (id :: ids))
        (fun id' hid' => hopen id' (mem_sortedIds.1 hid')) 0
      rw [Nat.zero_add] at hrows
      show Sweeps m s k ([] ++ sortedIds (id :: ids)) _ _ (.call (.store .openBatch) _)
      exact .call (openBatch_online m hon) (fun x hx => by cases hx) (.nil rfl rfl) (.openBatch s) hrows

/-- Looking at the accepted row and listing what competes changes nothing. -/
theorem run_check (hon : s.offline = false) (ha : s.row? q.accepted = some a)
    (hacc : a.status = .accepted) : q.check.run (Ledger.perform m) ⟨s, k⟩
      = (rejectListed (Stage.competing s q (s.rowsOf q.driver .driver))).run (Ledger.perform m)
          ⟨s, k⟩ := by
  have hget : Store.perform m (.get q.accepted) s = .answer (.ok a) s := by
    rw [get_online m hon, ha]
  rw [check, Program.run_answer hget]
  show (if a.status ≠ .accepted then _ else q.listDriven).run _ _ = _
  rw [if_neg (not_not_intro hacc), listDriven, Program.run_answer (list_online m hon _ _)]
  show (q.listRidden (s.rowsOf q.driver .driver)).run _ _ = _
  rw [listRidden, Program.run_answer (list_online m hon _ _)]
  rfl

/-- **What competes is rejected**, if the proposal has been accepted. -/
theorem sweeps_rejectCompeting (hs : s.Steady) (hon : s.offline = false)
    (ha : s.row? q.accepted = some a) (hacc : a.status = .accepted) (m : Moment) (k : Metrics) :
    ∃ ids : List MatchId, ids.Nodup ∧ (∀ id, id ∈ ids ↔ q.Competes s id) ∧
      Sweeps m s k ids ids.length (.ok ids.length)
        (Matching.rejectCompeting q.accepted q.driver q.passenger) := by
  have hmem : ∀ id, id ∈ Stage.competing s q (s.rowsOf q.driver .driver) ↔ q.Competes s id :=
    fun id => Stage.mem_competing hs.filed
  have hopen : ∀ id ∈ Stage.competing s q (s.rowsOf q.driver .driver),
      ∃ r, s.row? id = some r ∧ r.isOpen = true := fun id hid => by
    obtain ⟨-, r, hr, hro, -⟩ := (hmem id).1 hid
    exact ⟨r, hr, hro⟩
  refine ⟨_, nodup_sortedIds _, fun id => mem_sortedIds.trans (hmem id), ?_⟩
  have hlisted := sweeps_rejectListed (m := m) (k := k) hs hon hopen
  refine .of_map (f := Outcome.rejections) (fun _ _ h => Outcome.rejections.inj h) ?_
  show Sweeps m s k _ _ _ (Operation.rejectCompeting q.accepted q.driver q.passenger).program
  rw [program_eq]
  exact hlisted.congr (run_check hon ha hacc)

/-- Where nothing competes nothing is done. -/
theorem run_rejectCompeting_of_none (hs : s.Filed) (hon : s.offline = false)
    (ha : s.row? q.accepted = some a) (hacc : a.status = .accepted)
    (hnone : ∀ id, ¬ q.Competes s id) (m : Moment) (k : Metrics) :
    (Matching.rejectCompeting q.accepted q.driver q.passenger).run (Ledger.perform m) ⟨s, k⟩
      = (.done (.ok 0), ⟨s, k⟩) := by
  have hempty : Stage.competing s q (s.rowsOf q.driver .driver) = [] :=
    List.eq_nil_iff_forall_not_mem.mpr fun id hid => hnone id ((Stage.mem_competing hs).1 hid)
  have hrun := run_check (m := m) (k := k) hon ha hacc
  rw [hempty, ← program_eq] at hrun
  exact (Program.run_map_done fun _ _ h => Outcome.rejections.inj h).1 hrun

/-- While the table cannot be reached nothing is done, and the caller is told so. -/
theorem run_rejectCompeting_offline (hoff : s.offline = true) (q : Rejecting) (m : Moment)
    (k : Metrics) :
    (Matching.rejectCompeting q.accepted q.driver q.passenger).run (Ledger.perform m) ⟨s, k⟩
      = (.done (.error (.store .offline)), ⟨s, k⟩) := by
  have hrun : q.check.run (Ledger.perform m) ⟨s, k⟩
      = (.done (.rejections (.error (.store .offline))), ⟨s, k⟩) := by
    rw [check, Program.run_answer (get_offline m hoff _)]
    rfl
  rw [← program_eq] at hrun
  exact (Program.run_map_done fun _ _ h => Outcome.rejections.inj h).1 hrun

end Rejecting
end Dispatch
