/-
Tables that can come about.

A table is `Reached` if some calls lead to it, made by any number of parties in any order; batch
updates may give rows any status.  The index of pairs need not be exact then: a row that is open may
have lost its pair, or two open rows may have the same one.  But one half of the index is always
right.  Whatever row a pair leads to is open and has this pair: a pair is entered with an open row,
and whoever closes the row that a pair leads to lets the pair go.
-/
import Dispatch.Proofs.Store.Index
import Dispatch.Proofs.Store.Vacant

namespace Dispatch

namespace Store

/-- Some calls lead to the table. -/
def Reached (s : Store) : Prop := ∃ moves, Run.Along after Allows {} moves ∧ moves.foldl after {} = s

/-- A pair that leads to a row leads to an open one, which has it. -/
def LeadsOpen (s : Store) : Prop := ∀ p id, s.openPairs.find? p = some id →
  ∃ r, s.row? id = some r ∧ r.isOpen = true ∧ r.pair = p

namespace LeadsOpen

variable {s s' : Store} {r : Proposal}

theorem empty : LeadsOpen {} := fun _ _ h => by cases h

theorem congr (h : s.LeadsOpen) (hrow : ∀ id, s'.row? id = s.row? id)
    (hpair : ∀ p, s'.openPairs.find? p = s.openPairs.find? p) : s'.LeadsOpen := by
  intro p id hp
  rw [hpair] at hp
  rw [hrow]
  exact h p id hp

/-- A new row is entered, which is open. -/
theorem claimPair (h : s.LeadsOpen) (hnew : s.row? r.id = none) (hopen : r.isOpen = true) :
    (s.claimPair r).LeadsOpen := by
  intro p id hp
  rw [find?_openPairs_claimPair] at hp
  rw [row?_claimPair]
  split at hp
  · obtain rfl := Option.some.inj hp
    exact ⟨r, Function.update_self _ _ _, hopen, Eq.symm (by assumption)⟩
  · obtain ⟨b, hb, hbo⟩ := h p id hp
    have hne : id ≠ r.id := by
      rintro rfl
      rw [hnew] at hb
      cases hb
    exact ⟨b, by rw [Function.update_of_ne hne, hb], hbo⟩

theorem claims (h : s.LeadsOpen) {rs : List Proposal}
    (hnew : ∀ r ∈ rs, s.row? r.id = none ∧ r.isOpen = true)
    (hnodup : (rs.map Proposal.id).Nodup) : (rs.foldl Store.claimPair s).LeadsOpen := by
  induction rs generalizing s with
  | nil => exact h
  | cons a rest ih =>
      rw [List.map_cons, List.nodup_cons] at hnodup
      obtain ⟨habsent, hopen⟩ := hnew a List.mem_cons_self
      refine ih (h.claimPair habsent hopen) (fun r hr => ?_) hnodup.2
      have hne : r.id ≠ a.id := fun he => hnodup.1 (List.mem_map.mpr ⟨r, hr, he⟩)
      rw [row?_claimPair, Function.update_of_ne hne]
      exact hnew r (List.mem_cons_of_mem _ hr)

/-- A row is written over one that has the same pair. -/
theorem writeRow (h : s.LeadsOpen) (hbase : ∃ b, s.row? r.id = some b ∧ b.pair = r.pair) :
    (s.writeRow r).LeadsOpen := by
  obtain ⟨b, hb, hbr⟩ := hbase
  intro p id hp
  rw [find?_openPairs_writeRow] at hp
  rw [row?_writeRow]
  split at hp
  · cases hp
  · rename_i hnot
    obtain ⟨c, hc, hco, hcp⟩ := h p id hp
    by_cases hid : id = r.id
    · -- the pair has not been let go, so the row is not closed
      subst hid
      obtain rfl := Option.some.inj (hb.symm.trans hc)
      have hpair : r.pair = p := hbr.symm.trans hcp
      refine ⟨r, Function.update_self _ _ _, ?_, hpair⟩
      have hterm : ¬ r.status.isTerminal = true := fun ht => hnot ⟨hpair.symm, ht, hp⟩
      simpa [Proposal.isOpen] using hterm
    · exact ⟨c, by rw [Function.update_of_ne hid, hc], hco, hcp⟩

theorem writes (h : s.LeadsOpen) {rs : List Proposal}
    (hbase : ∀ r ∈ rs, ∃ b, s.row? r.id = some b ∧ b.pair = r.pair) :
    (rs.foldl Store.writeRow s).LeadsOpen := by
  induction rs generalizing s with
  | nil => exact h
  | cons a rest ih =>
      have ha := hbase a List.mem_cons_self
      refine ih (h.writeRow ha) fun r hr => ?_
      obtain ⟨b, hb, hbr⟩ := hbase r (List.mem_cons_of_mem _ hr)
      rw [row?_writeRow]
      by_cases hid : r.id = a.id
      · obtain ⟨b', hb', hba⟩ := ha
        rw [hid, hb'] at hb
        obtain rfl := Option.some.inj hb
        exact ⟨a, by rw [hid, Function.update_self], hba.symm.trans hbr⟩
      · exact ⟨b, by rw [Function.update_of_ne hid, hb], hbr⟩

theorem of_effect (h : s.LeadsOpen) (hs : Seen s) (he : Effect s s') : s'.LeadsOpen := by
  cases he with
  | keeps hrow hpair hstaged => exact h.congr hrow hpair
  | stages t c hc hrow hpair hstaged => exact h.congr hrow hpair
  | commits t hfree hrow hpair hstaged =>
      have hclaimed := h.claims (fun r hr => hs.new_absent (t := t) hr) (hs.new_nodup t)
      exact (hclaimed.writes fun r hr => hs.base_of_claimed hr).congr hrow hpair
  | closes b r hb hbr hclosed hrow hpair hstaged =>
      exact (h.writeRow ⟨b, hb, hbr⟩).congr hrow hpair

/-- **Whatever somebody does, pairs lead to open rows only.** -/
theorem after (h : s.LeadsOpen) (hs : Seen s) {a : Move} (hallows : s.Allows a) :
    (s.after a).LeadsOpen := by
  rcases hs.effect_or_rewrites hallows with he | ⟨b, r, hb, hbr, hrow, hpair, -⟩
  · exact h.of_effect hs he
  · exact (h.writeRow ⟨b, hb, hbr⟩).congr hrow hpair

end LeadsOpen

/-- What is in order in every table that can come about, and stays so when rows are written. -/
structure Steady (s : Store) : Prop where
  queued : Queued s
  filed : s.Filed
  leads : s.LeadsOpen

theorem Reached.steady {s : Store} (h : s.Reached) : s.Steady := by
  obtain ⟨moves, hallows, rfl⟩ := h
  have hstep : ∀ {s a}, (Queued s ∧ Seen s) ∧ s.LeadsOpen → s.Allows a →
      (Queued (s.after a) ∧ Seen (s.after a)) ∧ (s.after a).LeadsOpen :=
    fun ⟨⟨hq, hs⟩, hl⟩ ha => ⟨⟨hq.after hs ha, hs.allowed ha⟩, hl.after hs ha⟩
  obtain ⟨⟨hqueued, hseen⟩, hleads⟩ := Run.invariant hstep
    ⟨⟨Queued.empty, Seen.empty⟩, LeadsOpen.empty⟩ hallows _ (Run.foldl_mem_states _ moves)
  exact ⟨hqueued, fun _ _ hr => hseen.id_eq hr, hleads⟩

end Store
end Dispatch
