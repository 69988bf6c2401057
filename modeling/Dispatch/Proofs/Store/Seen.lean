/-
What transactions have seen of the table.

A transaction stages its changes looking at rows that it has locked, and a lock should keep
the rows as they are until it ends.  Nothing is assumed about the locks in this file.  What
remains true without them is `Seen`: the changes of each transaction could be made to the rows
as it has seen them, and although rows may have changed since, they still have the same pairs.

`Seen` survives each of the things that a move can do (`Store.Effect`).
-/
import Dispatch.Proofs.Store.Effects

namespace Dispatch

namespace Coherent

variable {view : MatchId → Option Proposal} {changes : List Staged}

/-- Every change is one of a row that exists, or is new, and has the pair of the row. -/
theorem pair_eq (h : Coherent view changes) {c : Staged} (hc : c ∈ changes) :
    ∃ b, overlay view (newRowsOf changes) c.row.id = some b ∧ b.pair = c.row.pair := by
  induction h with
  | nil => cases hc
  | @insert view r rest hnew hopen h ih =>
      rcases List.mem_cons.mp hc with rfl | hc
      · refine ⟨r, ?_, rfl⟩
        rw [newRowsOf_insert, overlay_cons, overlay_of_not_mem]
        · exact Function.update_self _ _ _
        · intro r' hr' he
          have hnone := (h.new_absent r' hr').1
          rw [he, Staged.row, Function.update_self] at hnone
          cases hnone
      · exact ih hc
  | @update view b r rest hbase hopen hpair h ih =>
      have hnew : ∀ r' ∈ newRowsOf rest, r'.id ≠ r.id := by
        intro r' hr' he
        have hnone := (h.new_absent r' hr').1
        rw [he, Function.update_self] at hnone
        cases hnone
      rcases List.mem_cons.mp hc with rfl | hc
      · refine ⟨b, ?_, hpair⟩
        show overlay view (newRowsOf rest) r.id = some b
        rw [overlay_of_not_mem hnew]
        exact hbase
      · obtain ⟨b', hb', hp'⟩ := ih hc
        rw [newRowsOf_update]
        by_cases hid : c.row.id = r.id
        · rw [hid, overlay_of_not_mem hnew, Function.update_self] at hb'
          obtain rfl := Option.some.inj hb'
          refine ⟨b, ?_, hpair.trans hp'⟩
          rw [hid, overlay_of_not_mem hnew]
          exact hbase
        · refine ⟨b', ?_, hp'⟩
          rw [overlay_apply, Function.update_of_ne hid] at hb'
          rw [overlay_apply]
          exact hb'

/-- No change is one of a closed row. -/
theorem ne_of_closed (h : Coherent view changes) {id : MatchId} {b : Proposal}
    (hb : view id = some b) (hclosed : b.isOpen = false) {c : Staged} (hc : c ∈ changes) :
    c.row.id ≠ id := by
  induction h generalizing b with
  | nil => cases hc
  | @insert view r rest hnew hopen h ih =>
      have hne : id ≠ r.id := by
        intro he
        rw [he, hnew] at hb
        cases hb
      rcases List.mem_cons.mp hc with rfl | hc
      · exact Ne.symm hne
      · exact ih (by rw [Function.update_of_ne hne]; exact hb) hclosed hc
  | @update view b' r rest hbase hopen hpair h ih =>
      have hne : id ≠ r.id := by
        intro he
        rw [he, hbase] at hb
        obtain rfl := Option.some.inj hb
        rw [hopen] at hclosed
        cases hclosed
      rcases List.mem_cons.mp hc with rfl | hc
      · exact Ne.symm hne
      · exact ih (by rw [Function.update_of_ne hne]; exact hb) hclosed hc

/-- If a row is open in the end, all changes of it have left it open. -/
theorem isOpen_of_last (h : Coherent view changes) {c : Staged} (hc : c ∈ changes) {r : Proposal}
    (hr : overlay view (changes.map Staged.row) c.row.id = some r) (hopen : r.isOpen = true) :
    c.row.isOpen = true := by
  induction h with
  | nil => cases hc
  | @insert view a rest hnew hopen' h ih =>
      rcases List.mem_cons.mp hc with rfl | hc
      · exact hopen'
      · exact ih hc hr
  | @update view b a rest hbase hopen' hpair h ih =>
      rcases List.mem_cons.mp hc with rfl | hc
      · cases hao : a.isOpen with
        | true => exact hao
        | false =>
            -- then nothing follows, and the row is closed in the end
            have hlast : overlay (Function.update view a.id (some a)) (rest.map Staged.row) a.id
                = some a := by
              rw [overlay_of_not_mem, Function.update_self]
              intro r' hr'
              obtain ⟨d, hd, rfl⟩ := List.mem_map.mp hr'
              exact h.ne_of_closed (Function.update_self _ _ _) hao hd
            obtain rfl : a = r := Option.some.inj (hlast.symm.trans hr)
            rw [hao] at hopen
            cases hopen
      · exact ih hc hr

end Coherent

namespace Seen

variable {s : Store}

open Store

/-! ### Pairs never change -/

/-- What a transaction has staged for a row that is in the table has the pair of the row. -/
theorem pair_of_staged (hs : Seen s) {t : Ticket} {c : Staged}
    (hc : c ∈ (s.transaction t).staged) {b : Proposal} (hb : s.row? c.row.id = some b) :
    c.row.pair = b.pair := by
  obtain ⟨view, hco, hview⟩ := hs.coherent t
  obtain ⟨b', hb', hp⟩ := hco.pair_eq hc
  rw [overlay_of_not_mem] at hb'
  · have hrow := hview c.row.id
    rw [hb', hb] at hrow
    rw [← hp]
    exact Option.some.inj hrow
  · intro r hr he
    have hnone := (hs.new_absent (t := t) hr).1
    rw [he, hb] at hnone
    cases hnone

/-- What a transaction has staged is for a row that is in the table, or for a new one. -/
theorem staged_cases (hs : Seen s) {t : Ticket} {c : Staged}
    (hc : c ∈ (s.transaction t).staged) :
    (∃ r ∈ (s.transaction t).newRows, r.id = c.row.id) ∨ ∃ b, s.row? c.row.id = some b := by
  obtain ⟨view, hco, hview⟩ := hs.coherent t
  rcases hco.base hc with h | ⟨b, hb⟩
  · exact Or.inl h
  · have hrow := hview c.row.id
    rw [hb] at hrow
    obtain ⟨b', hb', -⟩ := Option.map_eq_some_iff.mp hrow.symm
    exact Or.inr ⟨b', hb'⟩

/-- A row has the same pair after it has been written. -/
theorem pair_of_written (hs : Seen s) (t : Ticket) {id : MatchId} {b : Proposal}
    (hb : s.row? id = some b) : ∃ r, (s.written t).row? id = some r ∧ r.pair = b.pair := by
  rw [row?_written]
  cases hr : overlay s.row? ((s.transaction t).staged.map Staged.row) id with
  | none =>
      rw [overlay_apply, hb] at hr
      exact absurd (Option.or_eq_none_iff.mp hr).2 (Option.some_ne_none b)
  | some r =>
      refine ⟨r, rfl, ?_⟩
      rcases overlay_cases hr with ⟨hmem, he⟩ | hsame
      · obtain ⟨c, hc, rfl⟩ := List.mem_map.mp hmem
        exact hs.pair_of_staged hc (he ▸ hb)
      · rw [hb] at hsame
        rw [Option.some.inj hsame]

/-- A transaction may stage one more change. -/
theorem stages (hs : Seen s) {t : Ticket} {c : Staged} (hc : s.MayStage t c) :
    ∃ view, Coherent view ((s.transaction t).staged ++ [c]) ∧
      ∀ id, (view id).map Proposal.pair = (s.row? id).map Proposal.pair := by
  obtain ⟨view, hco, hview⟩ := hs.coherent t
  cases c with
  | insert r =>
      refine ⟨view, hco.append_insert ?_ hc.2, hview⟩
      rw [overlay_of_not_mem]
      · have hrow := hview r.id
        rw [hc.1.1] at hrow
        exact Option.map_eq_none_iff.mp hrow
      · intro r' hr' he
        obtain ⟨d, hd, rfl⟩ := List.mem_map.mp hr'
        rcases hs.staged_cases hd with ⟨n, hn, hne⟩ | ⟨b, hb⟩
        · exact hc.1.2 t n hn (hne.trans he)
        · rw [he, hc.1.1] at hb
          cases hb
  | update r =>
      obtain ⟨b, hcur, hopen, hpair⟩ := hc
      rw [current?_eq] at hcur
      by_cases hmem : ∃ d ∈ (s.transaction t).staged, d.row.id = r.id
      · obtain ⟨d, hd, he⟩ := hmem
        refine ⟨view, hco.append_update ?_ hopen hpair, hview⟩
        rw [← he] at hcur ⊢
        rw [overlay_of_mem view s.row? (List.mem_map.mpr ⟨d, hd, rfl⟩)]
        exact hcur
      · -- the row has not been looked at before, and is seen now as it is
        have hnot : ∀ r' ∈ (s.transaction t).staged.map Staged.row, r'.id ≠ r.id := by
          intro r' hr' he
          obtain ⟨d, hd, rfl⟩ := List.mem_map.mp hr'
          exact hmem ⟨d, hd, he⟩
        rw [overlay_of_not_mem hnot] at hcur
        refine ⟨Function.update view r.id (some b), ?_, ?_⟩
        · refine Coherent.append_update (b := b) ?_ ?_ hopen hpair
          · refine hco.congr fun d hd => ?_
            rw [Function.update_of_ne fun he => hmem ⟨d, hd, he⟩]
          · rw [overlay_of_not_mem hnot, Function.update_self]
        · intro id
          rw [Function.update_apply]
          split
          · subst id
            rw [hcur]
          · exact hview id

/-- After a commit, what another transaction has staged could still be written: rows that it has
not seen it may see as they are now. -/
theorem coherent_written (hs : Seen s) {t u : Ticket} (hu : u ≠ t) :
    ∃ view, Coherent view (s.transaction u).staged ∧
      ∀ id, (view id).map Proposal.pair = ((s.written t).row? id).map Proposal.pair := by
  obtain ⟨view, hco, hview⟩ := hs.coherent u
  refine ⟨fun id => (view id).or ((s.written t).row? id), ?_, fun id => ?_⟩
  · refine hco.congr fun d hd => ?_
    cases hv : view d.row.id with
    | some v => rfl
    | none =>
        -- a new row of one transaction is written by no other
        have hnone : s.row? d.row.id = none := by
          have h := hview d.row.id
          rw [hv] at h
          exact Option.map_eq_none_iff.mp h.symm
        show (s.written t).row? d.row.id = none
        rw [row?_written, overlay_of_not_mem, hnone]
        intro r hr he
        obtain ⟨c, hc, rfl⟩ := List.mem_map.mp hr
        rcases hs.staged_cases hc with ⟨n, hn, hne⟩ | ⟨b, hb⟩
        · rcases hs.staged_cases hd with ⟨n', hn', hne'⟩ | ⟨b, hb⟩
          · exact hu (hs.distinct hn' hn (hne'.trans (he.symm.trans hne.symm)))
          · rw [hnone] at hb
            cases hb
        · rw [he, hnone] at hb
          cases hb
  · cases hv : view id with
    | none =>
        show ((view id).or ((s.written t).row? id)).map Proposal.pair = _
        rw [hv]
        rfl
    | some v =>
        have h := hview id
        rw [hv] at h
        obtain ⟨b, hb, hbp⟩ := Option.map_eq_some_iff.mp h.symm
        obtain ⟨r, hr, hrp⟩ := hs.pair_of_written t hb
        show ((view id).or ((s.written t).row? id)).map Proposal.pair = _
        rw [hv, hr]
        exact congrArg some (hbp.symm.trans hrp.symm)

/-- Whoever loses what he has staged, or keeps it, has nothing new. -/
theorem distinct_of_kept (hs : Seen s) {s' : Store}
    (hstaged : ∀ u, (s'.transaction u).staged = (s.transaction u).staged ∨
      (s'.transaction u).staged = []) {t u : Ticket} {r r' : Proposal}
    (hr : r ∈ (s'.transaction t).newRows) (hr' : r' ∈ (s'.transaction u).newRows)
    (he : r.id = r'.id) : t = u := by
  have hsub : ∀ {v a}, a ∈ (s'.transaction v).newRows → a ∈ (s.transaction v).newRows := by
    intro v a ha
    unfold Transaction.newRows at ha ⊢
    rcases hstaged v with hv | hv
    · rw [hv] at ha
      exact ha
    · rw [hv] at ha
      cases ha
  exact hs.distinct (hsub hr) (hsub hr') he

/-- What is staged anew gets an identifier that nobody else has given. -/
theorem distinct_of_stages (hs : Seen s) {s' : Store} {t : Ticket} {c : Staged}
    (hc : s.MayStage t c) (hstaged : ∀ u, (s'.transaction u).staged
      = if u = t then (s.transaction t).staged ++ [c] else (s.transaction u).staged)
    {u v : Ticket} {r r' : Proposal} (hr : r ∈ (s'.transaction u).newRows)
    (hr' : r' ∈ (s'.transaction v).newRows) (he : r.id = r'.id) : u = v := by
  have hnew : ∀ {w a}, a ∈ (s'.transaction w).newRows →
      a ∈ (s.transaction w).newRows ∨ (w = t ∧ c = .insert a) := by
    intro w a ha
    unfold Transaction.newRows at ha ⊢
    rw [hstaged] at ha
    split at ha
    · subst w
      rw [mem_newRowsOf, List.mem_append, List.mem_singleton] at ha
      rcases ha with ha | ha
      · exact Or.inl (mem_newRowsOf.2 ha)
      · exact Or.inr ⟨rfl, ha.symm⟩
    · exact Or.inl ha
  rcases hnew hr with hr | ⟨rfl, rfl⟩
  · rcases hnew hr' with hr' | ⟨rfl, rfl⟩
    · exact hs.distinct hr hr' he
    · exact absurd he (hc.1.2 u r hr)
  · rcases hnew hr' with hr' | ⟨rfl, -⟩
    · exact absurd he.symm (hc.1.2 v r' hr')
    · rfl

/-- A row may be written over one that has the same pair. -/
theorem rewrites (hs : Seen s) {s' : Store} {b r : Proposal} (hb : s.row? r.id = some b)
    (hbr : b.pair = r.pair) (hrow : ∀ id, s'.row? id = Function.update s.row? r.id (some r) id)
    (hstaged : ∀ u, (s'.transaction u).staged = (s.transaction u).staged) : Seen s' := by
  refine ⟨fun {id r'} h => ?_, fun u => ?_, hs.distinct_of_kept fun u => Or.inl (hstaged u)⟩
  · rw [hrow, Function.update_apply] at h
    split at h
    · rename_i hid
      rw [← Option.some.inj h, hid]
    · exact hs.id_eq h
  · obtain ⟨view, hco, hview⟩ := hs.coherent u
    refine ⟨view, by rw [hstaged]; exact hco, fun id => ?_⟩
    rw [hview, hrow, Function.update_apply]
    split
    · rename_i hid
      rw [hid, hb]
      exact congrArg some hbr
    · rfl

theorem of_effect (hs : Seen s) {s' : Store} (h : Effect s s') : Seen s' := by
  cases h with
  | keeps hrow hpair hstaged =>
      refine ⟨fun h => ?_, fun u => ?_, hs.distinct_of_kept hstaged⟩
      · rw [hrow] at h
        exact hs.id_eq h
      · rcases hstaged u with hu | hu
        · obtain ⟨view, hco, hview⟩ := hs.coherent u
          exact ⟨view, by rw [hu]; exact hco, fun id => by rw [hrow]; exact hview id⟩
        · exact ⟨s'.row?, by rw [hu]; exact .nil _, fun _ => rfl⟩
  | stages t c hc hrow hpair hstaged =>
      refine ⟨fun h => ?_, fun u => ?_, hs.distinct_of_stages hc hstaged⟩
      · rw [hrow] at h
        exact hs.id_eq h
      · have hco : ∃ view, Coherent view (s'.transaction u).staged ∧
            ∀ id, (view id).map Proposal.pair = (s.row? id).map Proposal.pair := by
          rw [hstaged]
          split
          · exact hs.stages hc
          · exact hs.coherent u
        obtain ⟨view, hco, hview⟩ := hco
        exact ⟨view, hco, fun id => by rw [hrow]; exact hview id⟩
  | commits t hfree hrow hpair hstaged =>
      have hkept : ∀ u, (s'.transaction u).staged = (s.transaction u).staged ∨
          (s'.transaction u).staged = [] := by
        intro u
        rw [hstaged]
        split
        · exact Or.inr rfl
        · exact Or.inl rfl
      refine ⟨fun {id r} h => ?_, fun u => ?_, hs.distinct_of_kept hkept⟩
      · rw [hrow, row?_written] at h
        exact (overlay_cases h).elim And.right hs.id_eq
      · by_cases hu : u = t
        · exact ⟨s'.row?, by rw [hstaged, if_pos hu]; exact .nil _, fun _ => rfl⟩
        · obtain ⟨view, hco, hview⟩ := hs.coherent_written hu
          exact ⟨view, by rw [hstaged, if_neg hu]; exact hco, fun id => by rw [hrow]; exact hview id⟩
  | closes b r hb hbr hclosed hrow hpair hstaged =>
      exact hs.rewrites hb hbr (fun id => by rw [hrow, row?_writeRow]) hstaged

/-- **Whatever somebody does, what the transactions have seen could still be.** -/
theorem after (hs : Seen s) {a : Move} (hadm : s.Admits a) : Seen (s.after a) :=
  hs.of_effect (hs.effect hadm)

end Seen
end Dispatch
