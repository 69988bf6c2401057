/-
The index of pairs.

The index can go wrong in one way only: a transaction writes a row as open that somebody else
has closed since the transaction saw it.  The pair of the row was let go when it was closed, and
nothing claims it again, so the row is open and its pair leads nowhere, or to another row.
`Store.KeepsClosed` says of a move that it does no such thing, and `Indexed.iff_of_effect` says
that from a table with an exact index a move leads to one with an exact index just then.

A row that is locked is closed by nobody but the holder of the lock.  So it takes two parties
that hold the lock of the same row, and for this one of them must have asked for the row before
it was entered: the lock of a row that does not exist is forgotten by the next party that looks
for it, even while others hold it or wait for it.
-/
import Dispatch.Proofs.Store.Seen

namespace Dispatch

namespace Store

/-- A move leaves closed rows closed. -/
def KeepsClosed (s : Store) (a : Move) : Prop :=
  ∀ id b r, s.row? id = some b → b.isOpen = false → (s.after a).row? id = some r →
    r.isOpen = false

end Store

/-! ### Writing rows of known pairs -/

namespace Store

/-- Writing rows frees the pairs that led to closed ones among them, and no others. -/
theorem find?_openPairs_foldl_writeRow (s : Store) (rs : List Proposal) (p : Pair) :
    (rs.foldl writeRow s).openPairs.find? p
      = if ∃ r ∈ rs, r.pair = p ∧ r.isOpen = false ∧ s.openPairs.find? p = some r.id then none
        else s.openPairs.find? p := by
  have hterm : ∀ r : Proposal, r.status.isTerminal = true ↔ r.isOpen = false := by
    intro r
    unfold Proposal.isOpen
    cases r.status.isTerminal <;> simp
  induction rs generalizing s with
  | nil => simp
  | cons a rest ih =>
      rw [List.foldl_cons, ih, find?_openPairs_writeRow]
      by_cases ha : p = a.pair ∧ a.status.isTerminal = true ∧ s.openPairs.find? p = some a.id
      · simp only [if_pos ha, reduceCtorEq, and_false, exists_false, if_false]
        rw [if_pos ⟨a, by simp, ha.1.symm, (hterm a).1 ha.2.1, ha.2.2⟩]
      · simp only [if_neg ha]
        refine if_congr ?_ rfl rfl
        constructor
        · rintro ⟨r, hr, h⟩
          exact ⟨r, by simp [hr], h⟩
        · rintro ⟨r, hr, h⟩
          rcases List.mem_cons.mp hr with rfl | hr
          · exact absurd ⟨h.1.symm, (hterm r).2 h.2.1, h.2.2⟩ ha
          · exact ⟨r, hr, h⟩

end Store

namespace Indexed

variable {s : Store} {rs : List Proposal}

open Store

/-- Rows that are written over rows of their pairs leave every row its pair. -/
theorem pair_of_overlay (hbase : ∀ r ∈ rs, ∃ b, s.row? r.id = some b ∧ b.pair = r.pair)
    {id : MatchId} {b r : Proposal} (hb : s.row? id = some b) (hr : overlay s.row? rs id = some r) :
    r.pair = b.pair := by
  rcases overlay_cases hr with ⟨hmem, he⟩ | hr
  · obtain ⟨b', hb', hp⟩ := hbase r hmem
    rw [he, hb] at hb'
    obtain rfl := Option.some.inj hb'
    exact hp.symm
  · rw [hb] at hr
    rw [Option.some.inj hr]

/-- If the index is still exact, no closed row has been opened: its pair would have to lead to it,
and did not before. -/
theorem not_isOpen_of_foldl_writeRow (ix : Indexed s) (ix' : Indexed (rs.foldl Store.writeRow s))
    {id : MatchId} {b r : Proposal} (hb : s.row? id = some b) (hclosed : b.isOpen = false)
    (hr : overlay s.row? rs id = some r) : r.isOpen = false := by
  cases hopen : r.isOpen with
  | false => rfl
  | true =>
      have hfound := ix'.pairs.2 ⟨r, by rw [Store.row?_foldl_writeRow]; exact hr, hopen, rfl⟩
      rw [Store.find?_openPairs_foldl_writeRow] at hfound
      split at hfound
      · cases hfound
      · obtain ⟨b', hb', hbo, -⟩ := ix.pairs.1 hfound
        rw [hb] at hb'
        obtain rfl := Option.some.inj hb'
        rw [hclosed] at hbo
        cases hbo

/-- A pair that is not freed still leads to an open row. -/
theorem exists_open_of_not_freed (ix : Indexed s)
    (hbase : ∀ r ∈ rs, ∃ b, s.row? r.id = some b ∧ b.pair = r.pair) {p : Pair} {id : MatchId}
    (hfound : s.openPairs.find? p = some id)
    (hnot : ¬ ∃ r ∈ rs, r.pair = p ∧ r.isOpen = false ∧ s.openPairs.find? p = some r.id) :
    ∃ r, overlay s.row? rs id = some r ∧ r.isOpen = true ∧ r.pair = p := by
  obtain ⟨b, hb, hbo, rfl⟩ := ix.pairs.1 hfound
  cases hr : overlay s.row? rs id with
  | none =>
      rw [overlay_apply, hb] at hr
      exact absurd (Option.or_eq_none_iff.mp hr).2 (Option.some_ne_none b)
  | some r =>
      refine ⟨r, rfl, ?_, pair_of_overlay hbase hb hr⟩
      cases hopen : r.isOpen with
      | true => rfl
      | false =>
          exfalso
          rcases overlay_cases hr with ⟨hmem, he⟩ | hsame
          · refine hnot ⟨r, hmem, pair_of_overlay hbase hb hr, hopen, ?_⟩
            rw [hfound, he]
          · rw [hb] at hsame
            obtain rfl := Option.some.inj hsame
            rw [hbo] at hopen
            cases hopen

/-- **Writing rows keeps the index exact just if no closed row is opened**, if each row that is
written has the pair of the one that is there, and none is closed and opened again. -/
theorem foldl_writeRow_iff (ix : Indexed s)
    (hbase : ∀ r ∈ rs, ∃ b, s.row? r.id = some b ∧ b.pair = r.pair)
    (hlast : ∀ r ∈ rs, ∀ r', overlay s.row? rs r.id = some r' → r'.isOpen = true →
      r.isOpen = true) :
    Indexed (rs.foldl Store.writeRow s) ↔
      ∀ id b r, s.row? id = some b → b.isOpen = false → overlay s.row? rs id = some r →
        r.isOpen = false := by
  refine ⟨fun ix' id b r => ix.not_isOpen_of_foldl_writeRow ix', fun hkeep => ⟨?_, ?_⟩⟩
  · intro id r h
    rw [Store.row?_foldl_writeRow] at h
    exact (overlay_cases h).elim And.right ix.id_eq
  · intro p id
    rw [Store.find?_openPairs_foldl_writeRow, Store.row?_foldl_writeRow]
    constructor
    · intro h
      split at h
      · cases h
      · rename_i hnot
        exact ix.exists_open_of_not_freed hbase h hnot
    · rintro ⟨r, hr, hopen, rfl⟩
      have hb : ∃ b, s.row? id = some b := by
        rcases overlay_cases hr with ⟨hmem, he⟩ | hsame
        · obtain ⟨b, hb, -⟩ := hbase r hmem
          rw [he] at hb
          exact ⟨b, hb⟩
        · exact ⟨r, hsame⟩
      obtain ⟨b, hb⟩ := hb
      have hbo : b.isOpen = true := by
        cases hbo : b.isOpen with
        | true => rfl
        | false =>
            rw [hkeep id b r hb hbo hr] at hopen
            cases hopen
      have hfound := ix.pairs.2 ⟨b, hb, hbo, (pair_of_overlay hbase hb hr).symm⟩
      rw [if_neg, hfound]
      rintro ⟨r', hr', -, hclosed, he⟩
      rw [hfound] at he
      have hid' : id = r'.id := Option.some.inj he
      rw [hlast r' hr' r (hid' ▸ hr) hopen] at hclosed
      cases hclosed

end Indexed

/-! ### Moves -/

namespace Seen

variable {s : Store}

open Store

/-- A row that is in the table is not among the new ones that are claimed. -/
theorem row?_of_claimed (hs : Seen s) {t : Ticket} {id : MatchId} {b : Proposal}
    (hb : s.row? id = some b) :
    (((s.transaction t).newRows.foldl claimPair s).row? id) = some b := by
  rw [row?_foldl_claimPair, overlay_of_not_mem, hb]
  intro r hr he
  have hnone := (hs.new_absent (t := t) hr).1
  rw [he, hb] at hnone
  cases hnone

/-- Every row that is written has the pair of the one that is there when all new ones are. -/
theorem base_of_claimed (hs : Seen s) {t : Ticket} {r : Proposal}
    (hr : r ∈ (s.transaction t).staged.map Staged.row) :
    ∃ b, ((s.transaction t).newRows.foldl claimPair s).row? r.id = some b ∧ b.pair = r.pair := by
  obtain ⟨c, hc, rfl⟩ := List.mem_map.mp hr
  obtain ⟨view, hco, hview⟩ := hs.coherent t
  obtain ⟨b, hb, hp⟩ := hco.pair_eq hc
  by_cases hn : ∃ n ∈ (s.transaction t).newRows, n.id = c.row.id
  · obtain ⟨n, hn, he⟩ := hn
    refine ⟨b, ?_, hp⟩
    rw [row?_foldl_claimPair, ← he, overlay_of_mem s.row? view hn, he]
    exact hb
  · have hnot : ∀ n ∈ (s.transaction t).newRows, n.id ≠ c.row.id := fun n hn' he => hn ⟨n, hn', he⟩
    change overlay view (s.transaction t).newRows c.row.id = some b at hb
    rw [overlay_of_not_mem hnot] at hb
    have hv := hview c.row.id
    rw [hb] at hv
    obtain ⟨b', hb', hp'⟩ := Option.map_eq_some_iff.mp hv.symm
    exact ⟨b', hs.row?_of_claimed hb', hp'.trans hp⟩

end Seen

namespace Indexed

variable {s s' : Store}

open Store

/-- A commit keeps the index exact just if it leaves closed rows closed. -/
theorem written_iff (ix : Indexed s) (hs : Seen s) {t : Ticket}
    (hfree : s.FreeInTurn (s.transaction t).newRows) :
    Indexed (s.written t) ↔ ∀ id b r, s.row? id = some b → b.isOpen = false →
      (s.written t).row? id = some r → r.isOpen = false := by
  set s₁ := (s.transaction t).newRows.foldl Store.claimPair s with hs₁
  have hrow₁ : s₁.row? = overlay s.row? (s.transaction t).newRows := s.row?_foldl_claimPair _
  have ix₁ : Indexed s₁ :=
    ix.claims hfree (fun r hr => hs.new_absent (t := t) hr) (hs.new_nodup t)
  have hlast : ∀ r ∈ (s.transaction t).staged.map Staged.row, ∀ r',
      overlay s₁.row? ((s.transaction t).staged.map Staged.row) r.id = some r' →
      r'.isOpen = true → r.isOpen = true := by
    intro r hr r' hr' hopen
    obtain ⟨view, hco, -⟩ := hs.coherent t
    rw [overlay_of_mem s₁.row? view hr] at hr'
    obtain ⟨c, hc, rfl⟩ := List.mem_map.mp hr
    exact hco.isOpen_of_last hc hr' hopen
  have hiff := ix₁.foldl_writeRow_iff (fun r hr => hs.base_of_claimed hr) hlast
  have hover : overlay s₁.row? ((s.transaction t).staged.map Staged.row)
      = overlay s.row? ((s.transaction t).staged.map Staged.row) := by
    rw [hrow₁]
    exact overlay_newRowsOf _ _
  rw [hover] at hiff
  rw [row?_written, Store.written, hiff]
  constructor
  · intro h id b r hb hclosed hr
    exact h id b r (hs.row?_of_claimed hb) hclosed hr
  · intro h id b r hb hclosed hr
    rw [hrow₁] at hb
    rcases overlay_cases hb with ⟨hmem, -⟩ | hb
    · rw [(hs.new_absent (t := t) hmem).2] at hclosed
      cases hclosed
    · exact h id b r hb hclosed hr

/-- **A move keeps the index exact just if it leaves closed rows closed.** -/
theorem iff_of_effect (ix : Indexed s) (hs : Seen s) (h : Effect s s') :
    Indexed s' ↔ ∀ id b r, s.row? id = some b → b.isOpen = false → s'.row? id = some r →
      r.isOpen = false := by
  have hsame : (∀ id, s'.row? id = s.row? id) →
      (∀ p, s'.openPairs.find? p = s.openPairs.find? p) →
      (Indexed s' ↔ ∀ id b r, s.row? id = some b → b.isOpen = false → s'.row? id = some r →
        r.isOpen = false) := by
    intro hrow hpair
    refine ⟨fun _ id b r hb hclosed hr => ?_, fun _ => ix.congr hrow hpair⟩
    rw [hrow, hb] at hr
    obtain rfl := Option.some.inj hr
    exact hclosed
  cases h with
  | keeps hrow hpair hstaged => exact hsame hrow hpair
  | stages t c hc hrow hpair hstaged => exact hsame hrow hpair
  | commits t hfree hrow hpair hstaged =>
      have hwritten : Indexed s' ↔ Indexed (s.written t) :=
        ⟨fun h => h.congr (fun id => (hrow id).symm) fun p => (hpair p).symm,
          fun h => h.congr hrow hpair⟩
      rw [hwritten, ix.written_iff hs hfree]
      simp only [hrow]
  | closes b r hb hbr hclosed hrow hpair hstaged =>
      constructor
      · intro _ id b' r' hb' hclosed' hr'
        rw [hrow, row?_writeRow, Function.update_apply] at hr'
        split at hr'
        · obtain rfl := Option.some.inj hr'
          exact hclosed
        · rw [hb'] at hr'
          obtain rfl := Option.some.inj hr'
          exact hclosed'
      · intro _
        exact (ix.writeRow hb hbr (Or.inr hclosed)).congr hrow hpair

end Indexed

/-! ### What an exact index says -/

/-- The entries under a key that is present. -/
theorem Table.filter_entries {κ α : Type} [DecidableEq κ] (t : Table κ α) {k : κ} {a : α}
    (h : t.find? k = some a) : (t.entries.filter fun e => decide (e.1 = k)) = [(k, a)] := by
  obtain ⟨l, hl⟩ := t
  change Table.lookupIn k l = some a at h
  show (l.filter fun e => decide (e.1 = k)) = _
  induction l with
  | nil => cases h
  | cons e rest ih =>
      obtain ⟨k', a'⟩ := e
      rw [List.map_cons, List.nodup_cons] at hl
      rw [Table.lookupIn] at h
      by_cases hk : k' = k
      · subst hk
        rw [if_pos rfl] at h
        obtain rfl := Option.some.inj h
        rw [List.filter_cons_of_pos (by simp), List.filter_eq_nil_iff.mpr]
        intro e he hek
        obtain rfl : e.1 = k' := by simpa using hek
        exact hl.1 (List.mem_map.mpr ⟨e, he, rfl⟩)
      · rw [if_neg hk] at h
        rw [List.filter_cons_of_neg (by simpa using hk)]
        exact ih hl.2 h

namespace Store

/-- The index of pairs says what a look at every row would say. -/
structure PairsExact (s : Store) : Prop where
  /-- A pair leads to an identifier just if the row under it is open and has this pair. -/
  index : ∀ p id, s.openPairs.find? p = some id ↔
    ∃ r, s.row? id = some r ∧ r.id = id ∧ r.isOpen = true ∧ r.pair = p
  /-- No two open rows have the same pair. -/
  unique : ∀ p, (s.openRows p).length ≤ 1
  /-- While the table can be reached, the open proposal of a pair is found just if there is one. -/
  found : ∀ d p m, s.offline = false →
    perform m (.find d p) s = .answer (.ok (s.openRows (d, p)).head?) s

end Store

namespace Indexed

variable {s : Store}

open Store

/-- Looking at every row finds what is found through the pair. -/
theorem openRows_eq (ix : Indexed s) (p : Pair) : s.openRows p = (s.openProposal? p).toList := by
  have hrows : s.openRows p = (s.rows.entries.filter fun e =>
      decide (e.2.pair = p) && e.2.isOpen).map Prod.snd := by
    rw [Store.openRows, Table.values, List.filter_map]
    rfl
  have hmem : ∀ e ∈ s.rows.entries, s.row? e.1 = some e.2 := fun e he =>
    s.rows.find?_eq_some_iff.2 he
  rw [hrows, Store.openProposal?]
  cases hp : s.openPairs.find? p with
  | none =>
      rw [List.filter_eq_nil_iff.mpr]
      · rfl
      · intro e he hopen
        rw [Bool.and_eq_true, decide_eq_true_eq] at hopen
        rw [ix.not_isOpen hp (hmem e he) hopen.1] at hopen
        cases hopen.2
  | some id =>
      obtain ⟨r, hr, hopen, rfl⟩ := ix.pairs.1 hp
      have hkey : ∀ e ∈ s.rows.entries, (decide (e.2.pair = r.pair) && e.2.isOpen)
          = decide (e.1 = id) := by
        intro e he
        rw [Bool.eq_iff_iff, Bool.and_eq_true, decide_eq_true_eq, decide_eq_true_eq]
        constructor
        · rintro ⟨hpair, ho⟩
          exact ix.unique (hmem e he) hr ho hopen hpair
        · rintro rfl
          obtain rfl := Option.some.inj ((hmem e he).symm.trans hr)
          exact ⟨rfl, hopen⟩
      rw [List.filter_congr hkey, s.rows.filter_entries hr]
      show [r] = ((s.row? id).filter Proposal.isOpen).toList
      rw [hr]
      simp [Option.filter, hopen]

theorem pairsExact (ix : Indexed s) : PairsExact s where
  index p id := by
    rw [ix.pairs]
    constructor
    · rintro ⟨r, hr, h⟩
      exact ⟨r, hr, ix.id_eq hr, h⟩
    · rintro ⟨r, hr, -, h⟩
      exact ⟨r, hr, h⟩
  unique p := by
    rw [ix.openRows_eq]
    cases s.openProposal? p <;> simp
  found d p m hon := by
    rw [ix.openRows_eq, perform, guarded, hon]
    cases s.openProposal? (d, p) <;> rfl

/-- Rows that are found under their own identifiers need no more than the first part. -/
theorem of_pairsExact (hid : ∀ {id r}, s.row? id = some r → r.id = id) (h : PairsExact s) :
    Indexed s where
  id_eq := hid
  pairs := by
    intro p id
    rw [h.index]
    constructor
    · rintro ⟨r, hr, -, h⟩
      exact ⟨r, hr, h⟩
    · rintro ⟨r, hr, h⟩
      exact ⟨r, hr, hid hr, h⟩

/-- From an exact index, it stays exact just as long as closed rows stay closed. -/
theorem states_iff (ix : Indexed s) (hs : Seen s) {moves : List Move}
    (hadm : Run.Along Store.after Admits s moves) :
    (∀ s' ∈ Run.states Store.after s moves, s'.PairsExact) ↔
      Run.Along Store.after KeepsClosed s moves := by
  refine Run.states_iff (I := Seen) (fun hs ha => hs.after ha) (fun hs ha hexact => ?_) hs
    ix.pairsExact hadm
  have hstep := (of_pairsExact hs.id_eq hexact).iff_of_effect hs (hs.effect ha)
  exact ⟨fun h => hstep.1 (of_pairsExact (hs.after ha).id_eq h), fun h => (hstep.2 h).pairsExact⟩

end Indexed

/-- While nobody stands at a forgotten lock of a row that is entered, no closed row is opened. -/
theorem StoreOK.keepsClosed {s : Store} (ok : StoreOK s) (hs : Seen s) {moves : List Store.Move}
    (hadm : Run.Along Store.after Store.Admits s moves)
    (hclear : Run.Along Store.after Store.EntersClear s moves) :
    Run.Along Store.after Store.KeepsClosed s moves := by
  induction moves generalizing s with
  | nil => trivial
  | cons a rest ih =>
      have ok' := ok.after hadm.1 hclear.1
      exact ⟨(ok.indexed.iff_of_effect hs (hs.effect hadm.1)).1 ok'.indexed,
        ih ok' (hs.after hadm.1) hadm.2 hclear.2⟩

namespace Store

/-- **The index of pairs is exact as long as no closed row is opened again, and no longer.**
And no closed row is opened again as long as no row is entered with somebody at a forgotten lock
of it. -/
theorem pairs_exact_iff {moves : List Move} (hadm : Run.Along after Admits {} moves) :
    ((∀ s ∈ Run.states after {} moves, s.PairsExact) ↔ Run.Along after KeepsClosed {} moves) ∧
      (Run.Along after EntersClear {} moves → Run.Along after KeepsClosed {} moves) :=
  ⟨StoreOK.empty.indexed.states_iff Seen.empty hadm, StoreOK.empty.keepsClosed Seen.empty hadm⟩

/-! ### Two runs

Two parties stage rows of one pair, and two more ask for the first of them before it is entered.  It
is entered all the same, as they stand at the lock that it keeps, and its rival is not.  One of them
confirms the proposal, the other one waits and then accepts it; a batch update that waits behind them
finds it closed.  The pair is taken again, freed by a batch update, and taken once more: the index is
exact throughout.

For the index to go wrong, a transaction asks for a row before it is entered, and so does a
batch update, which waits for it.  The transaction looks again, finds no row, and the lock is
forgotten.  The row is entered, and a third transaction asks for it: it gets a new lock, while
the batch update is the next at the old one.  The batch update closes the row and frees its pair;
somebody takes the pair; and the transaction writes the row as it has seen it, open.
-/

/-- The moves by which a pair is taken and freed in turn. -/
def queueing : List Move :=
  let m := momentOf Uuid.nil
  let rival := momentOf (Uuid.fresh 1)
  let second := momentOf (Uuid.fresh 2)
  let third := momentOf (Uuid.fresh 3)
  [.call .begin m, .call (.insert 0 someDraft) m,
   .call .begin rival, .call (.insert 1 someDraft) rival,
   -- two parties ask for the row before it is entered, and one of them has to wait
   .call .begin m, .call (.update 2 Uuid.nil .driverConfirmed true false) m,
   .call .begin m, .call (.lock 3 Uuid.nil) m,
   .call (.commit 0) m, .call (.commit 1) rival,
   -- the first one confirms, a batch update joins the line, and the second one accepts
   .call (.update 2 Uuid.nil .driverConfirmed true false) m,
   .call .openBatch m, .call (.updateRow 4 Uuid.nil .rejected Status.openStates) m,
   .call (.commit 2) m, .call (.lock 3 Uuid.nil) m,
   .call (.update 3 Uuid.nil .accepted true true) m, .call (.commit 3) m,
   .call (.updateRow 4 Uuid.nil .rejected Status.openStates) m,
   -- the pair is free again
   .call .begin second, .call (.insert 5 someDraft) second, .call (.commit 5) second,
   .call .openBatch second, .call (.updateRow 6 (Uuid.fresh 2) .rejected Status.openStates) second,
   .call .begin third, .call (.insert 7 someDraft) third, .call (.commit 7) third]

theorem pairs_exact_of_queueing :
    Run.Along after Admits {} queueing ∧ Run.Along after EntersClear {} queueing ∧
      ((queueing.take 8).foldl after {}).locks.waiting.find? 3 = some (Uuid.nil, 0) ∧
      (queueing.foldl after {}).rows.entries.map (fun e => (e.1, e.2.pair, e.2.status)) =
        [(Uuid.nil, someDraft.pair, .accepted), (Uuid.fresh 2, someDraft.pair, .rejected),
          (Uuid.fresh 3, someDraft.pair, .pending)] ∧
      ((queueing.foldl after {}).openRows someDraft.pair).length = 1 ∧
      ∀ s ∈ Run.states after {} queueing, s.PairsExact := by
  have hadm : Run.Along after Admits {} queueing := by decide +kernel
  have hclear : Run.Along after EntersClear {} queueing := by decide +kernel
  exact ⟨hadm, hclear, by decide +kernel, by decide +kernel, by decide +kernel,
    (pairs_exact_iff hadm).1.2 ((pairs_exact_iff hadm).2 hclear)⟩

/-- The moves by which a closed row is opened again. -/
def reopening : List Move :=
  let m := momentOf Uuid.nil
  let m' := momentOf (Uuid.fresh 1)
  [.call .begin m, .call (.insert 0 someDraft) m,
   -- somebody asks for the row, and so does a batch update, which has to wait
   .call .begin m, .call (.update 1 Uuid.nil .pending false false) m,
   .call .openBatch m, .call (.updateRow 2 Uuid.nil .rejected Status.openStates) m,
   -- the row is not there, and its lock is forgotten
   .call (.lock 1 Uuid.nil) m, .call (.commit 0) m,
   -- a third party gets a new lock, and the batch update closes the row at the old one
   .call .begin m, .call (.update 3 Uuid.nil .driverConfirmed true false) m,
   .call (.updateRow 2 Uuid.nil .rejected Status.openStates) m,
   .call .begin m, .call (.insert 4 someDraft) m', .call (.commit 4) m',
   .call (.commit 3) m']

/-- Without any condition the index does not stay exact. -/
theorem exists_not_pairsExact :
    ∃ moves, Run.Along after Admits {} moves ∧ ¬ ∀ s ∈ Run.states after {} moves, s.PairsExact := by
  refine ⟨reopening, by decide +kernel, fun h => ?_⟩
  have htwo : ((reopening.foldl after {}).openRows someDraft.pair).length = 2 := by
    decide +kernel
  have hone := (h _ (Run.foldl_mem_states _ reopening)).unique someDraft.pair
  omega

end Store
end Dispatch
