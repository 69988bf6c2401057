/-
What a transaction stages, and what its commit makes of it.

The staged changes of a transaction are `Coherent` with the rows of the table if each of them
could have been made at once: a new row has an identifier that nothing has, and an update
follows an open row of the same pair.  As long as this holds a commit either writes all that
was staged, in order, and keeps the index of pairs exact, or it changes nothing.
-/
import Dispatch.Proofs.Store.Pairs

namespace Dispatch

/-- Changes that could be made to some rows in turn. -/
inductive Coherent : (MatchId → Option Proposal) → List Staged → Prop where
  | nil (view : MatchId → Option Proposal) : Coherent view []
  | insert {view : MatchId → Option Proposal} {r : Proposal} {rest : List Staged}
      (hnew : view r.id = none) (hopen : r.isOpen = true)
      (h : Coherent (Function.update view r.id (some r)) rest) : Coherent view (.insert r :: rest)
  | update {view : MatchId → Option Proposal} {b r : Proposal} {rest : List Staged}
      (hbase : view r.id = some b) (hopen : b.isOpen = true) (hpair : b.pair = r.pair)
      (h : Coherent (Function.update view r.id (some r)) rest) : Coherent view (.update r :: rest)

@[simp] theorem newRowsOf_insert (r : Proposal) (rest : List Staged) :
    newRowsOf (.insert r :: rest) = r :: newRowsOf rest := rfl

@[simp] theorem newRowsOf_update (r : Proposal) (rest : List Staged) :
    newRowsOf (.update r :: rest) = newRowsOf rest := rfl

theorem mem_newRowsOf {changes : List Staged} {r : Proposal} :
    r ∈ newRowsOf changes ↔ .insert r ∈ changes := by
  unfold newRowsOf
  rw [List.mem_filterMap]
  constructor
  · rintro ⟨c, hc, h⟩
    cases c with
    | insert r' => obtain rfl := Option.some.inj h; exact hc
    | update r' => cases h
  · intro h; exact ⟨_, h, rfl⟩

namespace Coherent

variable {view : MatchId → Option Proposal} {changes : List Staged}

/-- Only the rows that are changed matter. -/
theorem congr (h : Coherent view changes) {view' : MatchId → Option Proposal}
    (hv : ∀ c ∈ changes, view' c.row.id = view c.row.id) : Coherent view' changes := by
  induction h generalizing view' with
  | nil => exact .nil _
  | @insert view r rest hnew hopen h ih =>
      refine .insert ((hv (.insert r) (by simp)).trans hnew) hopen (ih ?_)
      intro c hc
      rw [Function.update_apply, Function.update_apply, hv c (by simp [hc])]
  | @update view b r rest hbase hopen hpair h ih =>
      refine .update ((hv (.update r) (by simp)).trans hbase) hopen hpair (ih ?_)
      intro c hc
      rw [Function.update_apply, Function.update_apply, hv c (by simp [hc])]

theorem append_insert (h : Coherent view changes) {r : Proposal}
    (hnew : overlay view (changes.map Staged.row) r.id = none) (hopen : r.isOpen = true) :
    Coherent view (changes ++ [.insert r]) := by
  induction h with
  | nil => exact .insert hnew hopen (.nil _)
  | insert hnew' hopen' _ ih => exact .insert hnew' hopen' (ih hnew)
  | update hbase hopen' hpair _ ih => exact .update hbase hopen' hpair (ih hnew)

theorem append_update (h : Coherent view changes) {b r : Proposal}
    (hbase : overlay view (changes.map Staged.row) r.id = some b) (hopen : b.isOpen = true)
    (hpair : b.pair = r.pair) : Coherent view (changes ++ [.update r]) := by
  induction h with
  | nil => exact .update hbase hopen hpair (.nil _)
  | insert hnew hopen' _ ih => exact .insert hnew hopen' (ih hbase)
  | update hbase' hopen' hpair' _ ih => exact .update hbase' hopen' hpair' (ih hbase)

/-- A new row is none that exists. -/
theorem new_absent (h : Coherent view changes) :
    ∀ r ∈ newRowsOf changes, view r.id = none ∧ r.isOpen = true := by
  induction h with
  | nil => intro r hr; cases hr
  | @insert view r rest hnew hopen h ih =>
      intro r' hr'
      rw [newRowsOf_insert] at hr'
      rcases List.mem_cons.mp hr' with rfl | hr'
      · exact ⟨hnew, hopen⟩
      · obtain ⟨hnone, ho⟩ := ih r' hr'
        have hne : r'.id ≠ r.id := by
          intro he
          rw [he, Function.update_self] at hnone
          cases hnone
        rw [Function.update_of_ne hne] at hnone
        exact ⟨hnone, ho⟩
  | @update view b r rest hbase hopen hpair h ih =>
      intro r' hr'
      obtain ⟨hnone, ho⟩ := ih r' hr'
      have hne : r'.id ≠ r.id := by
        intro he
        rw [he, Function.update_self] at hnone
        cases hnone
      rw [Function.update_of_ne hne] at hnone
      exact ⟨hnone, ho⟩

/-- New rows have identifiers of their own. -/
theorem new_nodup (h : Coherent view changes) : ((newRowsOf changes).map Proposal.id).Nodup := by
  induction h with
  | nil => exact List.nodup_nil
  | @insert view r rest hnew hopen h ih =>
      rw [newRowsOf_insert, List.map_cons, List.nodup_cons]
      refine ⟨?_, ih⟩
      intro hmem
      obtain ⟨r', hr', he⟩ := List.mem_map.mp hmem
      have hnone := (h.new_absent r' hr').1
      rw [he, Function.update_self] at hnone
      cases hnone
  | update _ _ _ _ ih => exact ih

/-- A row that is updated exists, unless it is a new one itself. -/
theorem base (h : Coherent view changes) {c : Staged} (hc : c ∈ changes) :
    (∃ r ∈ newRowsOf changes, r.id = c.row.id) ∨ ∃ b, view c.row.id = some b := by
  induction h with
  | nil => cases hc
  | @insert view r rest hnew hopen h ih =>
      rcases List.mem_cons.mp hc with rfl | hc
      · exact Or.inl ⟨r, by simp, rfl⟩
      · rcases ih hc with ⟨r', hr', he⟩ | ⟨b, hb⟩
        · exact Or.inl ⟨r', by simp [hr'], he⟩
        · by_cases hid : c.row.id = r.id
          · exact Or.inl ⟨r, by simp, hid.symm⟩
          · rw [Function.update_of_ne hid] at hb
            exact Or.inr ⟨b, hb⟩
  | @update view b r rest hbase hopen hpair h ih =>
      rcases List.mem_cons.mp hc with rfl | hc
      · exact Or.inr ⟨b, hbase⟩
      · rcases ih hc with ⟨r', hr', he⟩ | ⟨b', hb'⟩
        · exact Or.inl ⟨r', by simpa using hr', he⟩
        · by_cases hid : c.row.id = r.id
          · exact Or.inr ⟨b, by rw [hid]; exact hbase⟩
          · rw [Function.update_of_ne hid] at hb'
            exact Or.inr ⟨b', hb'⟩

/-- Once its new rows have been entered, all changes can be written in turn. -/
theorem write {s : Store} (h : Coherent view changes) (ix : Indexed s)
    (hrow : s.row? = overlay view (newRowsOf changes)) :
    Indexed ((changes.map Staged.row).foldl Store.writeRow s) := by
  induction h generalizing s with
  | nil => exact ix
  | @insert view r rest hnew hopen h ih =>
      -- The new row is written over itself.
      have hr : s.row? r.id = some r := by
        rw [hrow, newRowsOf_insert, overlay_cons, overlay_of_not_mem, Function.update_self]
        intro r' hr' he
        have hnone := (h.new_absent r' hr').1
        rw [he, Function.update_self] at hnone
        cases hnone
      have hsame : Function.update s.row? r.id (some r) = s.row? := by
        funext id
        rw [Function.update_apply]
        split
        · subst id; exact hr.symm
        · rfl
      refine ih (ix.writeRow hr rfl (Or.inl hopen)) ?_
      rw [Store.row?_writeRow, Staged.row, hsame, hrow, newRowsOf_insert, overlay_cons]
  | @update view b r rest hbase hopen hpair h ih =>
      have hnew : ∀ r' ∈ newRowsOf rest, r'.id ≠ r.id := by
        intro r' hr' he
        have hnone := (h.new_absent r' hr').1
        rw [he, Function.update_self] at hnone
        cases hnone
      have hb : s.row? r.id = some b := by
        rw [hrow, newRowsOf_update, overlay_of_not_mem hnew, hbase]
      refine ih (ix.writeRow hb hpair (Or.inl hopen)) ?_
      rw [Store.row?_writeRow, hrow, newRowsOf_update]
      funext id
      show Function.update (overlay view (newRowsOf rest)) r.id (some r) id = _
      by_cases hid : id = r.id
      · subst hid
        rw [Function.update_self, overlay_of_not_mem hnew, Function.update_self]
      · rw [Function.update_of_ne hid, overlay_apply, overlay_apply, Function.update_of_ne hid]

end Coherent

/-- What the new rows show is hidden by the changes that they are part of. -/
theorem overlay_newRowsOf (view : MatchId → Option Proposal) (changes : List Staged) :
    overlay (overlay view (newRowsOf changes)) (changes.map Staged.row)
      = overlay view (changes.map Staged.row) := by
  funext id
  rw [overlay_apply (overlay view (newRowsOf changes)), overlay_apply view (changes.map Staged.row)]
  cases hfind : (changes.map Staged.row).reverse.find? (fun r => r.id == id) with
  | some r => rfl
  | none =>
      rw [List.find?_eq_none] at hfind
      have hnot : ∀ r ∈ newRowsOf changes, r.id ≠ id := by
        intro r hr he
        refine hfind r ?_ (by simpa using he)
        rw [List.mem_reverse, List.mem_map]
        exact ⟨_, mem_newRowsOf.1 hr, rfl⟩
      rw [overlay_of_not_mem hnot]


namespace Store

variable (s : Store) (t : Ticket)

/-- What a transaction sees of the table is the table with its changes laid over it. -/
theorem current?_eq (id : MatchId) :
    s.current? t id = overlay s.row? ((s.transaction t).staged.map Staged.row) id := by
  rw [overlay_apply, current?, Transaction.stagedRow?, List.map_reverse]

/-- A transaction sees a row under its own identifier. -/
theorem id_of_current? {s : Store} (hid : ∀ {id r}, s.row? id = some r → r.id = id) {t : Ticket}
    {id : MatchId} {r : Proposal} (h : s.current? t id = some r) : r.id = id := by
  unfold current? at h
  rcases Option.or_eq_some_iff.mp h with h | ⟨-, h⟩
  · simpa using List.find?_some h
  · exact hid h

/-- The table after all that a transaction has staged has been claimed and written. -/
def written (s : Store) (t : Ticket) : Store :=
  ((s.transaction t).staged.map Staged.row).foldl writeRow
    ((s.transaction t).newRows.foldl claimPair s)

/-- A commit succeeds if all new rows find their pairs free. -/
theorem commit_of_freeInTurn {s : Store} {t : Ticket} (hon : s.offline = false)
    (hfree : s.FreeInTurn (s.transaction t).newRows) :
    s.commit t = (.ok (), (s.written t).endTransaction t) := by
  unfold commit
  have hclaims : s.claimStaged t = claimAll [] (s.transaction t).newRows s := rfl
  rcases @claimAll_cases s [] trivial (s.transaction t).newRows
    with ⟨hall, -⟩ | ⟨r, hr, rs, hall, -, -, hnot⟩
  · rw [List.foldl_nil, List.nil_append] at hall
    have hsame := SameRest.foldl sameRest_claimPair (s.transaction t).newRows s
    rw [hclaims, hall, hon]
    unfold written
    simp only [writeStaged, Bool.false_eq_true, if_false]
    unfold transaction at hsame ⊢
    rw [hsame.transactions]
  · exact absurd hfree hnot

/-- **A commit that finds a pair taken does no more than to end the transaction**, if its new rows
were new. -/
theorem commit_of_not_freeInTurn {s : Store} {t : Ticket} (hon : s.offline = false)
    (hnew : ∀ r ∈ (s.transaction t).newRows, s.row? r.id = none)
    (hnodup : ((s.transaction t).newRows.map Proposal.id).Nodup)
    (hnot : ¬ s.FreeInTurn (s.transaction t).newRows) :
    ∃ r ∈ (s.transaction t).newRows,
      s.commit t = (.error (.pairTaken r.pair), s.endTransaction t) := by
  unfold commit
  have hclaims : s.claimStaged t = claimAll [] (s.transaction t).newRows s := rfl
  rcases @claimAll_cases s [] trivial (s.transaction t).newRows
    with ⟨-, hfree⟩ | ⟨r, hr, rs, hall, hpre, hfree, -⟩
  · exact absurd hfree hnot
  · rw [List.foldl_nil] at hall
    have hback := s.unclaim_claim hfree (fun r hr => hnew r (hpre.subset hr))
      ((hpre.sublist.map Proposal.id).nodup hnodup)
    rw [hclaims, hall, hback, hon]
    exact ⟨r, hr, rfl⟩

/-- What can come of a commit: the table cannot be reached; or a pair is taken, and nothing is
left of the transaction; or all new rows are claimed, and then all rows are written in turn. -/
theorem commit_shape {s : Store} {t : Ticket}
    (hnew : ∀ r ∈ (s.transaction t).newRows, s.row? r.id = none)
    (hnodup : ((s.transaction t).newRows.map Proposal.id).Nodup) :
    (s.offline = true ∧ s.commit t = (.error .offline, s.endTransaction t)) ∨
    (s.offline = false ∧
      ((¬ s.FreeInTurn (s.transaction t).newRows ∧ ∃ r ∈ (s.transaction t).newRows,
          s.commit t = (.error (.pairTaken r.pair), s.endTransaction t)) ∨
        (s.FreeInTurn (s.transaction t).newRows ∧
          s.commit t = (.ok (), (s.written t).endTransaction t)))) := by
  cases hoff : s.offline with
  | true =>
      refine Or.inl ⟨rfl, ?_⟩
      rw [commit, hoff]
      rfl
  | false =>
      refine Or.inr ⟨rfl, ?_⟩
      by_cases hfree : s.FreeInTurn (s.transaction t).newRows
      · exact Or.inr ⟨hfree, commit_of_freeInTurn hoff hfree⟩
      · exact Or.inl ⟨hfree, commit_of_not_freeInTurn hoff hnew hnodup hfree⟩

/-- What is written is the rows with the changes laid over them. -/
theorem row?_written (s : Store) (t : Ticket) :
    (s.written t).row? = overlay s.row? ((s.transaction t).staged.map Staged.row) := by
  unfold written
  rw [row?_foldl_writeRow, row?_foldl_claimPair]
  exact overlay_newRowsOf _ _

theorem sameRest_written (s : Store) (t : Ticket) : SameRest s (s.written t) :=
  (SameRest.foldl sameRest_claimPair _ s).trans (SameRest.foldl sameRest_writeRow _ _)

end Store

/-- When all that was staged has been written, the index of pairs is exact. -/
theorem Indexed.written {s : Store} {t : Ticket} (ix : Indexed s)
    (hc : Coherent s.row? (s.transaction t).staged)
    (hfree : s.FreeInTurn (s.transaction t).newRows) : Indexed (s.written t) :=
  hc.write (ix.claims hfree hc.new_absent hc.new_nodup) (s.row?_foldl_claimPair _)

end Dispatch
