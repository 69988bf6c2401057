/-
Open proposals and their pairs.

`Indexed` is the invariant of the pair index: under a pair stands exactly the proposal that is
open for it.  A row is claimed together with its pair, and a row that is written in a final
state lets its pair go; the file shows that both keep the index exact, and that claims which
are taken back leave no trace.

What a list of rows does to the table when they are written one after the other is `overlay`:
the last row with an identifier wins.
-/
import Dispatch.Proofs.Store.Moves

namespace Dispatch

/-- Every row is found under its own identifier, and a pair leads to a row exactly if the row
is open and has this pair. -/
structure Indexed (s : Store) : Prop where
  id_eq : ∀ {id r}, s.row? id = some r → r.id = id
  pairs : ∀ {p id}, s.openPairs.find? p = some id ↔
    ∃ r, s.row? id = some r ∧ r.isOpen = true ∧ r.pair = p

/-- The rows of a table after some have been written in turn. -/
def overlay (view : MatchId → Option Proposal) (rs : List Proposal) : MatchId → Option Proposal :=
  rs.foldl (fun v r => Function.update v r.id (some r)) view

@[simp] theorem overlay_cons (view : MatchId → Option Proposal) (r : Proposal)
    (rs : List Proposal) :
    overlay view (r :: rs) = overlay (Function.update view r.id (some r)) rs := rfl

/-- The last row that has been written under an identifier is the one that is found there. -/
theorem overlay_apply (view : MatchId → Option Proposal) (rs : List Proposal) (id : MatchId) :
    overlay view rs id = (rs.reverse.find? fun r => r.id == id).or (view id) := by
  induction rs generalizing view with
  | nil => rfl
  | cons r rest ih =>
      rw [overlay_cons, ih, List.reverse_cons, List.find?_append]
      cases rest.reverse.find? (fun r => r.id == id) with
      | some r' => rfl
      | none =>
          by_cases h : r.id = id
          · subst h
            simp
          · rw [Function.update_of_ne (Ne.symm h)]
            simp [h]

/-- Where nothing is written, nothing changes. -/
theorem overlay_of_not_mem {view : MatchId → Option Proposal} {rs : List Proposal} {id : MatchId}
    (h : ∀ r ∈ rs, r.id ≠ id) : overlay view rs id = view id := by
  rw [overlay_apply]
  have hnone : (rs.reverse.find? fun r => r.id == id) = none := by
    rw [List.find?_eq_none]
    intro r hr
    simpa using h r (List.mem_reverse.mp hr)
  rw [hnone]
  rfl

/-- Where something is written, it does not matter what was there. -/
theorem overlay_of_mem (view view' : MatchId → Option Proposal) {rs : List Proposal} {r : Proposal}
    (h : r ∈ rs) : overlay view rs r.id = overlay view' rs r.id := by
  rw [overlay_apply, overlay_apply]
  cases hfind : rs.reverse.find? (fun r' => r'.id == r.id) with
  | some r' => rfl
  | none =>
      rw [List.find?_eq_none] at hfind
      exact absurd (beq_self_eq_true r.id) (hfind r (List.mem_reverse.mpr h))

/-- What is found is what was there before or something that has been written. -/
theorem overlay_cases {view : MatchId → Option Proposal} {rs : List Proposal} {id : MatchId}
    {r : Proposal} (h : overlay view rs id = some r) : (r ∈ rs ∧ r.id = id) ∨ view id = some r := by
  rw [overlay_apply] at h
  rcases Option.or_eq_some_iff.mp h with h | ⟨-, h⟩
  · exact Or.inl ⟨List.mem_reverse.mp (List.mem_of_find?_eq_some h), by simpa using List.find?_some h⟩
  · exact Or.inr h

namespace Store

variable (s : Store) (r : Proposal)

/-! ### Single rows -/

theorem row?_claimPair : (s.claimPair r).row? = Function.update s.row? r.id (some r) := by
  funext id
  show (s.rows.insert r.id r).find? id = _
  rw [Table.find?_insert, Function.update_apply]
  rfl

theorem find?_openPairs_claimPair (p : Pair) : (s.claimPair r).openPairs.find? p
    = if p = r.pair then some r.id else s.openPairs.find? p :=
  Table.find?_insert _ _ _ _

theorem row?_writeRow : (s.writeRow r).row? = Function.update s.row? r.id (some r) := by
  funext id
  have hrows : (s.releasePair r).rows = s.rows := by
    unfold releasePair; split <;> rfl
  show ((s.releasePair r).rows.insert r.id r).find? id = _
  rw [Table.find?_insert, Function.update_apply, hrows]
  rfl

theorem find?_openPairs_writeRow (p : Pair) : (s.writeRow r).openPairs.find? p
    = if p = r.pair ∧ r.status.isTerminal = true ∧ s.openPairs.find? p = some r.id then none
      else s.openPairs.find? p := by
  show (s.releasePair r).openPairs.find? p = _
  unfold releasePair
  by_cases hp : p = r.pair
  · subst hp
    by_cases hr : r.status.isTerminal = true ∧ s.openPairs.find? r.pair = some r.id
    · rw [if_pos hr, if_pos ⟨rfl, hr⟩]
      show (s.openPairs.erase r.pair).find? r.pair = none
      rw [Table.find?_erase, if_pos rfl]
    · rw [if_neg hr, if_neg (fun h => hr h.2)]
  · simp only [hp, false_and, if_false]
    split
    · show (s.openPairs.erase r.pair).find? p = _
      rw [Table.find?_erase, if_neg hp]
    · rfl

/-- What the rows and their pairs are changed by does not touch the rest of the table. -/
structure SameRest (s s' : Store) : Prop where
  locks : s'.locks = s.locks
  transactions : s'.transactions = s.transactions
  nextTicket : s'.nextTicket = s.nextTicket
  offline : s'.offline = s.offline

theorem SameRest.transaction {s s' : Store} (h : SameRest s s') (t : Ticket) :
    s'.transaction t = s.transaction t := by
  unfold Store.transaction
  rw [h.transactions]

theorem SameRest.refl (s : Store) : SameRest s s := ⟨rfl, rfl, rfl, rfl⟩

theorem SameRest.trans {s s' s'' : Store} (h : SameRest s s') (h' : SameRest s' s'') :
    SameRest s s'' :=
  ⟨h'.locks.trans h.locks, h'.transactions.trans h.transactions,
    h'.nextTicket.trans h.nextTicket, h'.offline.trans h.offline⟩

theorem SameRest.foldl {f : Store → Proposal → Store} (hf : ∀ s r, SameRest s (f s r))
    (rs : List Proposal) : ∀ s, SameRest s (rs.foldl f s) := by
  induction rs with
  | nil => exact SameRest.refl
  | cons r rest ih => intro s; exact (hf s r).trans (ih (f s r))

theorem sameRest_claimPair : SameRest s (s.claimPair r) := ⟨rfl, rfl, rfl, rfl⟩
theorem sameRest_unclaimPair : SameRest s (s.unclaimPair r) := ⟨rfl, rfl, rfl, rfl⟩

theorem sameRest_writeRow : SameRest s (s.writeRow r) := by
  unfold writeRow releasePair
  split <;> exact ⟨rfl, rfl, rfl, rfl⟩

theorem sameRest_claimAll (claimed new : List Proposal) : SameRest s (claimAll claimed new s).2 := by
  induction new generalizing s claimed with
  | nil => exact SameRest.refl s
  | cons r rest ih =>
      rw [claimAll]
      split
      · exact SameRest.foldl sameRest_unclaimPair claimed s
      · exact (sameRest_claimPair s r).trans (ih _ _)

/-! ### Several rows -/

theorem row?_foldl_claimPair (rs : List Proposal) :
    (rs.foldl claimPair s).row? = overlay s.row? rs := by
  induction rs generalizing s with
  | nil => rfl
  | cons r rest ih => rw [List.foldl_cons, ih, row?_claimPair, overlay_cons]

theorem row?_foldl_writeRow (rs : List Proposal) :
    (rs.foldl writeRow s).row? = overlay s.row? rs := by
  induction rs generalizing s with
  | nil => rfl
  | cons r rest ih => rw [List.foldl_cons, ih, row?_writeRow, overlay_cons]

/-- Each of some rows finds its pair free when those before it have been claimed. -/
def FreeInTurn : Store → List Proposal → Prop
  | _, [] => True
  | s, r :: rest => s.openPairs.find? r.pair = none ∧ FreeInTurn (s.claimPair r) rest

theorem freeInTurn_append {rs : List Proposal} (h : s.FreeInTurn rs)
    (hr : (rs.foldl claimPair s).openPairs.find? r.pair = none) : s.FreeInTurn (rs ++ [r]) := by
  induction rs generalizing s with
  | nil => exact ⟨hr, trivial⟩
  | cons a rest ih => exact ⟨h.1, ih _ h.2 hr⟩

theorem FreeInTurn.of_append {s : Store} {rs rest : List Proposal} {r : Proposal}
    (h : s.FreeInTurn (rs ++ r :: rest)) :
    s.FreeInTurn rs ∧ (rs.foldl claimPair s).openPairs.find? r.pair = none := by
  induction rs generalizing s with
  | nil => exact ⟨trivial, h.1⟩
  | cons a rest ih => exact ⟨⟨h.1, (ih h.2).1⟩, (ih h.2).2⟩

/-- What comes of claiming some rows: all are claimed in turn, or some of them are claimed and
their claims taken back. -/
theorem claimAll_cases {s₀ : Store} {claimed : List Proposal} (h : s₀.FreeInTurn claimed)
    (new : List Proposal) :
    (claimAll claimed new (claimed.foldl claimPair s₀) = (.ok (), (claimed ++ new).foldl claimPair s₀) ∧
        s₀.FreeInTurn (claimed ++ new)) ∨
      ∃ r ∈ new, ∃ rs, claimAll claimed new (claimed.foldl claimPair s₀)
          = (.error (.pairTaken r.pair), rs.foldl unclaimPair (rs.foldl claimPair s₀)) ∧
        rs <+: claimed ++ new ∧ s₀.FreeInTurn rs ∧ ¬ s₀.FreeInTurn (claimed ++ new) := by
  induction new generalizing claimed with
  | nil =>
      refine Or.inl ⟨?_, ?_⟩
      · rw [List.append_nil]; rfl
      · rw [List.append_nil]; exact h
  | cons r rest ih =>
      rw [claimAll]
      by_cases htaken : (claimed.foldl claimPair s₀).openPairs.contains r.pair = true
      · rw [if_pos htaken]
        refine Or.inr ⟨r, by simp, claimed, rfl, List.prefix_append _ _, h, fun hfree => ?_⟩
        rw [Table.contains, hfree.of_append.2] at htaken
        cases htaken
      · rw [if_neg htaken]
        have hfree : (claimed.foldl claimPair s₀).openPairs.find? r.pair = none := by
          simpa [Table.contains] using htaken
        have hstep := ih (freeInTurn_append s₀ r h hfree)
        rw [List.foldl_append] at hstep
        rcases hstep with ⟨hall, hf⟩ | ⟨r', hr', rs, hall, hpre, hf, hnot⟩
        · exact Or.inl ⟨by simpa using hall, by simpa using hf⟩
        · exact Or.inr ⟨r', by simp [hr'], rs, by simpa using hall, by simpa using hpre, hf,
            by simpa using hnot⟩

/-! ### Claims that are taken back leave no trace -/

theorem find?_openPairs_foldl_claimPair {rs : List Proposal} {p : Pair}
    (h : ∀ r ∈ rs, r.pair ≠ p) :
    (rs.foldl claimPair s).openPairs.find? p = s.openPairs.find? p := by
  induction rs generalizing s with
  | nil => rfl
  | cons a rest ih =>
      rw [List.foldl_cons, ih _ (fun r hr => h r (by simp [hr])), find?_openPairs_claimPair,
        if_neg (Ne.symm (h a (by simp)))]

/-- A pair that has been claimed was free and leads to its claimant. -/
theorem FreeInTurn.claimed {s : Store} {rs : List Proposal} (h : s.FreeInTurn rs) {r : Proposal}
    (hr : r ∈ rs) : s.openPairs.find? r.pair = none ∧
      (rs.foldl claimPair s).openPairs.find? r.pair = some r.id := by
  induction rs generalizing s r with
  | nil => cases hr
  | cons a rest ih =>
      have hne : ∀ r' ∈ rest, r'.pair ≠ a.pair := by
        intro r' hr' hp
        have hnone := (ih h.2 hr').1
        rw [hp, find?_openPairs_claimPair, if_pos rfl] at hnone
        cases hnone
      rcases List.mem_cons.mp hr with rfl | hrest
      · refine ⟨h.1, ?_⟩
        rw [List.foldl_cons, find?_openPairs_foldl_claimPair _ hne, find?_openPairs_claimPair,
          if_pos rfl]
      · obtain ⟨hnone, hsome⟩ := ih h.2 hrest
        rw [find?_openPairs_claimPair, if_neg (hne r hrest)] at hnone
        exact ⟨hnone, hsome⟩

/-- Pairs that are free beside others are free without them. -/
theorem FreeInTurn.mono {s s' : Store} {rs : List Proposal} (h : s'.FreeInTurn rs)
    (hle : ∀ p, s'.openPairs.find? p = none → s.openPairs.find? p = none) : s.FreeInTurn rs := by
  induction rs generalizing s s' with
  | nil => trivial
  | cons a rest ih =>
      refine ⟨hle _ h.1, ih h.2 fun p hp => ?_⟩
      rw [find?_openPairs_claimPair] at hp ⊢
      split at hp
      · cases hp
      · rename_i hne
        rw [if_neg hne]
        exact hle p hp

/-- Pairs that are free beside a claim are free without it. -/
theorem FreeInTurn.of_claimPair {s : Store} {r : Proposal} {rs : List Proposal}
    (h : (s.claimPair r).FreeInTurn rs) : s.FreeInTurn rs := by
  refine h.mono fun p hp => ?_
  rw [find?_openPairs_claimPair] at hp
  split at hp
  · cases hp
  · exact hp

theorem unclaimPair_claimPair_self (hnew : s.row? r.id = none)
    (hfree : s.openPairs.find? r.pair = none) : (s.claimPair r).unclaimPair r = s := by
  have hrows : (s.rows.insert r.id r).erase r.id = s.rows := by
    rw [Table.erase_insert_self, Table.erase_of_find?_eq_none _ hnew]
  have hpairs : (s.openPairs.insert r.pair r.id).erase r.pair = s.openPairs := by
    rw [Table.erase_insert_self, Table.erase_of_find?_eq_none _ hfree]
  simp only [unclaimPair, claimPair, Table.find?_insert_self, if_true, hrows, hpairs]

/-- A claim can be taken back before another one is made, if they have nothing to do with each
other. -/
theorem unclaimPair_claimPair {a : Proposal} (hid : r.id ≠ a.id) (hpair : r.pair ≠ a.pair) :
    (s.claimPair a).unclaimPair r = (s.unclaimPair r).claimPair a := by
  simp only [unclaimPair, claimPair, Table.find?_insert_of_ne _ _ hpair,
    Table.erase_insert_of_ne _ _ hid]
  by_cases h : s.openPairs.find? r.pair = some r.id
  · rw [if_pos h, if_pos h, Table.erase_insert_of_ne _ _ hpair]
  · rw [if_neg h, if_neg h]

theorem unclaimPair_foldl_claimPair {rs : List Proposal}
    (h : ∀ a ∈ rs, r.id ≠ a.id ∧ r.pair ≠ a.pair) :
    (rs.foldl claimPair s).unclaimPair r = rs.foldl claimPair (s.unclaimPair r) := by
  induction rs generalizing s with
  | nil => rfl
  | cons a rest ih =>
      obtain ⟨hid, hpair⟩ := h a List.mem_cons_self
      rw [List.foldl_cons, ih _ fun a' ha' => h a' (List.mem_cons_of_mem _ ha'),
        unclaimPair_claimPair s r hid hpair, List.foldl_cons]

/-- **Claims that are taken back leave no trace**, if they were for new rows and free pairs: the
table is the same to the last entry. -/
theorem unclaim_claim {rs : List Proposal} (hfree : s.FreeInTurn rs)
    (hnew : ∀ r ∈ rs, s.row? r.id = none) (hnodup : (rs.map Proposal.id).Nodup) :
    rs.foldl unclaimPair (rs.foldl claimPair s) = s := by
  induction rs generalizing s with
  | nil => rfl
  | cons r rest ih =>
      rw [List.map_cons, List.nodup_cons] at hnodup
      have hapart : ∀ a ∈ rest, r.id ≠ a.id ∧ r.pair ≠ a.pair := by
        intro a ha
        refine ⟨fun he => hnodup.1 (List.mem_map.mpr ⟨a, ha, he.symm⟩), fun he => ?_⟩
        have hnone := (hfree.2.claimed ha).1
        rw [find?_openPairs_claimPair, if_pos he.symm] at hnone
        cases hnone
      -- the first claim is taken back first, as if it had never been made
      have hfirst : ((r :: rest).foldl claimPair s).unclaimPair r = rest.foldl claimPair s := by
        rw [List.foldl_cons, unclaimPair_foldl_claimPair _ r hapart,
          unclaimPair_claimPair_self s r (hnew r List.mem_cons_self) hfree.1]
      rw [List.foldl_cons, hfirst]
      exact ih s hfree.2.of_claimPair (fun a ha => hnew a (List.mem_cons_of_mem _ ha)) hnodup.2

end Store

namespace Indexed

variable {s : Store} {r : Proposal}

/-- Only what is looked up matters. -/
theorem congr (ix : Indexed s) {s' : Store} (hrow : ∀ id, s'.row? id = s.row? id)
    (hpair : ∀ p, s'.openPairs.find? p = s.openPairs.find? p) : Indexed s' where
  id_eq h := by rw [hrow] at h; exact ix.id_eq h
  pairs := by
    intro p id
    rw [hpair, hrow]
    exact ix.pairs

/-- Under a free pair no row is open. -/
theorem not_isOpen (ix : Indexed s) {p : Pair} (h : s.openPairs.find? p = none) {id : MatchId}
    {r : Proposal} (hr : s.row? id = some r) (hp : r.pair = p) : r.isOpen = false := by
  cases hopen : r.isOpen with
  | false => rfl
  | true =>
      have := ix.pairs.2 ⟨r, hr, hopen, hp⟩
      rw [h] at this
      cases this

/-- Two open rows of one pair are the same. -/
theorem unique (ix : Indexed s) {id id' : MatchId} {r r' : Proposal} (hr : s.row? id = some r)
    (hr' : s.row? id' = some r') (ho : r.isOpen = true) (ho' : r'.isOpen = true)
    (hp : r.pair = r'.pair) : id = id' := by
  have h := ix.pairs.2 ⟨r, hr, ho, rfl⟩
  rw [hp, ix.pairs.2 ⟨r', hr', ho', rfl⟩] at h
  exact (Option.some.inj h).symm

/-- What is found through a pair is its open row. -/
theorem openProposal?_eq_some_iff (ix : Indexed s) {p : Pair} :
    s.openProposal? p = some r ↔ s.row? r.id = some r ∧ r.isOpen = true ∧ r.pair = p := by
  unfold Store.openProposal?
  constructor
  · intro h
    cases hp : s.openPairs.find? p with
    | none => rw [hp] at h; cases h
    | some id =>
        rw [hp] at h
        obtain ⟨hr, hopen⟩ := Option.filter_eq_some_iff.mp h
        obtain ⟨r', hr', -, hpair⟩ := ix.pairs.1 hp
        obtain rfl : r' = r := Option.some.inj (hr'.symm.trans hr)
        rw [ix.id_eq hr]
        exact ⟨hr, hopen, hpair⟩
  · rintro ⟨hr, hopen, hpair⟩
    rw [ix.pairs.2 ⟨r, hr, hopen, hpair⟩]
    exact Option.filter_eq_some_iff.mpr ⟨hr, hopen⟩

/-- Nothing is found through a pair just if the pair is free. -/
theorem openProposal?_eq_none_iff (ix : Indexed s) {p : Pair} :
    s.openProposal? p = none ↔ s.openPairs.find? p = none := by
  constructor
  · intro h
    cases hp : s.openPairs.find? p with
    | none => rfl
    | some id =>
        obtain ⟨r, hr, hopen, hpair⟩ := ix.pairs.1 hp
        obtain rfl := ix.id_eq hr
        rw [ix.openProposal?_eq_some_iff.2 ⟨hr, hopen, hpair⟩] at h
        cases h
  · intro h
    unfold Store.openProposal?
    rw [h]

/-- A new open row may be entered under a free pair. -/
theorem claimPair (ix : Indexed s) (hnew : s.row? r.id = none) (hopen : r.isOpen = true)
    (hfree : s.openPairs.find? r.pair = none) : Indexed (s.claimPair r) where
  id_eq := by
    intro id r' h
    rw [Store.row?_claimPair] at h
    by_cases hid : id = r.id
    · subst hid
      rw [Function.update_self] at h
      obtain rfl := Option.some.inj h
      rfl
    · rw [Function.update_of_ne hid] at h; exact ix.id_eq h
  pairs := by
    intro p id
    rw [Store.find?_openPairs_claimPair, Store.row?_claimPair]
    by_cases hid : id = r.id
    · subst hid
      rw [Function.update_self]
      constructor
      · intro h
        split at h
        · exact ⟨r, rfl, hopen, Eq.symm (by assumption)⟩
        · obtain ⟨r', hr', -⟩ := ix.pairs.1 h
          rw [hnew] at hr'; cases hr'
      · rintro ⟨r', hr', -, rfl⟩
        obtain rfl := Option.some.inj hr'
        rw [if_pos rfl]
    · rw [Function.update_of_ne hid]
      constructor
      · intro h
        split at h
        · exact absurd (Option.some.inj h).symm hid
        · exact ix.pairs.1 h
      · rintro ⟨r', hr', ho', rfl⟩
        have hp : r'.pair ≠ r.pair := by
          intro hp
          rw [ix.not_isOpen hfree hr' hp] at ho'
          cases ho'
        rw [if_neg hp]
        exact ix.pairs.2 ⟨r', hr', ho', rfl⟩

/-- A row may be written over one of the same pair that is open, and a final one over any. -/
theorem writeRow (ix : Indexed s) {b : Proposal} (hb : s.row? r.id = some b)
    (hpair : b.pair = r.pair) (hopen : b.isOpen = true ∨ r.isOpen = false) :
    Indexed (s.writeRow r) where
  id_eq := by
    intro id r' h
    rw [Store.row?_writeRow] at h
    by_cases hid : id = r.id
    · subst hid
      rw [Function.update_self] at h
      obtain rfl := Option.some.inj h
      rfl
    · rw [Function.update_of_ne hid] at h; exact ix.id_eq h
  pairs := by
    intro p id
    rw [Store.find?_openPairs_writeRow, Store.row?_writeRow]
    have hclosed : r.status.isTerminal = true ↔ r.isOpen = false := by
      unfold Proposal.isOpen
      cases r.status.isTerminal <;> simp
    by_cases hid : id = r.id
    · subst hid
      rw [Function.update_self]
      constructor
      · intro h
        split at h
        · cases h
        · rename_i hkeep
          obtain ⟨b', hb', hbo, rfl⟩ := ix.pairs.1 h
          obtain rfl : b = b' := Option.some.inj (hb.symm.trans hb')
          refine ⟨r, rfl, ?_, hpair.symm⟩
          cases ho : r.isOpen with
          | true => rfl
          | false => exact absurd ⟨hpair, hclosed.2 ho, h⟩ hkeep
      · rintro ⟨r', hr', ho, rfl⟩
        obtain rfl := Option.some.inj hr'
        have hbo : b.isOpen = true := hopen.resolve_right (by rw [ho]; exact Bool.noConfusion)
        rw [if_neg]
        · exact ix.pairs.2 ⟨b, hb, hbo, hpair⟩
        · rintro ⟨-, ht, -⟩
          rw [hclosed.1 ht] at ho
          cases ho
    · rw [Function.update_of_ne hid]
      have hne : ∀ {id'}, s.openPairs.find? p = some id' → id' = id →
          ¬(p = r.pair ∧ r.status.isTerminal = true ∧ s.openPairs.find? p = some r.id) := by
        rintro id' h rfl ⟨-, -, hr⟩
        rw [h] at hr
        exact hid (Option.some.inj hr)
      constructor
      · intro h
        split at h
        · cases h
        · exact ix.pairs.1 h
      · intro h
        have hfound := ix.pairs.2 h
        rw [if_neg (hne hfound rfl)]
        exact hfound

/-- New open rows, each entered under a pair that is free in its turn, keep the index. -/
theorem claims (ix : Indexed s) {rs : List Proposal} (hfree : s.FreeInTurn rs)
    (hnew : ∀ r ∈ rs, s.row? r.id = none ∧ r.isOpen = true)
    (hnodup : (rs.map Proposal.id).Nodup) : Indexed (rs.foldl Store.claimPair s) := by
  induction rs generalizing s with
  | nil => exact ix
  | cons a rest ih =>
      obtain ⟨hnone, hopen⟩ := hnew a (by simp)
      rw [List.map_cons, List.nodup_cons] at hnodup
      refine ih (ix.claimPair hnone hopen hfree.1) hfree.2 ?_ hnodup.2
      intro r hr
      obtain ⟨hr', ho⟩ := hnew r (by simp [hr])
      have hne : r.id ≠ a.id := by
        intro he
        exact hnodup.1 (List.mem_map.mpr ⟨r, hr, he⟩)
      rw [Store.row?_claimPair, Function.update_of_ne hne]
      exact ⟨hr', ho⟩

end Indexed
end Dispatch
