/-
What a search finds.

A search brings two collections together, the positions within its distance and the flags, and sorts what
is in both.  The collections have an order of their own, that of arrival, and nothing of it may be left in
the answer.  It is not, because the comparison by which the answer is sorted is that of a linear order, of
distances first and then of identifiers (`Nearby.key`), as long as every distance is a number; and nobody
is found twice.

So the answer is the only list of the actors found that is strictly ascending (`eq_of_ascending`).  It does
not depend on how the collections are ordered, and a search within a larger distance begins with it
(`nearby_exact`).
-/
import Dispatch.Proofs.Availability.Distances
import Dispatch.Proofs.Availability.Entries
import Mathlib.Data.List.Sort
import Mathlib.Data.String.Basic

namespace Dispatch

open Distances

namespace Nearby

/-- Nearer, or equally near with a smaller identifier. -/
def Before (a b : Nearby) : Prop :=
  a.distance < b.distance ∨ (a.distance == b.distance) = true ∧ a.id < b.id

/-- What actors found are sorted by. -/
def key (n : Nearby) : (ℤ ×ₗ ℤ ×ₗ ℤ) ×ₗ String := toLex (placeOf n.distance, n.id)

variable {a b : Nearby} {l l' : List Nearby}

theorem id_eq_of_key_eq (h : a.key = b.key) : a.id = b.id :=
  congrArg (fun k => (ofLex k).2) h

theorem before_iff (ha : a.distance.isNaN = false) (hb : b.distance.isNaN = false) :
    a.Before b ↔ a.key < b.key := by
  rw [Before, key, key, Prod.Lex.toLex_lt_toLex, lt_iff ha hb, beq_iff ha hb]

theorem le_eq (ha : a.distance.isNaN = false) (hb : b.distance.isNaN = false) :
    le a b = decide (a.key ≤ b.key) := by
  rw [Bool.eq_iff_iff, decide_eq_true_iff, key, key, Prod.Lex.toLex_le_toLex, le]
  by_cases hab : a.distance < b.distance
  · rw [if_pos hab]
    exact iff_of_true rfl (.inl ((lt_iff ha hb).mp hab))
  · rw [if_neg hab]
    rw [lt_iff ha hb] at hab
    by_cases hba : b.distance < a.distance
    · rw [if_pos hba]
      rw [lt_iff hb ha] at hba
      refine iff_of_false nofun ?_
      rintro (h | ⟨h, -⟩)
      · exact hab h
      · exact hba.ne' h
    · rw [if_neg hba, decide_eq_true_iff]
      rw [lt_iff hb ha] at hba
      rw [or_iff_right hab, and_iff_right (le_antisymm (not_lt.mp hba) (not_lt.mp hab))]

/-- Strictly ascending. -/
def Ascending (l : List Nearby) : Prop := l.Pairwise fun a b => a.key < b.key

instance : Std.Irrefl fun a b : Nearby => a.key < b.key := ⟨fun a => lt_irrefl a.key⟩

instance : Std.Antisymm fun a b : Nearby => a.key < b.key := ⟨fun _ _ h h' => absurd h' h.asymm⟩

/-- There is only one way to write some actors in ascending order. -/
theorem eq_of_ascending (h : Ascending l) (h' : Ascending l') (hmem : ∀ n, n ∈ l ↔ n ∈ l') :
    l = l' := List.Pairwise.eq_of_mem_iff h h' hmem

/-- Sorting makes a list ascend if every distance in it is a number and nobody occurs twice. -/
theorem ascending_mergeSort (hnumber : ∀ n ∈ l, n.distance.isNaN = false)
    (hids : (l.map Nearby.id).Nodup) : Ascending (l.mergeSort le) := by
  have hkeys : (l.mergeSort le).map key = (l.map key).mergeSort (· ≤ ·) :=
    List.map_mergeSort fun a ha b hb => le_eq (hnumber a ha) (hnumber b hb)
  have hle : (l.mergeSort le).Pairwise fun a b => a.key ≤ b.key := by
    rw [← List.pairwise_map, hkeys]
    exact List.pairwise_mergeSort' (· ≤ ·) _
  have hne : (l.mergeSort le).Pairwise fun a b => a.id ≠ b.id := by
    rw [← List.pairwise_map]
    exact ((List.mergeSort_perm l le).map Nearby.id).nodup_iff.mpr hids
  exact (hle.and hne).imp fun h => lt_of_le_of_ne h.1 (mt id_eq_of_key_eq h.2)

/-- Of an ascending list the actors up to some place are a beginning. -/
theorem Ascending.filter_isPrefix (h : Ascending l) (p : ℤ ×ₗ ℤ ×ₗ ℤ) :
    (l.filter fun n => decide (placeOf n.distance ≤ p)) <+: l := by
  induction l with
  | nil => exact List.prefix_refl []
  | cons a rest ih =>
      obtain ⟨hfirst, hrest⟩ := List.pairwise_cons.mp h
      by_cases ha : placeOf a.distance ≤ p
      · rw [List.filter_cons_of_pos (by simpa using ha), List.prefix_cons_inj]
        exact ih hrest
      · -- whoever comes later is at least as far away
        have hnone : (a :: rest).filter (fun n => decide (placeOf n.distance ≤ p)) = [] := by
          refine List.filter_eq_nil_iff.mpr fun b hb => ?_
          rw [decide_eq_true_iff]
          rcases List.mem_cons.mp hb with rfl | hb
          · exact ha
          · exact fun hle => ha (le_trans (Prod.Lex.monotone_fst _ _ (hfirst b hb).le) hle)
        rw [hnone]
        exact List.nil_prefix

end Nearby

namespace Availability

open AvailabilityCache

/-- Nothing that a search asks of the cache fails. -/
def Searchable (c : AvailabilityCache) : Prop :=
  c.fault? .geoRadius = none ∧ c.fault? .setMembers = none

instance (c : AvailabilityCache) : Decidable (Searchable c) := inferInstanceAs (Decidable (_ ∧ _))

/-- An actor of a pool is flagged, has a position, and is so far away from a place, and not farther than
`km`. -/
def Near (distance : Location → Location → Float) (c : AvailabilityCache) (pool : Role)
    (center : Location) (km : Float) (n : Nearby) : Prop :=
  (c.entry pool n.id).flagged = true ∧ ∃ l, (c.entry pool n.id).position = some l ∧
    n.distance = distance center l ∧ n.distance ≤ km

/-- The actors found by a search, before they are sorted. -/
def hits (distance : Location → Location → Float) (c : AvailabilityCache) (pool : Role)
    (center : Location) (km : Float) : List Nearby :=
  ((within distance (c.positionsAt (positionsKey pool)) center km).filter fun h =>
    (c.setAt (flagsKey pool)).keys.contains h.1).map fun h => ⟨h.1, h.2⟩

/-- The answer to a search. -/
def answer (distance : Location → Location → Float) (c : AvailabilityCache) (pool : Role)
    (center : Location) (km : Float) : List Nearby :=
  (hits distance c pool center km).mergeSort Nearby.le

variable {distance : Location → Location → Float} {c : AvailabilityCache} {pool : Role}
  {center : Location} {km : Float}

theorem mem_hits {n : Nearby} : n ∈ hits distance c pool center km ↔
    Near distance c pool center km n := by
  obtain ⟨id, d⟩ := n
  have hflag : (c.setAt (flagsKey pool)).keys.contains id = true ↔ (c.entry pool id).flagged = true := by
    rw [List.contains_iff_mem, Table.mem_keys_iff]
    rfl
  have hwithin : (id, d) ∈ within distance (c.positionsAt (positionsKey pool)) center km ↔
      ∃ l, (c.entry pool id).position = some l ∧ d = distance center l ∧ d ≤ km := by
    simp only [within, List.mem_filter, List.mem_map, decide_eq_true_iff, AvailabilityCache.entry]
    constructor
    · rintro ⟨⟨⟨id', l⟩, hl, heq⟩, hkm⟩
      obtain ⟨rfl, rfl⟩ := Prod.mk.inj heq
      exact ⟨l, (Table.find?_eq_some_iff _).mpr hl, rfl, hkm⟩
    · rintro ⟨l, hl, rfl, hkm⟩
      exact ⟨⟨(id, l), (Table.find?_eq_some_iff _).mp hl, rfl⟩, hkm⟩
  have hmap : (⟨id, d⟩ : Nearby) ∈ hits distance c pool center km ↔
      (id, d) ∈ within distance (c.positionsAt (positionsKey pool)) center km ∧
        (c.setAt (flagsKey pool)).keys.contains id = true := by
    simp [hits]
  rw [hmap, hwithin, hflag, and_comm, Near]

/-- Nobody is found twice. -/
theorem nodup_hits : ((hits distance c pool center km).map Nearby.id).Nodup := by
  have hwithin : ((within distance (c.positionsAt (positionsKey pool)) center km).map Prod.fst).Sublist
      (c.positionsAt (positionsKey pool)).keys := by
    have hkeys : ((c.positionsAt (positionsKey pool)).entries.map fun e =>
        (e.1, distance center e.2)).map Prod.fst = (c.positionsAt (positionsKey pool)).keys := by
      rw [List.map_map]
      rfl
    rw [← hkeys]
    exact List.filter_sublist.map Prod.fst
  have hhits : (hits distance c pool center km).map Nearby.id
      = ((within distance (c.positionsAt (positionsKey pool)) center km).filter fun h =>
          (c.setAt (flagsKey pool)).keys.contains h.1).map Prod.fst := by
    rw [hits, List.map_map]
    rfl
  rw [hhits]
  exact ((List.filter_sublist.map Prod.fst).trans hwithin).nodup (Table.nodup_keys _)

/-- A call that does not fail is made, and what comes next is done. -/
theorem run_attempt {α : Type} {call : CacheCall}
    {next : call.Result → CacheProgram (Except ServiceError α)} (h : c.fault? call.op = none) :
    (attempt call next).run (perform distance) c
      = (next (c.apply distance call).1).run (perform distance) (c.apply distance call).2 := by
  rw [attempt, Program.run_call, perform_of_clear h]

/-- A search sorts those whom it finds, and leaves the cache as it is. -/
theorem run_nearby (hc : Searchable c) (hcenter : center.isFinite = true) (hkm : km.isFinite = true)
    (hpos : 0 ≤ km) : (nearby pool center km).run (perform distance) c
      = (.done (.ok (answer distance c pool center km)), c) := by
  have hnotneg : ¬ km < 0 := by
    rw [lt_iff (isNaN_of_isFinite hkm) isNaN_zero, not_lt]
    exact (le_iff isNaN_zero (isNaN_of_isFinite hkm)).mp hpos
  rw [nearby, if_neg (by simp [hcenter]), if_neg (by simp [hkm, hnotneg])]
  exact (run_attempt hc.1).trans (run_attempt hc.2)

/-! ### What the answer says -/

theorem mem_answer {n : Nearby} : n ∈ answer distance c pool center km ↔
    Near distance c pool center km n := by
  rw [answer, List.mem_mergeSort, mem_hits]

theorem nodup_answer : ((answer distance c pool center km).map Nearby.id).Nodup :=
  ((List.mergeSort_perm _ _).map Nearby.id).nodup_iff.mpr nodup_hits

section

variable (hnumber : ∀ a b, (distance a b).isNaN = false)

include hnumber

theorem Near.isNaN {n : Nearby} (h : Near distance c pool center km n) :
    n.distance.isNaN = false := by
  obtain ⟨-, l, -, hl, -⟩ := h
  rw [hl]
  exact hnumber center l

/-- Of those who are near within a larger distance the ones who are no farther away than the smaller one
are near within the smaller one. -/
theorem near_iff_of_le {km' : Float} {n : Nearby} (hkm : km.isFinite = true)
    (hkm' : km'.isFinite = true) (hle : km ≤ km') : Near distance c pool center km n ↔
      Near distance c pool center km' n ∧ placeOf n.distance ≤ placeOf km := by
  have hplaces := (le_iff (isNaN_of_isFinite hkm) (isNaN_of_isFinite hkm')).mp hle
  constructor
  · intro h
    have hdistance := h.isNaN hnumber
    obtain ⟨hflag, l, hl, hd, hn⟩ := h
    have hplace := (le_iff hdistance (isNaN_of_isFinite hkm)).mp hn
    exact ⟨⟨hflag, l, hl, hd, (le_iff hdistance (isNaN_of_isFinite hkm')).mpr (hplace.trans hplaces)⟩,
      hplace⟩
  · rintro ⟨h, hplace⟩
    have hdistance := h.isNaN hnumber
    obtain ⟨hflag, l, hl, hd, -⟩ := h
    exact ⟨hflag, l, hl, hd, (le_iff hdistance (isNaN_of_isFinite hkm)).mpr hplace⟩

theorem ascending_answer : Nearby.Ascending (answer distance c pool center km) :=
  Nearby.ascending_mergeSort (fun _ hn => (mem_hits.mp hn).isNaN hnumber) nodup_hits

/-- Two caches with the same flags and positions give the same answer, whatever their order. -/
theorem answer_congr {c' : AvailabilityCache}
    (hsame : ∀ id, (c'.entry pool id).position = (c.entry pool id).position ∧
      (c'.entry pool id).flagged = (c.entry pool id).flagged) :
    answer distance c' pool center km = answer distance c pool center km := by
  refine Nearby.eq_of_ascending (ascending_answer hnumber) (ascending_answer hnumber) fun n => ?_
  rw [mem_answer, mem_answer, Near, Near, (hsame n.id).1, (hsame n.id).2]

theorem answer_isPrefix {km' : Float} (hkm : km.isFinite = true) (hkm' : km'.isFinite = true)
    (hle : km ≤ km') : answer distance c pool center km <+: answer distance c pool center km' := by
  have hfilter : answer distance c pool center km
      = (answer distance c pool center km').filter fun n =>
        decide (placeOf n.distance ≤ placeOf km) := by
    refine Nearby.eq_of_ascending (ascending_answer hnumber)
      ((ascending_answer hnumber).filter _) fun n => ?_
    rw [List.mem_filter, mem_answer, mem_answer, decide_eq_true_iff]
    exact near_iff_of_le hnumber hkm hkm' hle
  rw [hfilter]
  exact (ascending_answer hnumber).filter_isPrefix (placeOf km)

end

/-- **What a search finds**, if every distance is a number: all who have a flag and a position no farther
away than `km`, and nobody else, each of them once and with his distance, the nearest first, and by
identifier where two are equally near.  The order in which the cache keeps its members does not matter, and
a search within a larger distance begins with what this one finds. -/
theorem nearby_exact (distance : Location → Location → Float)
    (hnumber : ∀ a b, (distance a b).isNaN = false) (c : AvailabilityCache) (hc : Searchable c)
    (pool : Role) (center : Location) (hcenter : center.isFinite = true) (km : Float)
    (hkm : km.isFinite = true) (hpos : 0 ≤ km) :
    ∃ found, (nearby pool center km).run (perform distance) c = (.done (.ok found), c) ∧
      (∀ n, n ∈ found ↔ Near distance c pool center km n) ∧
      (found.map Nearby.id).Nodup ∧
      found.Pairwise Nearby.Before ∧
      (∀ c', Searchable c' → (∀ id, (c'.entry pool id).position = (c.entry pool id).position ∧
          (c'.entry pool id).flagged = (c.entry pool id).flagged) →
        (nearby pool center km).run (perform distance) c' = (.done (.ok found), c')) ∧
      ∀ km', km'.isFinite = true → km ≤ km' → ∃ found',
        (nearby pool center km').run (perform distance) c = (.done (.ok found'), c) ∧
          found <+: found' := by
  refine ⟨_, run_nearby hc hcenter hkm hpos, fun n => mem_answer, nodup_answer, ?_, ?_, ?_⟩
  · refine (ascending_answer hnumber).imp_of_mem fun {a b} ha hb h => ?_
    exact (Nearby.before_iff ((mem_answer.mp ha).isNaN hnumber)
      ((mem_answer.mp hb).isNaN hnumber)).mpr h
  · intro c' hc' hsame
    rw [run_nearby hc' hcenter hkm hpos, answer_congr hnumber hsame]
  · intro km' hkm' hle
    have hpos' : 0 ≤ km' := by
      rw [le_iff isNaN_zero (isNaN_of_isFinite hkm')]
      exact ((le_iff isNaN_zero (isNaN_of_isFinite hkm)).mp hpos).trans
        ((le_iff (isNaN_of_isFinite hkm) (isNaN_of_isFinite hkm')).mp hle)
    exact ⟨_, run_nearby hc hcenter hkm' hpos', answer_isPrefix hnumber hkm hkm' hle⟩

/-- Two drivers at one place and a third one on the other side of the earth, and somebody at the first
place who is not available. -/
def antipodes : AvailabilityCache where
  positions := (∅ : Table _ _).insert "geo:driver" <| (∅ : Table _ _).insert "c" ⟨0.0, 180.0, none⟩
    |>.insert "b" ⟨0.0, 0.0, none⟩ |>.insert "a" ⟨0.0, 0.0, none⟩ |>.insert "d" ⟨0.0, 0.0, none⟩
  sets := (∅ : Table _ _).insert "available:driver" <| (∅ : Table _ _).insert "a" ()
    |>.insert "c" () |>.insert "b" ()

/-- The distance between places that are the same or opposite to each other. -/
def oppositeDistance (a b : Location) : Float :=
  if a.lat == b.lat && a.lng == b.lng then 0.0 else 20015.086796020572

theorem nearby_exact_antipodes : Searchable antipodes ∧
    (∀ a b, (oppositeDistance a b).isNaN = false) ∧
    ∃ found found', (nearby .driver ⟨0.0, 0.0, none⟩ 1.0).run (perform oppositeDistance) antipodes
        = (.done (.ok found), antipodes) ∧
      (nearby .driver ⟨0.0, 0.0, none⟩ 30000.0).run (perform oppositeDistance) antipodes
        = (.done (.ok found'), antipodes) ∧
      found <+: found' ∧ ⟨"a", 0.0⟩ ∈ found ∧ ⟨"b", 0.0⟩ ∈ found ∧
      (∀ d, ⟨"c", d⟩ ∉ found) ∧ ∀ d, ⟨"d", d⟩ ∉ found := by
  have hsearchable : Searchable antipodes := by decide
  have hnumber : ∀ a b, (oppositeDistance a b).isNaN = false := by
    intro a b
    unfold oppositeDistance
    split <;> decide +kernel
  obtain ⟨found, hrun, hmem, -, -, -, hlarger⟩ := nearby_exact oppositeDistance hnumber antipodes
    hsearchable .driver ⟨0.0, 0.0, none⟩ (by decide +kernel) 1.0 (by decide +kernel)
    (by decide +kernel)
  obtain ⟨found', hrun', hprefix⟩ := hlarger 30000.0 (by decide +kernel) (by decide +kernel)
  have hsame : oppositeDistance ⟨0.0, 0.0, none⟩ ⟨0.0, 0.0, none⟩ = 0.0 := if_pos (by decide +kernel)
  have hopposite : oppositeDistance ⟨0.0, 0.0, none⟩ ⟨0.0, 180.0, none⟩ = 20015.086796020572 :=
    if_neg (by decide +kernel)
  refine ⟨hsearchable, hnumber, found, found', hrun, hrun', hprefix, ?_, ?_, fun d hd => ?_,
    fun d hd => ?_⟩
  · exact (hmem _).mpr ⟨rfl, _, rfl, hsame.symm, by decide +kernel⟩
  · exact (hmem _).mpr ⟨rfl, _, rfl, hsame.symm, by decide +kernel⟩
  · obtain ⟨-, l, hl, hdistance, hle⟩ := (hmem _).mp hd
    obtain rfl := Option.some.inj hl
    rw [hdistance, hopposite] at hle
    exact absurd hle (by decide +kernel)
  · have hflag : (antipodes.entry .driver "d").flagged = true := ((hmem _).mp hd).1
    exact absurd hflag (by decide)

end Availability
end Dispatch
