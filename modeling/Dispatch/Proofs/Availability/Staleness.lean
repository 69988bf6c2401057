/-
Who is pruned.

Whoever is added brings a location with him, and whatever time it carries is replaced by the time at which
he is added.  As long as nothing fails an actor has all three entries with the time at which he was last
added, or none of them (`stamped_of_smooth`).  So the last known locations are those of the actors who are
available, and a pruning, which looks at nothing else, finds exactly those who were last added before its
cutoff (`prune_exact`).
-/
import Dispatch.Proofs.Availability.Changes

namespace Dispatch.Availability

open Dispatch.Time

variable {distance : Location → Location → Float} {pool : Role} {id : ActorId} {as : List Attempt}

/-- The time at which a change adds an actor, unless he is refused. -/
def Change.addedAt? (pool : Role) (id : ActorId) : Change → Option Instant
  | add now pool' id' l => if (pool' = pool ∧ id' = id) ∧ Accepted id l then some now else none
  | remove .. | prune .. => none

/-- The time at which an actor was last added in a run. -/
def lastAdded (as : List Attempt) (pool : Role) (id : ActorId) : Option Instant :=
  (as.filterMap fun a => a.change.addedAt? pool id).getLast?

theorem lastAdded_concat (as : List Attempt) (a : Attempt) : lastAdded (as ++ [a]) pool id
    = (a.change.addedAt? pool id).or (lastAdded as pool id) := by
  rw [lastAdded, List.filterMap_append, List.getLast?_append, List.filterMap_cons]
  cases a.change.addedAt? pool id <;> rfl

/-- The entries of an actor who has none, or all three with the time at which he was last added. -/
def Stamped (added : Option Instant) (e : Entry) : Prop :=
  e = .absent ∨ ∃ l, e = .present l ∧ l.timestamp = added ∧ added.isSome = true

/-- Whoever is stamped has a flag exactly if he has a last known location, and it carries the time at which
he was last added. -/
theorem Stamped.stale_iff {added : Option Instant} {e : Entry} (h : Stamped added e)
    (cutoff : Instant) : e.location.any (isStale cutoff) = true ↔
      e.flagged = true ∧ ∃ t, added = some t ∧ t < cutoff := by
  rcases h with rfl | ⟨l, rfl, hl, hadded⟩
  · simp [Entry.absent]
  · obtain ⟨t, rfl⟩ := Option.isSome_iff_exists.mp hadded
    simp [Entry.present, isStale, hl]

/-- A change in which nothing fails gives an actor the time at which it adds him. -/
theorem Stamped.leaves {e : Entry} (h : Stamped (lastAdded as pool id) e) (a : Attempt) :
    Stamped (lastAdded (as ++ [a]) pool id) (a.change.leaves e pool id []) := by
  rw [lastAdded_concat]
  cases hchange : a.change with
  | add now pool' id' l =>
      rw [Change.leaves, Change.addedAt?]
      by_cases hid : (pool' = pool ∧ id' = id) ∧ Accepted id l
      · rw [if_pos hid, if_pos hid]
        exact .inr ⟨_, rfl, rfl, rfl⟩
      · rw [if_neg hid, if_neg hid]
        exact h
  | remove pool' id' =>
      rcases (Change.remove pool' id').leaves_cases e pool id [] with hleft | hleft | ⟨l, hgives, -⟩
      · rw [hleft]
        exact h
      · exact .inl (by rw [hleft, Entry.leftBy_nil])
      · cases hgives
  | prune now age pool' =>
      rcases (Change.prune now age pool').leaves_cases e pool id [] with hleft | hleft | ⟨l, hgives, -⟩
      · rw [hleft]
        exact h
      · exact .inl (by rw [hleft, Entry.leftBy_nil])
      · cases hgives

/-- **In a run in which nothing fails everybody is stamped.** -/
theorem stamped_of_smooth
    (h : Run.Along (Attempt.after distance) (fun c a => a.Smooth distance c) {} as) :
    Stamped (lastAdded as pool id) ((as.foldl (Attempt.after distance) {}).entry pool id) := by
  induction as using List.reverseRecOn with
  | nil => exact .inl rfl
  | append_singleton as a ih =>
      obtain ⟨hbefore, hlast, -⟩ := Run.along_append.mp h
      rw [foldl_concat, hlast.entry_after]
      exact (ih hbefore).leaves a

/-- **A pruning removes exactly those who were last added too long ago**, after any run in which nothing
fails, at any times.  It reports them, each of them once; they have no entries any more, and everybody else
has those that he had.  If it is repeated at once nobody is reported. -/
theorem prune_exact (distance : Location → Location → Float) (as : List Attempt) (pool : Role)
    (now cutoff : Instant) (age : Span) (weather : List Weather)
    (hrun : Run.Along (Attempt.after distance) (fun c a => a.Smooth distance c) {} as)
    (hcutoff : now.sub? age = some cutoff)
    (hsmooth : (⟨.prune now age pool, weather⟩ : Attempt).Smooth distance
      (as.foldl (Attempt.after distance) {})) :
    let c := as.foldl (Attempt.after distance) {}
    let a : Attempt := ⟨.prune now age pool, weather⟩
    let c' := a.after distance c
    ∃ gone, a.report? distance c = some (.ok gone) ∧ gone.Nodup ∧
      (∀ id, id ∈ gone ↔ (c.entry pool id).flagged = true ∧
        ∃ t, lastAdded as pool id = some t ∧ t < cutoff) ∧
      (∀ pool' id, c'.entry pool' id
        = if pool' = pool ∧ id ∈ gone then .absent else c.entry pool' id) ∧
      ∀ weather', let again : Attempt := ⟨.prune now age pool, weather'⟩
        again.Smooth distance c' → again.report? distance c' = some (.ok []) := by
  intro c a c'
  obtain ⟨gone, hreport, hnodup, hgone⟩ := hsmooth.report_prune hcutoff
  have hafter : ∀ pool' id, c'.entry pool' id
      = if pool' = pool ∧ id ∈ gone then .absent else c.entry pool' id := by
    intro pool' id
    rw [hsmooth.entry_after]
    simp only [Change.leaves, hcutoff, Entry.leftBy_nil]
    refine if_congr ?_ rfl rfl
    rw [hgone, eq_comm]
    exact and_congr_right fun hpool => by rw [hpool]; rfl
  refine ⟨gone, hreport, hnodup, fun id => (hgone id).trans ?_, hafter, ?_⟩
  · exact (stamped_of_smooth hrun).stale_iff cutoff
  · intro weather' again hagain
    obtain ⟨gone', hreport', -, hgone'⟩ := hagain.report_prune hcutoff
    obtain rfl : gone' = [] := by
      refine List.eq_nil_iff_forall_not_mem.mpr fun id hid => ?_
      have hstale := (hgone' id).mp hid
      rw [FoundStale, hafter] at hstale
      by_cases hmem : id ∈ gone
      · simp [hmem, Entry.absent] at hstale
      · rw [if_neg fun h => hmem h.2] at hstale
        exact hmem ((hgone id).mpr hstale)
    exact hreport'

/-- Two drivers are added a minute apart, the first one with a time that is far ahead. -/
def addingTwo : List Attempt :=
  [{ change := .add ⟨0, 0⟩ .driver "d" ⟨52.5, 13.25, some ⟨31536000, 0⟩⟩ },
    { change := .add ⟨60, 0⟩ .driver "e" ⟨52.75, 13.5, none⟩ }]

theorem prune_exact_addingTwo :
    let c := addingTwo.foldl (Attempt.after fun _ _ => 0.0) {}
    let a : Attempt := { change := .prune ⟨600, 0⟩ ⟨570 * nanosPerSecond⟩ .driver }
    ∃ gone, a.report? (fun _ _ => 0.0) c = some (.ok gone) ∧ "d" ∈ gone ∧ "e" ∉ gone ∧
      (a.after (fun _ _ => 0.0) c).entry .driver "d" = .absent ∧
      (a.after (fun _ _ => 0.0) c).entry .driver "e" = c.entry .driver "e" := by
  intro c a
  have hadded : lastAdded addingTwo .driver "d" = some ⟨0, 0⟩ ∧
      lastAdded addingTwo .driver "e" = some ⟨60, 0⟩ := by decide +kernel
  obtain ⟨gone, hreport, -, hgone, hafter, -⟩ := prune_exact (fun _ _ => 0.0) addingTwo .driver
    ⟨600, 0⟩ ⟨30, 0⟩ ⟨570 * nanosPerSecond⟩ [] (by decide +kernel) (by decide) (by decide +kernel)
  have hd : "d" ∈ gone := (hgone "d").mpr ⟨by decide +kernel, _, hadded.1, by decide⟩
  have he : "e" ∉ gone := by
    intro hmem
    obtain ⟨-, t, ht, hstale⟩ := (hgone "e").mp hmem
    obtain rfl := Option.some.inj (hadded.2.symm.trans ht)
    revert hstale
    decide
  refine ⟨gone, hreport, hd, he, ?_, ?_⟩
  · rw [hafter, if_pos ⟨rfl, hd⟩]
  · rw [hafter, if_neg fun h => he h.2]

end Dispatch.Availability
