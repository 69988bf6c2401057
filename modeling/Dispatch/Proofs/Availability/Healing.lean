/-
What a pruning heals.

A pruning finds actors by their last known locations.  When the cache works again, and everybody was last
added before the cutoff, it removes whoever has a last known location, with everything that he has.  But
an actor who has lost his last known location and nothing else is hidden from it (`Entry.Hidden`): it
leaves him as he is, and so does every later one.

An actor is hidden in one way only.  Somebody removes his entries, as a whole or to undo an addition, and
his last known location goes while the flag or the position cannot be removed.  So of everything that a
pruning leaves there is a change to blame, since which no change succeeded for him (`Blamed`,
`pruned_or_blamed`).
-/
import Dispatch.Proofs.Availability.Changes

namespace Dispatch

open Dispatch.Time

namespace Entry

/-- Something is there, but no last known location. -/
def Hidden (e : Entry) : Prop := e.location = none ∧ e ≠ absent

theorem not_hidden_absent : ¬ absent.Hidden := fun h => h.2 rfl

theorem not_hidden_present (l : Location) : ¬ (present l).Hidden := fun h => nomatch h.1

/-- Whoever is hidden by a removal has kept his flag or his position. -/
theorem Hidden.of_leftBy {e : Entry} {failed : List CacheOp} (h : (e.leftBy failed).Hidden) :
    .setRemove ∈ failed ∨ .geoRemove ∈ failed := by
  by_contra hboth
  obtain ⟨hflag, hposition⟩ := not_or.mp hboth
  have hlocation : (if .hashDelete ∈ failed then e.location else none) = none := h.1
  exact h.2 (by simp [leftBy, absent, hflag, hposition, hlocation])

/-- Whoever is hidden by an addition is so by its undoing, unless he was before. -/
theorem Hidden.of_addedBy {e : Entry} {l : Location} {failed : List CacheOp}
    (h : (e.addedBy l failed).Hidden) : e.Hidden ∨ .setRemove ∈ failed ∨ .geoRemove ∈ failed := by
  cases failed with
  | nil => exact absurd h (not_hidden_present l)
  | cons op undo =>
      by_cases hop : op = .geoAdd
      · subst hop
        exact .inl h
      · rw [addedBy_cons hop] at h
        exact .inr (h.of_leftBy.imp (List.mem_cons_of_mem op) (List.mem_cons_of_mem op))

theorem location_leftBy (e : Entry) (failed : List CacheOp) :
    (e.leftBy failed).location = none ∨ (e.leftBy failed).location = e.location := by
  rw [leftBy]
  by_cases h : .hashDelete ∈ failed
  · exact .inr (if_pos h)
  · exact .inl (if_neg h)

theorem location_addedBy (e : Entry) (l : Location) (failed : List CacheOp) :
    (e.addedBy l failed).location = none ∨ (e.addedBy l failed).location = e.location ∨
      (e.addedBy l failed).location = some l := by
  cases failed with
  | nil => exact .inr (.inr rfl)
  | cons op undo =>
      by_cases hop : op = .geoAdd
      · subst hop
        exact .inr (.inl rfl)
      · rw [addedBy_cons hop]
        exact (location_leftBy _ undo).imp_right .inl

end Entry

namespace Availability

open Dispatch.Time

variable {distance : Location → Location → Float} {pool : Role} {id : ActorId} {as : List Attempt}

namespace Change

variable {e : Entry} {failed : List CacheOp}

/-- Whoever is hidden by a change has kept his flag or his position when they were to be removed. -/
theorem hidden_leaves {change : Change} (h : (change.leaves e pool id failed).Hidden)
    (hbefore : ¬ e.Hidden) : .setRemove ∈ failed ∨ .geoRemove ∈ failed := by
  rcases change.leaves_cases e pool id failed with hleft | hleft | ⟨l, -, hleft⟩
  · rw [hleft] at h
    exact absurd h hbefore
  · rw [hleft] at h
    exact h.of_leftBy
  · rw [hleft] at h
    exact h.of_addedBy.resolve_left hbefore

/-- A change takes the last known location of an actor away, leaves it, or gives him the one that it is to
give him. -/
theorem location_leaves (change : Change) (e : Entry) (pool : Role) (id : ActorId)
    (failed : List CacheOp) : (change.leaves e pool id failed).location = none ∨
      (change.leaves e pool id failed).location = e.location ∨
      (change.leaves e pool id failed).location = change.gives pool id := by
  rcases change.leaves_cases e pool id failed with hleft | hleft | ⟨l, hgives, hleft⟩
  · exact .inr (.inl (by rw [hleft]))
  · rw [hleft]
    exact (e.location_leftBy failed).imp_right .inl
  · rw [hleft, hgives]
    exact e.location_addedBy l failed

theorem exists_add_of_gives {change : Change} {l : Location} (h : change.gives pool id = some l) :
    ∃ now place, change = .add now pool id place ∧ l = place.observedAt now := by
  cases change with
  | add now pool' id' place =>
      rw [gives] at h
      by_cases hid : pool' = pool ∧ id' = id
      · rw [if_pos hid] at h
        obtain ⟨rfl, rfl⟩ := hid
        exact ⟨now, place, rfl, (Option.some.inj h).symm⟩
      · rw [if_neg hid] at h
        cases h
  | remove => cases h
  | prune => cases h

end Change

/-- A removal of the flag or of the position failed in a change that was about an actor and did not succeed
for him, and no later change of the run did. -/
def Blamed (distance : Location → Location → Float) (c : AvailabilityCache) (as : List Attempt)
    (pool : Role) (id : ActorId) : Prop :=
  ∃ before a later, as = before ++ a :: later ∧
    let c' := before.foldl (Attempt.after distance) c
    (a.change.Touches c' pool id ∧
      (.setRemove ∈ a.failed distance c' ∨ .geoRemove ∈ a.failed distance c')) ∧
    Run.Along (Attempt.after distance) (fun c a => ¬ a.SucceedsFor distance pool id c) c' (a :: later)

/-- Whoever a change has succeeded for is not hidden. -/
theorem Attempt.not_hidden_of_succeeds {a : Attempt} {c : AvailabilityCache}
    (h : a.SucceedsFor distance pool id c) : ¬ ((a.after distance c).entry pool id).Hidden := by
  rw [entry_of_succeeds h]
  cases a.change.gives pool id with
  | none => exact Entry.not_hidden_absent
  | some l => exact Entry.not_hidden_present l

/-- **Whoever is hidden after a run has a change to blame.** -/
theorem blamed_of_hidden {c : AvailabilityCache} (hstart : ¬ (c.entry pool id).Hidden)
    (h : ((as.foldl (Attempt.after distance) c).entry pool id).Hidden) :
    Blamed distance c as pool id := by
  induction as using List.reverseRecOn with
  | nil => exact absurd h hstart
  | append_singleton as a ih =>
      rw [foldl_concat] at h
      have hloses : ¬ a.SucceedsFor distance pool id (as.foldl (Attempt.after distance) c) :=
        fun hsucceeds => Attempt.not_hidden_of_succeeds hsucceeds h
      by_cases hbefore : ((as.foldl (Attempt.after distance) c).entry pool id).Hidden
      · obtain ⟨before, a', later, rfl, hfails, hlater⟩ := ih hbefore
        refine ⟨before, a', later ++ [a], by simp, hfails, ?_⟩
        rw [← List.cons_append]
        refine Run.along_append.mpr ⟨hlater, ?_, trivial⟩
        rwa [List.foldl_append] at hloses
      · -- it is the last change that has hidden him
        have htouches : a.change.Touches (as.foldl (Attempt.after distance) c) pool id := by
          by_contra hspared
          rw [Attempt.entry_of_spares hspared] at h
          exact hbefore h
        refine ⟨as, a, [], rfl, ⟨htouches, ?_⟩, hloses, trivial⟩
        rcases Attempt.exists_leaves distance _ a pool id with ⟨-, hsame⟩ | ⟨failed, hsome, hleft⟩
        · rw [hsame] at h
          exact absurd h hbefore
        · rw [hleft] at h
          exact (Change.hidden_leaves h hbefore).imp (hsome ·) (hsome ·)

/-- Every last known location comes from an addition. -/
theorem exists_add_of_location {l : Location}
    (h : ((as.foldl (Attempt.after distance) {}).entry pool id).location = some l) :
    ∃ a ∈ as, ∃ now place, a.change = .add now pool id place ∧ l = place.observedAt now := by
  induction as using List.reverseRecOn with
  | nil => cases h
  | append_singleton as a ih =>
      rw [foldl_concat] at h
      have hbefore (hsame : ((as.foldl (Attempt.after distance) {}).entry pool id).location = some l) :
          ∃ a' ∈ as ++ [a], ∃ now place, a'.change = .add now pool id place ∧
            l = place.observedAt now := by
        obtain ⟨a', ha', hadd⟩ := ih hsame
        exact ⟨a', List.mem_append_left _ ha', hadd⟩
      rcases Attempt.exists_leaves distance _ a pool id with ⟨-, hsame⟩ | ⟨failed, -, hleft⟩
      · rw [hsame] at h
        exact hbefore h
      · rw [hleft] at h
        rcases a.change.location_leaves _ pool id failed with hlost | hsame | hgiven
        · rw [hlost] at h
          cases h
        · rw [hsame] at h
          exact hbefore h
        · rw [hgiven] at h
          exact ⟨a, by simp, Change.exists_add_of_gives h⟩

/-- **What a pruning in which nothing fails leaves behind**, after any run of changes in any weather in
which everybody was added to the pool before the cutoff.  It reports those who had a last known location,
and they have no entries any more.  All others keep just what they had.  So nobody has a last known
location, and of whatever else somebody still has there is a change to blame. -/
theorem pruned_or_blamed (distance : Location → Location → Float) (as : List Attempt) (pool : Role)
    (now cutoff : Instant) (age : Span) (weather : List Weather)
    (hcutoff : now.sub? age = some cutoff)
    (hbefore : ∀ a ∈ as, ∀ t id place, a.change = .add t pool id place → t < cutoff)
    (hsmooth : (⟨.prune now age pool, weather⟩ : Attempt).Smooth distance
      (as.foldl (Attempt.after distance) {})) :
    let c := as.foldl (Attempt.after distance) {}
    let a : Attempt := ⟨.prune now age pool, weather⟩
    let c' := a.after distance c
    (∃ gone, a.report? distance c = some (.ok gone) ∧ gone.Nodup ∧
      ∀ id, id ∈ gone ↔ (c.entry pool id).location ≠ none) ∧
    ∀ id, (c'.entry pool id).location = none ∧
      ((c.entry pool id).location ≠ none → c'.entry pool id = .absent) ∧
      ((c.entry pool id).location = none → c'.entry pool id = c.entry pool id) ∧
      (c'.entry pool id ≠ .absent →
        c'.entry pool id = c.entry pool id ∧ Blamed distance {} as pool id) := by
  intro c a c'
  have hstale : ∀ id, FoundStale c cutoff pool id ↔ (c.entry pool id).location ≠ none := by
    intro id
    rw [FoundStale, Option.any_eq_true]
    constructor
    · rintro ⟨l, hl, -⟩
      simp [hl]
    · intro hsome
      obtain ⟨l, hl⟩ := Option.ne_none_iff_exists'.mp hsome
      obtain ⟨a, ha, t, place, hadd, rfl⟩ := exists_add_of_location hl
      refine ⟨_, hl, ?_⟩
      simpa [isStale, Location.observedAt] using hbefore a ha t id place hadd
  have hafter : ∀ id, c'.entry pool id
      = if (c.entry pool id).location ≠ none then .absent else c.entry pool id := by
    intro id
    have h := hsmooth.entry_after pool id
    simp only [Change.leaves, hcutoff, Entry.leftBy_nil, true_and] at h
    rw [h]
    exact if_congr (hstale id) rfl rfl
  refine ⟨?_, fun id => ?_⟩
  · obtain ⟨gone, hreport, hnodup, hgone⟩ := hsmooth.report_prune hcutoff
    exact ⟨gone, hreport, hnodup, fun id => (hgone id).trans (hstale id)⟩
  · by_cases hlocation : (c.entry pool id).location ≠ none
    · rw [hafter, if_pos hlocation]
      exact ⟨rfl, fun _ => rfl, fun h => absurd h hlocation, fun h => absurd rfl h⟩
    · rw [hafter, if_neg hlocation]
      refine ⟨not_not.mp hlocation, fun h => absurd h hlocation, fun _ => rfl, fun h => ⟨rfl, ?_⟩⟩
      exact blamed_of_hidden Entry.not_hidden_absent ⟨not_not.mp hlocation, h⟩

/-- A driver is added and then removed while his position cannot be, and another driver is added. -/
def hidingRun : List Attempt :=
  [{ change := .add ⟨0, 0⟩ .driver "d" ⟨52.5, 13.25, none⟩ },
    { change := .remove .driver "d", weather := [{ failing := [.geoRemove] }] },
    { change := .add ⟨60, 0⟩ .driver "e" ⟨52.75, 13.5, none⟩, weather := [{}] }]

/-- A pruning five minutes after the last addition of `hidingRun`. -/
def pruningLate : Attempt := { change := .prune ⟨660, 0⟩ ⟨300 * nanosPerSecond⟩ .driver }

theorem hidingRun_before : ∀ a ∈ hidingRun, ∀ t id place, a.change = .add t .driver id place →
    t < (⟨360, 0⟩ : Instant) := by
  intro a ha t id place hadd
  simp only [hidingRun, List.mem_cons, List.not_mem_nil, or_false] at ha
  rcases ha with rfl | rfl | rfl
  · cases hadd
    decide
  · cases hadd
  · cases hadd
    decide

theorem pruningLate_smooth :
    pruningLate.Smooth (fun _ _ => 0.0) (hidingRun.foldl (Attempt.after fun _ _ => 0.0) {}) := by
  decide +kernel

theorem pruned_or_blamed_hidingRun :
    let c := hidingRun.foldl (Attempt.after fun _ _ => 0.0) {}
    let c' := pruningLate.after (fun _ _ => 0.0) c
    (c.entry .driver "e").location ≠ none ∧ c'.entry .driver "e" = .absent ∧
      (c.entry .driver "d").location = none ∧ c'.entry .driver "d" = c.entry .driver "d" ∧
      c'.entry .driver "d" ≠ .absent ∧ Blamed (fun _ _ => 0.0) {} hidingRun .driver "d" := by
  intro c c'
  have h := (pruned_or_blamed (fun _ _ => 0.0) hidingRun .driver ⟨660, 0⟩ ⟨360, 0⟩
    ⟨300 * nanosPerSecond⟩ [] (by decide) hidingRun_before pruningLate_smooth).2
  have hfound : (c.entry .driver "e").location ≠ none := by
    rw [← Option.isSome_iff_ne_none]
    decide +kernel
  have hlost : (c.entry .driver "d").location = none := by
    rw [← Option.isNone_iff_eq_none]
    decide +kernel
  have hkept : c'.entry .driver "d" ≠ .absent := by
    intro habsent
    have hposition : (c'.entry .driver "d").position.isSome = true := by decide +kernel
    rw [habsent] at hposition
    cases hposition
  obtain ⟨-, -, hsame, hblamed⟩ := h "d"
  exact ⟨hfound, (h "e").2.1 hfound, hlost, hsame hlost, hkept, (hblamed hkept).2⟩

/-- The position that could not be removed is left by a pruning in which nothing fails. -/
theorem exists_position_after_prune :
    (⟨660, 0⟩ : Instant).sub? ⟨300 * nanosPerSecond⟩ = some ⟨360, 0⟩ ∧
    (∀ a ∈ hidingRun, ∀ t id place, a.change = .add t .driver id place → t < (⟨360, 0⟩ : Instant)) ∧
    pruningLate.Smooth (fun _ _ => 0.0) (hidingRun.foldl (Attempt.after fun _ _ => 0.0) {}) ∧
    ((pruningLate.after (fun _ _ => 0.0)
      (hidingRun.foldl (Attempt.after fun _ _ => 0.0) {})).entry .driver "d").position.isSome = true :=
  ⟨by decide, hidingRun_before, pruningLate_smooth, by decide +kernel⟩

end Availability
end Dispatch
