/-
What a change leaves behind.

A change is an addition, a removal or a pruning, and what it leaves of the entries of an actor is said by
the operations that fail for him (`Change.leaves`).  There is one exception: when a pruning cannot read
the locations of its pool it leaves everybody alone (`Attempt.exists_leaves`).

In a change in which nothing fails there is no choice left.  Such a change makes of the entries exactly
what it is meant to (`Attempt.Smooth.entry_after`), and a smooth pruning reports those whom it found
stale, each of them once (`Attempt.Smooth.report_prune`).
-/
import Dispatch.Proofs.Availability.Agreement

namespace Dispatch.Availability

open Dispatch.Time Exposed

variable {distance : Location → Location → Float} {pool : Role} {id : ActorId}

namespace Change

/-- What a change leaves of the entries of an actor when some operations fail for him. -/
def leaves (e : Entry) (pool : Role) (id : ActorId) (failed : List CacheOp) : Change → Entry
  | add now pool' id' l =>
    if (pool' = pool ∧ id' = id) ∧ Accepted id l then e.addedBy (l.observedAt now) failed else e
  | remove pool' id' => if pool' = pool ∧ id' = id then e.leftBy failed else e
  | prune now age pool' =>
    match now.sub? age with
    | none => e
    | some cutoff =>
      if pool' = pool ∧ e.location.any (isStale cutoff) = true then e.leftBy failed else e

/-- A change leaves an actor as he is, adds him with the location that it is to give him, or removes him,
as far as its operations do not fail. -/
theorem leaves_cases (change : Change) (e : Entry) (pool : Role) (id : ActorId)
    (failed : List CacheOp) : change.leaves e pool id failed = e ∨
      change.leaves e pool id failed = e.leftBy failed ∨
      ∃ l, change.gives pool id = some l ∧ change.leaves e pool id failed = e.addedBy l failed := by
  cases change with
  | add now pool' id' l =>
      by_cases hid : (pool' = pool ∧ id' = id) ∧ Accepted id l
      · exact .inr (.inr ⟨_, if_pos hid.1, if_pos hid⟩)
      · exact .inl (if_neg hid)
  | remove pool' id' =>
      by_cases hid : pool' = pool ∧ id' = id
      · exact .inr (.inl (if_pos hid))
      · exact .inl (if_neg hid)
  | prune now age pool' =>
      rw [leaves]
      cases now.sub? age with
      | none => exact .inl rfl
      | some cutoff =>
          by_cases hid : pool' = pool ∧ e.location.any (isStale cutoff) = true
          · exact .inr (.inl (if_pos hid))
          · exact .inl (if_neg hid)

end Change

/-- What a change that is about one actor leaves of him, and what it leaves of others. -/
theorem leads_tell {p : CacheProgram (Except ServiceError Unit)} {x : Exposed} {pool' : Role}
    {id' : ActorId} {f : List CacheOp → Entry} (hconfined : Confined pool' id' p)
    (hself : pool' = pool → id' = id → Leads distance p x fun _ x' => ∃ failed,
      x'.failed = x.failed ++ failed ∧ x'.cache.entry pool id = f failed)
    (hother : ¬ (pool' = pool ∧ id' = id) → ∀ failed, f failed = x.cache.entry pool id) :
    Leads distance (p.bind (Change.tell id')) x fun _ x' => ∃ more, x'.failed = x.failed ++ more ∧
      ∃ failed ⊆ more, x'.cache.entry pool id = f failed := by
  have hp : Leads distance p x fun _ x' => ∃ more, x'.failed = x.failed ++ more ∧
      ∃ failed ⊆ more, x'.cache.entry pool id = f failed := by
    by_cases hid : pool' = pool ∧ id' = id
    · refine (hself hid.1 hid.2).mono fun _ x' ⟨failed, hfailed, hentry⟩ => ?_
      exact ⟨failed, hfailed, failed, List.Subset.refl _, hentry⟩
    · refine ((leads_of_uses (uses_any p) x).and (leads_of_spares (hconfined.spares hid) x)).mono
        fun _ x' ⟨⟨more, hmore, _⟩, hsame⟩ => ?_
      exact ⟨more, hmore, [], List.nil_subset _, by rw [hsame, hother hid]⟩
  refine hp.bind fun r x' h => ?_
  cases r with
  | ok _ => exact leads_done h
  | error e => exact leads_done h

/-- **What any change leaves of any actor**: either something has failed and he has been left alone, or
what has failed for him says what he has. -/
theorem leads_leaves (change : Change) (x : Exposed) (pool : Role) (id : ActorId) :
    Leads distance change.program x fun _ x' => ∃ more, x'.failed = x.failed ++ more ∧
      ((more ≠ [] ∧ x'.cache.entry pool id = x.cache.entry pool id) ∨
        ∃ failed ⊆ more, x'.cache.entry pool id
          = change.leaves (x.cache.entry pool id) pool id failed) := by
  cases change with
  | add now pool' id' l =>
      refine (leads_tell (confined_add now l) ?_ ?_).mono fun _ x' ⟨more, hmore, h⟩ =>
        ⟨more, hmore, .inr h⟩
      · rintro rfl rfl
        by_cases haccepted : Accepted id' l
        · refine (add_leaves haccepted x).mono fun _ x' ⟨failed, hfailed, _, _, hentry⟩ => ?_
          exact ⟨failed, hfailed, by rw [hentry, Change.leaves, if_pos ⟨⟨rfl, rfl⟩, haccepted⟩]⟩
        · obtain ⟨reason, hadd⟩ := add_of_not_accepted now pool' haccepted
          rw [hadd]
          exact leads_done ⟨[], by simp, by rw [Change.leaves, if_neg fun h => haccepted h.2]⟩
      · exact fun hid failed => if_neg fun h => hid h.1
  | remove pool' id' =>
      refine (leads_tell confined_remove ?_ ?_).mono fun _ x' ⟨more, hmore, h⟩ =>
        ⟨more, hmore, .inr h⟩
      · rintro rfl rfl
        refine (removeEntries_leaves x).bind fun o x' ⟨failed, hfailed, _, hentry⟩ => ?_
        have hleaves : x'.cache.entry pool' id'
            = (Change.remove pool' id').leaves (x.cache.entry pool' id') pool' id' failed := by
          rw [hentry, Change.leaves, if_pos ⟨rfl, rfl⟩]
        cases o with
        | none => exact leads_done ⟨failed, hfailed, hleaves⟩
        | some e => exact leads_done ⟨failed, hfailed, hleaves⟩
      · exact fun hid failed => if_neg hid
  | prune now age pool' =>
      cases hcutoff : now.sub? age with
      | none =>
          simp only [Change.program, Change.leaves, hcutoff]
          exact leads_done ⟨[], by simp, .inr ⟨[], by simp, rfl⟩⟩
      | some cutoff =>
          simp only [Change.program, Change.leaves, hcutoff]
          refine (prune_leaves cutoff pool' pool id x).bind fun r x' h => ?_
          obtain ⟨more, hmore, h⟩ := h
          cases r with
          | error e => exact leads_done ⟨more, hmore, .inl ⟨by simp [h.1], h.2⟩⟩
          | ok gone =>
              refine leads_done ⟨more, hmore, .inr ?_⟩
              by_cases hid : pool' = pool ∧
                  (x.cache.entry pool id).location.any (isStale cutoff) = true
              · simp only [if_pos hid] at h ⊢
                obtain ⟨-, -, failed, hfailed, -, hentry⟩ := h
                exact ⟨failed, hfailed, hentry⟩
              · simp only [if_neg hid] at h ⊢
                exact ⟨[], List.nil_subset _, h.2.2.2⟩

namespace Attempt

variable {c : AvailabilityCache} {a : Attempt}

/-- The operations that fail during a change, the first one first. -/
def failed (distance : Location → Location → Float) (c : AvailabilityCache) (a : Attempt) :
    List CacheOp := (a.run distance c).2.failed

/-- Nothing fails during a change. -/
def Smooth (distance : Location → Location → Float) (c : AvailabilityCache) (a : Attempt) : Prop :=
  a.failed distance c = []

instance : Decidable (a.Smooth distance c) := inferInstanceAs (Decidable (_ = _))

theorem exists_leaves (distance : Location → Location → Float) (c : AvailabilityCache) (a : Attempt)
    (pool : Role) (id : ActorId) :
    (a.failed distance c ≠ [] ∧ (a.after distance c).entry pool id = c.entry pool id) ∨
      ∃ failed ⊆ a.failed distance c,
        (a.after distance c).entry pool id = a.change.leaves (c.entry pool id) pool id failed := by
  obtain ⟨r, x', hrun, more, hmore, h⟩ : Leads distance a.change.program _ _ :=
    leads_leaves a.change { cache := c, ahead := a.weather } pool id
  obtain rfl : x'.failed = more := hmore
  rw [failed, after, run, hrun]
  exact h

/-- **A change in which nothing fails** makes of everybody's entries what it is meant to. -/
theorem Smooth.entry_after (h : a.Smooth distance c) (pool : Role) (id : ActorId) :
    (a.after distance c).entry pool id = a.change.leaves (c.entry pool id) pool id [] := by
  rcases exists_leaves distance c a pool id with ⟨hfails, -⟩ | ⟨failed, hsome, hentry⟩
  · exact absurd h hfails
  · rw [h] at hsome
    rw [hentry, List.subset_nil.mp hsome]

/-- **A pruning in which nothing fails** reports those whom it found stale, each of them once. -/
theorem Smooth.report_prune {now cutoff : Instant} {age : Span} {weather : List Weather}
    (h : (⟨.prune now age pool, weather⟩ : Attempt).Smooth distance c)
    (hcutoff : now.sub? age = some cutoff) :
    ∃ gone, (⟨.prune now age pool, weather⟩ : Attempt).report? distance c = some (.ok gone) ∧
      gone.Nodup ∧ ∀ id, id ∈ gone ↔ FoundStale c cutoff pool id := by
  have hprune : Leads distance (Change.prune now age pool).program { cache := c, ahead := weather }
      fun r x' => x'.failed = [] → ∃ gone, r = .ok gone ∧ gone.Nodup ∧
        ∀ id, id ∈ gone ↔ FoundStale c cutoff pool id := by
    simp only [Change.program, hcutoff]
    refine (leads_forall (prune_leaves cutoff pool pool · _)).bind fun r x' h => ?_
    cases r with
    | error e =>
        obtain ⟨more, hmore, hfails, -⟩ := h ""
        refine leads_done fun hsmooth => ?_
        rw [hmore, hfails] at hsmooth
        cases hsmooth
    | ok gone =>
        refine leads_done fun hsmooth => ?_
        obtain ⟨-, -, -, hnodup, -⟩ := h ""
        refine ⟨gone, rfl, hnodup, fun id => ?_⟩
        obtain ⟨more, hmore, -, -, hid⟩ := h id
        obtain rfl : more = [] := by
          rw [hsmooth] at hmore
          exact (List.append_eq_nil_iff.mp hmore.symm).2
        by_cases hstale : FoundStale c cutoff pool id
        · rw [if_pos ⟨rfl, hstale⟩] at hid
          obtain ⟨failed, hfailed, hgone, -⟩ := hid
          exact iff_of_true (hgone.mpr (List.subset_nil.mp hfailed)) hstale
        · rw [if_neg fun h => hstale h.2] at hid
          exact iff_of_false (hid.1 rfl) hstale
  obtain ⟨r, x', hrun, hreport⟩ := hprune
  obtain ⟨gone, rfl, hgone⟩ := hreport (by rw [Smooth, failed, run, hrun] at h; exact h)
  refine ⟨gone, ?_, hgone⟩
  rw [report?, run, hrun]
  rfl

end Attempt
end Dispatch.Availability
