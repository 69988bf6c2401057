/-
What a pruning leaves behind.

A pruning reads the last known locations of its pool and removes the entries of those who were seen too
long ago, or at no known time, one actor after the other.  Each of these removals is like any other: an
entry stays if its own removal fails, and only somebody of whom nothing fails is reported gone
(`Entry.Removed`, `removeAll_leaves`).  Everybody else is left alone, and if the reading fails all are
(`prune_leaves`).
-/
import Dispatch.Proofs.Availability.Adding

namespace Dispatch

open Dispatch.Time

namespace Entry

/-- The entries of an actor before and after a removal in which some operations may have failed; he is gone
exactly if none has failed for him. -/
def Removed (e e' : Entry) (more : List CacheOp) (gone : Prop) : Prop :=
  ∃ failed ⊆ more, (gone ↔ failed = []) ∧ e' = e.leftBy failed

theorem Removed.mono {e e' : Entry} {more more' : List CacheOp} {gone gone' : Prop}
    (h : e.Removed e' more gone) (hmore : more ⊆ more') (hgone : gone' ↔ gone) :
    e.Removed e' more' gone' := by
  obtain ⟨failed, hfailed, hiff, hentry⟩ := h
  exact ⟨failed, fun op hop => hmore (hfailed hop), hgone.trans hiff, hentry⟩

end Entry

namespace Availability

open Exposed

variable {distance : Location → Location → Float} {pool pool' : Role} {id : ActorId} {x : Exposed}
  {c : AvailabilityCache} {cutoff : Instant}

/-- **Whoever is to be removed with others is removed as if he were alone.** -/
theorem removeAll_leaves {ids : List ActorId} (hnodup : ids.Nodup) (x : Exposed) :
    Leads distance (removeAll pool ids) x fun gone x' =>
      ∃ more, x'.failed = x.failed ++ more ∧ gone.Sublist ids ∧ ∀ id ∈ ids,
        (x.cache.entry pool id).Removed (x'.cache.entry pool id) more (id ∈ gone) := by
  induction ids generalizing x with
  | nil => exact leads_done ⟨[], by simp, .slnil, by simp⟩
  | cons id rest ih =>
      obtain ⟨hid, hrest⟩ := List.nodup_cons.mp hnodup
      refine ((removeEntries_leaves x).and (leads_of_confined confined_removeEntries x)).bind
        fun o x₁ ⟨⟨failed₁, hfailed₁, hnone, hleft⟩, hothers⟩ => ?_
      -- the rest of the removals leave the entries of `id` alone
      have hspares : Leads distance (removeAll pool rest) x₁ fun _ x₂ =>
          x₂.cache.entry pool id = x₁.cache.entry pool id :=
        leads_of_spares (spares_removeAll fun h => hid h.2) x₁
      have htail : Leads distance (removeAll pool rest) x₁ fun gone x₂ =>
          ∃ more, x₂.failed = x.failed ++ more ∧ gone.Sublist rest ∧
            (x.cache.entry pool id).Removed (x₂.cache.entry pool id) more (o = none) ∧
            ∀ i ∈ rest, i ≠ id ∧
              (x.cache.entry pool i).Removed (x₂.cache.entry pool i) more (i ∈ gone) := by
        refine ((ih hrest x₁).and hspares).mono fun gone x₂ h => ?_
        obtain ⟨⟨more, hmore, hsub, hgone⟩, hsame⟩ := h
        refine ⟨failed₁ ++ more, by rw [hmore, hfailed₁, List.append_assoc], hsub,
          ⟨failed₁, List.subset_append_left _ _, hnone, hsame.trans hleft⟩, fun i hi => ?_⟩
        have hne : i ≠ id := fun h => hid (h ▸ hi)
        rw [← hothers pool i fun h => hne h.2.symm]
        exact ⟨hne, (hgone i hi).mono (List.subset_append_right _ _) Iff.rfl⟩
      cases o with
      | none =>
          refine htail.bind fun gone x₂ h => leads_done ?_
          obtain ⟨more, hmore, hsub, hown, hgone⟩ := h
          refine ⟨more, hmore, hsub.cons_cons id, fun i hi => ?_⟩
          rcases List.mem_cons.mp hi with rfl | hi
          · exact hown.mono (List.Subset.refl _) (iff_of_true List.mem_cons_self rfl)
          · obtain ⟨hne, hremoved⟩ := hgone i hi
            exact hremoved.mono (List.Subset.refl _) (by rw [List.mem_cons, or_iff_right hne])
      | some e =>
          refine htail.mono fun gone x₂ h => ?_
          obtain ⟨more, hmore, hsub, hown, hgone⟩ := h
          refine ⟨more, hmore, hsub.cons id, fun i hi => ?_⟩
          rcases List.mem_cons.mp hi with rfl | hi
          · exact hown.mono (List.Subset.refl _) (iff_of_false (fun h => hid (hsub.subset h)) nofun)
          · exact (hgone i hi).2

/-- Nothing but removals can fail when actors are removed. -/
theorem uses_removeAll (ids : List ActorId) : Uses CacheOp.Removes (removeAll pool ids) := by
  induction ids with
  | nil => trivial
  | cons id rest ih =>
      refine uses_removeEntries.bind fun o => ?_
      cases o with
      | none => exact ih.bind fun gone => trivial
      | some e => exact ih

/-- What the removal of some actors leaves of any actor. -/
theorem removeAll_leaves_any {ids : List ActorId} (hnodup : ids.Nodup) (pool' : Role) (id : ActorId)
    (x : Exposed) : Leads distance (removeAll pool ids) x fun gone x' =>
      ∃ more, x'.failed = x.failed ++ more ∧ (∀ op ∈ more, op.Removes) ∧ gone.Nodup ∧
        if pool = pool' ∧ id ∈ ids then
          (x.cache.entry pool' id).Removed (x'.cache.entry pool' id) more (id ∈ gone)
        else (pool = pool' → id ∉ gone) ∧ x'.cache.entry pool' id = x.cache.entry pool' id := by
  have hremoved : Leads distance (removeAll pool ids) x _ :=
    (removeAll_leaves hnodup x).of_uses (uses_removeAll ids)
  by_cases hid : pool = pool' ∧ id ∈ ids
  · simp only [if_pos hid]
    obtain ⟨rfl, hid⟩ := hid
    refine hremoved.mono fun gone x' h => ?_
    obtain ⟨more, hmore, hremoves, hsub, hgone⟩ := h
    exact ⟨more, hmore, hremoves, hsub.nodup hnodup, hgone id hid⟩
  · simp only [if_neg hid]
    refine (hremoved.and (leads_of_spares (spares_removeAll hid) x)).mono fun gone x' h => ?_
    obtain ⟨⟨more, hmore, hremoves, hsub, -⟩, hsame⟩ := h
    exact ⟨more, hmore, hremoves, hsub.nodup hnodup,
      fun hpool hgone => hid ⟨hpool, hsub.subset hgone⟩, hsame⟩

/-- Those of a pool whose last known location is too old, or carries no time. -/
def staleIn (c : AvailabilityCache) (cutoff : Instant) (pool : Role) : List ActorId :=
  ((c.locationsAt (locationsKey pool)).entries.filter fun e => isStale cutoff e.2).map Prod.fst

theorem nodup_staleIn : (staleIn c cutoff pool).Nodup :=
  (List.filter_sublist.map Prod.fst).nodup (Table.nodup_keys _)

theorem mem_staleIn : id ∈ staleIn c cutoff pool ↔
    (c.entry pool id).location.any (isStale cutoff) = true := by
  simp [staleIn, AvailabilityCache.entry, Option.any_eq_true, Table.find?_eq_some_iff]

/-- **What a pruning leaves**, of whoever is too old and of everybody else. -/
theorem prune_leaves (cutoff : Instant) (pool pool' : Role) (id : ActorId) (x : Exposed) :
    Leads distance (prune cutoff pool) x fun r x' => ∃ more, x'.failed = x.failed ++ more ∧
      match r with
      | .error _ => more = [.hashEntries] ∧ x'.cache.entry pool' id = x.cache.entry pool' id
      | .ok gone => (∀ op ∈ more, op.Removes) ∧ gone.Nodup ∧
        if pool = pool' ∧ (x.cache.entry pool' id).location.any (isStale cutoff) = true then
          (x.cache.entry pool' id).Removed (x'.cache.entry pool' id) more (id ∈ gone)
        else (pool = pool' → id ∉ gone) ∧ x'.cache.entry pool' id = x.cache.entry pool' id := by
  refine leads_attempt (fun e x₁ h₁ => ?_) fun entries x₁ h₁ => ?_
  · cases h₁ with
    | fails hfailed hentry => exact ⟨[.hashEntries], hfailed, rfl, hentry pool' id⟩
  have hentry : x₁.cache.entry pool' id = x.cache.entry pool' id := h₁.entry_eq fun h => h
  cases h₁ with
  | works hresult hfailed _ =>
      subst hresult
      -- those who are removed are read off the cache before the first removal
      refine Leads.bind (p := removeAll pool (staleIn x.cache cutoff pool))
        (removeAll_leaves_any nodup_staleIn pool' id x₁) fun gone x₂ h => leads_done ?_
      have hstale : (pool = pool' ∧ id ∈ staleIn x.cache cutoff pool) ↔
          pool = pool' ∧ (x.cache.entry pool' id).location.any (isStale cutoff) = true :=
        and_congr_right fun hpool => by rw [← hpool, mem_staleIn]
      simpa only [hfailed, hentry, hstale] using h

end Availability
end Dispatch
