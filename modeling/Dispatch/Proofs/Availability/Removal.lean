/-
What a removal leaves behind.

The three entries of an actor are removed one after the other, the flag first, and every removal is
tried whatever has become of the ones before it.  So an entry stays exactly if its own removal failed
(`Entry.leftBy`), and the removal as a whole succeeds if none did.

Somebody who has lost his flag is not found any more, whatever else he has kept.  But nothing keeps a
flag from being left alone: if its removal fails and another one does not, the actor is flagged
without a position or without a last known location (`Entry.Stranded`).
-/
import Dispatch.Proofs.Availability.Weather

namespace Dispatch

namespace Entry

/-- All three are there, or none is. -/
def Consistent (e : Entry) : Prop := e.position.isSome = e.flagged ∧ e.location.isSome = e.flagged

/-- The flag is there, but the position or the last known location is not. -/
def Stranded (e : Entry) : Prop := e.flagged = true ∧ (e.position = none ∨ e.location = none)

/-- What is left when all three are to be removed and some operations fail. -/
def leftBy (e : Entry) (failed : List CacheOp) : Entry where
  position := if .geoRemove ∈ failed then e.position else none
  flagged := e.flagged && decide (.setRemove ∈ failed)
  location := if .hashDelete ∈ failed then e.location else none

/-- A flag is left without the other entries if its removal failed and another one did not. -/
theorem Consistent.stranded_leftBy_iff {e : Entry} (h : e.Consistent) (failed : List CacheOp) :
    (e.leftBy failed).Stranded ↔ e.flagged = true ∧ .setRemove ∈ failed ∧
      ¬ (.geoRemove ∈ failed ∧ .hashDelete ∈ failed) := by
  have hflag : (e.leftBy failed).flagged = true ↔ e.flagged = true ∧ .setRemove ∈ failed := by
    rw [leftBy, Bool.and_eq_true, decide_eq_true_eq]
  unfold Stranded
  rw [hflag, and_assoc]
  refine and_congr_right fun hflagged => and_congr_right fun _ => ?_
  -- whoever has a flag has the other two entries
  have hposition : e.position ≠ none := by
    rw [← Option.isSome_iff_ne_none, h.1, hflagged]
  have hlocation : e.location ≠ none := by
    rw [← Option.isSome_iff_ne_none, h.2, hflagged]
  rw [Decidable.not_and_iff_not_or_not]
  exact or_congr (by simp [leftBy, hposition]) (by simp [leftBy, hlocation])

end Entry

namespace Availability

open Exposed

variable {distance : Location → Location → Float} {pool : Role} {id : ActorId} {x x' : Exposed}

/-- A call about an actor changes his entries, or is the next one that has failed. -/
theorem Exposed.Takes.outcome {call : CacheCall} {r : call.Reply} (h : Takes distance x call r x')
    (pool : Role) (id : ActorId) (hcall : call.Concerns pool id) :
    ∃ failed, (failed = [] ∨ failed = [call.op]) ∧ ((∃ v, r = .ok v) ↔ failed = []) ∧
      x'.failed = x.failed ++ failed ∧ x'.cache.entry pool id =
        if failed = [] then call.change (x.cache.entry pool id) else x.cache.entry pool id := by
  cases h with
  | fails hfailed hentry =>
      exact ⟨[call.op], .inr rfl, by simp, hfailed, by rw [hentry, if_neg (List.cons_ne_nil _ _)]⟩
  | works _ hfailed hentry =>
      refine ⟨[], .inl rfl, by simp, by rw [hfailed, List.append_nil], ?_⟩
      rw [hentry, if_pos hcall, if_pos rfl]

theorem firstError_eq_none_iff {α : Type} (r : Except CacheError α) (later : Option CacheError) :
    firstError r later = none ↔ (∃ v, r = .ok v) ∧ later = none := by
  cases r <;> simp [firstError]

/-- **An entry stays exactly if its removal failed**, and an error is reported exactly if some removal
did. -/
theorem removeEntries_leaves (x : Exposed) : Leads distance (removeEntries pool id) x fun r x' =>
    ∃ failed, x'.failed = x.failed ++ failed ∧ (r = none ↔ failed = []) ∧
      x'.cache.entry pool id = (x.cache.entry pool id).leftBy failed := by
  refine leads_call fun flag x₁ h₁ => leads_call fun position x₂ h₂ =>
    leads_call fun location x₃ h₃ => leads_done ?_
  obtain ⟨f₁, hop₁, hr₁, hf₁, he₁⟩ := h₁.outcome pool id ⟨rfl, rfl⟩
  obtain ⟨f₂, hop₂, hr₂, hf₂, he₂⟩ := h₂.outcome pool id ⟨rfl, rfl⟩
  obtain ⟨f₃, hop₃, hr₃, hf₃, he₃⟩ := h₃.outcome pool id ⟨rfl, rfl⟩
  refine ⟨f₁ ++ (f₂ ++ f₃), ?_, ?_, ?_⟩
  · rw [hf₃, hf₂, hf₁, List.append_assoc, List.append_assoc]
  · rw [firstError_eq_none_iff, firstError_eq_none_iff, firstError_eq_none_iff, hr₁, hr₂, hr₃,
      List.append_eq_nil_iff, List.append_eq_nil_iff, and_iff_left rfl]
  · rw [he₃, he₂, he₁]
    rcases hop₁ with rfl | rfl <;> rcases hop₂ with rfl | rfl <;> rcases hop₃ with rfl | rfl <;>
      simp [Entry.leftBy, CacheCall.change, CacheCall.op]

/-- **A removal comes to its end, and strands an actor in one way only.**  Whoever has all three
entries or none, and whatever fails: an entry stays exactly if its removal failed.  So the flag is
left without the other entries exactly if it was there, its removal failed, and one of the others
did not. -/
theorem stranded_after_remove_iff (distance : Location → Location → Float) (c : AvailabilityCache)
    {pool : Role} {id : ActorId} (h : (c.entry pool id).Consistent) (weather : List Weather) :
    ∃ r x', (remove pool id).run (Exposed.perform distance) { cache := c, ahead := weather }
        = (.done r, x') ∧
      (r = .ok () ↔ x'.failed = []) ∧
      x'.cache.entry pool id = (c.entry pool id).leftBy x'.failed ∧
      ((x'.cache.entry pool id).Stranded ↔ (c.entry pool id).flagged = true ∧
        .setRemove ∈ x'.failed ∧ ¬ (.geoRemove ∈ x'.failed ∧ .hashDelete ∈ x'.failed)) := by
  have hremove : Leads distance (remove pool id) { cache := c, ahead := weather } fun r x' =>
      (r = .ok () ↔ x'.failed = []) ∧
        x'.cache.entry pool id = (c.entry pool id).leftBy x'.failed := by
    refine (removeEntries_leaves _).bind fun e x' ⟨failed, hfailed, hnone, hentry⟩ => ?_
    obtain rfl : x'.failed = failed := hfailed
    cases e with
    | some e => exact leads_done ⟨by simpa using hnone, hentry⟩
    | none => exact leads_done ⟨by simpa using hnone, hentry⟩
  obtain ⟨r, x', hrun, hok, hentry⟩ := hremove
  refine ⟨r, x', hrun, hok, hentry, ?_⟩
  rw [hentry]
  exact h.stranded_leftBy_iff x'.failed

/-- A driver who is available, and nobody else. -/
def oneDriver : AvailabilityCache where
  positions := (∅ : Table _ _).insert "geo:driver" ((∅ : Table _ _).insert "d" { lat := 0.0, lng := 0.0 })
  sets := (∅ : Table _ _).insert "available:driver" ((∅ : Table _ _).insert "d" ())
  locations :=
    (∅ : Table _ _).insert "location:driver" ((∅ : Table _ _).insert "d" { lat := 0.0, lng := 0.0 })

theorem stranded_after_remove_iff_oneDriver : (oneDriver.entry .driver "d").Consistent ∧
    ∃ r x', (remove .driver "d").run (Exposed.perform fun _ _ => 0.0)
        { cache := oneDriver, ahead := [{ failing := [.geoRemove] }] } = (.done r, x') ∧
      r ≠ .ok () ∧ ¬ (x'.cache.entry .driver "d").Stranded := by
  have hconsistent : (oneDriver.entry .driver "d").Consistent := ⟨rfl, rfl⟩
  obtain ⟨r, x', hrun, hok, -, hstranded⟩ := stranded_after_remove_iff (fun _ _ => 0.0) oneDriver
    hconsistent [{ failing := [.geoRemove] }]
  have hfailed : x'.failed = [.geoRemove] := congrArg (fun y => y.2.failed) hrun.symm
  refine ⟨hconsistent, r, x', hrun, ?_, ?_⟩
  · rw [ne_eq, hok, hfailed]
    exact List.cons_ne_nil _ _
  · rw [hstranded, hfailed]
    simp

/-- If the removal of the flag fails, and nothing else, the flag is all that is left. -/
theorem exists_stranded_after_remove : (oneDriver.entry .driver "d").Consistent ∧
    ∃ r x', (remove .driver "d").run (Exposed.perform fun _ _ => 0.0)
        { cache := oneDriver, ahead := [{ failing := [.setRemove] }] } = (.done r, x') ∧
      r = .error (.cache (.operationFailed .setRemove)) ∧
      x'.cache.entry .driver "d" = { flagged := true } ∧ (x'.cache.entry .driver "d").Stranded :=
  ⟨⟨rfl, rfl⟩, _, _, rfl, rfl, rfl, rfl, .inl rfl⟩

end Availability
end Dispatch
