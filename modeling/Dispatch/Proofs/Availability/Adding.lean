/-
What an addition leaves behind.

An addition writes the position, the flag and the last known location, in this order, and it ends at the
first of them that fails.  If it is the position nothing has been done.  If it is one of the others, all
three entries are removed (`Entry.addedBy`), so that nobody is left with some of them.

For an actor who was not there this undoes the addition.  But an actor who is available is moved by the
same calls, and what is removed then is not only what has been written: he loses the entries that he had
before, and is not available any more (`failed_add_changes`, `exists_lost_by_failed_add`).
-/
import Dispatch.Proofs.Availability.Removal

namespace Dispatch

open Dispatch.Time

/-- An operation that writes an entry. -/
def CacheOp.Writes : CacheOp → Prop
  | .geoAdd | .setAdd | .hashSet => True
  | _ => False

namespace Entry

/-- What is left when an actor is to be added at a place and some operations fail: the first one of them
to fail is a writing, and those that come after it are removals. -/
def addedBy (e : Entry) (l : Location) : List CacheOp → Entry
  | [] => present l
  | .geoAdd :: _ => e
  | op :: undo =>
    leftBy { e with position := some l, flagged := e.flagged || decide (op = .hashSet) } undo

@[simp] theorem leftBy_nil (e : Entry) : e.leftBy [] = absent := by
  simp [leftBy, absent]

@[simp] theorem addedBy_nil (e : Entry) (l : Location) : e.addedBy l [] = present l := rfl

theorem addedBy_cons {op : CacheOp} (h : op ≠ .geoAdd) (e : Entry) (l : Location)
    (undo : List CacheOp) : e.addedBy l (op :: undo) =
      leftBy { e with position := some l, flagged := e.flagged || decide (op = .hashSet) } undo := by
  cases op <;> first | exact absurd rfl h | rfl

/-- If no removal fails, whoever was to be added has nothing any more, unless his position could not be
written. -/
theorem addedBy_singleton (e : Entry) (l : Location) (op : CacheOp) :
    e.addedBy l [op] = if op = .geoAdd then e else absent := by
  cases op <;> simp [addedBy]

end Entry

namespace Availability

open Exposed

variable {distance : Location → Location → Float} {pool pool' : Role} {id id' : ActorId}
  {now : Instant} {l : Location}

/-- Somebody can be added: he has a name, and the place is somewhere. -/
def Accepted (id : ActorId) (l : Location) : Prop := Text.isBlank id = false ∧ l.isFinite = true

instance (id : ActorId) (l : Location) : Decidable (Accepted id l) :=
  inferInstanceAs (Decidable (_ ∧ _))

theorem add_of_not_accepted (now : Instant) (pool : Role) (h : ¬ Accepted id l) :
    ∃ reason, add now pool id l = .done (.error (.refused reason)) := by
  unfold add
  by_cases hblank : Text.isBlank id = true
  · exact ⟨.emptyActor, if_pos hblank⟩
  · have hfinite : ¬ l.isFinite = true := fun hfinite =>
      h ⟨by simpa using hblank, hfinite⟩
    refine ⟨.placeNotFinite, ?_⟩
    rw [if_neg hblank, if_pos (by simpa using hfinite)]

/-- The operations that have failed in an addition, the first one first. -/
def FailsAdding : List CacheOp → Prop
  | [] => True
  | op :: undo => op.Writes ∧ ∀ op' ∈ undo, op'.Removes

/-- Either both the flag and the location are set, or one operation fails, and if it is the second one
the flag has been set. -/
theorem mark_leaves (x : Exposed) : Leads distance (mark pool id l) x fun r x' =>
    (r = .ok () ∧ x'.failed = x.failed ∧
      x'.cache.entry pool id = { x.cache.entry pool id with flagged := true, location := some l }) ∨
    ∃ e op, r = .error e ∧ (op = .setAdd ∨ op = .hashSet) ∧ x'.failed = x.failed ++ [op] ∧
      x'.cache.entry pool id = { x.cache.entry pool id with
        flagged := (x.cache.entry pool id).flagged || decide (op = .hashSet) } := by
  refine leads_call fun r x₁ h₁ => ?_
  cases h₁ with
  | fails hfailed hentry =>
      exact leads_done (.inr ⟨_, .setAdd, rfl, .inl rfl, hfailed, by rw [hentry]; simp⟩)
  | works _ hfailed hflag =>
      refine leads_call fun r x₂ h₂ => leads_done ?_
      cases h₂ with
      | fails hfailed' hentry =>
          refine .inr ⟨_, .hashSet, rfl, .inr rfl, by rw [hfailed', hfailed]; rfl, ?_⟩
          rw [hentry, hflag]
          simp [CacheCall.Concerns, CacheCall.change]
      | works _ hfailed' hlocation =>
          refine .inl ⟨rfl, by rw [hfailed', hfailed], ?_⟩
          rw [hlocation, hflag]
          simp [CacheCall.Concerns, CacheCall.change]

/-- Nothing but removals can fail when an actor's entries are removed. -/
theorem uses_removeEntries : Uses CacheOp.Removes (removeEntries pool id) :=
  ⟨trivial, fun _ => ⟨trivial, fun _ => ⟨trivial, fun _ => trivial⟩⟩⟩

theorem add_of_accepted (h : Accepted id l) :
    add now pool id l = attempt (.geoAdd (positionsKey pool) id (l.observedAt now)) fun _ =>
      (mark pool id (l.observedAt now)).bind fun
        | .ok _ => .done (.ok ())
        | .error e => (removeEntries pool id).bind fun _ => .done (.error (.cache e)) := by
  unfold add
  rw [if_neg (by simp [h.1]), if_neg (by simp [h.2])]
  rfl

/-- **What an addition leaves** is said by the operations that failed. -/
theorem add_leaves (h : Accepted id l) (x : Exposed) : Leads distance (add now pool id l) x fun r x' =>
    ∃ failed, x'.failed = x.failed ++ failed ∧ FailsAdding failed ∧ (r = .ok () ↔ failed = []) ∧
      x'.cache.entry pool id = (x.cache.entry pool id).addedBy (l.observedAt now) failed := by
  rw [add_of_accepted h]
  refine leads_attempt (fun e x₁ h₁ => ?_) fun _ x₁ h₁ => ?_
  · cases h₁ with
    | fails hfailed hentry => exact ⟨[.geoAdd], hfailed, ⟨trivial, nofun⟩, by simp, hentry pool id⟩
  cases h₁ with
  | works _ hfailed hposition =>
      have hentry : x₁.cache.entry pool id
          = { x.cache.entry pool id with position := some (l.observedAt now) } := by
        rw [hposition, if_pos ⟨rfl, rfl⟩]
        rfl
      refine (mark_leaves x₁).bind fun r x₂ h₂ => ?_
      rcases h₂ with ⟨rfl, hfailed', hmarked⟩ | ⟨e, op, rfl, hop, hfailed', hmarked⟩
      · refine leads_done ⟨[], by rw [hfailed', hfailed, List.append_nil], trivial, by simp, ?_⟩
        rw [hmarked, hentry]
        rfl
      · -- what has been written by now is removed again
        refine ((removeEntries_leaves x₂).of_uses uses_removeEntries).bind
          fun o x₃ ⟨undo, hundone, hremoves, _, hleft⟩ => ?_
        refine leads_done ⟨op :: undo, ?_, ⟨?_, hremoves⟩, by simp, ?_⟩
        · rw [hundone, hfailed', hfailed, List.append_assoc]
          rfl
        · rcases hop with rfl | rfl <;> trivial
        · rw [hleft, hmarked, hentry]
          rcases hop with rfl | rfl <;> rfl

/-- **What a failed addition changes.**  An addition comes to its end, in any weather, and touches nobody
else.  If it succeeds the actor has all three entries, with this place and time.  If it fails and no
removal does, he has none when it was the flag or the location that could not be written, and what he had
before otherwise.  So a failed addition changes nothing exactly if he was not there, or if neither of the
two failed. -/
theorem failed_add_changes (distance : Location → Location → Float) (c : AvailabilityCache)
    (now : Instant) (pool : Role) (id : ActorId) (l : Location) (weather : List Weather) :
    ∃ r x', (add now pool id l).run (Exposed.perform distance) { cache := c, ahead := weather }
        = (.done r, x') ∧
      (r = .ok () → x'.cache.entry pool id = .present (l.observedAt now)) ∧
      (r ≠ .ok () → (∀ op ∈ x'.failed, ¬ op.Removes) →
        (x'.cache.entry pool id
          = if .setAdd ∈ x'.failed ∨ .hashSet ∈ x'.failed then .absent else c.entry pool id) ∧
        (x'.cache.entry pool id = c.entry pool id ↔
          c.entry pool id = .absent ∨ .setAdd ∉ x'.failed ∧ .hashSet ∉ x'.failed)) ∧
      ∀ pool' id', ¬ (pool = pool' ∧ id = id') →
        x'.cache.entry pool' id' = c.entry pool' id' := by
  have hothers : Leads distance (add now pool id l) { cache := c, ahead := weather } fun _ x' =>
      ∀ pool' id', ¬ (pool = pool' ∧ id = id') → x'.cache.entry pool' id' = c.entry pool' id' :=
    leads_of_confined (confined_add now l) _
  have hown : Leads distance (add now pool id l) { cache := c, ahead := weather } fun r x' =>
      (r = .ok () → x'.cache.entry pool id = .present (l.observedAt now)) ∧
      (r ≠ .ok () → (∀ op ∈ x'.failed, ¬ op.Removes) → x'.cache.entry pool id
        = if .setAdd ∈ x'.failed ∨ .hashSet ∈ x'.failed then .absent else c.entry pool id) := by
    by_cases haccepted : Accepted id l
    · refine (add_leaves haccepted _).mono fun r x' ⟨failed, hfailed, hshape, hok, hentry⟩ => ?_
      obtain rfl : x'.failed = failed := hfailed
      refine ⟨fun hr => by rw [hentry, hok.mp hr, Entry.addedBy_nil], fun hr hremoves => ?_⟩
      -- a writing has failed, and nothing after it
      obtain ⟨op, hop, hwrites⟩ : ∃ op, x'.failed = [op] ∧ op.Writes := by
        cases hcases : x'.failed with
        | nil => exact absurd (hok.mpr hcases) hr
        | cons op undo =>
            rw [hcases] at hshape hremoves
            cases undo with
            | nil => exact ⟨op, rfl, hshape.1⟩
            | cons op' rest => exact absurd (hshape.2 op' (by simp)) (hremoves op' (by simp))
      rw [hentry, hop, Entry.addedBy_singleton]
      cases op <;> first | exact hwrites.elim | simp
    · obtain ⟨reason, hadd⟩ := add_of_not_accepted now pool haccepted
      rw [hadd]
      exact leads_done ⟨nofun, fun _ _ => by simp⟩
  obtain ⟨r, x', hrun, ⟨hok, herror⟩, hothers⟩ := hown.and hothers
  refine ⟨r, x', hrun, hok, fun hr hremoves => ⟨herror hr hremoves, ?_⟩, hothers⟩
  rw [herror hr hremoves]
  by_cases hlost : .setAdd ∈ x'.failed ∨ .hashSet ∈ x'.failed
  · rw [if_pos hlost, or_iff_left fun h => hlost.elim h.1 h.2]
    exact eq_comm
  · rw [if_neg hlost]
    exact iff_of_true rfl (.inr (not_or.mp hlost))

/-- An available driver who cannot be flagged at his new place is not available at the old one either. -/
theorem exists_lost_by_failed_add : (oneDriver.entry .driver "d").Consistent ∧
    ∃ r x', (add ⟨600, 0⟩ .driver "d" ⟨52.75, 13.5, none⟩).run (Exposed.perform fun _ _ => 0.0)
        { cache := oneDriver, ahead := [{ failing := [.setAdd] }] } = (.done r, x') ∧
      r = .error (.cache (.operationFailed .setAdd)) ∧ (∀ op ∈ x'.failed, ¬ op.Removes) ∧
      (oneDriver.entry .driver "d").flagged = true ∧ x'.cache.entry .driver "d" = .absent := by
  have haccepted : Accepted "d" ⟨52.75, 13.5, none⟩ := by decide +kernel
  rw [add_of_accepted haccepted]
  refine ⟨⟨rfl, rfl⟩, _, _, rfl, rfl, fun op hop => ?_, rfl, rfl⟩
  obtain rfl : op = .setAdd := List.mem_singleton.mp hop
  exact not_false

end Availability
end Dispatch
