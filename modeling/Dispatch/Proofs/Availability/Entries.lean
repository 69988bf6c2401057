/-
The three entries of an actor.

In a pool an actor has a position, a flag and a last known location, each in a collection of its own.
`AvailabilityCache.entry` reads the three, and `entry_apply` says what a call makes of them: the calls
that write name one actor of one pool, and the entries of all others stay as they are.  So a program
that makes no call about an actor leaves him alone, whatever fails (`Availability.Spares`).

Whether a call fails is a matter of the weather alone, that is of whether the cache can be reached and
of the operations that fail (`perform_of_fault`, `perform_of_clear`).
-/
import Dispatch.Availability.Pool

namespace Dispatch

open Availability

/-- The entries of an actor in a pool. -/
structure Entry where
  position : Option Location := none
  flagged : Bool := false
  location : Option Location := none

namespace Entry

/-- The entries of an actor who is not there. -/
def absent : Entry := {}

/-- The entries of an actor who is available at a place. -/
def present (l : Location) : Entry := ⟨some l, true, some l⟩

/-- All three are there with one location, or none is. -/
def Agrees (e : Entry) : Prop := e = absent ∨ ∃ l, e = present l

end Entry

namespace CacheCall

/-- A call that writes an entry of an actor of a pool. -/
def Concerns (pool : Role) (id : ActorId) : CacheCall → Prop
  | geoAdd key m _ | geoRemove key m => key = positionsKey pool ∧ m = id
  | setAdd key m | setRemove key m => key = flagsKey pool ∧ m = id
  | hashSet key m _ | hashDelete key m => key = locationsKey pool ∧ m = id
  | geoRadius .. | setMembers .. | hashGet .. | hashEntries .. => False

instance (pool : Role) (id : ActorId) : (call : CacheCall) → Decidable (call.Concerns pool id)
  | geoAdd .. | geoRemove .. | setAdd .. | setRemove .. | hashSet .. | hashDelete .. =>
    inferInstanceAs (Decidable (_ ∧ _))
  | geoRadius .. | setMembers .. | hashGet .. | hashEntries .. => inferInstanceAs (Decidable False)

/-- What a call makes of the entries that it concerns. -/
def change (e : Entry) : CacheCall → Entry
  | geoAdd _ _ l => { e with position := some l }
  | geoRemove .. => { e with position := none }
  | setAdd .. => { e with flagged := true }
  | setRemove .. => { e with flagged := false }
  | hashSet _ _ l => { e with location := some l }
  | hashDelete .. => { e with location := none }
  | geoRadius .. | setMembers .. | hashGet .. | hashEntries .. => e

end CacheCall

/-- What is found in a collection of collections once a member of one of them has been written. -/
theorem Table.find?_write {κ μ α : Type} [DecidableEq κ] [DecidableEq μ] (ts : Table κ (Table μ α))
    {key key' : κ} {m x : μ} {o : Option α} {t : Table μ α}
    (ht : ∀ x, t.find? x = if x = m then o else ((ts.find? key).getD ∅).find? x) :
    (((ts.insert key t).find? key').getD ∅).find? x
      = if key = key' ∧ m = x then o else ((ts.find? key').getD ∅).find? x := by
  rw [find?_insert]
  by_cases hkey : key = key'
  · subst hkey
    rw [if_pos rfl, Option.getD_some, ht]
    by_cases hm : m = x
    · rw [if_pos hm.symm, if_pos ⟨rfl, hm⟩]
    · rw [if_neg (Ne.symm hm), if_neg fun h => hm h.2]
  · rw [if_neg (Ne.symm hkey), if_neg fun h => hkey h.1]

namespace AvailabilityCache

variable {distance : Location → Location → Float} {pool : Role} {id : ActorId}

/-- The entries of an actor in a pool. -/
def entry (c : AvailabilityCache) (pool : Role) (id : ActorId) : Entry where
  position := (c.positionsAt (positionsKey pool)).find? id
  flagged := (c.setAt (flagsKey pool)).contains id
  location := (c.locationsAt (locationsKey pool)).find? id

theorem entry_setPositions (c : AvailabilityCache) {key : String} {m : ActorId} {o : Option Location}
    {t : Table ActorId Location}
    (ht : ∀ x, t.find? x = if x = m then o else (c.positionsAt key).find? x) :
    (c.setPositions key t).entry pool id
      = if key = positionsKey pool ∧ m = id then { c.entry pool id with position := o }
        else c.entry pool id := by
  rw [entry, positionsAt, setPositions, Table.find?_write c.positions ht]
  split <;> rfl

theorem entry_setSet (c : AvailabilityCache) {key : String} {m : ActorId} {o : Option Unit}
    {t : Table ActorId Unit} (ht : ∀ x, t.find? x = if x = m then o else (c.setAt key).find? x) :
    (c.setSet key t).entry pool id
      = if key = flagsKey pool ∧ m = id then { c.entry pool id with flagged := o.isSome }
        else c.entry pool id := by
  rw [entry, setAt, setSet, Table.contains, Table.find?_write c.sets ht]
  split <;> rfl

theorem entry_setLocations (c : AvailabilityCache) {key : String} {m : ActorId} {o : Option Location}
    {t : Table ActorId Location}
    (ht : ∀ x, t.find? x = if x = m then o else (c.locationsAt key).find? x) :
    (c.setLocations key t).entry pool id
      = if key = locationsKey pool ∧ m = id then { c.entry pool id with location := o }
        else c.entry pool id := by
  rw [entry, locationsAt, setLocations, Table.find?_write c.locations ht]
  split <;> rfl

/-- **A call changes the entries that it concerns, and no others.** -/
theorem entry_apply (c : AvailabilityCache) (call : CacheCall) :
    (c.apply distance call).2.entry pool id
      = if call.Concerns pool id then call.change (c.entry pool id) else c.entry pool id := by
  cases call with
  | geoAdd key m l => exact c.entry_setPositions fun x => Table.find?_insert _ m x l
  | geoRemove key m => exact c.entry_setPositions fun x => Table.find?_erase _ m x
  | setAdd key m => exact c.entry_setSet fun x => Table.find?_insert _ m x ()
  | setRemove key m => exact c.entry_setSet fun x => Table.find?_erase _ m x
  | hashSet key m l => exact c.entry_setLocations fun x => Table.find?_insert _ m x l
  | hashDelete key m => exact c.entry_setLocations fun x => Table.find?_erase _ m x
  | geoRadius | setMembers | hashGet | hashEntries => rfl

theorem perform_of_fault {c : AvailabilityCache} {call : CacheCall} {e : CacheError}
    (h : c.fault? call.op = some e) : perform distance call c = .answer (.error e) c := by
  simp only [perform, h]

theorem perform_of_clear {c : AvailabilityCache} {call : CacheCall} (h : c.fault? call.op = none) :
    perform distance call c = .answer (.ok (c.apply distance call).1) (c.apply distance call).2 := by
  simp only [perform, h]

end AvailabilityCache

/-! ### Calls about one actor leave all others alone -/

variable {pool pool' : Role} {id id' : ActorId} {α β : Type}

theorem positionsKey_inj : positionsKey pool = positionsKey pool' ↔ pool = pool' := by
  cases pool <;> cases pool' <;> decide

theorem flagsKey_inj : flagsKey pool = flagsKey pool' ↔ pool = pool' := by
  cases pool <;> cases pool' <;> decide

theorem locationsKey_inj : locationsKey pool = locationsKey pool' ↔ pool = pool' := by
  cases pool <;> cases pool' <;> decide

theorem CacheCall.Concerns.same {call : CacheCall} (h : call.Concerns pool id)
    (h' : call.Concerns pool' id') : pool = pool' ∧ id = id' := by
  cases call with
  | geoAdd key m l => exact ⟨positionsKey_inj.mp (h.1.symm.trans h'.1), h.2.symm.trans h'.2⟩
  | geoRemove key m => exact ⟨positionsKey_inj.mp (h.1.symm.trans h'.1), h.2.symm.trans h'.2⟩
  | setAdd key m => exact ⟨flagsKey_inj.mp (h.1.symm.trans h'.1), h.2.symm.trans h'.2⟩
  | setRemove key m => exact ⟨flagsKey_inj.mp (h.1.symm.trans h'.1), h.2.symm.trans h'.2⟩
  | hashSet key m l => exact ⟨locationsKey_inj.mp (h.1.symm.trans h'.1), h.2.symm.trans h'.2⟩
  | hashDelete key m => exact ⟨locationsKey_inj.mp (h.1.symm.trans h'.1), h.2.symm.trans h'.2⟩
  | geoRadius | setMembers | hashGet | hashEntries => exact h.elim

namespace Availability

/-- A program that makes no call about an actor. -/
def Spares (pool : Role) (id : ActorId) : CacheProgram α → Prop
  | .done _ => True
  | .call c next => ¬ c.Concerns pool id ∧ ∀ r, Spares pool id (next r)

theorem Spares.bind {p : CacheProgram α} (hp : Spares pool id p) {f : α → CacheProgram β}
    (hf : ∀ a, Spares pool id (f a)) : Spares pool id (p.bind f) := by
  induction p with
  | done a => exact hf a
  | call c next ih => exact ⟨hp.1, fun r => ih r (hp.2 r)⟩

/-- A program whose calls are all about one actor. -/
def Confined (pool : Role) (id : ActorId) : CacheProgram α → Prop
  | .done _ => True
  | .call c next => c.Concerns pool id ∧ ∀ r, Confined pool id (next r)

theorem Confined.spares {p : CacheProgram α} (hp : Confined pool id p)
    (hother : ¬ (pool = pool' ∧ id = id')) : Spares pool' id' p := by
  induction p with
  | done a => trivial
  | call c next ih => exact ⟨fun hc => hother (hp.1.same hc), fun r => ih r (hp.2 r)⟩

theorem Confined.bind {p : CacheProgram α} (hp : Confined pool id p) {f : α → CacheProgram β}
    (hf : ∀ a, Confined pool id (f a)) : Confined pool id (p.bind f) := by
  induction p with
  | done a => exact hf a
  | call c next ih => exact ⟨hp.1, fun r => ih r (hp.2 r)⟩

theorem confined_removeEntries : Confined pool id (removeEntries pool id) :=
  ⟨⟨rfl, rfl⟩, fun _ => ⟨⟨rfl, rfl⟩, fun _ => ⟨⟨rfl, rfl⟩, fun _ => trivial⟩⟩⟩

theorem confined_mark (l : Location) : Confined pool id (mark pool id l) := by
  refine ⟨⟨rfl, rfl⟩, fun r => ?_⟩
  cases r with
  | error e => trivial
  | ok _ => exact ⟨⟨rfl, rfl⟩, fun _ => trivial⟩

theorem confined_add (now : Time.Instant) (l : Location) : Confined pool id (add now pool id l) := by
  unfold add
  split
  · trivial
  split
  · trivial
  refine ⟨⟨rfl, rfl⟩, fun r => ?_⟩
  cases r with
  | error e => trivial
  | ok _ =>
    refine (confined_mark _).bind fun r => ?_
    cases r with
    | ok _ => trivial
    | error e => exact confined_removeEntries.bind fun _ => trivial

theorem confined_remove : Confined pool id (remove pool id) := by
  refine confined_removeEntries.bind fun r => ?_
  cases r <;> trivial

theorem spares_removeAll {ids : List ActorId} (h : ¬ (pool = pool' ∧ id' ∈ ids)) :
    Spares pool' id' (removeAll pool ids) := by
  induction ids with
  | nil => trivial
  | cons id rest ih =>
    have hid : ¬ (pool = pool' ∧ id = id') := fun he => h ⟨he.1, he.2 ▸ List.mem_cons_self⟩
    have hrest : Spares pool' id' (removeAll pool rest) :=
      ih fun he => h ⟨he.1, List.mem_cons_of_mem _ he.2⟩
    refine (confined_removeEntries.spares hid).bind fun r => ?_
    cases r with
    | none => exact hrest.bind fun _ => trivial
    | some e => exact hrest

end Availability
end Dispatch
