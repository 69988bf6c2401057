/-
Whether the entries of an actor agree.

Actors are added, removed and pruned one after the other, each change in whatever weather, and a change
that is not made in full may leave a position without a flag, or a flag without a location.  What is
shown here is that this takes a removal that failed.  A change that succeeded for an actor leaves him
all three entries with one location, or none (`Attempt.entry_of_succeeds`); one that failed leaves his
entries as they were, or none, unless one of its own removals failed (`Attempt.entry_of_fails`); and no
change touches anybody else (`Attempt.entry_of_spares`).

So in a run in which no removal of an actor fails his entries are always those of the last time he was
added, or he has none (`agreed_of_along`).
-/
import Dispatch.Proofs.Availability.Pruning
import Dispatch.Proofs.Run
import Dispatch.Service.Upkeep
import Mathlib.Data.List.Induction

namespace Dispatch.Availability

open Dispatch.Time Exposed

/-- A change of who is available, with the time at which it is made. -/
inductive Change where
  | add (now : Instant) (pool : Role) (id : ActorId) (l : Location)
  | remove (pool : Role) (id : ActorId)
  | prune (now : Instant) (age : Span) (pool : Role)

/-- What is reported of a change: those for whom it succeeded, unless it failed. -/
abbrev Report : Type := Except (Overflow ⊕ ServiceError) (List ActorId)

/-- An actor whose last known location is too old, or carries no time. -/
def FoundStale (c : AvailabilityCache) (cutoff : Instant) (pool : Role) (id : ActorId) : Prop :=
  (c.entry pool id).location.any (isStale cutoff) = true

instance (c : AvailabilityCache) (cutoff : Instant) (pool : Role) (id : ActorId) :
    Decidable (FoundStale c cutoff pool id) := inferInstanceAs (Decidable (_ = _))

namespace Change

/-- Reports of a change of one actor. -/
def tell (id : ActorId) : Except ServiceError Unit → CacheProgram Report
  | .ok _ => .done (.ok [id])
  | .error e => .done (.error (.inr e))

/-- The program of a change. -/
def program : Change → CacheProgram Report
  | add now pool id l => (Availability.add now pool id l).bind (tell id)
  | remove pool id => (Availability.remove pool id).bind (tell id)
  | prune now age pool =>
    match now.sub? age with
    | none => .done (.error (.inl .afterSubtraction))
    | some cutoff => (Availability.prune cutoff pool).bind fun
      | .ok ids => .done (.ok ids)
      | .error e => .done (.error (.inr e))

/-- The pool that a change is about. -/
def pool : Change → Role
  | add _ pool _ _ | remove pool _ | prune _ _ pool => pool

/-- The location that a change gives an actor. -/
def gives (pool : Role) (id : ActorId) : Change → Option Location
  | add now pool' id' l => if pool' = pool ∧ id' = id then some (l.observedAt now) else none
  | remove .. | prune .. => none

/-- A change that is about an actor: he is named, or he is pruned and found stale. -/
def Touches (c : AvailabilityCache) (pool : Role) (id : ActorId) : Change → Prop
  | add _ pool' id' _ | remove pool' id' => pool' = pool ∧ id' = id
  | prune now age pool' => pool' = pool ∧
      ∃ cutoff, now.sub? age = some cutoff ∧ FoundStale c cutoff pool id

end Change

section

variable {distance : Location → Location → Float} {pool : Role} {id : ActorId} {x : Exposed}
  {α : Type}

/-- A removal has failed. -/
def Exposed.Spoilt (x : Exposed) : Prop := ∃ op ∈ x.failed, op.Removes

/-! ### The programs that change the entries of an actor -/

theorem Exposed.spoilt_of_failed {x' : Exposed} {failed : List CacheOp} {op : CacheOp}
    (hfailed : x'.failed = x.failed ++ failed) (hop : op ∈ failed) (hremoves : op.Removes) :
    x'.Spoilt := ⟨op, by rw [hfailed]; exact List.mem_append_right _ hop, hremoves⟩

/-- Whoever is added is there; if he cannot be added his entries are as they were, or he has none, or
a removal has failed. -/
theorem leads_add (now : Instant) (l : Location) (x : Exposed) :
    Leads distance (add now pool id l) x fun
      | .ok _, x' => x'.cache.entry pool id = .present (l.observedAt now)
      | .error _, x' => x'.cache.entry pool id = x.cache.entry pool id ∨
          x'.cache.entry pool id = .absent ∨ x'.Spoilt := by
  by_cases haccepted : Accepted id l
  · refine (add_leaves haccepted x).mono fun r x' h => ?_
    obtain ⟨failed, hfailed, hshape, hok, hentry⟩ := h
    cases r with
    | ok _ =>
        obtain rfl := hok.mp rfl
        exact hentry
    | error e =>
        cases failed with
        | nil => exact nomatch hok.mpr rfl
        | cons op undo =>
            cases undo with
            | nil =>
                rw [Entry.addedBy_singleton] at hentry
                by_cases hop : op = .geoAdd
                · exact .inl (hentry.trans (if_pos hop))
                · exact .inr (.inl (hentry.trans (if_neg hop)))
            | cons op' rest =>
                exact .inr (.inr (spoilt_of_failed hfailed (by simp) (hshape.2 op' (by simp))))
  · obtain ⟨reason, hadd⟩ := add_of_not_accepted now pool haccepted
    rw [hadd]
    exact leads_done (.inl rfl)

theorem leads_remove (x : Exposed) : Leads distance (remove pool id) x fun
    | .ok _, x' => x'.cache.entry pool id = .absent
    | .error _, x' => x'.Spoilt := by
  refine ((removeEntries_leaves x).of_uses uses_removeEntries).bind fun o x₁ h => ?_
  obtain ⟨failed, hfailed, hremoves, hnone, hentry⟩ := h
  cases o with
  | none =>
      obtain rfl := hnone.mp rfl
      exact leads_done (hentry.trans (Entry.leftBy_nil _))
  | some e =>
      obtain ⟨op, hop⟩ := List.exists_mem_of_ne_nil failed fun h => by simpa using hnone.mpr h
      exact leads_done (spoilt_of_failed hfailed hop (hremoves op hop))

/-- Those who are found stale are gone, unless a removal has failed, and nobody else is touched. -/
theorem leads_prune (cutoff : Instant) (pool pool' : Role) (id : ActorId) (x : Exposed) :
    Leads distance (prune cutoff pool) x fun
      | .ok gone, x' =>
        if pool = pool' ∧ FoundStale x.cache cutoff pool' id then
          (id ∈ gone ∧ x'.cache.entry pool' id = .absent) ∨ (id ∉ gone ∧ x'.Spoilt)
        else (pool = pool' → id ∉ gone) ∧ x'.cache.entry pool' id = x.cache.entry pool' id
      | .error _, x' => x'.cache.entry pool' id = x.cache.entry pool' id := by
  refine (prune_leaves cutoff pool pool' id x).mono fun r x' h => ?_
  obtain ⟨more, hmore, h⟩ := h
  cases r with
  | error e => exact h.2
  | ok gone =>
      obtain ⟨hremoves, -, h⟩ := h
      by_cases hid : pool = pool' ∧ FoundStale x.cache cutoff pool' id
      · simp only [if_pos hid]
        obtain ⟨failed, hsome, hgone, hentry⟩ := (if_pos hid).mp h
        by_cases hfailed : failed = []
        · refine .inl ⟨hgone.mpr hfailed, ?_⟩
          rw [hentry, hfailed, Entry.leftBy_nil]
        · obtain ⟨op, hop⟩ := List.exists_mem_of_ne_nil failed hfailed
          exact .inr ⟨mt hgone.mp hfailed, spoilt_of_failed hmore (hsome hop) (hremoves op (hsome hop))⟩
      · simp only [if_neg hid]
        exact (if_neg hid).mp h

/-! ### Changes -/

/-- What a change comes to for an actor: his entries before and after it, and what is reported. -/
structure Change.Comes (c : Change) (x : Exposed) (pool : Role) (id : ActorId) (r : Report)
    (x' : Exposed) : Prop where
  /-- whoever it succeeded for has the entries of this time, or none -/
  succeeds : ∀ ids, r = .ok ids → c.pool = pool → id ∈ ids →
    x'.cache.entry pool id = (c.gives pool id).elim .absent .present
  fails : ∀ e, r = .error e → x'.cache.entry pool id = x.cache.entry pool id ∨
    x'.cache.entry pool id = .absent ∨ x'.Spoilt
  spares : ¬ c.Touches x.cache pool id → x'.cache.entry pool id = x.cache.entry pool id
  /-- it succeeded for whomever it is about, unless it failed or a removal did -/
  settles : c.Touches x.cache pool id →
    (∃ ids, r = .ok ids ∧ c.pool = pool ∧ id ∈ ids) ∨ (∃ e, r = .error e) ∨ x'.Spoilt

/-- A change of one actor is about him alone. -/
theorem comes_tell {c : Change} {pool' : Role} {id' : ActorId}
    {p : CacheProgram (Except ServiceError Unit)} (hpool : c.pool = pool')
    (htouches : c.Touches x.cache pool id ↔ pool' = pool ∧ id' = id) (hconfined : Confined pool' id' p)
    (h : Leads distance p x fun
      | .ok _, x' => x'.cache.entry pool' id' = (c.gives pool' id').elim .absent .present
      | .error _, x' => x'.cache.entry pool' id' = x.cache.entry pool' id' ∨
          x'.cache.entry pool' id' = .absent ∨ x'.Spoilt) :
    Leads distance (p.bind (Change.tell id')) x (c.Comes x pool id) := by
  by_cases hid : pool' = pool ∧ id' = id
  · have htouched := htouches.mpr hid
    obtain ⟨rfl, rfl⟩ := hid
    refine h.bind fun r x₁ h => ?_
    cases r with
    | ok _ =>
        exact leads_done ⟨fun _ _ _ _ => h, nofun, fun hspared => absurd htouched hspared,
          fun _ => .inl ⟨_, rfl, hpool, List.mem_singleton_self _⟩⟩
    | error e =>
        exact leads_done ⟨nofun, fun _ _ => h, fun hspared => absurd htouched hspared,
          fun _ => .inr (.inl ⟨_, rfl⟩)⟩
  · have hspared := mt htouches.mp hid
    refine (leads_of_spares (hconfined.spares hid) x).bind fun r x₁ h => ?_
    cases r with
    | ok _ =>
        refine leads_done ⟨fun ids hids hpool' hmem => ?_, nofun, fun _ => h,
          fun htouched => absurd htouched hspared⟩
        obtain rfl := Except.ok.inj hids
        exact absurd ⟨hpool.symm.trans hpool', (List.mem_singleton.mp hmem).symm⟩ hid
    | error e =>
        exact leads_done ⟨nofun, fun _ _ => .inl h, fun _ => h,
          fun htouched => absurd htouched hspared⟩

theorem comes_add (now : Instant) (pool' : Role) (id' : ActorId) (l : Location) (x : Exposed) :
    Leads distance (Change.add now pool' id' l).program x
      ((Change.add now pool' id' l).Comes x pool id) := by
  refine comes_tell rfl Iff.rfl (confined_add now l) ((leads_add now l x).mono fun r x' h => ?_)
  cases r with
  | ok _ => simpa [Change.gives, Change.pool] using h
  | error e => exact h

theorem comes_remove (pool' : Role) (id' : ActorId) (x : Exposed) :
    Leads distance (Change.remove pool' id').program x
      ((Change.remove pool' id').Comes x pool id) := by
  refine comes_tell rfl Iff.rfl confined_remove ((leads_remove x).mono fun r x' h => ?_)
  cases r with
  | ok _ => exact h
  | error e => exact .inr (.inr h)

theorem comes_prune (now : Instant) (age : Span) (pool' : Role) (x : Exposed) :
    Leads distance (Change.prune now age pool').program x
      ((Change.prune now age pool').Comes x pool id) := by
  cases hcutoff : now.sub? age with
  | none =>
      have hspared : ¬ (Change.prune now age pool').Touches x.cache pool id := by
        rintro ⟨-, cutoff, hcutoff', -⟩
        exact absurd (hcutoff.symm.trans hcutoff') (by simp)
      simp only [Change.program, hcutoff]
      exact leads_done ⟨nofun, fun _ _ => .inl rfl, fun _ => rfl, fun h => absurd h hspared⟩
  | some cutoff =>
      have htouches : (Change.prune now age pool').Touches x.cache pool id
          ↔ pool' = pool ∧ FoundStale x.cache cutoff pool id := by
        simp [Change.Touches, hcutoff]
      simp only [Change.program, hcutoff]
      refine (leads_prune cutoff pool' pool id x).bind fun r x₁ h => ?_
      cases r with
      | error e =>
          exact leads_done ⟨nofun, fun _ _ => .inl h, fun _ => h, fun _ => .inr (.inl ⟨_, rfl⟩)⟩
      | ok gone =>
          by_cases hid : pool' = pool ∧ FoundStale x.cache cutoff pool id
          · simp only [if_pos hid] at h
            rcases h with ⟨hgone, habsent⟩ | ⟨hgone, hspoilt⟩
            · exact leads_done ⟨fun ids _ _ _ => habsent, nofun, fun h => absurd (htouches.mpr hid) h,
                fun _ => .inl ⟨_, rfl, hid.1, hgone⟩⟩
            · refine leads_done ⟨fun ids hids _ hmem => ?_, nofun,
                fun h => absurd (htouches.mpr hid) h, fun _ => .inr (.inr hspoilt)⟩
              obtain rfl := Except.ok.inj hids
              exact absurd hmem hgone
          · simp only [if_neg hid] at h
            obtain ⟨hgone, hentry⟩ := h
            refine leads_done ⟨fun ids hids hpool hmem => ?_, nofun, fun _ => hentry,
              fun h => absurd (htouches.mp h) hid⟩
            obtain rfl := Except.ok.inj hids
            exact absurd hmem (hgone hpool)

/-- **What any change comes to for any actor, in any weather.** -/
theorem comes (c : Change) (x : Exposed) (pool : Role) (id : ActorId) :
    Leads distance c.program x (c.Comes x pool id) := by
  cases c with
  | add now pool' id' l => exact comes_add now pool' id' l x
  | remove pool' id' => exact comes_remove pool' id' x
  | prune now age pool' => exact comes_prune now age pool' x

end

/-! ### Runs -/

/-- A change, and the weather in which its calls are made. -/
structure Attempt where
  change : Change
  weather : List Weather := []

namespace Attempt

variable (distance : Location → Location → Float) (pool : Role) (id : ActorId) (c : AvailabilityCache)
  (a : Attempt)

/-- Makes the change. -/
def run : CacheProgram Report × Exposed :=
  a.change.program.run (Exposed.perform distance) { cache := c, ahead := a.weather }

/-- The cache after the change. -/
def after : AvailabilityCache := (a.run distance c).2.cache

/-- What is reported, if the change has come to an end. -/
def report? : Option Report := (a.run distance c).1.result?

/-- A removal failed during the change. -/
def Spoils : Prop := (a.run distance c).2.Spoilt

/-- The change failed. -/
def Fails : Prop := ∃ e, a.report? distance c = some (.error e)

/-- Those for whom the change succeeded. -/
def winners : List ActorId :=
  match a.report? distance c with
  | some (.ok ids) => ids
  | some (.error _) | none => []

/-- The change succeeded for an actor. -/
def SucceedsFor : Prop := a.change.pool = pool ∧ id ∈ a.winners distance c

instance : Decidable (a.SucceedsFor distance pool id c) := inferInstanceAs (Decidable (_ ∧ _))

/-- The location that the change has given an actor, if there is one. -/
def given : List Location :=
  if a.SucceedsFor distance pool id c then (a.change.gives pool id).toList else []

variable {distance pool id c a}

theorem exists_report (distance : Location → Location → Float) (pool : Role) (id : ActorId)
    (c : AvailabilityCache) (a : Attempt) : ∃ r, a.report? distance c = some r ∧
      a.change.Comes { cache := c, ahead := a.weather } pool id r (a.run distance c).2 := by
  obtain ⟨r, x', hrun, hcomes⟩ : Leads distance a.change.program _ _ :=
    comes a.change { cache := c, ahead := a.weather } pool id
  refine ⟨r, ?_, ?_⟩
  · rw [report?, run, hrun]
    rfl
  · rwa [run, hrun]

theorem entry_of_succeeds (h : a.SucceedsFor distance pool id c) :
    (a.after distance c).entry pool id = (a.change.gives pool id).elim .absent .present := by
  obtain ⟨hpool, hid⟩ := h
  obtain ⟨r, hreport, hcomes⟩ := exists_report distance pool id c a
  rw [winners, hreport] at hid
  cases r with
  | ok ids => exact hcomes.succeeds ids rfl hpool hid
  | error e => cases hid

theorem entry_of_fails (h : a.Fails distance c) (hspoils : ¬ a.Spoils distance c) :
    (a.after distance c).entry pool id = c.entry pool id ∨
      (a.after distance c).entry pool id = .absent := by
  obtain ⟨e, he⟩ := h
  obtain ⟨r, hreport, hcomes⟩ := exists_report distance pool id c a
  obtain rfl := Option.some.inj (hreport.symm.trans he)
  rcases hcomes.fails e rfl with h | h | h
  · exact .inl h
  · exact .inr h
  · exact absurd h hspoils

theorem entry_of_spares (h : ¬ a.change.Touches c pool id) :
    (a.after distance c).entry pool id = c.entry pool id := by
  obtain ⟨r, -, hcomes⟩ := exists_report distance pool id c a
  exact hcomes.spares h

/-- Unless a removal fails, a change succeeds for whomever it is about, or fails. -/
theorem succeeds_or_fails (hspoils : ¬ a.Spoils distance c) (h : a.change.Touches c pool id) :
    a.SucceedsFor distance pool id c ∨ a.Fails distance c := by
  obtain ⟨r, hreport, hcomes⟩ := exists_report distance pool id c a
  rcases hcomes.settles h with ⟨ids, rfl, hpool, hid⟩ | ⟨e, rfl⟩ | h
  · refine .inl ⟨hpool, ?_⟩
    rw [winners, hreport]
    exact hid
  · exact .inr ⟨e, hreport⟩
  · exact absurd h hspoils

theorem not_succeeds_of_fails (h : a.Fails distance c) : ¬ a.SucceedsFor distance pool id c := by
  rintro ⟨-, hid⟩
  obtain ⟨e, he⟩ := h
  rw [winners, he] at hid
  cases hid

end Attempt

section

variable (distance : Location → Location → Float) (c : AvailabilityCache) (as : List Attempt)
  (pool : Role) (id : ActorId)

/-- The location with which an actor was last added in a run. -/
def lastGiven : Option Location :=
  (Run.collect (Attempt.after distance) (Attempt.given distance pool id) c as).getLast?

/-- After a run an actor has no entries, or all three with the location of the last time that he was
added. -/
def Agreed : Prop :=
  (as.foldl (Attempt.after distance) c).entry pool id = .absent ∨
    ∃ l, lastGiven distance c as pool id = some l ∧
      (as.foldl (Attempt.after distance) c).entry pool id = .present l

variable {distance c as pool id}

theorem lastGiven_concat (a : Attempt) : lastGiven distance c (as ++ [a]) pool id
    = ((a.given distance pool id (as.foldl (Attempt.after distance) c)).getLast?).or
      (lastGiven distance c as pool id) := by
  rw [lastGiven, Run.collect_concat, List.getLast?_append]
  rfl

theorem foldl_concat (a : Attempt) : (as ++ [a]).foldl (Attempt.after distance) c
    = a.after distance (as.foldl (Attempt.after distance) c) := by
  rw [List.foldl_append]
  rfl

theorem agreed_of_succeeds {a : Attempt}
    (h : a.SucceedsFor distance pool id (as.foldl (Attempt.after distance) c)) :
    Agreed distance c (as ++ [a]) pool id := by
  have hentry := Attempt.entry_of_succeeds h
  cases hgives : a.change.gives pool id with
  | none => exact .inl (by rw [foldl_concat, hentry, hgives]; rfl)
  | some l =>
      refine .inr ⟨l, ?_, by rw [foldl_concat, hentry, hgives]; rfl⟩
      rw [lastGiven_concat, Attempt.given, if_pos h, hgives]
      rfl

theorem agreed_of_entry {a : Attempt} (hagreed : Agreed distance c as pool id)
    (hloses : ¬ a.SucceedsFor distance pool id (as.foldl (Attempt.after distance) c))
    (hentry : (a.after distance (as.foldl (Attempt.after distance) c)).entry pool id
        = (as.foldl (Attempt.after distance) c).entry pool id ∨
      (a.after distance (as.foldl (Attempt.after distance) c)).entry pool id = .absent) :
    Agreed distance c (as ++ [a]) pool id := by
  rcases hentry with hsame | habsent
  · rw [Agreed, foldl_concat, hsame, lastGiven_concat, Attempt.given, if_neg hloses]
    exact hagreed
  · exact .inl (by rw [foldl_concat, habsent])

/-- **The entries of an actor agree.**  In any run of changes, in any weather, a change that succeeded
for an actor leaves him all three entries with the location and time of the last time that he was
added, or none; one that failed without failing to remove an entry leaves them agreeing if they did
before; and nobody is touched but those whom a change is about. -/
theorem entries_agree (a : Attempt) :
    let c' := as.foldl (Attempt.after distance) c
    (∃ r, a.report? distance c' = some r) ∧
    (a.SucceedsFor distance pool id c' → Agreed distance c (as ++ [a]) pool id ∧
      (a.after distance c').entry pool id = (a.change.gives pool id).elim .absent .present) ∧
    (a.Fails distance c' → ¬ a.Spoils distance c' → Agreed distance c as pool id →
      Agreed distance c (as ++ [a]) pool id) ∧
    (¬ a.change.Touches c' pool id → (a.after distance c').entry pool id = c'.entry pool id) := by
  intro c'
  obtain ⟨r, hr, -⟩ := Attempt.exists_report distance pool id c' a
  refine ⟨⟨r, hr⟩, fun h => ⟨agreed_of_succeeds h, Attempt.entry_of_succeeds h⟩, ?_,
    Attempt.entry_of_spares⟩
  intro hfails hspoils hagreed
  exact agreed_of_entry hagreed (Attempt.not_succeeds_of_fails hfails)
    (Attempt.entry_of_fails hfails hspoils)

/-- **Entries agree throughout a run** in which every change succeeded for an actor, or removed what it
had to, or was about others. -/
theorem agreed_of_along (hstart : c.entry pool id = .absent)
    (h : Run.Along (Attempt.after distance) (fun c a => a.SucceedsFor distance pool id c ∨
      ¬ a.Spoils distance c ∨ ¬ a.change.Touches c pool id) c as) :
    Agreed distance c as pool id := by
  induction as using List.reverseRecOn with
  | nil => exact .inl hstart
  | append_singleton as a ih =>
      obtain ⟨hbefore, hlast, -⟩ := Run.along_append.mp h
      have hagreed := ih hbefore
      by_cases hsucceeds : a.SucceedsFor distance pool id (as.foldl (Attempt.after distance) c)
      · exact agreed_of_succeeds hsucceeds
      refine agreed_of_entry hagreed hsucceeds ?_
      by_cases htouches : a.change.Touches (as.foldl (Attempt.after distance) c) pool id
      · have hspoils := (hlast.resolve_left hsucceeds).resolve_right (not_not_intro htouches)
        have hfails := (Attempt.succeeds_or_fails hspoils htouches).resolve_left hsucceeds
        exact Attempt.entry_of_fails hfails hspoils
      · exact .inl (Attempt.entry_of_spares htouches)

end

/-- A failed removal leaves entries that disagree. -/
example (distance : Location → Location → Float) (l : Location) :
    let c : AvailabilityCache :=
      { positions := (∅ : Table _ _).insert "geo:driver" ((∅ : Table _ _).insert "d" l) }
    ((Attempt.mk (.remove .driver "d") [{ failing := [.geoRemove] }]).after distance c).entry
      .driver "d" = { position := some l } := by
  rfl

end Dispatch.Availability
