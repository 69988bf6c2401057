/-
A sweep while actors make themselves available.

A sweep reads the last known locations of its pool once, in its first call, and then removes those
whom it found stale, one after the other, without looking again.  Meanwhile any actors make themselves
available, in calls that come in any order between those of the sweep; nothing fails.

What can be counted on is therefore said by the reading: the sweep is about nobody whom it did not find
stale (`Sweeping.found_of_removing`).  Somebody who makes himself available is so when he has finished, unless
the sweep has made a call about him since he began (`Sweeping.available_unless_swept`).  That exception
is real: whoever was found stale and comes back before he is removed is removed
(`Sweeping.exists_swept_after_return`), as no call of the sweep looks at what it removes.
-/
import Dispatch.Proofs.Availability.Agreement
import Dispatch.Proofs.Availability.Crowd

namespace Dispatch

/-- The next call of a program. -/
def Program.upcoming? {Call : Type} {Reply : Call → Type} {α : Type} :
    Program Reply α → Option Call
  | .done _ => none
  | .call c _ => some c

/-- The entry in a collection is there, with a location of which `P` holds. -/
def Entry.Shows (P : Location → Prop) (e : Entry) : Field → Prop
  | .position => ∃ l, P l ∧ e.position = some l
  | .flag => e.flagged = true
  | .location => ∃ l, P l ∧ e.location = some l

namespace Availability

open Dispatch.Time

/-- Nothing fails. -/
def Calm (c : AvailabilityCache) : Prop := c.offline = false ∧ c.failing = []

instance (c : AvailabilityCache) : Decidable (Calm c) := inferInstanceAs (Decidable (_ ∧ _))

/-- The call that writes an actor's entry in a collection. -/
def putting (pool : Role) (id : ActorId) (l : Location) : Field → CacheCall
  | .position => .geoAdd (positionsKey pool) id l
  | .flag => .setAdd (flagsKey pool) id
  | .location => .hashSet (locationsKey pool) id l

/-- A program that, as long as nothing fails, writes an actor's entries in the given collections, in
their order, and is finished then. -/
def Puts (pool : Role) (id : ActorId) (l : Location) :
    List Field → CacheProgram (Except ServiceError Unit) → Prop
  | [], .done _ => True
  | f :: fs, .call c next => c = putting pool id l f ∧ ∀ r, Puts pool id l fs (next (.ok r))
  | [], .call _ _ | _ :: _, .done _ => False

/-- Somebody who makes himself available, and what is left of his program. -/
structure Comer where
  pool : Role
  id : ActorId
  now : Instant
  place : Location
  rest : CacheProgram (Except ServiceError Unit)

namespace Comer

/-- The location that he is given carries the time at which he came. -/
def location (c : Comer) : Location := c.place.observedAt c.now

/-- He has not made a call yet. -/
def Fresh (c : Comer) : Prop := c.rest = add c.now c.pool c.id c.place

/-- He has finished, and was told that he is available. -/
def Succeeded (c : Comer) : Prop := (c.rest.result?.map Except.toBool) = some true

instance (c : Comer) : Decidable c.Succeeded := inferInstanceAs (Decidable (_ = _))

theorem Succeeded.rest_eq {c : Comer} (h : c.Succeeded) : c.rest = .done (.ok ()) := by
  unfold Succeeded at h
  cases hrest : c.rest with
  | call call next => simp [hrest, Program.result?] at h
  | done r =>
      cases r with
      | error e => simp [hrest, Program.result?, Except.toBool] at h
      | ok _ => rfl

end Comer

/-- The cache, what is left of the sweep, and all who have come, the first one first. -/
structure Sweeping where
  cache : AvailabilityCache
  sweep : CacheProgram Report
  comers : List Comer := []

namespace Sweeping

/-- Something that happens: somebody comes, or makes his next call, or the sweep makes its next call. -/
inductive Event where
  | arrive (now : Instant) (pool : Role) (id : ActorId) (place : Location)
  | go (k : Nat)
  | sweep

variable (distance : Location → Location → Float)

/-- The state after an event. -/
def after (x : Sweeping) : Event → Sweeping
  | .arrive now pool id place =>
    { x with comers := x.comers ++ [{ pool, id, now, place, rest := add now pool id place }] }
  | .go k =>
    match x.comers[k]? with
    | some c =>
      let (rest, cache) := c.rest.step (AvailabilityCache.perform distance) x.cache
      { x with cache, comers := x.comers.set k { c with rest } }
    | none => x
  | .sweep =>
    let (sweep, cache) := x.sweep.step (AvailabilityCache.perform distance) x.cache
    { x with cache, sweep }

/-- The call that an event makes. -/
def call? (x : Sweeping) : Event → Option CacheCall
  | .arrive .. => none
  | .go k => x.comers[k]?.bind fun c => c.rest.upcoming?
  | .sweep => x.sweep.upcoming?

/-- The calls about an actor that an event makes. -/
def callsAbout (pool : Role) (id : ActorId) (x : Sweeping) (e : Event) : List CacheCall :=
  (x.call? e).toList.filter fun c => c.Concerns pool id

/-- The sweep makes a call about an actor. -/
def Removing (pool : Role) (id : ActorId) (x : Sweeping) : Event → Prop
  | .sweep => ∃ c ∈ x.sweep.upcoming?, c.Concerns pool id
  | .arrive .. | .go _ => False

instance (pool : Role) (id : ActorId) (x : Sweeping) : (e : Event) → Decidable (x.Removing pool id e)
  | .sweep => inferInstanceAs (Decidable (∃ c ∈ x.sweep.upcoming?, c.Concerns pool id))
  | .arrive .. | .go _ => inferInstanceAs (Decidable False)

/-- The sweep makes no call about an actor in a run. -/
def Spared (pool : Role) (id : ActorId) (x : Sweeping) (es : List Event) : Prop :=
  Run.Along (after distance) (fun x e => ¬ x.Removing pool id e) x es

instance (pool : Role) (id : ActorId) (x : Sweeping) (es : List Event) :
    Decidable (Spared distance pool id x es) := Run.decidableAlong _ x es

/-- A sweep that is about to begin, and nobody has come. -/
def opening (c : AvailabilityCache) (now : Instant) (age : Span) (pool : Role) : Sweeping where
  cache := c
  sweep := (Change.prune now age pool).program

/-- The state after a run. -/
abbrev run (c : AvailabilityCache) (now : Instant) (age : Span) (pool : Role) (es : List Event) :
    Sweeping := es.foldl (after distance) (opening c now age pool)

/-- Whether it is the sweep that makes a call. -/
def Event.isSweep : Event → Bool
  | .sweep => true
  | .arrive .. | .go _ => false

/-- The sweep makes its first call in a run, and reads the location of an actor who is too old for it. -/
def FoundIn (c : AvailabilityCache) (now : Instant) (age : Span) (pool : Role) (es : List Event)
    (pool' : Role) (id : ActorId) : Prop :=
  es.any Event.isSweep = true ∧ (Change.prune now age pool).Touches
    (run distance c now age pool (es.takeWhile fun e => !e.isSweep)).cache pool' id

/-- A location that an actor has been given in a run. -/
def Given (es : List Event) (pool : Role) (id : ActorId) (l : Location) : Prop :=
  ∃ now place, .arrive now pool id place ∈ es ∧ l = place.observedAt now

end Sweeping

section

variable {distance : Location → Location → Float} {pool pool' : Role} {id : ActorId}
  {P : Location → Prop} {l : Location} {c : AvailabilityCache} {α : Type}

/-! ### One call -/

theorem Calm.apply (h : Calm c) (call : CacheCall) : Calm (c.apply distance call).2 := by
  cases call <;> exact h

/-- When nothing fails, a call does what it does. -/
theorem Calm.step (h : Calm c) (call : CacheCall) (next : call.Reply → CacheProgram α) :
    (Program.call call next).step (AvailabilityCache.perform distance) c
      = (next (.ok (c.apply distance call).1), (c.apply distance call).2) := by
  have hfault : c.fault? call.op = none := by
    simp [AvailabilityCache.fault?, h.1, h.2]
  simp only [Program.step, AvailabilityCache.perform, hfault]

theorem Spares.step {p : CacheProgram α} (hcalm : Calm c) (h : Spares pool id p) :
    Spares pool id (p.step (AvailabilityCache.perform distance) c).1 := by
  cases p with
  | done a => trivial
  | call call next =>
      rw [hcalm.step]
      exact h.2 _

theorem concerns_putting (f : Field) : (putting pool id l f).Concerns pool id := by
  cases f <;> exact ⟨rfl, rfl⟩

/-- What is written is there, and everything else stays as it is. -/
theorem shows_putting (hl : P l) (f : Field) {f' : Field}
    (h : f' ≠ f → (c.entry pool id).Shows P f') :
    ((c.apply distance (putting pool id l f)).2.entry pool id).Shows P f' := by
  rw [AvailabilityCache.entry_apply, if_pos (concerns_putting f)]
  by_cases hf : f' = f
  · subst hf
    cases f'
    · exact ⟨l, hl, rfl⟩
    · exact rfl
    · exact ⟨l, hl, rfl⟩
  · have hshows := h hf
    cases f <;> cases f' <;> first | exact absurd rfl hf | exact hshows

/-- Unless it is refused at once, an addition writes all three. -/
theorem puts_add (now : Instant) (pool : Role) (id : ActorId) (place : Location) :
    (∃ e, add now pool id place = .done (.error e)) ∨
      Puts pool id (place.observedAt now) [.position, .flag, .location]
        (add now pool id place) := by
  unfold add
  split
  · exact .inl ⟨_, rfl⟩
  split
  · exact .inl ⟨_, rfl⟩
  exact .inr ⟨rfl, fun _ => ⟨rfl, fun _ => ⟨rfl, fun _ => trivial⟩⟩⟩

theorem putting_inj {f f' : Field} (h : putting pool id l f = putting pool id l f') : f = f' := by
  cases f <;> cases f' <;> first | rfl | cases h

/-- The collections that are still to be written are told by the program. -/
theorem Puts.unique {fs fs' : List Field} {p : CacheProgram (Except ServiceError Unit)}
    (h : Puts pool id l fs p) (h' : Puts pool id l fs' p) : fs = fs' := by
  induction fs generalizing fs' p with
  | nil =>
      cases p with
      | call call next => exact h.elim
      | done r =>
          cases fs' with
          | nil => rfl
          | cons f' fs' => exact h'.elim
  | cons f fs ih =>
      cases p with
      | done r => exact h.elim
      | call call next =>
          cases fs' with
          | nil => exact h'.elim
          | cons f' fs' =>
              obtain rfl := putting_inj (h.1.symm.trans h'.1)
              have r := (({} : AvailabilityCache).apply Location.distance call).1
              rw [ih (h.2 r) (h'.2 r)]

namespace Sweeping

variable {now : Instant} {age : Span} {x : Sweeping} {es : List Event}

/-! ### One event -/

/-- Nothing fails, and whoever has come has only his writing before him. -/
structure Tidy (x : Sweeping) : Prop where
  calm : Calm x.cache
  puts : ∀ c ∈ x.comers, ∃ fs, Puts c.pool c.id c.location fs c.rest

/-- What comes of an event: nobody calls, or somebody writes his next entry, or the sweep makes its
next call. -/
inductive Comes (distance : Location → Location → Float) (x : Sweeping) : Event → Sweeping → Prop
  | arrive (now : Instant) (pool : Role) (id : ActorId) (place : Location) :
      Comes distance x (.arrive now pool id place) { x with
        comers := x.comers ++ [{ pool, id, now, place, rest := add now pool id place }] }
  | idle (k : Nat) (hcall : x.call? (.go k) = none) : Comes distance x (.go k) x
  | puts (k : Nat) {c : Comer} {f : Field} {fs : List Field}
      {rest : CacheProgram (Except ServiceError Unit)} (hk : x.comers[k]? = some c)
      (hcall : x.call? (.go k) = some (putting c.pool c.id c.location f))
      (hnow : Puts c.pool c.id c.location (f :: fs) c.rest)
      (hrest : Puts c.pool c.id c.location fs rest) :
      Comes distance x (.go k) { x with
        cache := (x.cache.apply distance (putting c.pool c.id c.location f)).2
        comers := x.comers.set k { c with rest } }
  | swept (hcall : x.call? .sweep = none) : Comes distance x .sweep x
  | sweeps {call : CacheCall} (hcall : x.call? .sweep = some call) :
      Comes distance x .sweep { x with
        cache := (x.cache.apply distance call).2
        sweep := (x.sweep.step (AvailabilityCache.perform distance) x.cache).1 }

theorem Tidy.comes (distance : Location → Location → Float) (h : Tidy x) (e : Event) :
    Comes distance x e (x.after distance e) := by
  cases e with
  | arrive now pool id place => exact .arrive now pool id place
  | go k =>
      cases hk : x.comers[k]? with
      | none =>
          have hsame : x.after distance (.go k) = x := by simp only [after, hk]
          rw [hsame]
          exact .idle k (by simp only [call?, hk, Option.bind_none])
      | some c =>
          obtain ⟨fs, hputs⟩ := h.puts c (List.mem_of_getElem? hk)
          obtain ⟨pool, id, now, place, rest⟩ := c
          cases rest with
          | done r =>
              have hsame : x.after distance (.go k) = x := by
                obtain ⟨hlt, hget⟩ := List.getElem?_eq_some_iff.mp hk
                simp only [after, hk, Program.step]
                rw [← hget, List.set_getElem_self]
              rw [hsame]
              exact .idle k (by simp only [call?, hk, Option.bind_some, Program.upcoming?])
          | call call next =>
              cases fs with
              | nil => exact hputs.elim
              | cons f fs =>
                  obtain ⟨hcall, hnext⟩ : call = putting pool id (place.observedAt now) f ∧ _ := hputs
                  have hafter : x.after distance (.go k) = { x with
                      cache := (x.cache.apply distance call).2
                      comers := x.comers.set k
                        ⟨pool, id, now, place, next (.ok (x.cache.apply distance call).1)⟩ } := by
                    simp only [after, hk, h.calm.step]
                  rw [hafter]
                  subst hcall
                  refine .puts k hk ?_ (show Puts _ _ _ (f :: fs) _ from ⟨rfl, hnext⟩) (hnext _)
                  simp only [call?, hk, Option.bind_some, Program.upcoming?]
                  rfl
  | sweep =>
      cases hsweep : x.sweep with
      | done r =>
          have hsame : x.after distance .sweep = x := by
            simp only [after, hsweep, Program.step]
            rw [← hsweep]
          rw [hsame]
          exact .swept (by simp only [call?, hsweep, Program.upcoming?])
      | call call next =>
          have hafter : x.after distance .sweep = { x with
              cache := (x.cache.apply distance call).2
              sweep := (x.sweep.step (AvailabilityCache.perform distance) x.cache).1 } := by
            simp only [after, hsweep, h.calm.step]
          rw [hafter]
          exact .sweeps (by simp only [call?, hsweep, Program.upcoming?])

theorem Tidy.after (h : Tidy x) (e : Event) : Tidy (x.after distance e) := by
  have hcomes := h.comes distance e
  generalize x.after distance e = x' at hcomes ⊢
  cases hcomes with
  | arrive now pool id place =>
      refine ⟨h.calm, fun c hc => ?_⟩
      rcases List.mem_append.mp hc with hc | hc
      · exact h.puts c hc
      · obtain rfl := List.mem_singleton.mp hc
        rcases puts_add now pool id place with ⟨e, he⟩ | hputs
        · exact ⟨[], by rw [he]; trivial⟩
        · exact ⟨_, hputs⟩
  | idle k hcall => exact h
  | puts k hk hcall hnow hrest =>
      refine ⟨h.calm.apply _, fun c' hc' => ?_⟩
      rcases List.mem_or_eq_of_mem_set hc' with hc' | rfl
      · exact h.puts c' hc'
      · exact ⟨_, hrest⟩
  | swept hcall => exact h
  | sweeps hcall => exact ⟨h.calm.apply _, h.puts⟩

theorem Tidy.foldl (h : Tidy x) (es : List Event) : Tidy (es.foldl (Sweeping.after distance) x) := by
  induction es generalizing x with
  | nil => exact h
  | cons e rest ih => exact ih (h.after e)

theorem run_concat (es : List Event) (e : Event) :
    run distance c now age pool (es ++ [e]) = (run distance c now age pool es).after distance e :=
  List.foldl_concat ..

theorem tidy_opening (hcalm : Calm c) (now : Instant) (age : Span) (pool : Role) :
    Tidy (opening c now age pool) := ⟨hcalm, nofun⟩

/-! ### What is there is what the calls have written -/

theorem Tidy.entry_after (h : Tidy x) (e : Event) :
    (x.after distance e).cache.entry pool id
      = (x.callsAbout pool id e).foldl CacheCall.change (x.cache.entry pool id) := by
  have happly : ∀ call : CacheCall, x.call? e = some call →
      (x.cache.apply distance call).2.entry pool id
        = (x.callsAbout pool id e).foldl CacheCall.change (x.cache.entry pool id) := by
    intro call hcall
    rw [AvailabilityCache.entry_apply, callsAbout, hcall]
    by_cases hc : call.Concerns pool id <;> simp [hc, CacheCall.change]
  have hnone : x.call? e = none → x.cache.entry pool id
      = (x.callsAbout pool id e).foldl CacheCall.change (x.cache.entry pool id) := by
    intro hcall
    rw [callsAbout, hcall]
    rfl
  have hcomes := h.comes distance e
  generalize x.after distance e = x' at hcomes ⊢
  cases hcomes with
  | arrive now pool id place => exact hnone rfl
  | idle k hcall => exact hnone hcall
  | puts k hk hcall hnow hrest => exact happly _ hcall
  | swept hcall => exact hnone hcall
  | sweeps hcall => exact happly _ hcall

/-- **The entries of an actor are what the calls about him have made of them**, one after the other. -/
theorem Tidy.entry_foldl (h : Tidy x) (es : List Event) :
    (es.foldl (Sweeping.after distance) x).cache.entry pool id
      = (Run.collect (Sweeping.after distance) (callsAbout pool id) x es).foldl CacheCall.change
          (x.cache.entry pool id) := by
  induction es generalizing x with
  | nil => rfl
  | cons e rest ih => rw [List.foldl_cons, ih (h.after e), h.entry_after, Run.collect, List.foldl_append]

/-! ### Whom the sweep is about -/

/-- Having read the locations, the sweep is about nobody whom it did not find stale. -/
theorem spares_of_not_touches (hcalm : Calm c)
    (h : ¬ (Change.prune now age pool).Touches c pool' id) :
    Spares pool' id
      ((Change.prune now age pool).program.step (AvailabilityCache.perform distance) c).1 := by
  cases hcutoff : now.sub? age with
  | none =>
      simp only [Change.program, hcutoff]
      trivial
  | some cutoff =>
      have hmem : ¬ (pool = pool' ∧ id ∈ ((c.locationsAt (locationsKey pool)).entries.filter
          fun e => isStale cutoff e.2).map Prod.fst) := by
        rintro ⟨rfl, hid⟩
        refine h ⟨rfl, cutoff, hcutoff, ?_⟩
        simpa [FoundStale, AvailabilityCache.entry, Option.any_eq_true, Table.find?_eq_some_iff]
          using hid
      simp only [Change.program, hcutoff]
      show Spares pool' id (Program.step _ (.call (.hashEntries (locationsKey pool)) _) c).1
      rw [hcalm.step]
      refine Spares.bind (Spares.bind (spares_removeAll hmem) fun _ => ?_) fun r => ?_
      · trivial
      · cases r <;> trivial

/-- Whoever has been found stale has been so from then on. -/
theorem FoundIn.append (h : FoundIn distance c now age pool es pool' id) (later : List Event) :
    FoundIn distance c now age pool (es ++ later) pool' id := by
  have hsame : (es ++ later).takeWhile (fun e => !e.isSweep) = es.takeWhile (fun e => !e.isSweep) := by
    have hbegun := h.1
    clear h
    induction es with
    | nil => cases hbegun
    | cons e es ih =>
        cases hsweep : e.isSweep with
        | true => simp [hsweep]
        | false => simp [hsweep, ih (by simpa [hsweep] using hbegun)]
  refine ⟨by simp [h.1], ?_⟩
  rw [hsame]
  exact h.2

/-- The sweep reads the locations as they are when it begins. -/
theorem FoundIn.of_touches (hbegun : es.any Event.isSweep = false)
    (h : (Change.prune now age pool).Touches (run distance c now age pool es).cache pool' id) :
    FoundIn distance c now age pool (es ++ [.sweep]) pool' id := by
  refine ⟨by simp [Event.isSweep], ?_⟩
  rw [List.takeWhile_append_of_pos (by simpa using hbegun)]
  simpa [Event.isSweep] using h

/-- What is known of the sweep about an actor: it has found him stale, or it makes no call about him
any more, or it has not begun. -/
theorem sparing_run (hcalm : Calm c) (es : List Event) :
    FoundIn distance c now age pool es pool' id ∨
    Spares pool' id (run distance c now age pool es).sweep ∨
    (es.any Event.isSweep = false ∧
      (run distance c now age pool es).sweep = (Change.prune now age pool).program) := by
  induction es using List.reverseRecOn with
  | nil => exact .inr (.inr ⟨rfl, rfl⟩)
  | append_singleton es e ih =>
      have htidy : Tidy (run distance c now age pool es) := (tidy_opening hcalm now age pool).foldl es
      rcases ih with hfound | hspares | ⟨hbegun, hsweep⟩
      · exact .inl (hfound.append [e])
      · refine .inr (.inl ?_)
        rw [run_concat]
        have hcomes := htidy.comes distance e
        generalize (run distance c now age pool es).after distance e = x' at hcomes ⊢
        cases hcomes with
        | sweeps hcall => exact hspares.step htidy.calm
        | arrive | idle | puts | swept => exact hspares
      · cases e with
        | sweep =>
            by_cases htouches :
                (Change.prune now age pool).Touches (run distance c now age pool es).cache pool' id
            · exact .inl (.of_touches hbegun htouches)
            · refine .inr (.inl ?_)
              rw [run_concat]
              simp only [after, hsweep]
              exact spares_of_not_touches htidy.calm htouches
        | arrive now' pool'' id' place =>
            refine .inr (.inr ⟨by simp [hbegun, Event.isSweep], ?_⟩)
            rw [run_concat]
            exact hsweep
        | go k =>
            refine .inr (.inr ⟨by simp [hbegun, Event.isSweep], ?_⟩)
            rw [run_concat, ← hsweep]
            simp only [after]
            split <;> rfl

/-- A sweep that has not begun makes no call about anybody. -/
theorem not_removing_program {call : CacheCall}
    (hcall : (Change.prune now age pool).program.upcoming? = some call) : ¬ call.Concerns pool' id := by
  cases hcutoff : now.sub? age with
  | none => simp [Change.program, hcutoff, Program.upcoming?] at hcall
  | some cutoff =>
      simp only [Change.program, hcutoff] at hcall
      obtain rfl : CacheCall.hashEntries (locationsKey pool) = call := Option.some.inj hcall
      exact not_false

/-! ### Whoever has made himself available -/

/-- An actor has whatever somebody who makes him available has no call to make for any more, unless he
has been refused. -/
def Settling (P : Location → Prop) (pool : Role) (id : ActorId) (k : Nat) (x : Sweeping) : Prop :=
  ∀ d, x.comers[k]? = some d → d.pool = pool → d.id = id →
    (∃ e, d.rest = .done (.error e)) ∨
    ∃ fs, Puts d.pool d.id d.location fs d.rest ∧ ∀ f ∉ fs, (x.cache.entry pool id).Shows P f

theorem settling_of_fresh {k : Nat} (h : ∀ d, x.comers[k]? = some d → d.Fresh) :
    Settling P pool id k x := by
  intro d hd _ _
  rw [h d hd]
  refine (puts_add d.now d.pool d.id d.place).imp_right fun hputs => ⟨_, hputs, fun f hf => ?_⟩
  cases f <;> exact absurd hf (by simp)

/-- What somebody writes of an actor is one of the locations that he is given. -/
theorem Tidy.shows_puts {f f' : Field} {d : Comer}
    (hP : d.pool = pool → d.id = id → P d.location) (hf : (x.cache.entry pool id).Shows P f') :
    ((x.cache.apply distance (putting d.pool d.id d.location f)).2.entry pool id).Shows P f' := by
  by_cases hd : d.pool = pool ∧ d.id = id
  · obtain ⟨rfl, rfl⟩ := hd
    exact shows_putting (hP rfl rfl) f fun _ => hf
  · rw [AvailabilityCache.entry_apply, if_neg fun hc => hd ((concerns_putting f).same hc)]
    exact hf

/-- As long as the sweep makes no call about the actor, he keeps what he has. -/
theorem Settling.after {k : Nat} (h : Settling P pool id k x) (htidy : Tidy x)
    (hP : ∀ d ∈ x.comers, d.pool = pool → d.id = id → P d.location) {e : Event}
    (hspared : ¬ x.Removing pool id e) : Settling P pool id k (x.after distance e) := by
  have hcomes := htidy.comes distance e
  generalize x.after distance e = x' at hcomes ⊢
  cases hcomes with
  | arrive now pool' id' place =>
      intro d hd
      by_cases hk : k < x.comers.length
      · rw [List.getElem?_append_left hk] at hd
        exact h d hd
      · -- nobody was there before, so this is the one who comes now
        refine settling_of_fresh (x := { x with comers := x.comers ++ [_] }) (fun d' hd' => ?_) d hd
        have hnew := List.mem_of_getElem? ((List.getElem?_append_right (by omega)).symm.trans hd')
        rw [List.mem_singleton.mp hnew]
        exact rfl
  | idle j hcall => exact h
  | puts j hj hcall hnow hrest =>
      rename_i d₀ f fs rest
      have hP₀ := hP d₀ (List.mem_of_getElem? hj)
      intro d hd hpool hid
      by_cases hjk : j = k
      · subst hjk
        rw [List.getElem?_set_self (List.getElem?_eq_some_iff.mp hj).1] at hd
        obtain rfl := Option.some.inj hd
        refine .inr ⟨fs, hrest, fun f' hf' => ?_⟩
        rcases h d₀ hj hpool hid with ⟨e, he⟩ | ⟨fs', hputs, hshows⟩
        · rw [he] at hnow
          exact hnow.elim
        obtain rfl := hputs.unique hnow
        obtain ⟨rfl, rfl⟩ : d₀.pool = pool ∧ d₀.id = id := ⟨hpool, hid⟩
        exact shows_putting (hP₀ rfl rfl) f fun hne => hshows f' (by simp [hne, hf'])
      · rw [List.getElem?_set_ne hjk] at hd
        refine (h d hd hpool hid).imp_right ?_
        rintro ⟨fs', hputs, hshows⟩
        exact ⟨fs', hputs, fun f' hf' => Tidy.shows_puts hP₀ (hshows f' hf')⟩
  | swept hcall => exact h
  | sweeps hcall =>
      rename_i call
      have hother : ¬ call.Concerns pool id := fun hc => hspared ⟨call, hcall, hc⟩
      intro d hd hpool hid
      refine (h d hd hpool hid).imp_right ?_
      rintro ⟨fs, hputs, hshows⟩
      refine ⟨fs, hputs, fun f hf => ?_⟩
      rw [AvailabilityCache.entry_apply, if_neg hother]
      exact hshows f hf

/-- Whoever has come is given the location of an arrival. -/
theorem given_run (hcalm : Calm c) (es : List Event) :
    ∀ d ∈ (run distance c now age pool es).comers, Given es d.pool d.id d.location := by
  induction es using List.reverseRecOn with
  | nil => exact nofun
  | append_singleton es e ih =>
      have hmore : ∀ {pool' : Role} {id : ActorId} {l : Location}, Given es pool' id l →
          Given (es ++ [e]) pool' id l := by
        rintro pool' id l ⟨now, place, hmem, hl⟩
        exact ⟨now, place, List.mem_append_left _ hmem, hl⟩
      have htidy : Tidy (run distance c now age pool es) := (tidy_opening hcalm now age pool).foldl es
      rw [run_concat]
      have hcomes := htidy.comes distance e
      generalize (run distance c now age pool es).after distance e = x' at hcomes ⊢
      cases hcomes with
      | arrive now' pool' id' place =>
          intro d hd
          rcases List.mem_append.mp hd with hd | hd
          · exact hmore (ih d hd)
          · obtain rfl := List.mem_singleton.mp hd
            exact ⟨now', place, by simp, rfl⟩
      | puts k hk hcall hnow hrest =>
          intro d hd
          rcases List.mem_or_eq_of_mem_set hd with hd | rfl
          · exact hmore (ih d hd)
          · have hgiven := ih _ (List.mem_of_getElem? hk)
            exact hmore hgiven
      | idle | swept | sweeps => exact fun d hd => hmore (ih d hd)

/-- An actor is available, at places that he has been given in the run. -/
def AvailableBy (es : List Event) (c : AvailabilityCache) (pool : Role) (id : ActorId) : Prop :=
  ∃ l₁ l₂, c.entry pool id = ⟨some l₁, true, some l₂⟩ ∧ Given es pool id l₁ ∧ Given es pool id l₂

theorem availableBy_of_shows (h : ∀ f, (c.entry pool id).Shows (Given es pool id) f) :
    AvailableBy es c pool id := by
  obtain ⟨l₁, hgiven₁, hposition⟩ := h .position
  obtain ⟨l₂, hgiven₂, hlocation⟩ := h .location
  have hflag : (c.entry pool id).flagged = true := h .flag
  refine ⟨l₁, l₂, ?_, hgiven₁, hgiven₂⟩
  rw [← hposition, ← hlocation, ← hflag]

theorem settling_foldl (hcalm : Calm c) {before later : List Event} {k : Nat}
    (hfresh : ∀ d, (run distance c now age pool before).comers[k]? = some d → d.Fresh)
    (hspared : Spared distance pool' id (run distance c now age pool before) later) :
    Settling (Given (before ++ later) pool' id) pool' id k
      (run distance c now age pool (before ++ later)) := by
  -- over all that a run passes on the way, with the locations given in the whole run
  suffices h : ∀ mid rest, later = mid ++ rest →
      Settling (Given (before ++ later) pool' id) pool' id k
        (run distance c now age pool (before ++ mid)) from h later [] (by simp)
  intro mid
  induction mid using List.reverseRecOn with
  | nil =>
      rintro rest -
      rw [List.append_nil]
      exact settling_of_fresh hfresh
  | append_singleton mid e ih =>
      rintro rest rfl
      have hsettling := ih (e :: rest) (by simp)
      have htidy : Tidy (run distance c now age pool (before ++ mid)) :=
        (tidy_opening hcalm now age pool).foldl _
      have hnext := (Run.along_append.mp (Run.along_append.mp hspared).1).2.1
      rw [← List.append_assoc before mid [e], run_concat]
      refine hsettling.after htidy (fun d hd hpool hid => ?_) ?_
      · obtain ⟨now', place, hmem, hl⟩ := given_run hcalm _ d hd
        rw [← hpool, ← hid]
        exact ⟨now', place, by simp at hmem ⊢; tauto, hl⟩
      · rw [run, List.foldl_append]
        exact hnext

/-- The sweep makes calls about an actor only when it has read the locations and found him stale. -/
theorem found_of_removing (hcalm : Calm c)
    (h : (run distance c now age pool es).Removing pool' id .sweep) :
    FoundIn distance c now age pool es pool' id := by
  obtain ⟨call, hcall, hconcerns⟩ := h
  rcases sparing_run hcalm es with hfound | hspares | ⟨-, hsweep⟩
  · exact hfound
  · cases hrest : (run distance c now age pool es).sweep with
    | done r => simp [hrest, Program.upcoming?] at hcall
    | call call' next =>
        rw [hrest] at hcall hspares
        obtain rfl : call' = call := Option.some.inj hcall
        exact absurd hconcerns hspares.1
  · exact absurd hconcerns (not_removing_program (hsweep ▸ hcall))

/-- The sweep makes no call about an actor whom it does not find stale. -/
theorem spared_of_not_found (hcalm : Calm c) (h : ¬ FoundIn distance c now age pool es pool' id) :
    Spared distance pool' id (opening c now age pool) es := by
  suffices hpre : ∀ before later, es = before ++ later →
      Spared distance pool' id (opening c now age pool) before from hpre es [] (by simp)
  intro before
  induction before using List.reverseRecOn with
  | nil => exact fun _ _ => trivial
  | append_singleton before e ih =>
      rintro later rfl
      refine Run.along_append.mpr ⟨ih (e :: later) (by simp), ?_, trivial⟩
      cases e with
      | arrive | go => exact not_false
      | sweep =>
          intro hremoving
          rw [List.append_assoc] at h
          exact h ((found_of_removing hcalm hremoving).append _)

/-- Whoever has finished is available, if the sweep has made no call about him since he began. -/
theorem availableBy_of_spared (hcalm : Calm c) {before later : List Event} {k : Nat} {d : Comer}
    (hd : (run distance c now age pool (before ++ later)).comers[k]? = some d) (hdone : d.Succeeded)
    (hfresh : ∀ d, (run distance c now age pool before).comers[k]? = some d → d.Fresh)
    (hspared : Spared distance d.pool d.id (run distance c now age pool before) later) :
    AvailableBy (before ++ later) (run distance c now age pool (before ++ later)).cache d.pool d.id := by
  have hdone : d.rest = .done (.ok ()) := hdone.rest_eq
  rcases settling_foldl hcalm hfresh hspared d hd rfl rfl with ⟨e, he⟩ | ⟨fs, hputs, hshows⟩
  · rw [hdone] at he
    cases he
  · rw [hdone] at hputs
    cases fs with
    | cons f fs => exact hputs.elim
    | nil => exact availableBy_of_shows fun f => hshows f (by simp)

/-- **Whoever makes himself available is available, unless a sweep has removed him since.**  The
entries of an actor are what the calls about him have made of them.  The sweep makes calls about an actor
only when it has read the locations and found him stale.  So somebody who has finished is available at
places that he has been given, if the sweep has made no call about him since he began, and also if it
did not find him stale. -/
theorem available_unless_swept (hcalm : Calm c) (es : List Event) :
    (∀ pool' id, (run distance c now age pool es).cache.entry pool' id
      = (Run.collect (Sweeping.after distance) (callsAbout pool' id) (opening c now age pool) es).foldl
          CacheCall.change (c.entry pool' id)) ∧
    (∀ before later pool' id, es = before ++ .sweep :: later →
      (run distance c now age pool before).Removing pool' id .sweep →
      FoundIn distance c now age pool before pool' id) ∧
    ∀ (k : Nat) (d : Comer), (run distance c now age pool es).comers[k]? = some d → d.Succeeded →
      (¬ FoundIn distance c now age pool es d.pool d.id ∨
        ∃ before later, es = before ++ later ∧
          (∀ d', (run distance c now age pool before).comers[k]? = some d' → d'.Fresh) ∧
          Spared distance d.pool d.id (run distance c now age pool before) later) →
      AvailableBy es (run distance c now age pool es).cache d.pool d.id := by
  refine ⟨fun _ _ => (tidy_opening hcalm now age pool).entry_foldl es, ?_, ?_⟩
  · rintro before later pool' id -
    exact found_of_removing hcalm
  · rintro k d hd hdone (hfound | ⟨before, later, rfl, hfresh, hspared⟩)
    · exact availableBy_of_spared hcalm (show (run distance c now age pool ([] ++ es)).comers[k]? = _ from hd)
        hdone nofun (spared_of_not_found hcalm hfound)
    · exact availableBy_of_spared hcalm hd hdone hfresh hspared

/-- Somebody is found stale, is removed, and comes back. -/
theorem available_unless_swept_returning :
    let place : Location := ⟨52.5, 13.25, none⟩
    let before : List Event :=
      [.arrive ⟨0, 0⟩ .driver "d1" place, .go 0, .go 0, .go 0, .sweep, .sweep, .sweep, .sweep]
    let later : List Event := [.arrive ⟨600, 0⟩ .driver "d1" place, .go 1, .go 1, .go 1]
    let x := run Location.distance {} ⟨600, 0⟩ ⟨300000000000⟩ .driver (before ++ later)
    Calm {} ∧
    FoundIn Location.distance {} ⟨600, 0⟩ ⟨300000000000⟩ .driver (before ++ later) .driver "d1" ∧
    AvailableBy (before ++ later) x.cache .driver "d1" := by
  intro place before later x
  obtain ⟨d, hd, hdone, hpool, hid⟩ : ∃ d ∈ x.comers[1]?,
      Comer.Succeeded d ∧ d.pool = .driver ∧ d.id = "d1" := by decide +kernel
  have hcomers : (run Location.distance {} ⟨600, 0⟩ ⟨300000000000⟩ .driver before).comers.length ≤ 1 := by
    decide +kernel
  have hspared : Spared Location.distance .driver "d1"
      (run Location.distance {} ⟨600, 0⟩ ⟨300000000000⟩ .driver before) later := by decide +kernel
  have h := (available_unless_swept ⟨rfl, rfl⟩ (before ++ later)).2.2 1 d hd hdone
  rw [hpool, hid] at h
  refine ⟨⟨rfl, rfl⟩, ?_, h (.inr ⟨before, later, rfl, fun d' hd' => ?_, hspared⟩)⟩
  · exact ⟨by decide +kernel, rfl, ⟨300, 0⟩, by decide +kernel, by decide +kernel⟩
  · rw [List.getElem?_eq_none hcomers] at hd'
    cases hd'

/-- **Somebody who comes back while the sweep is under way can be removed.** -/
theorem exists_swept_after_return : ¬ ∀ (es : List Event) (k : Nat) (d : Comer) (cutoff : Instant),
    let x := run Location.distance {} ⟨600, 0⟩ ⟨300000000000⟩ .driver es
    (⟨600, 0⟩ : Instant).sub? ⟨300000000000⟩ = some cutoff → x.comers[k]? = some d → d.Succeeded →
      cutoff ≤ d.now → x.sweep.result?.isSome = true →
      (x.cache.entry d.pool d.id).flagged = true := by
  intro h
  -- he comes back between the sweep's reading and its removals
  let es : List Event := [.arrive ⟨0, 0⟩ .driver "d1" ⟨52.5, 13.25, none⟩, .go 0, .go 0, .go 0, .sweep,
    .arrive ⟨600, 0⟩ .driver "d1" ⟨52.5, 13.25, none⟩, .go 1, .go 1, .go 1, .sweep, .sweep, .sweep]
  let x := run Location.distance {} ⟨600, 0⟩ ⟨300000000000⟩ .driver es
  obtain ⟨d, hd, hdone, hnow, hflag⟩ : ∃ d ∈ x.comers[1]?, Comer.Succeeded d ∧
      (⟨300, 0⟩ : Instant) ≤ d.now ∧ (x.cache.entry d.pool d.id).flagged = false := by decide +kernel
  have hflagged := h es 1 d _ rfl hd hdone hnow (by decide +kernel)
  exact absurd hflagged (by simp [x, hflag])

end Sweeping
end
end Availability
end Dispatch
