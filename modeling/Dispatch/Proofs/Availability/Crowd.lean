/-
Additions and removals of one actor at the same time.

Any number of clients add or remove the same actor, each call on the cache being made at once and none
failing; calls of different clients come in any order.  An addition writes the position, the flag and
the location, and a removal takes away the flag, the position and the location.  No call spans two
collections and nothing orders the clients, so what is in a collection in the end is what the last call
on it has put there (`has_final`), and the three need not agree (`exists_flag_without_position`).

They do agree if some client began when all clients of the other kind had finished, and none of that
kind comes afterwards: from his first call on only calls of his own kind are made, and he makes one on
each of the three (`Settling`).
-/
import Dispatch.Proofs.Availability.Entries
import Dispatch.Proofs.Run
import Mathlib.Data.List.Induction

namespace Dispatch

/-- The collections that an actor has an entry in. -/
inductive Field where
  | position
  | flag
  | location
  deriving DecidableEq

/-- Whether there is an entry in a collection. -/
def Entry.has (e : Entry) : Field → Bool
  | .position => e.position.isSome
  | .flag => e.flagged
  | .location => e.location.isSome

/-- The collection that a call writes, and whether the entry is there afterwards. -/
def CacheCall.writes? : CacheCall → Option (Field × Bool)
  | geoAdd .. => some (.position, true)
  | geoRemove .. => some (.position, false)
  | setAdd .. => some (.flag, true)
  | setRemove .. => some (.flag, false)
  | hashSet .. => some (.location, true)
  | hashDelete .. => some (.location, false)
  | geoRadius .. | setMembers .. | hashGet .. | hashEntries .. => none

theorem CacheCall.has_change {call : CacheCall} {f : Field} {b : Bool}
    (h : call.writes? = some (f, b)) (e : Entry) (f' : Field) :
    (call.change e).has f' = if f = f' then b else e.has f' := by
  cases call <;> simp only [writes?, Option.some.injEq, Prod.mk.injEq, reduceCtorEq] at h
  all_goals
    obtain ⟨rfl, rfl⟩ := h
    cases f' <;> rfl

namespace Availability

open Dispatch.Time

/-- Making an actor available, or unavailable. -/
inductive Toggle where
  | add (now : Instant) (l : Location)
  | remove

namespace Toggle

/-- The program of a client who adds or removes an actor. -/
def program (pool : Role) (id : ActorId) : Toggle → CacheProgram (Except ServiceError Unit)
  | add now l => Availability.add now pool id l
  | remove => Availability.remove pool id

/-- Whether the actor is to be there afterwards. -/
def puts : Toggle → Bool
  | add .. => true
  | remove => false

/-- The collections that are written, in their order. -/
def order : Toggle → List Field
  | add .. => [.position, .flag, .location]
  | remove => [.flag, .position, .location]

theorem mem_order (t : Toggle) (f : Field) : f ∈ t.order := by
  cases t <;> cases f <;> simp [order]

end Toggle

/-- A client, and what is left of his program. -/
structure Client where
  toggle : Toggle
  rest : CacheProgram (Except ServiceError Unit)

/-- The client has finished. -/
def Client.Finished (c : Client) : Prop := c.rest.result?.isSome = true

instance (c : Client) : Decidable c.Finished := inferInstanceAs (Decidable (_ = true))

/-- The cache, and all clients, the first one first. -/
structure Crowd where
  cache : AvailabilityCache := {}
  clients : List Client := []

namespace Crowd

/-- Something that happens: somebody comes, or a client makes his next call. -/
inductive Event where
  | arrive (t : Toggle)
  | go (k : Nat)

variable (distance : Location → Location → Float) (pool : Role) (id : ActorId)

/-- The state after an event. -/
def after (x : Crowd) : Event → Crowd
  | .arrive t => { x with clients := x.clients ++ [{ toggle := t, rest := t.program pool id }] }
  | .go k =>
    match x.clients[k]? with
    | some c =>
      let (rest, cache) := c.rest.step (AvailabilityCache.perform distance) x.cache
      { cache, clients := x.clients.set k { c with rest } }
    | none => x

/-- Whether there is an entry of the actor in a collection. -/
def has (x : Crowd) (f : Field) : Bool := (x.cache.entry pool id).has f

/-- No call fails. -/
def Clear (x : Crowd) : Prop := x.cache.offline = false ∧ x.cache.failing = []

/-- What an event writes in a collection. -/
def written (f : Field) (x : Crowd) : Event → List Bool
  | .arrive _ => []
  | .go k =>
    match x.clients[k]? with
    | some { rest := .call c _, .. } =>
      match c.writes? with
      | some (f', b) => if f' = f then [b] else []
      | none => []
    | some { rest := .done _, .. } | none => []

end Crowd

/-- A program that, as long as nothing fails, makes one call on each of the given collections, in their
order, and is finished then. -/
def Writes (pool : Role) (id : ActorId) (b : Bool) :
    List Field → CacheProgram (Except ServiceError Unit) → Prop
  | [], .done _ => True
  | f :: fs, .call c next => c.Concerns pool id ∧ c.writes? = some (f, b) ∧
      ∀ r, Writes pool id b fs (next (.ok r))
  | [], .call _ _ | _ :: _, .done _ => False

section

variable {distance : Location → Location → Float} {pool : Role} {id : ActorId}

theorem writes_remove : Writes pool id false Toggle.remove.order (remove pool id) :=
  ⟨⟨rfl, rfl⟩, rfl, fun _ => ⟨⟨rfl, rfl⟩, rfl, fun _ => ⟨⟨rfl, rfl⟩, rfl, fun _ => trivial⟩⟩⟩

/-- Unless it is refused at once, an addition writes all three. -/
theorem writes_add (now : Instant) (l : Location) :
    Writes pool id true [] (add now pool id l) ∨
      Writes pool id true (Toggle.add now l).order (add now pool id l) := by
  unfold add
  split
  · exact .inl trivial
  split
  · exact .inl trivial
  exact .inr ⟨⟨rfl, rfl⟩, rfl, fun _ => ⟨⟨rfl, rfl⟩, rfl, fun _ => ⟨⟨rfl, rfl⟩, rfl, fun _ => trivial⟩⟩⟩

theorem Writes.of_toggle (t : Toggle) : Writes pool id t.puts [] (t.program pool id) ∨
    Writes pool id t.puts t.order (t.program pool id) := by
  cases t with
  | add now l => exact writes_add now l
  | remove => exact .inr writes_remove

namespace Crowd

variable {x : Crowd} {k : Nat} {t : Toggle} {c : CacheCall}
  {next : c.Reply → CacheProgram (Except ServiceError Unit)}

/-! ### One call -/

/-- What a call leads to when none fails. -/
theorem after_call (hclear : x.Clear) (hk : x.clients[k]? = some ⟨t, .call c next⟩) :
    ∃ r, x.after distance pool id (.go k)
      = { cache := (x.cache.apply distance c).2, clients := x.clients.set k ⟨t, next (.ok r)⟩ } := by
  have hfault : x.cache.fault? c.op = none := by
    simp [AvailabilityCache.fault?, hclear.1, hclear.2]
  refine ⟨(x.cache.apply distance c).1, ?_⟩
  simp only [after, hk, Program.step, AvailabilityCache.perform, hfault]

theorem after_done {r : Except ServiceError Unit} (hk : x.clients[k]? = some ⟨t, .done r⟩) :
    x.after distance pool id (.go k) = x := by
  obtain ⟨hlt, hget⟩ := List.getElem?_eq_some_iff.mp hk
  simp only [after, hk, Program.step]
  rw [← hget, List.set_getElem_self]

theorem apply_clear (c : CacheCall) (hclear : x.Clear) :
    (x.cache.apply distance c).2.offline = false ∧ (x.cache.apply distance c).2.failing = [] := by
  cases c <;> exact hclear

theorem has_apply {f : Field} {b : Bool} (hconcerns : c.Concerns pool id)
    (hwrites : c.writes? = some (f, b)) (f' : Field) :
    ((x.cache.apply distance c).2.entry pool id).has f' = if f = f' then b else x.has pool id f' := by
  rw [AvailabilityCache.entry_apply, if_pos hconcerns]
  exact CacheCall.has_change hwrites _ f'

/-! ### What is in a collection is what has been put there last -/

/-- Nothing fails, and every client has only the calls of his kind before him. -/
structure Tidy (pool : Role) (id : ActorId) (x : Crowd) : Prop where
  clear : x.Clear
  writes : ∀ c ∈ x.clients, ∃ fs, Writes pool id c.toggle.puts fs c.rest

theorem Tidy.cases_go (distance : Location → Location → Float) (h : Tidy pool id x) (k : Nat) :
    x.after distance pool id (.go k) = x ∧ (∀ f, x.written f (.go k) = []) ∨
    ∃ t c next f fs r, x.clients[k]? = some ⟨t, .call c next⟩ ∧
      c.Concerns pool id ∧ c.writes? = some (f, t.puts) ∧
      Writes pool id t.puts (f :: fs) (.call c next) ∧ Writes pool id t.puts fs (next (.ok r)) ∧
      x.after distance pool id (.go k)
        = { cache := (x.cache.apply distance c).2, clients := x.clients.set k ⟨t, next (.ok r)⟩ } := by
  cases hk : x.clients[k]? with
  | none =>
      refine .inl ⟨?_, fun f => ?_⟩
      · simp only [after, hk]
      · simp only [written, hk]
  | some c =>
      obtain ⟨t, rest⟩ := c
      cases rest with
      | done r =>
          refine .inl ⟨after_done hk, fun f => ?_⟩
          simp only [written, hk]
      | call c next =>
          obtain ⟨fs, hwrites⟩ := h.writes _ (List.mem_of_getElem? hk)
          obtain ⟨r, hafter⟩ : ∃ r, x.after distance pool id (.go k) = _ := after_call h.clear hk
          cases fs with
          | nil => exact hwrites.elim
          | cons f fs =>
              exact .inr ⟨t, c, next, f, fs, r, rfl, hwrites.1, hwrites.2.1, hwrites,
                hwrites.2.2 r, hafter⟩

theorem Tidy.after (h : Tidy pool id x) (e : Event) : Tidy pool id (x.after distance pool id e) := by
  cases e with
  | arrive t =>
      refine ⟨h.clear, fun c hc => ?_⟩
      rcases List.mem_append.mp hc with hc | hc
      · exact h.writes c hc
      · obtain rfl := List.mem_singleton.mp hc
        exact (Writes.of_toggle t).elim (fun hw => ⟨_, hw⟩) fun hw => ⟨_, hw⟩
  | go k =>
      rcases h.cases_go distance k with ⟨hsame, -⟩ | ⟨t, c, next, f, fs, r, hk, -, -, -, hrest, hafter⟩
      · rwa [hsame]
      · rw [hafter]
        refine ⟨apply_clear c h.clear, fun c' hc' => ?_⟩
        rcases List.mem_or_eq_of_mem_set hc' with hc' | rfl
        · exact h.writes c' hc'
        · exact ⟨fs, hrest⟩

theorem Tidy.has_after (h : Tidy pool id x) (e : Event) (f : Field) :
    (x.after distance pool id e).has pool id f
      = ((x.written f e).getLast?).getD (x.has pool id f) := by
  cases e with
  | arrive t => rfl
  | go k =>
      rcases h.cases_go distance k with
        ⟨hsame, hwritten⟩ | ⟨t, c, next, f', fs, r, hk, hconcerns, hwrites, -, -, hafter⟩
      · rw [hsame, hwritten f]
        rfl
      · rw [hafter, has, has_apply hconcerns hwrites]
        simp only [written, hk, hwrites]
        by_cases hf : f' = f <;> simp [hf]

/-- **In the end a collection holds what the last call on it has put there.** -/
theorem Tidy.has_foldl (h : Tidy pool id x) (es : List Event) (f : Field) :
    (es.foldl (Crowd.after distance pool id) x).has pool id f
      = ((Run.collect (Crowd.after distance pool id) (written f) x es).getLast?).getD
          (x.has pool id f) := by
  induction es generalizing x with
  | nil => rfl
  | cons e rest ih =>
      rw [List.foldl_cons, ih (h.after e), h.has_after e f, Run.collect, List.getLast?_append]
      cases (Run.collect (Crowd.after distance pool id) (written f)
        (x.after distance pool id e) rest).getLast? <;> rfl

/-! ### Whoever begins when all others have finished -/

/-- A client begins, with calls to make, when all clients of the other kind have finished, and none of
that kind comes later. -/
structure Decides (pool : Role) (id : ActorId) (x : Crowd) (k : Nat) (t : Toggle)
    (later : List Event) : Prop where
  begins : x.clients[k]? = some { toggle := t, rest := t.program pool id }
  calls : (t.program pool id).result? = none
  finished : ∀ c ∈ x.clients, c.toggle.puts ≠ t.puts → c.Finished
  comes : ∀ t', .arrive t' ∈ later → t'.puts = t.puts

/-- All clients of the other kind have finished, and a client of this kind has put what he is to put in
every collection that he has no call to make on. -/
structure Settling (pool : Role) (id : ActorId) (b : Bool) (k : Nat) (x : Crowd) : Prop where
  tidy : Tidy pool id x
  finished : ∀ c ∈ x.clients, c.toggle.puts ≠ b → c.Finished
  puts : ∃ t rest fs, x.clients[k]? = some ⟨t, rest⟩ ∧ t.puts = b ∧ Writes pool id b fs rest ∧
    ∀ f, f ∉ fs → x.has pool id f = b

theorem Decides.settling {later : List Event} (h : Decides pool id x k t later)
    (htidy : Tidy pool id x) : Settling pool id t.puts k x := by
  refine ⟨htidy, h.finished, t, _, t.order, h.begins, rfl, ?_, fun f hf => absurd (t.mem_order f) hf⟩
  refine (Writes.of_toggle t).resolve_left fun hwrites => ?_
  have hcalls := h.calls
  cases hrest : t.program pool id with
  | done r => simp [hrest, Program.result?] at hcalls
  | call c next =>
      rw [hrest] at hwrites
      exact hwrites

theorem Settling.arrive {b : Bool} (h : Settling pool id b k x) (ht : t.puts = b) :
    Settling pool id b k (x.after distance pool id (.arrive t)) := by
  obtain ⟨t', rest, fs, hk, hputs⟩ := h.puts
  refine ⟨h.tidy.after _, fun c hc hne => ?_, t', rest, fs, ?_, hputs⟩
  · rcases List.mem_append.mp hc with hc | hc
    · exact h.finished c hc hne
    · obtain rfl := List.mem_singleton.mp hc
      exact absurd ht hne
  · exact (List.getElem?_append_left (List.getElem?_eq_some_iff.mp hk).1).trans hk

theorem Settling.go {b : Bool} (h : Settling pool id b k x) (j : Nat) :
    Settling pool id b k (x.after distance pool id (.go j)) := by
  have htidy : Tidy pool id (x.after distance pool id (.go j)) := h.tidy.after _
  rcases h.tidy.cases_go distance j with
    ⟨hsame, -⟩ | ⟨t, c, next, f, fs, r, hj, hconcerns, hwrites, -, hrest, hafter⟩
  · rwa [hsame]
  -- whoever still makes calls is of this kind
  have ht : t.puts = b := by
    by_contra hne
    exact absurd (h.finished _ (List.mem_of_getElem? hj) hne) (by simp [Client.Finished, Program.result?])
  have hhas : ∀ f', (x.after distance pool id (.go j)).has pool id f'
      = if f = f' then b else x.has pool id f' := by
    intro f'
    rw [hafter, has, has_apply hconcerns hwrites, ht]
  obtain ⟨t', rest, fs', hk, hputs, hwrites', hsettled⟩ := h.puts
  refine ⟨htidy, fun c' hc' hne => ?_, ?_⟩
  · rw [hafter] at hc'
    rcases List.mem_or_eq_of_mem_set hc' with hc' | rfl
    · exact h.finished c' hc' hne
    · exact absurd ht hne
  by_cases hjk : j = k
  · subst hjk
    obtain ⟨rfl, rfl⟩ := Client.mk.inj (Option.some.inj (hj.symm.trans hk))
    cases fs' with
    | nil => exact hwrites'.elim
    | cons g gs =>
        obtain ⟨rfl, -⟩ := Prod.mk.inj (Option.some.inj (hwrites'.2.1.symm.trans hwrites))
        refine ⟨t, next (.ok r), gs, ?_, ht, hwrites'.2.2 r, fun f' hf' => ?_⟩
        · rw [hafter]
          exact List.getElem?_set_self (List.getElem?_eq_some_iff.mp hj).1
        · rw [hhas]
          by_cases hg : g = f'
          · rw [if_pos hg]
          · rw [if_neg hg, hsettled f' (by simp [hf', Ne.symm hg])]
  · refine ⟨t', rest, fs', ?_, hputs, hwrites', fun f' hf' => ?_⟩
    · rw [hafter]
      exact (List.getElem?_set_ne hjk).trans hk
    · rw [hhas, hsettled f' hf', ite_self]

theorem Settling.foldl {b : Bool} {later : List Event} (h : Settling pool id b k x)
    (hlater : ∀ t, .arrive t ∈ later → t.puts = b) :
    Settling pool id b k (later.foldl (Crowd.after distance pool id) x) := by
  induction later generalizing x with
  | nil => exact h
  | cons e rest ih =>
      have hrest : ∀ t, .arrive t ∈ rest → t.puts = b :=
        fun t ht => hlater t (List.mem_cons_of_mem _ ht)
      cases e with
      | arrive t => exact ih (h.arrive (hlater t List.mem_cons_self)) hrest
      | go j => exact ih (h.go j) hrest

/-- Once the client has finished, all three collections hold what he has put there. -/
theorem Settling.has {b : Bool} (h : Settling pool id b k x) (hfinished : ∀ c ∈ x.clients, c.Finished)
    (f : Field) : x.has pool id f = b := by
  obtain ⟨t, rest, fs, hk, -, hwrites, hsettled⟩ := h.puts
  have hdone : rest.result?.isSome = true := hfinished _ (List.mem_of_getElem? hk)
  cases rest with
  | call c next => simp [Program.result?] at hdone
  | done r =>
      cases fs with
      | nil => exact hsettled f (by simp)
      | cons g gs => exact hwrites.elim

/-- A state in which nobody has come yet. -/
def opening (c : AvailabilityCache) : Crowd where
  cache := c

/-- The state after a run. -/
abbrev run (distance : Location → Location → Float) (pool : Role) (id : ActorId)
    (c : AvailabilityCache) (es : List Event) : Crowd :=
  es.foldl (after distance pool id) (opening c)

theorem Tidy.opening {c : AvailabilityCache} (hclear : (opening c).Clear) :
    Tidy pool id (opening c) :=
  ⟨hclear, fun c' hc' => by cases hc'⟩

theorem Tidy.run {c : AvailabilityCache} (hclear : (Crowd.opening c).Clear) (es : List Event) :
    Tidy pool id (run distance pool id c es) := by
  induction es using List.reverseRecOn with
  | nil => exact Tidy.opening hclear
  | append_singleton es e ih =>
      rw [Crowd.run, List.foldl_append]
      exact ih.after e

/-- **Calls on one actor at the same time.**  Whatever the order of the calls, an actor is in a
collection in the end if the last call on it was an addition's, and is not if it was a removal's.
When a client begins after all clients of the other kind have finished, and none of that kind comes
later, the actor ends up in all three collections, or in none, as that client wants it. -/
theorem agree_of_decides {c : AvailabilityCache} (hclear : (opening c).Clear) (es : List Event) :
    (∀ f, (run distance pool id c es).has pool id f
      = ((Run.collect (after distance pool id) (written f) (opening c) es).getLast?).getD
          ((c.entry pool id).has f)) ∧
    ∀ before k later t, es = before ++ .go k :: later →
      Decides pool id (run distance pool id c before) k t later →
      (∀ c' ∈ (run distance pool id c es).clients, c'.Finished) →
      ∀ f, (run distance pool id c es).has pool id f = t.puts := by
  refine ⟨fun f => (Tidy.opening hclear).has_foldl es f, ?_⟩
  rintro before k later t rfl hdecides hfinished
  have hsettling : Settling pool id t.puts k (run distance pool id c (before ++ .go k :: later)) := by
    rw [run, List.foldl_append]
    exact ((hdecides.settling (Tidy.run hclear before)).go k).foldl hdecides.comes
  exact hsettling.has hfinished

/-- An addition and a removal at the same time, and a removal after both. -/
theorem agree_of_decides_mending :
    let before : List Event := [.arrive (.add ⟨0, 0⟩ ⟨52.5, 13.25, none⟩), .arrive .remove, .go 0, .go 1,
      .go 0, .go 1, .go 1, .go 0, .arrive .remove]
    let x := run Location.distance .driver "d1" {} before
    (opening {}).Clear ∧ (x.has .driver "d1" .flag = true ∧ x.has .driver "d1" .position = false) ∧
    Decides .driver "d1" x 2 .remove [.go 2, .go 2] ∧
    ∀ f, (run Location.distance .driver "d1" {} (before ++ [.go 2, .go 2, .go 2])).has .driver "d1" f
      = false := by
  intro before x
  have hdecides : Decides .driver "d1" x 2 .remove [.go 2, .go 2] :=
    ⟨rfl, rfl, by decide +kernel, by simp⟩
  refine ⟨⟨rfl, rfl⟩, ⟨by decide +kernel, by decide +kernel⟩, hdecides, ?_⟩
  exact (agree_of_decides ⟨rfl, rfl⟩ _).2 before 2 [.go 2, .go 2] .remove rfl hdecides (by decide +kernel)

/-- **Calls on one actor at the same time can leave a flag without a position.** -/
theorem exists_flag_without_position : ¬ ∀ es : List Event,
    let x := run Location.distance .driver "d1" {} es
    (∀ c ∈ x.clients, c.Finished) →
      (∀ f, x.has .driver "d1" f = true) ∨ (∀ f, x.has .driver "d1" f = false) := by
  intro h
  -- the addition's calls are the first, the third and the last
  have hagree := h [.arrive (.add ⟨0, 0⟩ ⟨52.5, 13.25, none⟩), .arrive .remove, .go 0, .go 1, .go 0, .go 1,
    .go 1, .go 0] (by decide +kernel)
  rcases hagree with hall | hnone
  · exact absurd (hall .position) (by decide +kernel)
  · exact absurd (hnone .flag) (by decide +kernel)

end Crowd
end
end Availability
end Dispatch
