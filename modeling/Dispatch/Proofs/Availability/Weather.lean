/-
Programs on a cache that comes and goes.

Before each call the cache can become unreachable, or reachable again, and any operations can fail from
then on: this is the `Weather`, and a program is run through any sequence of it.  A call that fails has
no effect; `Exposed` takes down which operations have failed.  `Takes` is all that can come of a call,
and `Leads` what a program comes to, one call after the other.
-/
import Dispatch.Proofs.Availability.Entries

namespace Dispatch

/-- An operation that removes an entry. -/
def CacheOp.Removes : CacheOp → Prop
  | .geoRemove | .setRemove | .hashDelete => True
  | _ => False

namespace Availability

/-- Whether the cache cannot be reached, and the operations that fail. -/
structure Weather where
  offline : Bool := false
  failing : List CacheOp := []

/-- The cache while a program runs on it. -/
structure Exposed where
  cache : AvailabilityCache
  /-- the weather of the next calls; when there is no more it stays as it is -/
  ahead : List Weather := []
  /-- the operations that have failed, the first one first -/
  failed : List CacheOp := []

namespace Exposed

variable {distance : Location → Location → Float} {α β : Type} {pool : Role} {id : ActorId}

/-- The cache in the weather of the next call. -/
def weathered (x : Exposed) : Exposed :=
  match x.ahead with
  | [] => x
  | w :: rest =>
    { x with cache := { x.cache with offline := w.offline, failing := w.failing }, ahead := rest }

/-- How the cache takes a call in the next weather. -/
def perform (distance : Location → Location → Float) : Handler CacheCall.Reply Exposed :=
  fun call x =>
    let x := x.weathered
    match AvailabilityCache.perform distance call x.cache with
    | .answer (.ok r) cache => .answer (.ok r) { x with cache }
    | .answer (.error e) cache =>
      .answer (.error e) { x with cache, failed := x.failed ++ [call.op] }
    | .wait cache => .wait { x with cache }

/-- What can come of a call: it fails without effect, or does what it does when nothing fails. -/
inductive Takes (distance : Location → Location → Float) (x : Exposed) (call : CacheCall) :
    call.Reply → Exposed → Prop
  | fails {e : CacheError} {x' : Exposed} (hfailed : x'.failed = x.failed ++ [call.op])
      (hentry : ∀ pool id, x'.cache.entry pool id = x.cache.entry pool id) :
      Takes distance x call (.error e) x'
  | works {r : call.Result} {x' : Exposed} (hresult : r = (x.cache.apply distance call).1)
      (hfailed : x'.failed = x.failed)
      (hentry : ∀ pool id, x'.cache.entry pool id
        = if call.Concerns pool id then call.change (x.cache.entry pool id)
          else x.cache.entry pool id) :
      Takes distance x call (.ok r) x'

/-! ### One call -/

@[simp] theorem weathered_failed (x : Exposed) : x.weathered.failed = x.failed := by
  unfold weathered
  split <;> rfl

@[simp] theorem weathered_entry (x : Exposed) (pool : Role) (id : ActorId) :
    x.weathered.cache.entry pool id = x.cache.entry pool id := by
  unfold weathered
  split <;> rfl

theorem weathered_apply (x : Exposed) (call : CacheCall) :
    (x.weathered.cache.apply distance call).1 = (x.cache.apply distance call).1 := by
  unfold weathered
  split
  · rfl
  · cases call <;> rfl

theorem exists_takes (distance : Location → Location → Float) (x : Exposed) (call : CacheCall) :
    ∃ r x', perform distance call x = .answer r x' ∧ Takes distance x call r x' := by
  cases hfault : x.weathered.cache.fault? call.op with
  | some e =>
      refine ⟨.error e, { x.weathered with failed := x.weathered.failed ++ [call.op] }, ?_, .fails ?_ ?_⟩
      · simp only [perform, AvailabilityCache.perform_of_fault hfault]
      · rw [← weathered_failed x]
      · exact fun pool id => weathered_entry x pool id
  | none =>
      refine ⟨.ok _, { x.weathered with cache := (x.weathered.cache.apply distance call).2 }, ?_,
        .works (weathered_apply x call) (weathered_failed x) fun pool id => ?_⟩
      · simp only [perform, AvailabilityCache.perform_of_clear hfault]
      · rw [← weathered_entry x pool id]
        exact AvailabilityCache.entry_apply _ call

theorem Takes.entry_eq {x x' : Exposed} {call : CacheCall} {r : call.Reply}
    (h : Takes distance x call r x') (hspared : ¬ call.Concerns pool id) :
    x'.cache.entry pool id = x.cache.entry pool id := by
  cases h with
  | fails _ hentry => exact hentry pool id
  | works _ _ hentry => rw [hentry, if_neg hspared]

/-! ### Whole programs -/

/-- Run to its end, a program has a result and leaves the cache such that `Q` holds of both. -/
def Leads (distance : Location → Location → Float) (p : CacheProgram α) (x : Exposed)
    (Q : α → Exposed → Prop) : Prop :=
  ∃ a x', p.run (perform distance) x = (.done a, x') ∧ Q a x'

variable {p : CacheProgram α} {x : Exposed} {Q Q' : α → Exposed → Prop} {R : β → Exposed → Prop}

theorem Leads.mono (h : Leads distance p x Q) (hQ : ∀ a x', Q a x' → Q' a x') :
    Leads distance p x Q' := by
  obtain ⟨a, x', hrun, h⟩ := h
  exact ⟨a, x', hrun, hQ a x' h⟩

theorem Leads.and (h : Leads distance p x Q) (h' : Leads distance p x Q') :
    Leads distance p x fun a x' => Q a x' ∧ Q' a x' := by
  obtain ⟨a, x', hrun, h⟩ := h
  obtain ⟨a', x'', hrun', h'⟩ := h'
  obtain ⟨hdone, rfl⟩ := Prod.mk.inj (hrun.symm.trans hrun')
  obtain rfl := Program.done.inj hdone
  exact ⟨a, x', hrun, h, h'⟩

theorem leads_forall {ι : Type} [Nonempty ι] {Q : ι → α → Exposed → Prop}
    (h : ∀ i, Leads distance p x (Q i)) : Leads distance p x fun a x' => ∀ i, Q i a x' := by
  obtain ⟨i₀⟩ := ‹Nonempty ι›
  obtain ⟨a, x', hrun, -⟩ := h i₀
  refine ⟨a, x', hrun, fun i => ?_⟩
  obtain ⟨a', x'', hrun', hQ⟩ := h i
  obtain ⟨hdone, rfl⟩ := Prod.mk.inj (hrun.symm.trans hrun')
  obtain rfl := Program.done.inj hdone
  exact hQ

theorem leads_done {a : α} (h : Q a x) : Leads distance (.done a) x Q := ⟨a, x, rfl, h⟩

theorem leads_call {call : CacheCall} {next : call.Reply → CacheProgram α}
    (h : ∀ r x', Takes distance x call r x' → Leads distance (next r) x' Q) :
    Leads distance (.call call next) x Q := by
  obtain ⟨r, x₁, hanswer, htakes⟩ := exists_takes distance x call
  obtain ⟨a, x₂, hrun, hQ⟩ := h r x₁ htakes
  exact ⟨a, x₂, by rw [Program.run_call, hanswer]; exact hrun, hQ⟩

theorem Leads.bind {f : α → CacheProgram β} (h : Leads distance p x Q)
    (hf : ∀ a x', Q a x' → Leads distance (f a) x' R) : Leads distance (p.bind f) x R := by
  obtain ⟨a, x₁, hrun, hQ⟩ := h
  obtain ⟨b, x₂, hrun', hR⟩ := hf a x₁ hQ
  exact ⟨b, x₂, by rw [Program.run_bind, hrun]; exact hrun', hR⟩

theorem leads_attempt {call : CacheCall}
    {next : call.Result → CacheProgram (Except ServiceError α)}
    {Q : Except ServiceError α → Exposed → Prop}
    (herror : ∀ e x', Takes distance x call (.error e) x' → Q (.error (.cache e)) x')
    (hok : ∀ r x', Takes distance x call (.ok r) x' → Leads distance (next r) x' Q) :
    Leads distance (attempt call next) x Q := by
  refine leads_call fun r x' h => ?_
  cases r with
  | error e => exact leads_done (herror e x' h)
  | ok r => exact hok r x' h

/-- A program that makes no call about an actor leaves his entries as they are. -/
theorem leads_of_spares (h : Spares pool id p) (x : Exposed) :
    Leads distance p x fun _ x' => x'.cache.entry pool id = x.cache.entry pool id := by
  induction p generalizing x with
  | done a => exact leads_done rfl
  | call c next ih =>
      refine leads_call fun r x₁ htakes => ?_
      exact (ih r (h.2 r) x₁).mono fun _ _ heq => heq.trans (htakes.entry_eq h.1)

/-- A program whose calls are all about one actor leaves the entries of everybody else as they are. -/
theorem leads_of_confined (h : Confined pool id p) (x : Exposed) :
    Leads distance p x fun _ x' => ∀ pool' id', ¬ (pool = pool' ∧ id = id') →
      x'.cache.entry pool' id' = x.cache.entry pool' id' := by
  induction p generalizing x with
  | done a => exact leads_done fun _ _ _ => rfl
  | call c next ih =>
      refine leads_call fun r x₁ htakes => ?_
      refine (ih r (h.2 r) x₁).mono fun _ x₂ hrest pool' id' hother => ?_
      rw [hrest pool' id' hother]
      exact htakes.entry_eq fun hc => hother (h.1.same hc)

/-! ### What can have failed -/

/-- A program all of whose calls are of certain operations. -/
def Uses (P : CacheOp → Prop) : CacheProgram α → Prop
  | .done _ => True
  | .call c next => P c.op ∧ ∀ r, Uses P (next r)

theorem uses_any (p : CacheProgram α) : Uses (fun _ => True) p := by
  induction p with
  | done a => trivial
  | call c next ih => exact ⟨trivial, ih⟩

theorem Uses.bind {P : CacheOp → Prop} (hp : Uses P p) {f : α → CacheProgram β}
    (hf : ∀ a, Uses P (f a)) : Uses P (p.bind f) := by
  induction p with
  | done a => exact hf a
  | call c next ih => exact ⟨hp.1, fun r => ih r (hp.2 r)⟩

/-- What fails while a program runs is taken down after what has failed before, and is an operation that
it uses. -/
theorem leads_of_uses {P : CacheOp → Prop} (h : Uses P p) (x : Exposed) :
    Leads distance p x fun _ x' => ∃ failed, x'.failed = x.failed ++ failed ∧ ∀ op ∈ failed, P op := by
  induction p generalizing x with
  | done a => exact leads_done ⟨[], by simp⟩
  | call c next ih =>
      refine leads_call fun r x₁ htakes => ?_
      refine (ih r (h.2 r) x₁).mono fun _ x₂ ⟨failed, hfailed, hused⟩ => ?_
      cases htakes with
      | fails hfirst _ =>
          refine ⟨c.op :: failed, by rw [hfailed, hfirst, List.append_assoc]; rfl, fun op hop => ?_⟩
          rcases List.mem_cons.mp hop with rfl | hop
          · exact h.1
          · exact hused op hop
      | works _ hfirst _ => exact ⟨failed, by rw [hfailed, hfirst], hused⟩

/-- What a program is known to come to by what has failed holds with what it uses. -/
theorem Leads.of_uses {P : CacheOp → Prop} {S : List CacheOp → α → Exposed → Prop}
    (h : Leads distance p x fun a x' => ∃ failed, x'.failed = x.failed ++ failed ∧ S failed a x')
    (hp : Uses P p) : Leads distance p x fun a x' =>
      ∃ failed, x'.failed = x.failed ++ failed ∧ (∀ op ∈ failed, P op) ∧ S failed a x' := by
  refine (h.and (leads_of_uses hp x)).mono fun a x' h => ?_
  obtain ⟨⟨failed, hfailed, hS⟩, failed', hfailed', hused⟩ := h
  obtain rfl : failed = failed' := List.append_cancel_left (hfailed.symm.trans hfailed')
  exact ⟨failed, hfailed, hused, hS⟩

end Exposed
end Availability
end Dispatch
