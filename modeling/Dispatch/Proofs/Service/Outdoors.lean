/-
The service while its availability cache comes and goes.

A program of the service makes calls on many parts.  Those on the availability cache meet the weather, in
which the cache can be unreachable and operations can fail; all others are taken as they always are
(`Outdoors.perform`).  What a program of the cache comes to in some weather is then what it comes to as a
part of the service (`ends_onAvailability`), and when the weather does not change nothing is different at
all (`run_of_settled`).
-/
import Dispatch.Proofs.Availability.Weather
import Dispatch.Service.Upkeep

namespace Dispatch.Service

open Dispatch.Time Availability

/-- The service while a program runs on it. -/
structure Outdoors where
  service : Service
  /-- the weather of the next calls on the availability cache -/
  ahead : List Weather := []
  /-- the operations of the availability cache that have failed, the first one first -/
  failed : List CacheOp := []

namespace Outdoors

variable {α β : Type}

/-- The availability cache in its weather. -/
def exposed (x : Outdoors) : Exposed :=
  { cache := x.service.availability, ahead := x.ahead, failed := x.failed }

/-- The service with another availability cache. -/
def expose (x : Outdoors) (e : Exposed) : Outdoors :=
  { service := { x.service with availability := e.cache }, ahead := e.ahead, failed := e.failed }

/-- The service after something that has nothing to do with the weather. -/
def become (x : Outdoors) (s : Service) : Outdoors := { x with service := s }

/-- How the service takes a call. -/
def perform : Handler ServiceCall.Reply Outdoors
  | .availability c, x => (Exposed.perform Location.distance c x.exposed).mapState x.expose
  | c, x => (Service.perform c x.service).mapState x.become

@[simp] theorem exposed_expose (x : Outdoors) (e : Exposed) : (x.expose e).exposed = e := rfl

/-- While the weather stays as it is, every call is taken as it always is. -/
theorem perform_of_settled (c : ServiceCall) {x : Outdoors} (h : x.ahead = []) :
    (perform c x).mapState service = Service.perform c x.service ∧ (perform c x).state.ahead = [] := by
  have hbecome : ∀ {ρ : Type} (t : Turn Service ρ), (t.mapState x.become).mapState service = t ∧
      (t.mapState x.become).state.ahead = [] := by
    intro ρ t
    cases t <;> exact ⟨rfl, h⟩
  cases c with
  | availability c =>
      have hweather : x.exposed.weathered = x.exposed := by
        rw [Exposed.weathered, exposed, h]
      rw [perform, Exposed.perform, hweather, Service.perform]
      show _ = (AvailabilityCache.perform _ c x.exposed.cache).mapState _ ∧ _
      cases AvailabilityCache.perform Location.distance c x.exposed.cache with
      | wait cache => exact ⟨rfl, h⟩
      | answer r cache => cases r <;> exact ⟨rfl, h⟩
  | store c => exact hbecome (Service.perform (.store c) x.service)
  | table c => exact hbecome (Service.perform (.table c) x.service)
  | rides c => exact hbecome (Service.perform (.rides c) x.service)
  | count | counts | clock | announce | sender | publishLater => exact ⟨rfl, h⟩
  | enqueue t e => exact hbecome (Service.perform (.enqueue t e) x.service)

/-- **While the weather stays as it is, a program comes to what it always comes to.** -/
theorem run_of_settled (p : ServiceProgram α) {x : Outdoors} (h : x.ahead = []) :
    ((p.run perform x).1, (p.run perform x).2.service) = p.run Service.perform x.service := by
  induction p generalizing x with
  | done a => rfl
  | call c next ih =>
      obtain ⟨hsame, hahead⟩ := perform_of_settled c h
      rw [Program.run_call, Program.run_call, ← hsame]
      cases hturn : perform c x with
      | wait x' => rfl
      | answer r x' =>
          rw [hturn] at hahead
          exact ih r hahead

/-- Run to its end, a program has a result and leaves the service such that `Q` holds of both. -/
def Ends (p : ServiceProgram α) (x : Outdoors) (Q : α → Outdoors → Prop) : Prop :=
  ∃ a x', p.run perform x = (.done a, x') ∧ Q a x'

variable {p : ServiceProgram α} {x : Outdoors} {Q Q' : α → Outdoors → Prop} {R : β → Outdoors → Prop}

theorem Ends.mono (h : Ends p x Q) (hQ : ∀ a x', Q a x' → Q' a x') : Ends p x Q' := by
  obtain ⟨a, x', hrun, h⟩ := h
  exact ⟨a, x', hrun, hQ a x' h⟩

theorem ends_done {a : α} (h : Q a x) : Ends (.done a) x Q := ⟨a, x, rfl, h⟩

theorem Ends.bind {f : α → ServiceProgram β} (h : Ends p x Q)
    (hf : ∀ a x', Q a x' → Ends (f a) x' R) : Ends (p.bind f) x R := by
  obtain ⟨a, x₁, hrun, hQ⟩ := h
  obtain ⟨b, x₂, hrun', hR⟩ := hf a x₁ hQ
  exact ⟨b, x₂, by rw [Program.run_bind, hrun]; exact hrun', hR⟩

theorem ends_clock {f : Instant → ServiceProgram α} (h : Ends (f x.service.now) x Q) :
    Ends (clock.bind f) x Q := h

theorem ends_count {o : Observation} {next : Unit → ServiceProgram α}
    (h : Ends (next ()) (x.become { x.service with metrics := x.service.metrics.record o }) Q) :
    Ends (.call (.count o) next) x Q := h

/-- **A program of the cache comes to the same as a part of the service.** -/
theorem ends_onAvailability {p : CacheProgram α} {Q : α → Exposed → Prop}
    (h : Exposed.Leads Location.distance p x.exposed Q) :
    Ends (onAvailability p) x fun a x' => ∃ e, x' = x.expose e ∧ Q a e := by
  have hrun : (onAvailability p).run perform (x.expose x.exposed) =
      (onAvailability (p.run (Exposed.perform Location.distance) x.exposed).1,
        x.expose (p.run (Exposed.perform Location.distance) x.exposed).2) := by
    refine Program.run_lift x.expose (fun c e => ?_) p x.exposed
    rw [perform, exposed_expose]
    cases Exposed.perform Location.distance c e with
    | answer r e' => exact ⟨r, rfl, rfl⟩
    | wait e' => rfl
  obtain ⟨a, e, hdone, hQ⟩ := h
  refine ⟨a, x.expose e, ?_, e, rfl, hQ⟩
  rw [hdone] at hrun
  exact hrun

end Outdoors
end Dispatch.Service
