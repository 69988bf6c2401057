/-
What is known of settings that have been read.

Settings are read from the environment one after the other, so when all have been read each of them is what
its own variable says.
-/
import Dispatch.Settings

namespace Dispatch.Settings

variable {env : Environment} {s : Settings}

theorem bind_eq_ok {ε α β : Type} {x : Except ε α} {f : α → Except ε β} {b : β} :
    x >>= f = .ok b ↔ ∃ a, x = .ok a ∧ f a = .ok b := by
  cases x with
  | error e => exact iff_of_false nofun fun ⟨_, h, _⟩ => nomatch h
  | ok a => exact ⟨fun h => ⟨a, rfl, h⟩, fun ⟨_, ha, h⟩ => Except.ok.inj ha ▸ h⟩

/-- A setting that must not be zero is a setting that is not zero. -/
theorem positiveOr_eq_ok {most : Nat} {key : String} {unset n : Nat} :
    positiveOr most env key unset = .ok n ↔ wholeOr most env key unset = .ok n ∧ n ≠ 0 := by
  rw [positiveOr, bind_eq_ok]
  constructor
  · rintro ⟨m, hm, h⟩
    by_cases hzero : m = 0
    · rw [if_pos hzero] at h
      cases h
    · rw [if_neg hzero] at h
      obtain rfl := Except.ok.inj h
      exact ⟨hm, hzero⟩
  · exact fun ⟨hn, hzero⟩ => ⟨n, hn, if_neg hzero⟩

/-- **Each setting is what its variable says.** -/
theorem ofEnvironment_eq_ok : ofEnvironment env = .ok s ↔
    formatIn env = .ok s.logFormat ∧ radiusIn env = .ok s.searchRadius ∧
    positiveOr max64 env "AVAILABILITY_SWEEP_INTERVAL_SECS" 60 = .ok s.sweepSeconds ∧
    positiveOr max64 env "EVENT_BUFFER_SIZE" 1024 = .ok s.eventBuffer ∧
    wholeOr max16 env "HTTP_PORT" 3000 = .ok s.httpPort ∧
    wholeOr max64 env "ACTIVE_RIDE_TTL_SECS" 86400 = .ok s.rideSeconds ∧
    wholeOr max64 env "AVAILABILITY_STALE_SECS" 0 = .ok s.staleSeconds ∧
    (text? env "LOG_LEVEL").getD "info" = s.logLevel ∧
    (text? env "DATABASE_URL").filter (fun url => !url.isEmpty) = s.databaseUrl := by
  unfold ofEnvironment
  simp only [bind_eq_ok]
  constructor
  · rintro ⟨_, hformat, _, hradius, _, hsweep, _, hbuffer, _, hport, _, hride, _, hstale, h⟩
    obtain rfl := Except.ok.inj h
    exact ⟨hformat, hradius, hsweep, hbuffer, hport, hride, hstale, rfl, rfl⟩
  · rintro ⟨hformat, hradius, hsweep, hbuffer, hport, hride, hstale, hlevel, hurl⟩
    refine ⟨_, hformat, _, hradius, _, hsweep, _, hbuffer, _, hport, _, hride, _, hstale, ?_⟩
    rw [hlevel, hurl]
    rfl

/-- An environment in which one variable is set. -/
def only (key value : String) : Environment := fun k =>
  if k = key then some value.toUTF8.toList else none

/-- What is set up when nothing is said but for how long a ride is bound. -/
def bindingFor (rideSeconds : Nat) : Settings where
  httpPort := 3000
  logLevel := "info"
  logFormat := .compact
  eventBuffer := 1024
  rideSeconds
  searchRadius := 5.0
  staleSeconds := 0
  sweepSeconds := 60
  databaseUrl := none

/-- A setting that can be looked up is one of settings that have been read. -/
theorem exists_settings {α : Type} (f : Settings → α) {a : α}
    (h : (ofEnvironment env).toOption.map f = some a) : ∃ s, ofEnvironment env = .ok s ∧ f s = a := by
  cases hread : ofEnvironment env with
  | error fault => rw [hread] at h; cases h
  | ok s =>
      rw [hread] at h
      exact ⟨s, rfl, Option.some.inj h⟩

end Dispatch.Settings
