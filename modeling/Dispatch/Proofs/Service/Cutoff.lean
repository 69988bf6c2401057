/-
How far back a sweep looks.

A sweep takes the age at which a location is too old away from the present.  The settings accept every age
of 64 bits in seconds, and every one that is a length of time at all can be given to a sweep.  But the
calendar does not go back that far: a length of time can be some 292 million years, and the calendar begins
262143 years before the year 0.

So a sweep comes to its end, whatever fails in it, exactly if the calendar goes back to its cutoff; else it
breaks off before it has done anything, and the sweeper with it (`sweep_ends`).
-/
import Dispatch.Proofs.Clock
import Dispatch.Proofs.Service.PoolSizes
import Dispatch.Proofs.Setup

namespace Dispatch.Service

open Dispatch.Time Availability Outdoors

variable {x : Outdoors} {age : Span} {seconds : Nat}

/-- From the year 0 on the calendar goes back as far as the year 0 is from its beginning. -/
theorem goesBack_of_year_zero {t : Instant} (ht : Date.dayNumber ⟨0, 1, 1⟩ * 86400 ≤ t.seconds)
    (h : seconds ≤ 8272434009600) : t.GoesBack seconds := by
  have hfirst : Instant.first.toNanos = -8334601228800 * nanosPerSecond := by decide
  have hzero : Date.dayNumber ⟨0, 1, 1⟩ * 86400 = -62167219200 := by decide
  rw [hzero] at ht
  rw [Instant.GoesBack, hfirst]
  unfold Instant.toNanos nanosPerSecond
  omega

/-- A sweep ends well exactly if the calendar goes back to its cutoff, and otherwise does nothing. -/
theorem sweep_of_seconds (hage : Span.ofUnsigned? seconds 0 = some age) (hnow : x.service.now.OnCalendar) :
    Ends (sweep age) x fun r x' =>
      if x.service.now.GoesBack seconds then r = .ok () else r = .error .afterSubtraction ∧ x' = x := by
  obtain rfl : Span.ofParts seconds 0 = age := by
    rw [Span.ofUnsigned?] at hage
    split at hage
    · exact Option.some.inj hage
    · cases hage
  have hiff := Instant.isSome_sub?_seconds (n := seconds) hnow
  cases hcutoff : x.service.now.sub? (.ofParts seconds 0) with
  | none =>
      rw [hcutoff] at hiff
      simp only [if_neg (mt hiff.mpr nofun)]
      exact sweep_of_overflow hcutoff
  | some cutoff =>
      rw [hcutoff] at hiff
      simp only [if_pos (hiff.mp rfl)]
      exact (sweepPools_shows Role.all hcutoff).mono fun r x' h => h.1

/-- **A sweep ends well exactly if the calendar goes back to its cutoff.**  With any settings that have been
accepted, with any age of theirs that is a length of time, at any time and in any weather: a sweep comes to
its end; it ends well if there was an instant so many seconds ago, and if not it breaks off and changes
nothing; and the sweeper goes on running in the first case only. -/
theorem sweep_ends {env : Environment} {settings : Settings} {s : Service}
    (hsettings : Settings.ofEnvironment env = .ok settings)
    (hage : Span.ofUnsigned? settings.staleSeconds 0 = some age) (hnow : s.now.OnCalendar)
    (weather : List Weather) :
    Ends (sweep age) { service := s, ahead := weather } (fun r x' =>
      if s.now.GoesBack settings.staleSeconds then r = .ok ()
      else r = .error .afterSubtraction ∧ x' = { service := s, ahead := weather }) ∧
    Ends (startSweeper age settings.sweepSeconds) { service := s, ahead := weather } fun running _ =>
      running = decide (s.now.GoesBack settings.staleSeconds) := by
  have hsweep := sweep_of_seconds (x := { service := s, ahead := weather }) hage hnow
  refine ⟨hsweep, ?_⟩
  obtain ⟨-, -, hinterval, -⟩ := Settings.ofEnvironment_eq_ok.mp hsettings
  rw [startSweeper, if_neg (Settings.positiveOr_eq_ok.mp hinterval).2]
  refine hsweep.bind fun r x' h => ?_
  by_cases hback : s.now.GoesBack settings.staleSeconds
  · obtain rfl := (if_pos hback).mp h
    exact ends_done (decide_eq_true hback).symm
  · obtain ⟨rfl, -⟩ := (if_neg hback).mp h
    exact ends_done (decide_eq_false hback).symm

/-- At the beginning of 2024, locations that are older than five minutes can be swept. -/
theorem sweep_ends_fiveMinutes : ∃ settings age,
    Settings.ofEnvironment (Settings.only "AVAILABILITY_STALE_SECS" "300") = .ok settings ∧
    Span.ofUnsigned? settings.staleSeconds 0 = some age ∧
    (start {} ⟨1704067200, 0⟩).now.OnCalendar ∧
    Ends (sweep age) { service := start {} ⟨1704067200, 0⟩ } fun r _ => r = .ok () := by
  obtain ⟨settings, hsettings, hseconds⟩ : ∃ settings,
      Settings.ofEnvironment (Settings.only "AVAILABILITY_STALE_SECS" "300") = .ok settings ∧
        settings.staleSeconds = 300 := Settings.exists_settings _ (by decide +kernel)
  have hage : Span.ofUnsigned? settings.staleSeconds 0 = some (.ofParts 300 0) := by
    rw [hseconds]
    decide
  have hnow : (start {} ⟨1704067200, 0⟩).now.OnCalendar := by decide
  have hback : (start {} ⟨1704067200, 0⟩).now.GoesBack settings.staleSeconds :=
    goesBack_of_year_zero (by decide) (by rw [hseconds]; decide)
  refine ⟨settings, _, hsettings, hage, hnow, ?_⟩
  exact (sweep_ends hsettings hage hnow []).1.mono fun r x' h => (if_pos hback).mp h

/-- **A sweep can break off**: the longest age that is a length of time leads out of the calendar. -/
theorem exists_sweep_overflow : ∃ settings age,
    Settings.ofEnvironment (Settings.only "AVAILABILITY_STALE_SECS" "9223372036854775") = .ok settings ∧
    Span.ofUnsigned? settings.staleSeconds 0 = some age ∧
    Ends (sweep age) { service := start {} ⟨1704067200, 0⟩ } fun r _ => r = .error .afterSubtraction := by
  obtain ⟨settings, hsettings, hseconds⟩ : ∃ settings,
      Settings.ofEnvironment (Settings.only "AVAILABILITY_STALE_SECS" "9223372036854775") = .ok settings ∧
        settings.staleSeconds = 9223372036854775 := Settings.exists_settings _ (by decide +kernel)
  have hage : Span.ofUnsigned? settings.staleSeconds 0 = some (.ofParts 9223372036854775 0) := by
    rw [hseconds]
    decide
  refine ⟨settings, _, hsettings, hage, (sweep_of_seconds hage (by decide)).mono fun r x' h => ?_⟩
  have hback : ¬ (start {} ⟨1704067200, 0⟩).now.GoesBack settings.staleSeconds := by
    rw [hseconds]
    decide
  exact ((if_neg hback).mp h).1

end Dispatch.Service
