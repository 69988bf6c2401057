/-
Whole seconds on the calendar.

The lengths of time that are set up for the service are whole seconds.  Adding such a length to what the
clock shows, or taking it away, is plain arithmetic as long as it stays within the calendar, also from
within a leap second.
-/
import Dispatch.Time.Instant

namespace Dispatch.Time

@[simp] theorem Span.nanos_ofParts (s : Int) (n : Nat) : (ofParts s n).nanos = s * nanosPerSecond + n := rfl

@[simp] theorem Span.nanos_neg (d : Span) : d.neg.nanos = -d.nanos := rfl

namespace Instant

variable {t u : Instant} {n : Nat}

/-- The clock can show an instant, if only in a leap second. -/
def OnCalendar (t : Instant) : Prop := InRange t.seconds ∧ t.nanos < 2 * nanosPerSecond

instance (t : Instant) : Decidable t.OnCalendar := inferInstanceAs (Decidable (_ ∧ _))

/-- So many seconds ago there was an instant of the calendar. -/
def GoesBack (t : Instant) (seconds : Nat) : Prop :=
  first.toNanos + seconds * nanosPerSecond ≤ t.toNanos

instance (t : Instant) (seconds : Nat) : Decidable (t.GoesBack seconds) :=
  inferInstanceAs (Decidable (_ ≤ _))

theorem ofNanos_toNanos (h : t.isLeap = false) : ofNanos t.toNanos = t := by
  have hnanos : t.nanos < nanosPerSecond := by simpa [isLeap] using h
  obtain ⟨seconds, nanos⟩ := t
  unfold ofNanos toNanos nanosPerSecond at *
  simp only [mk.injEq] at *
  omega

/-- Adding nothing leaves an instant as it is. -/
theorem add?_zero (h : t.OnCalendar) : t.add? ⟨0⟩ = some t := by
  cases hleap : t.isLeap with
  | false =>
      rw [add?_of_not_isLeap hleap, Int.add_zero, ofNanos_toNanos hleap, if_pos h.1]
  | true =>
      have hstays : t.staysInLeap ⟨0⟩ = true := by
        have hnanos := h.2
        simp [staysInLeap, hleap, nanosPerSecond] at hnanos ⊢
        omega
      simp [add?, hstays, h.1]

/-- A length of a second or more leads out of a leap second. -/
theorem add?_of_le {d : Span} (h : nanosPerSecond ≤ d.nanos.natAbs) : t.add? d =
    if InRange (ofNanos (t.origin d + d.nanos)).seconds then some (ofNanos (t.origin d + d.nanos))
    else none := by
  have hleaves : ¬ t.staysInLeap d = true := by
    intro hstays
    have hcond : (nanosPerSecond ≤ t.nanos ∧ -(nanosPerSecond : Int) < d.nanos) ∧
        t.nanos + d.nanos < 2 * nanosPerSecond := by
      simpa [staysInLeap, isLeap] using hstays
    unfold nanosPerSecond at *
    omega
  rw [add?, if_neg hleaves]

/-- Some seconds later it is later. -/
theorem lt_of_add?_seconds (hn : n ≠ 0) (h : t.add? (.ofParts n 0) = some u) : t < u := by
  have hlong : nanosPerSecond ≤ (Span.ofParts n 0).nanos.natAbs := by
    rw [Span.nanos_ofParts, nanosPerSecond]
    omega
  rw [add?_of_le hlong] at h
  split at h
  case isFalse => cases h
  obtain rfl := Option.some.inj h
  -- what is added on to lies in the second that the clock shows, or at the end of it
  have horigin : t.seconds * nanosPerSecond ≤ t.origin (.ofParts n 0) := by
    unfold origin
    split
    case isTrue hleap =>
      have hahead : ¬ (Span.ofParts n 0).nanos ≤ -(nanosPerSecond : Int) := by
        rw [Span.nanos_ofParts, nanosPerSecond]
        omega
      rw [isLeap, decide_eq_true_eq] at hleap
      rw [if_neg hahead, toNanos]
      omega
    case isFalse =>
      unfold toNanos
      omega
  refine .inl ?_
  simp only [ofNanos, Span.nanos_ofParts, nanosPerSecond] at horigin ⊢
  omega

/-- Some seconds can be taken away exactly if the calendar goes back that far. -/
theorem isSome_sub?_seconds (h : t.OnCalendar) :
    (t.sub? (.ofParts n 0)).isSome ↔ t.GoesBack n := by
  obtain ⟨⟨hfirst, hlast⟩, hnanos⟩ := h
  have hbegin : first.toNanos = first.seconds * nanosPerSecond := Int.add_zero _
  rw [GoesBack, hbegin]
  by_cases hn : n = 0
  · subst hn
    have hzero : (Span.ofParts (0 : Nat) 0).neg = ⟨0⟩ := by decide
    rw [sub?, hzero, add?_zero ⟨⟨hfirst, hlast⟩, hnanos⟩]
    refine iff_of_true rfl ?_
    unfold toNanos nanosPerSecond
    omega
  have hlong : nanosPerSecond ≤ (Span.ofParts n 0).neg.nanos.natAbs := by
    rw [Span.nanos_neg, Span.nanos_ofParts, nanosPerSecond]
    omega
  have horigin : t.origin (Span.ofParts n 0).neg = t.toNanos := by
    rw [origin]
    split
    case isTrue => exact if_pos (by rw [Span.nanos_neg, Span.nanos_ofParts, nanosPerSecond]; omega)
    case isFalse => rfl
  have hrange : InRange (ofNanos (t.toNanos + -(n * nanosPerSecond + (0 : Nat)))).seconds ↔
      first.seconds * nanosPerSecond + n * nanosPerSecond ≤ t.toNanos := by
    unfold InRange ofNanos toNanos nanosPerSecond at *
    dsimp only
    omega
  rw [sub?, add?_of_le hlong, horigin, Span.nanos_neg, Span.nanos_ofParts, ← hrange]
  split
  case isTrue h => exact iff_of_true rfl h
  case isFalse h => exact iff_of_false (by simp) h

end Instant
end Dispatch.Time
