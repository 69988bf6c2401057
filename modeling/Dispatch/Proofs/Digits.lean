/-
Numbers in decimal, written and read again.

A number is written with the digits that it has, or with zeros in front up to a width.  Either way
the digits stand for the number that was written.  A reader who takes as many digits as there are
stops behind the last one, if what follows is no digit or if he takes no more than he has found.
-/
import Dispatch.Proofs.Numbers

namespace Dispatch.Text

open Dispatch.Decimal

variable {n width least most : Nat} {ds rest : List Char}

/-! ### Writing -/

theorem isRun_natDigits (n : Nat) : IsRun (natDigits n) :=
  ⟨Nat.toDigits_ne_nil, fun _ hc => Nat.isDigit_of_mem_toDigits (by decide) (by decide) hc⟩

theorem natOfDigits_natDigits (n : Nat) : natOfDigits (natDigits n) = n :=
  Nat.ofDigitChars_toDigits (by decide) (by decide)

/-- Nothing but zero begins with a zero. -/
theorem head?_natDigits (hn : 0 < n) : (natDigits n).head? ≠ some '0' := by
  induction n using Nat.strongRecOn with
  | ind n ih =>
      unfold natDigits at ih ⊢
      by_cases hsmall : n < 10
      · have hdigit : ∀ n < 10, 0 < n → [n.digitChar].head? ≠ some '0' := by decide
        rw [Nat.toDigits_of_lt_base hsmall]
        exact hdigit n hsmall hn
      · have hfront : (Nat.toDigits 10 (n / 10)).head? ≠ some '0' := ih _ (by omega) (by omega)
        rw [Nat.toDigits_of_base_le (by decide) (by omega)]
        cases hdigits : Nat.toDigits 10 (n / 10) with
        | nil => exact absurd hdigits Nat.toDigits_ne_nil
        | cons d ds =>
            rw [hdigits] at hfront
            exact hfront

theorem isDigit_of_mem_replicate {k : Nat} {c : Char} (h : c ∈ List.replicate k '0') :
    c.isDigit := by
  obtain rfl := List.eq_of_mem_replicate h
  decide

theorem isRun_paddedDigits (width n : Nat) : IsRun (paddedDigits width n) := by
  obtain ⟨hne, hdigits⟩ := isRun_natDigits n
  refine ⟨fun h => hne (List.append_eq_nil_iff.mp h).2, fun c hc => ?_⟩
  exact (List.mem_append.mp hc).elim isDigit_of_mem_replicate (hdigits c)

/-- Zeros in front do not count. -/
theorem natOfDigits_zeros (k : Nat) (ds : List Char) :
    natOfDigits (List.replicate k '0' ++ ds) = natOfDigits ds := by
  induction k with
  | zero => rfl
  | succ k ih => exact ih

theorem natOfDigits_paddedDigits (width n : Nat) : natOfDigits (paddedDigits width n) = n :=
  (natOfDigits_zeros _ _).trans (natOfDigits_natDigits n)

/-- A number that fits is written in just the width. -/
theorem length_paddedDigits (hwidth : 0 < width) (hn : n < 10 ^ width) :
    (paddedDigits width n).length = width := by
  have hfits : (natDigits n).length ≤ width :=
    (Nat.length_toDigits_le_iff (by decide) hwidth).mpr hn
  rw [paddedDigits, List.length_append, List.length_replicate]
  omega

theorem digitValue_lt {c : Char} (hc : c.isDigit) : digitValue c < 10 := by
  have hbounds := toNat_of_isDigit hc
  show c.toNat - 48 < 10
  omega

theorem writtenAfter_lt (n : Nat) (hds : ∀ c ∈ ds, c.isDigit) :
    writtenAfter n ds < (n + 1) * 10 ^ ds.length := by
  induction ds generalizing n with
  | nil => exact Nat.lt_of_lt_of_eq (Nat.lt_succ_self n) (Nat.mul_one _).symm
  | cons d ds ih =>
      obtain ⟨hd, hrest⟩ := List.forall_mem_cons.mp hds
      have hdigit := digitValue_lt hd
      calc writtenAfter n (d :: ds)
          < (10 * n + digitValue d + 1) * 10 ^ ds.length := ih _ hrest
        _ ≤ ((n + 1) * 10) * 10 ^ ds.length := Nat.mul_le_mul_right _ (by omega)
        _ = (n + 1) * 10 ^ (d :: ds).length := by
          rw [List.length_cons, Nat.pow_succ, Nat.mul_assoc, Nat.mul_comm 10]

theorem natOfDigits_lt (hds : ∀ c ∈ ds, c.isDigit) : natOfDigits ds < 10 ^ ds.length := by
  have h := writtenAfter_lt 0 hds
  rw [Nat.zero_add, Nat.one_mul] at h
  exact h

/-! ### Reading -/

/-- Digits are found up to something else, or until they are enough. -/
theorem takeWhile_take_append (hds : ∀ c ∈ ds, c.isDigit) (hmost : ds.length ≤ most)
    (hends : ds.length = most ∨ ∀ c, rest.head? = some c → ¬c.isDigit) :
    ((ds ++ rest).take most).takeWhile Char.isDigit = ds := by
  rw [List.take_append, List.take_of_length_le hmost]
  refine (takeWhile_isDigit hds fun c hc => ?_).1
  rw [List.head?_take] at hc
  split at hc
  case isTrue => cases hc
  case isFalse hroom =>
    rcases hends with hends | hends
    · exact absurd (by omega) hroom
    · exact hends c hc

theorem takeDigits_append (hds : ∀ c ∈ ds, c.isDigit) (hleast : least ≤ ds.length)
    (hmost : ds.length ≤ most)
    (hends : ds.length = most ∨ ∀ c, rest.head? = some c → ¬c.isDigit) :
    takeDigits least most (ds ++ rest) = some (natOfDigits ds, rest) := by
  rw [takeDigits, takeWhile_take_append hds hmost hends, if_neg (Nat.not_lt.mpr hleast),
    List.drop_left]

/-- A padded number is read in just its width. -/
theorem takeDigits_paddedDigits (hwidth : 0 < width) (hn : n < 10 ^ width) (rest : List Char)
    (hleast : least ≤ width) :
    takeDigits least width (paddedDigits width n ++ rest) = some (n, rest) := by
  have hlength := length_paddedDigits hwidth hn
  rw [takeDigits_append (isRun_paddedDigits width n).2 (by omega) (by omega) (.inl hlength),
    natOfDigits_paddedDigits]

end Dispatch.Text
