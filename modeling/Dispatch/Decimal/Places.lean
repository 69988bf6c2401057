/-
Numbers with a fixed count of decimal places.

The exact binary value is rounded to the nearest multiple of the last place, and a
value that lies halfway goes to the even neighbour.
-/
import Dispatch.Decimal.Binary
import Dispatch.Text.Digits

namespace Dispatch.Decimal

open Dispatch.Text

/-- A quotient rounded to the nearest whole number, halves to even. -/
def roundHalfEven (num den : Nat) : Nat :=
  let low := num / den
  let rest := num % den
  if 2 * rest < den then low
  else if den < 2 * rest then low + 1
  else if low % 2 = 0 then low else low + 1

/-- The rounded quotient is within half a unit of the quotient. -/
theorem roundHalfEven_near (num den : Nat) (h : 0 < den) :
    2 * roundHalfEven num den * den ≤ 2 * num + den ∧
      2 * num ≤ 2 * roundHalfEven num den * den + den := by
  have hd : den * (num / den) + num % den = num := Nat.div_add_mod num den
  have hr : num % den < den := Nat.mod_lt num h
  generalize num / den = low at hd
  generalize num % den = rest at hd hr
  have e : 2 * low * den = 2 * (den * low) := by rw [Nat.mul_assoc, Nat.mul_comm low]
  have e' : 2 * (low + 1) * den = 2 * (den * low) + 2 * den := by
    rw [Nat.mul_assoc, Nat.mul_comm (low + 1), Nat.mul_add, Nat.mul_one, Nat.mul_add]
  unfold roundHalfEven
  have h1 : num / den = low ∧ num % den = rest := by
    rw [← hd]
    constructor
    · rw [Nat.mul_add_div h, Nat.div_eq_of_lt hr, Nat.add_zero]
    · rw [Nat.mul_add_mod, Nat.mod_eq_of_lt hr]
  simp only [h1.1, h1.2]
  split
  · rw [e]; omega
  · split
    · rw [e']; omega
    · split
      · rw [e]; omega
      · rw [e']; omega

/-- A double with the given count of decimal places. -/
def withPlaces (places : Nat) (x : Float) : String :=
  match Binary.ofFloat? x with
  | none => if x.isNaN then "NaN" else if x < 0 then "-inf" else "inf"
  | some b =>
    let (num, den) := b.scaled places
    let units := roundHalfEven num den
    let sign := if b.negative then ['-'] else []
    String.ofList (sign ++ natDigits (units / 10 ^ places)
      ++ '.' :: paddedDigits places (units % 10 ^ places))

end Dispatch.Decimal
