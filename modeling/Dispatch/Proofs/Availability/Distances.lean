/-
How distances compare.

A float is no number, or infinite, or zero, or a mantissa times a power of two, and floats are compared
class by class, and within a class by their exponents and then by their mantissas.  This is a comparison
of triples of whole numbers (`place`), with both zeros in one place.

So floats that are numbers are compared as the members of a linear order are (`lt_iff`, `le_iff`,
`beq_iff`).  What is no number is neither less than another float nor equal to it, and what a sorting makes
of it depends on where it stood before.
-/
import Mathlib.Algebra.Order.Group.Int
import Mathlib.Data.Prod.Lex
import Mathlib.Order.Monotone.Basic

namespace Dispatch.Distances

open Float.Model

/-- The place of an unpacked float: its class, and within it its exponent and its mantissa.  What is no
number is put with the zeros. -/
def place : UnpackedFloat → ℤ ×ₗ ℤ ×ₗ ℤ
  | .infinity .negative => toLex (-2, toLex (0, 0))
  | .finite .negative m e _ => toLex (-1, toLex (-e, -m))
  | .zero _ | .notANumber => toLex (0, toLex (0, 0))
  | .finite .positive m e _ => toLex (1, toLex (e, m))
  | .infinity .positive => toLex (2, toLex (0, 0))

theorem compare_toLex {α β : Type} [Ord α] [Ord β] (a a' : α) (b b' : β) :
    compare (toLex (a, b)) (toLex (a', b')) = (compare a a').then (compare b b') := by
  rw [Prod.Lex.compare_def]
  rfl

theorem compare_cast (m m' : ℕ) : compare (m : ℤ) (m' : ℤ) = compare m m' := by
  rw [← cmp_eq_compare, ← cmp_eq_compare]
  exact StrictMono.cmp_map_eq (f := Nat.cast) (fun _ _ h => Int.ofNat_lt.mpr h) m m'

theorem compare_neg (a b : ℤ) : compare (-a) (-b) = (compare a b).swap := by
  rw [← cmp_eq_compare, ← cmp_eq_compare, cmp_swap]
  exact StrictAnti.cmp_map_eq (f := Neg.neg) (fun _ _ h => Int.neg_lt_neg h) a b

theorem compare_positive (m m' : ℕ) (e e' : ℤ) : (compare e e').then (compare m m')
    = compare (toLex ((1 : ℤ), toLex (e, (m : ℤ)))) (toLex ((1 : ℤ), toLex (e', (m' : ℤ)))) := by
  rw [compare_toLex, compare_toLex, compare_cast]
  rfl

theorem compare_negative (m m' : ℕ) (e e' : ℤ) : ((compare e e').then (compare m m')).swap
    = compare (toLex ((-1 : ℤ), toLex (-e, -(m : ℤ)))) (toLex ((-1 : ℤ), toLex (-e', -(m' : ℤ)))) := by
  rw [compare_toLex, compare_toLex, compare_neg e, compare_neg m, compare_cast, Ordering.swap_then]
  rfl

/-- Numbers are compared by their places. -/
theorem compare_place {a b : UnpackedFloat} (ha : a.isNaN = false) (hb : b.isNaN = false) :
    a.compare b = some (compare (place a) (place b)) := by
  rcases a with (_ | _) | _ | _ | ⟨_ | _, m, e, _⟩ <;>
  rcases b with (_ | _) | _ | _ | ⟨_ | _, m', e', _⟩ <;>
    first
    | exact absurd ha (by decide)
    | exact absurd hb (by decide)
    | rfl
    | exact congrArg some (compare_negative m m' e e')
    | exact congrArg some (compare_positive m m' e e')

/-- The place of a float. -/
def placeOf (x : Float) : ℤ ×ₗ ℤ ×ₗ ℤ := place x.toModel.unpack

variable {x y : Float}

theorem lt_iff (hx : x.isNaN = false) (hy : y.isNaN = false) : x < y ↔ placeOf x < placeOf y := by
  have hplace : x.toModel.unpack.compare y.toModel.unpack = some (compare (placeOf x) (placeOf y)) :=
    compare_place hx hy
  have hlt : x < y ↔ (x.toModel.unpack.compare y.toModel.unpack == some .lt) = true :=
    decide_eq_true_iff
  rw [hlt, hplace, beq_iff_eq, Option.some_inj]
  exact compare_lt_iff_lt

theorem le_iff (hx : x.isNaN = false) (hy : y.isNaN = false) : x ≤ y ↔ placeOf x ≤ placeOf y := by
  have hplace : x.toModel.unpack.compare y.toModel.unpack = some (compare (placeOf x) (placeOf y)) :=
    compare_place hx hy
  have hle : x ≤ y ↔ (x.toModel.unpack.compare y.toModel.unpack).any (·.isLE) = true :=
    decide_eq_true_iff
  rw [hle, hplace, Option.any_some, Ordering.isLE_iff_ne_gt]
  exact compare_le_iff_le

theorem beq_iff (hx : x.isNaN = false) (hy : y.isNaN = false) :
    (x == y) = true ↔ placeOf x = placeOf y := by
  have hplace : x.toModel.unpack.compare y.toModel.unpack = some (compare (placeOf x) (placeOf y)) :=
    compare_place hx hy
  have hbeq : (x == y) = (x.toModel.unpack.compare y.toModel.unpack == some .eq) := rfl
  rw [hbeq, hplace, beq_iff_eq, Option.some_inj]
  exact compare_eq_iff_eq

/-- Whatever is finite is a number. -/
theorem isNaN_of_isFinite (h : x.isFinite = true) : x.isNaN = false := by
  have hfinite : x.toModel.unpack.isFinite = true := h
  show x.toModel.unpack.isNaN = false
  cases hx : x.toModel.unpack with
  | notANumber => rw [hx] at hfinite; cases hfinite
  | infinity | zero | finite => rfl

theorem isNaN_zero : (0 : Float).isNaN = false := by decide +kernel

end Dispatch.Distances
