/-
Numerals in a text.

A numeral ends where no digit, no point and no power of ten follows, and it begins with its sign or
with a digit.  So one that is written as JSON has it (`Numeral.Proper`) is found again in front of
whatever may follow a value: a comma, a bracket, a brace or nothing.

Whole numbers are written like this, and so is every finite double: its digits stand for a number
above zero and so do not begin with a zero, unless the double is zero itself.
-/
import Dispatch.Json.Token
import Dispatch.Proofs.Digits

namespace Dispatch

open Dispatch.Text Dispatch.Decimal

namespace Numeral

/-- The digits stand where JSON wants them, and there is no zero in front. -/
structure Proper (n : Numeral) : Prop where
  whole : IsRun n.whole
  zero : n.whole.head? = some '0' → n.whole.length = 1
  fraction : ∀ c ∈ n.fraction, c.isDigit
  power : ∀ negative ds, n.power = some (negative, ds) → IsRun ds

/-! ### What is written -/

theorem proper_ofInt (n : Int) : (ofInt n).Proper where
  whole := isRun_natDigits _
  zero hzero := by
    have hn : n.natAbs = 0 := Nat.eq_zero_of_not_pos fun hpos => head?_natDigits hpos hzero
    rw [ofInt, hn]
    rfl
  fraction := nofun
  power := nofun

theorem isRun_zero : IsRun ['0'] := ⟨nofun, List.forall_mem_singleton.mpr (by decide)⟩

/-- Digits that do not begin with a zero make a proper numeral wherever the point is put. -/
theorem proper_ofDigits {d : Digits} (hd : 0 < d.digits) (negative : Bool) :
    (ofDigits negative d).Proper := by
  obtain ⟨hne, hdigits⟩ := isRun_natDigits d.digits
  have hhead := head?_natDigits hd
  -- a beginning of the digits
  have front {k : Nat} (hk : 0 < k) : IsRun ((natDigits d.digits).take k) ∧
      ((natDigits d.digits).take k).head? ≠ some '0' := by
    refine ⟨⟨fun h => ?_, fun c hc => hdigits c (List.mem_of_mem_take hc)⟩, ?_⟩
    · exact (List.take_eq_nil_iff.mp h).elim (Nat.ne_of_gt hk) hne
    · rw [List.head?_take, if_neg (Nat.ne_of_gt hk)]
      exact hhead
  unfold ofDigits
  dsimp only
  split
  case isTrue =>
    refine ⟨⟨by simp [hne], fun c hc => ?_⟩, fun hzero => ?_, by simp, nofun⟩
    · exact (List.mem_append.mp hc).elim (hdigits c) isDigit_of_mem_replicate
    · refine absurd ?_ hhead
      rwa [List.head?_append, Option.or_of_isSome (by simpa using hne)] at hzero
  case isFalse =>
    split
    case isTrue hpoint =>
      have hsome : 0 < ((natDigits d.digits).length + d.exponent).toNat := by omega
      obtain ⟨hrun, hzero⟩ := front hsome
      exact ⟨hrun, (absurd · hzero), fun c hc => hdigits c (List.mem_of_mem_drop hc), nofun⟩
    case isFalse =>
      split
      case isTrue =>
        refine ⟨isRun_zero, fun _ => rfl, fun c hc => ?_, nofun⟩
        exact (List.mem_append.mp hc).elim isDigit_of_mem_replicate (hdigits c)
      case isFalse =>
        obtain ⟨hrun, hzero⟩ := front (k := 1) (by decide)
        refine ⟨hrun, (absurd · hzero), fun c hc => hdigits c (List.mem_of_mem_drop hc), ?_⟩
        intro _ ds h
        obtain ⟨-, rfl⟩ := Prod.mk.inj (Option.some.inj h)
        exact isRun_natDigits _

/-- Zero does not read back as a double above zero. -/
theorem not_reads_zero {b : Binary} (hb : b.significand ≠ 0) (k : Int) : b.reads 0 k = false := by
  have hend : 0 < b.lowerEnd := by
    unfold Binary.lowerEnd
    split <;> omega
  have hunit : 0 < b.endUnit k := Nat.mul_pos (Nat.pow_pos (by decide)) (Nat.pow_pos (by decide))
  have hlow : 0 < b.lowerEnd * b.endUnit k := Nat.mul_pos hend hunit
  unfold Binary.reads
  simp only [Nat.zero_mul]
  split <;> exact decide_eq_false (by omega)

theorem digits_gridPoint {b : Binary} (hb : b.significand ≠ 0) {k : Int} {d : Digits}
    (h : b.gridPoint? k = some d) : 0 < d.digits := by
  unfold Binary.gridPoint? at h
  dsimp only at h
  generalize hbelow : 4 * b.significand * b.endUnit k / b.gridUnit k = below at h
  have hpos (hreads : b.reads below k = true) : 0 < below := by
    refine Nat.pos_of_ne_zero fun hzero => ?_
    rw [hzero, not_reads_zero hb] at hreads
    cases hreads
  split at h
  case h_1 hreads _ =>
    obtain rfl := Option.some.inj h
    dsimp only
    split
    case isTrue => exact Nat.succ_pos _
    case isFalse => exact hpos hreads
  case h_2 hreads _ =>
    obtain rfl := Option.some.inj h
    exact hpos hreads
  case h_3 =>
    obtain rfl := Option.some.inj h
    exact Nat.succ_pos _
  case h_4 => cases h

/-- **A finite double is written properly.** -/
theorem proper_of_ofFloat? {x : Float} {n : Numeral} (h : ofFloat? x = some n) : n.Proper := by
  obtain ⟨b, -, rfl⟩ := Option.map_eq_some_iff.mp h
  have hzero (negative : Bool) : Proper ⟨negative, ['0'], ['0'], none⟩ :=
    ⟨isRun_zero, fun _ => rfl, isRun_zero.2, nofun⟩
  split
  case isTrue => exact hzero _
  case isFalse hb =>
    unfold Binary.shortest
    cases hfound : (List.range 640).findSome? fun (i : Nat) => b.gridPoint? (310 - (i : Int)) with
    | none => exact hzero _
    | some d =>
        obtain ⟨i, -, hd⟩ := List.exists_of_findSome?_eq_some hfound
        exact proper_ofDigits (digits_gridPoint hb hd) _

end Numeral

/-! ### What is found again -/

namespace Json.Token

/-- What follows is not part of a numeral. -/
def Ends (rest : List Char) : Prop :=
  ∀ c, rest.head? = some c → ¬c.isDigit ∧ c ≠ '.' ∧ c ≠ 'e' ∧ c ≠ 'E'

theorem ends_nil : Ends [] := nofun

theorem ends_cons {c : Char} (rest : List Char)
    (hc : ¬c.isDigit ∧ c ≠ '.' ∧ c ≠ 'e' ∧ c ≠ 'E') : Ends (c :: rest) :=
  fun _ h => Option.some.inj h ▸ hc

variable {rest : List Char}

/-- The characters of a power of ten. -/
def powerChars : Option (Bool × List Char) → List Char
  | none => []
  | some (negative, ds) => 'e' :: ((if negative then ['-'] else []) ++ ds)

/-- The characters of a fraction. -/
def fractionChars (ds : List Char) : List Char := if ds = [] then [] else '.' :: ds

theorem powerDigits_append (negative : Bool) {ds : List Char} (hds : IsRun ds) (h : Ends rest) :
    powerDigits negative (ds ++ rest) = some (some (negative, ds), rest) := by
  obtain ⟨htake, hdrop⟩ := takeWhile_isDigit hds.2 fun c hc => (h c hc).1
  rw [powerDigits, htake, hdrop, if_neg hds.1]

theorem powerPart_append (power : Option (Bool × List Char))
    (hpower : ∀ negative ds, power = some (negative, ds) → IsRun ds) (h : Ends rest) :
    powerPart (powerChars power ++ rest) = some (power, rest) := by
  match power with
  | none =>
      cases rest with
      | nil => rfl
      | cons c rest =>
          obtain ⟨-, -, hsmall, hlarge⟩ := h c rfl
          exact if_neg (not_or.mpr ⟨hsmall, hlarge⟩)
  | some (true, ds) => exact powerDigits_append true (hpower _ _ rfl) h
  | some (false, ds) =>
      have hrun := hpower _ _ rfl
      have hread := powerDigits_append false hrun h
      cases ds with
      | nil => exact absurd rfl hrun.1
      | cons d ds =>
          -- a digit is no sign
          have hdigit : d.isDigit := hrun.2 d List.mem_cons_self
          show powerPart ('e' :: d :: (ds ++ rest)) = _
          simp only [powerPart, true_or, if_true]
          split
          case h_1 heq =>
            rw [(List.cons.inj heq).1] at hdigit
            exact absurd hdigit not_isDigit_plus
          case h_2 heq =>
            rw [(List.cons.inj heq).1] at hdigit
            exact absurd hdigit not_isDigit_minus
          case h_3 => exact hread

/-- A power of ten does not begin with a digit, nor with a point. -/
theorem head?_powerChars (power : Option (Bool × List Char)) (h : Ends rest) {c : Char}
    (hc : (powerChars power ++ rest).head? = some c) : ¬c.isDigit ∧ c ≠ '.' := by
  match power with
  | none => exact ⟨(h c hc).1, (h c hc).2.1⟩
  | some _ =>
      obtain rfl := Option.some.inj hc
      decide

theorem fractionPart_append {ds : List Char} (hds : ∀ c ∈ ds, c.isDigit)
    (h : ∀ c, rest.head? = some c → ¬c.isDigit ∧ c ≠ '.') :
    fractionPart (fractionChars ds ++ rest) = some (ds, rest) := by
  unfold fractionChars
  split
  case isTrue hnone =>
    subst hnone
    rw [List.nil_append]
    unfold fractionPart
    split
    case h_1 => exact absurd rfl (h '.' rfl).2
    case h_2 => rfl
  case isFalse hsome =>
    obtain ⟨htake, hdrop⟩ := takeWhile_isDigit hds fun c hc => (h c hc).1
    rw [List.cons_append, fractionPart, htake, hdrop, if_neg hsome]

/-- **A proper numeral is found again.** -/
theorem numeral_append {n : Numeral} (hn : n.Proper) (h : Ends rest) :
    numeral n.negative (n.whole ++ (fractionChars n.fraction ++ (powerChars n.power ++ rest)))
      = some (n, rest) := by
  have hpower := fun c => head?_powerChars n.power h (c := c)
  have hfraction (c : Char)
      (hc : (fractionChars n.fraction ++ (powerChars n.power ++ rest)).head? = some c) :
      ¬c.isDigit := by
    unfold fractionChars at hc
    split at hc
    case isTrue => exact (hpower c hc).1
    case isFalse =>
      obtain rfl := Option.some.inj hc
      exact not_isDigit_point
  obtain ⟨htake, hdrop⟩ := takeWhile_isDigit hn.whole.2 hfraction
  have hwhole : ¬(n.whole = [] ∨ (n.whole.head? = some '0' ∧ n.whole.length ≠ 1)) :=
    not_or.mpr ⟨hn.whole.1, fun ⟨hhead, hlong⟩ => hlong (hn.zero hhead)⟩
  simp only [numeral, htake, hdrop, if_neg hwhole, fractionPart_append hn.fraction hpower,
    powerPart_append n.power hn.power h, Option.bind_eq_bind, Option.bind_some, pure]

theorem chars_eq (n : Numeral) : n.chars = (if n.negative then ['-'] else []) ++
    (n.whole ++ (fractionChars n.fraction ++ powerChars n.power)) := by
  rw [← List.append_assoc, ← List.append_assoc]
  rfl

theorem isDigit_cases {c : Char} (h : c.isDigit) : c = '0' ∨ c = '1' ∨ c = '2' ∨ c = '3' ∨
    c = '4' ∨ c = '5' ∨ c = '6' ∨ c = '7' ∨ c = '8' ∨ c = '9' := by
  have hbounds := toNat_of_isDigit h
  simp only [← Char.toNat_inj]
  simp only [Char.reduceToNat]
  omega

/-- A digit begins a numeral. -/
theorem first_of_isDigit {c : Char} (hc : c.isDigit) {cs : List Char} {n : Numeral}
    (h : numeral false (c :: cs) = some (n, rest)) : first (c :: cs) = (number n, rest) := by
  rcases isDigit_cases hc with rfl | rfl | rfl | rfl | rfl | rfl | rfl | rfl | rfl | rfl <;>
  · simp only [first, h]
    rfl

/-- **A proper numeral is the token that its characters begin with.** -/
theorem first_numeral {n : Numeral} (hn : n.Proper) (h : Ends rest) :
    first (n.chars ++ rest) = (number n, rest) := by
  have hread := numeral_append hn h
  rw [chars_eq, List.append_assoc, List.append_assoc, List.append_assoc]
  cases hnegative : n.negative with
  | true =>
      rw [hnegative] at hread
      simp only [if_true, List.cons_append, List.nil_append, first, hread]
  | false =>
      rw [hnegative] at hread
      obtain ⟨hne, hdigits⟩ := hn.whole
      cases hwhole : n.whole with
      | nil => exact absurd hwhole hne
      | cons c ds =>
          rw [hwhole] at hread
          exact first_of_isDigit (hdigits c (hwhole ▸ List.mem_cons_self)) hread

end Json.Token
end Dispatch
