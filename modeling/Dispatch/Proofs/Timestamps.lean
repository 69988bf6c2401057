/-
Timestamps are read as they were written.

The written form is one of many that the reader takes, and the easiest: nothing stands between the
parts but their separators, each part has its usual width, and the offset is a single letter.  So
each reader stops just where the writer has stopped, and the parts are read one after the other,
each before whatever follows it.

A leap second is written as second 60.  It is read again if it is where leap seconds are, at the end
of a minute, and whatever the reader accepts is in this place: offsets are whole minutes.
-/
import Dispatch.Proofs.Calendar
import Dispatch.Proofs.Digits
import Dispatch.Time.Timestamp

namespace Dispatch.Time

open Dispatch.Text Dispatch.Decimal

namespace Instant

variable {n low high : Nat} {rest : List Char}

/-- The instant is in the calendar, and in a leap second only at the end of a minute. -/
def Regular (t : Instant) : Prop :=
  InRange t.seconds ∧ t.nanos < 2 * nanosPerSecond ∧ (t.isLeap → t.seconds % 60 = 59)

instance (t : Instant) : Decidable t.Regular := inferInstanceAs (Decidable (_ ∧ _ ∧ _))

/-! ### The parts -/

theorem not_isBlankChar_of_isDigit {c : Char} (h : c.isDigit) : isBlankChar c = false := by
  have hbounds := toNat_of_isDigit h
  simp [isBlankChar, blankRanges]
  omega

/-- Digits are not skipped. -/
theorem skipBlanks_digits {ds : List Char} (hds : IsRun ds) (rest : List Char) :
    skipBlanks (ds ++ rest) = ds ++ rest := by
  obtain ⟨hne, hdigits⟩ := hds
  cases ds with
  | nil => exact absurd rfl hne
  | cons d ds =>
      have hd := not_isBlankChar_of_isDigit (hdigits d List.mem_cons_self)
      rw [skipBlanks, List.cons_append, List.dropWhile_cons, hd]
      rfl

theorem skipBlanks_cons {c : Char} (hc : isBlankChar c = false) (rest : List Char) :
    skipBlanks (c :: rest) = c :: rest := by
  rw [skipBlanks, List.dropWhile_cons, hc]
  rfl

theorem separator_digits {c : Char} (hc : isBlankChar c = false) {ds : List Char} (hds : IsRun ds)
    (rest : List Char) : separator c (c :: (ds ++ rest)) = some (ds ++ rest) := by
  rw [separator, skipBlanks_cons hc]
  simp only [if_true, skipBlanks_digits hds]

/-- A part in two digits. -/
theorem readPart_paddedDigits (hn : n < 100) (hlow : low ≤ n) (hhigh : n ≤ high)
    (rest : List Char) : readPart low high (paddedDigits 2 n ++ rest) = some (n, rest) := by
  rw [readPart, skipBlanks_digits (isRun_paddedDigits 2 n),
    takeDigits_paddedDigits (by decide) hn rest (by decide)]
  exact if_pos ⟨hlow, hhigh⟩

/-- A year without a sign has four digits, and one with a sign has as many as it needs. -/
theorem readYear_yearText (year : Int) (rest : List Char) :
    readYear (Date.yearText year ++ '-' :: rest) = some (year, '-' :: rest) := by
  -- behind a sign all digits are taken
  have signed : takeDigits 1 (paddedDigits 4 year.natAbs ++ '-' :: rest).length
      (paddedDigits 4 year.natAbs ++ '-' :: rest) = some (year.natAbs, '-' :: rest) := by
    obtain ⟨hne, hdigits⟩ := isRun_paddedDigits 4 year.natAbs
    have hends : ∀ c, ('-' :: rest).head? = some c → ¬c.isDigit :=
      fun c hc => Option.some.inj hc ▸ not_isDigit_minus
    rw [takeDigits_append hdigits (List.length_pos_iff.mpr hne) (by simp) (.inr hends),
      natOfDigits_paddedDigits]
  unfold Date.yearText
  split
  case isTrue hsmall =>
    have hrun := isRun_paddedDigits 4 year.toNat
    have hread : takeDigits 1 4 (paddedDigits 4 year.toNat ++ '-' :: rest) =
        some (year.toNat, '-' :: rest) :=
      takeDigits_paddedDigits (by decide) (by omega) _ (by decide)
    rw [readYear, skipBlanks_digits hrun]
    cases hdigits : paddedDigits 4 year.toNat with
    | nil => exact absurd hdigits hrun.1
    | cons d ds =>
        have hdigit : d.isDigit := hrun.2 d (hdigits ▸ List.mem_cons_self)
        rw [hdigits] at hread
        split
        case h_1 heq => exact absurd ((List.cons.inj heq).1 ▸ hdigit) not_isDigit_minus
        case h_2 heq => exact absurd ((List.cons.inj heq).1 ▸ hdigit) not_isDigit_plus
        case h_3 => simp only [hread, Option.map_some, Int.toNat_of_nonneg hsmall.1]
  case isFalse hlarge =>
    split
    case isTrue hnegative =>
      have hvalue : -(year.natAbs : Int) = year := by omega
      rw [List.cons_append, readYear, skipBlanks_cons (by decide)]
      simp only [signed, Option.map_some, hvalue]
    case isFalse hpositive =>
      have hvalue : (year.natAbs : Int) = year := by omega
      rw [List.cons_append, readYear, skipBlanks_cons (by decide)]
      simp only [signed, Option.map_some, hvalue]

theorem readDate_text {d : Date} (hd : d.IsValid) (rest : List Char) :
    readDate (d.text ++ rest) = some (d, rest) := by
  obtain ⟨hfirst, hlast⟩ := hd.month
  have hday := hd.day_le
  have hminus : isBlankChar '-' = false := by decide
  simp only [readDate, Date.text, List.append_assoc, List.cons_append, readYear_yearText,
    separator_digits hminus (isRun_paddedDigits 2 _),
    readPart_paddedDigits (show d.month < 100 by omega) hfirst hlast,
    readPart_paddedDigits (show d.day < 100 by omega) hd.1 hday, Option.bind_eq_bind,
    Option.bind_some, if_pos hd]

/-- A fraction of at most nine digits. -/
theorem readFraction_digits {ds : List Char} (hds : IsRun ds) (hmost : ds.length ≤ 9)
    (hrest : ∀ c, rest.head? = some c → ¬c.isDigit) :
    readFraction ('.' :: (ds ++ rest)) = some (natOfDigits ds * 10 ^ (9 - ds.length), rest) := by
  rw [readFraction, takeWhile_take_append hds.2 hmost (.inr hrest), if_neg hds.1,
    (takeWhile_isDigit hds.2 hrest).2]

theorem readFraction_fractionText {nanos : Nat} (hnanos : nanos < nanosPerSecond) :
    readFraction (fractionText nanos ++ ['Z']) = some (nanos, ['Z']) := by
  have padded {width n : Nat} (hwidth : 0 < width) (hmost : width ≤ 9) (hn : n < 10 ^ width) :
      readFraction ('.' :: (paddedDigits width n ++ ['Z'])) =
        some (n * 10 ^ (9 - width), ['Z']) := by
    have hlength := length_paddedDigits hwidth hn
    have hZ : ∀ c, ['Z'].head? = some c → ¬c.isDigit := by
      rintro c ⟨⟩
      decide
    rw [readFraction_digits (isRun_paddedDigits width n) (by omega) hZ, natOfDigits_paddedDigits,
      hlength]
  unfold nanosPerSecond at hnanos
  unfold fractionText
  split
  case isTrue hzero =>
    rw [hzero]
    rfl
  case isFalse =>
    split
    case isTrue hthree =>
      have hvalue : nanos / 1000000 * 10 ^ 6 = nanos := by omega
      rw [List.cons_append, padded (by decide) (by decide) (by omega), hvalue]
    case isFalse =>
      split
      case isTrue hsix =>
        have hvalue : nanos / 1000 * 10 ^ 3 = nanos := by omega
        rw [List.cons_append, padded (by decide) (by decide) (by omega), hvalue]
      case isFalse =>
        have hvalue : nanos * 10 ^ 0 = nanos := Nat.mul_one nanos
        rw [List.cons_append, padded (by decide) (by decide) (by omega), hvalue]

/-! ### The whole -/

/-- The parts that are found make the instant. -/
theorem read?_of_parts {cs cs₁ cs₂ cs₃ cs₄ cs₅ cs₆ cs₇ cs₈ : List Char} {date : Date}
    {hour minute second fraction : Nat} {offset : Int} (hdate : readDate cs = some (date, cs₁))
    (hmark : timeMark cs₁ = some cs₂) (hhour : readPart 0 23 cs₂ = some (hour, cs₃))
    (hcolon : separator ':' cs₃ = some cs₄) (hminute : readPart 0 59 cs₄ = some (minute, cs₅))
    (hcolon' : separator ':' cs₅ = some cs₆) (hsecond : readPart 0 60 cs₆ = some (second, cs₇))
    (hfraction : readFraction cs₇ = some (fraction, cs₈))
    (hoffset : readOffset (skipBlanks cs₈) = some (offset, rest)) (leap : Nat)
    (hleap : leap = if second = 60 then 1 else 0) (written : Int)
    (hwritten : written =
      date.dayNumber * 86400 + hour * 3600 + minute * 60 + (second - leap : Nat)) :
    read? cs = if skipBlanks rest = [] ∧ offset.natAbs < 86400 ∧ InRange written ∧
        InRange (written - offset) then some ⟨written - offset, fraction + leap * nanosPerSecond⟩
      else none := by
  simp only [read?, hdate, hmark, hhour, hcolon, hminute, hcolon', hsecond, hfraction, hoffset,
    hleap, hwritten, Option.bind_eq_bind, Option.bind_some]

/-- **An instant is read as it was written.** -/
theorem read?_chars {t : Instant} (h : t.Regular) : read? t.chars = some t := by
  obtain ⟨hrange, hnanos, hregular⟩ := h
  have hdate := Date.isValid_ofDayNumber (t.seconds / 86400)
  have hnumber := Date.dayNumber_ofDayNumber (t.seconds / 86400)
  generalize hday : Date.ofDayNumber (t.seconds / 86400) = date at hdate hnumber
  generalize hsecond : (t.seconds % 86400).toNat = second
  -- one second more is written in a leap second, and 10⁹ nanoseconds less
  obtain ⟨leap, hwritten, hcases⟩ : ∃ leap : Nat, (if t.isLeap then 1 else 0) = leap ∧
      (leap = 0 ∧ t.nanos < nanosPerSecond ∨
        leap = 1 ∧ nanosPerSecond ≤ t.nanos ∧ second % 60 = 59) := by
    cases hleap : t.isLeap with
    | false => exact ⟨0, rfl, .inl ⟨rfl, Nat.lt_of_not_le (of_decide_eq_false hleap)⟩⟩
    | true =>
        have hlast := hregular hleap
        exact ⟨1, rfl, .inr ⟨rfl, of_decide_eq_true hleap, by omega⟩⟩
  obtain ⟨fraction, hfraction, hbound, hsum⟩ : ∃ fraction,
      t.nanos - leap * nanosPerSecond = fraction ∧ fraction < nanosPerSecond ∧
        fraction + leap * nanosPerSecond = t.nanos := by
    unfold nanosPerSecond at *
    exact ⟨_, rfl, by omega, by omega⟩
  have hleap : leap = if second % 60 + leap = 60 then 1 else 0 := by
    split <;> omega
  have hvalue : t.seconds = date.dayNumber * 86400 + (second / 3600 : Nat) * 3600 +
      (second / 60 % 60 : Nat) * 60 + (second % 60 + leap - leap : Nat) := by
    omega
  have htext : t.chars = date.text ++ ('T' :: (paddedDigits 2 (second / 3600) ++
      (':' :: (paddedDigits 2 (second / 60 % 60) ++ (':' :: (paddedDigits 2 (second % 60 + leap) ++
        (fractionText fraction ++ ['Z']))))))) := by
    simp only [chars, hday, hsecond, hwritten, hfraction, List.append_assoc, List.cons_append]
  have hcolon : isBlankChar ':' = false := by decide
  rw [htext, read?_of_parts (readDate_text hdate _) rfl
    (readPart_paddedDigits (by omega) (Nat.zero_le _) (by omega) _)
    (separator_digits hcolon (isRun_paddedDigits 2 _) _)
    (readPart_paddedDigits (by omega) (Nat.zero_le _) (by omega) _)
    (separator_digits hcolon (isRun_paddedDigits 2 _) _)
    (readPart_paddedDigits (by omega) (Nat.zero_le _) (by omega) _)
    (readFraction_fractionText hbound) rfl leap hleap t.seconds hvalue, hsum, Int.sub_zero]
  exact if_pos ⟨rfl, by decide, hrange, hrange⟩

/-- The second sixty of a minute is written, and read. -/
example : chars ⟨1483228799, 1000000000⟩ = "2016-12-31T23:59:60Z".toList ∧
    read? "2016-12-31T23:59:60Z".toList = some ⟨1483228799, 1000000000⟩ := by decide

theorem ofText?_text {t : Instant} (h : t.Regular) : ofText? t.text = some t := by
  rw [ofText?, text, String.toList_ofList]
  exact read?_chars h

/-! ### What the reader accepts -/

theorem offsetSize_mod {cs : List Char} {size : Nat}
    (h : readOffsetSize cs = some (size, rest)) : size % 60 = 0 := by
  simp only [readOffsetSize, Option.bind_eq_bind, Option.bind_eq_some_iff] at h
  obtain ⟨⟨hours, _⟩, -, ⟨minutes, _⟩, -, h⟩ := h
  split at h
  case isTrue =>
    obtain ⟨rfl, -⟩ := Prod.mk.inj (Option.some.inj h)
    omega
  case isFalse => cases h

/-- Offsets are whole minutes. -/
theorem offset_mod {cs : List Char} {offset : Int} (h : readOffset cs = some (offset, rest)) :
    offset % 60 = 0 := by
  unfold readOffset at h
  split at h
  case h_1 | h_2 =>
    obtain ⟨rfl, -⟩ := Prod.mk.inj (Option.some.inj h)
    rfl
  case h_3 | h_4 | h_5 =>
    obtain ⟨⟨size, _⟩, hsize, h⟩ := Option.map_eq_some_iff.mp h
    obtain ⟨rfl, -⟩ := Prod.mk.inj h
    have := offsetSize_mod hsize
    omega
  case h_6 =>
    split at h
    case isTrue =>
      obtain ⟨rfl, -⟩ := Prod.mk.inj (Option.some.inj h)
      rfl
    case isFalse => cases h
  case h_7 => cases h

/-- A fraction is less than a second. -/
theorem fraction_lt {cs : List Char} (h : readFraction cs = some (n, rest)) :
    n < nanosPerSecond := by
  unfold readFraction at h
  split at h
  case h_1 digits =>
    dsimp only at h
    split at h
    case isTrue => cases h
    case isFalse =>
      obtain ⟨rfl, -⟩ := Prod.mk.inj (Option.some.inj h)
      generalize hds : (digits.take 9).takeWhile Char.isDigit = ds
      have hdigits : ∀ c ∈ ds, c.isDigit := fun c hc => by
        rw [← hds] at hc
        exact List.all_eq_true.mp List.all_takeWhile c hc
      have hlength : ds.length ≤ 9 := by
        have := (List.takeWhile_sublist Char.isDigit (l := digits.take 9)).length_le
        rw [hds, List.length_take] at this
        omega
      calc natOfDigits ds * 10 ^ (9 - ds.length)
          < 10 ^ ds.length * 10 ^ (9 - ds.length) :=
            Nat.mul_lt_mul_of_pos_right (natOfDigits_lt hdigits) (Nat.pow_pos (by decide))
        _ = 10 ^ 9 := by rw [← Nat.pow_add, Nat.add_sub_cancel' hlength]
  case h_2 =>
    obtain ⟨rfl, -⟩ := Prod.mk.inj (Option.some.inj h)
    decide

theorem le_of_readPart {cs : List Char} (h : readPart low high cs = some (n, rest)) :
    n ≤ high := by
  unfold readPart at h
  split at h
  case h_1 =>
    split at h
    case isTrue hbounds =>
      obtain ⟨rfl, -⟩ := Prod.mk.inj (Option.some.inj h)
      exact hbounds.2
    case isFalse => cases h
  case h_2 => cases h

/-- **Whatever is read is regular.** -/
theorem regular_of_read? {cs : List Char} {t : Instant} (h : read? cs = some t) : t.Regular := by
  simp only [read?, Option.bind_eq_bind, Option.bind_eq_some_iff] at h
  obtain ⟨⟨date, _⟩, -, _, -, ⟨hour, _⟩, -, _, -, ⟨minute, _⟩, -, _, -, ⟨second, _⟩, hsecond,
    ⟨fraction, _⟩, hfraction, ⟨offset, _⟩, hoffset, h⟩ := h
  have hlast := le_of_readPart hsecond
  have hbound := fraction_lt hfraction
  have hminutes := offset_mod hoffset
  dsimp only at hlast hbound hminutes h
  -- the second 60 is the leap second after 59
  have hleap : ∃ leap : Nat, (if second = 60 then 1 else 0) = leap ∧
      (leap = 0 ∨ leap = 1 ∧ second = 60) := by
    split
    case isTrue hlate => exact ⟨1, rfl, .inr ⟨rfl, hlate⟩⟩
    case isFalse => exact ⟨0, rfl, .inl rfl⟩
  obtain ⟨leap, hleap, hcases⟩ := hleap
  rw [hleap] at h
  split at h
  case isFalse => cases h
  case isTrue hconds =>
    obtain rfl := Option.some.inj h
    unfold nanosPerSecond at hbound
    refine ⟨hconds.2.2.2, ?_, fun hlate => ?_⟩
    · unfold nanosPerSecond
      dsimp only
      omega
    · rw [isLeap, decide_eq_true_eq, nanosPerSecond] at hlate
      dsimp only at hlate ⊢
      omega

/-- The regular instants are the ones that are read as they were written. -/
theorem ofText?_text_iff {t : Instant} : ofText? t.text = some t ↔ t.Regular :=
  ⟨regular_of_read?, ofText?_text⟩

end Instant
end Dispatch.Time
