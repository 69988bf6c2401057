/-
Which texts are numbers, and which numbers they are.

The readers look at a text from the left and stop at the first character that does not fit.  What
they accept is easier to say as a form: a whole number is a run of digits that may have a plus sign
in front, a number with a fraction is a sign, an amount and a power of ten.  Each form is written
down here without regard to how it is read, and reading succeeds on exactly the texts of the form,
with the number that the form stands for.

A whole number is refused at the first digit that leads past the bound.  Nothing is lost by looking
so early: further digits only make a number larger.
-/
import Dispatch.Decimal.Reading

namespace Dispatch.Decimal

open Dispatch.Text

/-- A run of digits: there is one at least, and nothing else. -/
def IsRun (ds : List Char) : Prop := ds ≠ [] ∧ ∀ c ∈ ds, c.isDigit

theorem toNat_of_isDigit {c : Char} (h : c.isDigit) : 48 ≤ c.toNat ∧ c.toNat ≤ 57 := by
  rw [Char.isDigit, Bool.and_eq_true, decide_eq_true_eq, decide_eq_true_eq] at h
  exact h

/-! ### Whole numbers -/

/-- The text is a whole number of at most `most`, and the number is `n`. -/
def WritesWhole (most : Nat) (s : String) (n : Nat) : Prop :=
  ∃ sign ds, (sign = [] ∨ sign = ['+']) ∧ IsRun ds ∧ s.toList = sign ++ ds ∧ natOfDigits ds = n ∧
    n ≤ most

/-- The number that is reached from `n` by writing digits after it. -/
def writtenAfter (n : Nat) (ds : List Char) : Nat := ds.foldl (fun n c => 10 * n + digitValue c) n

theorem le_writtenAfter (n : Nat) (ds : List Char) : n ≤ writtenAfter n ds := by
  induction ds generalizing n with
  | nil => exact Nat.le_refl n
  | cons c ds ih =>
      have := ih (10 * n + digitValue c)
      simp only [writtenAfter, List.foldl_cons] at this ⊢
      omega

/-- Digits are read as long as nothing else comes and the number stays within the bound. -/
theorem readDigits_eq_ok {most k : Nat} (n : Nat) (cs : List Char) (hn : n ≤ most) :
    readDigits most n cs = .ok k ↔ (∀ c ∈ cs, c.isDigit) ∧ writtenAfter n cs = k ∧ k ≤ most := by
  induction cs generalizing n with
  | nil =>
      simp only [readDigits, Except.ok.injEq, List.not_mem_nil, false_imp_iff, implies_true,
        true_and, writtenAfter, List.foldl_nil]
      exact ⟨fun h => ⟨h, h ▸ hn⟩, And.left⟩
  | cons c cs ih =>
      rw [readDigits]
      by_cases hdigit : c.isDigit
      · rw [if_pos hdigit]
        by_cases hover : most < 10 * n + digitValue c
        · -- the digits that follow do not lead back below the bound
          have hle := le_writtenAfter (10 * n + digitValue c) cs
          refine iff_of_false (by simp [hover]) fun ⟨_, hk, hmost⟩ => ?_
          simp only [writtenAfter, List.foldl_cons] at hk hle
          omega
        · simp only [hover, if_false, List.forall_mem_cons, hdigit, true_and]
          exact ih _ (by omega)
      · rw [if_neg hdigit]
        exact iff_of_false nofun fun ⟨h, _⟩ => hdigit (h c List.mem_cons_self)

theorem not_isDigit_plus : ¬('+').isDigit := by decide

/-- **A whole number is read off exactly the texts that are one.** -/
theorem readWhole_eq_ok {most n : Nat} {s : String} :
    readWhole most s = .ok n ↔ WritesWhole most s n := by
  have run {ds : List Char} (hds : ds ≠ []) : readDigits most 0 ds = .ok n ↔
      IsRun ds ∧ natOfDigits ds = n ∧ n ≤ most := by
    rw [readDigits_eq_ok 0 ds (Nat.zero_le _), IsRun]
    exact ⟨fun ⟨h, hn, hmost⟩ => ⟨⟨hds, h⟩, hn, hmost⟩, fun ⟨⟨_, h⟩, hn, hmost⟩ => ⟨h, hn, hmost⟩⟩
  rw [readWhole, WritesWhole]
  split
  case h_1 hs =>
    refine iff_of_false nofun fun ⟨sign, ds, _, hds, h, _⟩ => ?_
    exact hds.1 (List.append_eq_nil_iff.mp (h.symm.trans hs)).2
  case h_2 hs =>
    refine iff_of_false nofun fun ⟨sign, ds, hsign, hds, h, _⟩ => ?_
    rw [hs] at h
    obtain rfl | rfl := hsign
    · rw [List.nil_append] at h
      exact not_isDigit_plus (hds.2 _ (h ▸ List.mem_cons_self))
    · exact hds.1 (List.cons.inj h).2.symm
  case h_3 ds hne hs =>
    have hds : ds ≠ [] := by
      rintro rfl
      exact hne rfl
    rw [run hds]
    constructor
    · rintro ⟨hrun, hn, hmost⟩
      exact ⟨['+'], ds, .inr rfl, hrun, hs, hn, hmost⟩
    · rintro ⟨sign, ds', hsign, hrun, h, hn, hmost⟩
      rw [hs] at h
      obtain rfl | rfl := hsign
      · rw [List.nil_append] at h
        exact absurd (hrun.2 _ (h ▸ List.mem_cons_self)) not_isDigit_plus
      · obtain rfl := (List.cons.inj h).2
        exact ⟨hrun, hn, hmost⟩
  case h_4 hnil hplus hsigned =>
    rw [run hnil]
    constructor
    · rintro ⟨hrun, hn, hmost⟩
      exact ⟨[], _, .inl rfl, hrun, rfl, hn, hmost⟩
    · rintro ⟨sign, ds', hsign, hrun, h, hn, hmost⟩
      obtain rfl | rfl := hsign
      · rw [List.nil_append] at h
        rw [h]
        exact ⟨hrun, hn, hmost⟩
      · exact absurd h (hsigned ds')

/-! ### Numbers with a fraction -/

/-- A run of digits is over where something else begins. -/
theorem takeWhile_isDigit {ds rest : List Char} (hds : ∀ c ∈ ds, c.isDigit)
    (hrest : ∀ c, rest.head? = some c → ¬c.isDigit) :
    (ds ++ rest).takeWhile Char.isDigit = ds ∧ (ds ++ rest).dropWhile Char.isDigit = rest := by
  rw [List.takeWhile_append_of_pos hds, List.dropWhile_append_of_pos hds]
  cases rest with
  | nil => simp
  | cons c rest => simp [hrest c rfl]

/-- The end of a number: nothing, or a power of ten. -/
inductive WritesPower : List Char → Int → Prop
  | absent : WritesPower [] 0
  | plain {mark : Char} {ds : List Char} : mark = 'e' ∨ mark = 'E' → IsRun ds →
      WritesPower (mark :: ds) (natOfDigits ds)
  | raised {mark : Char} {ds : List Char} : mark = 'e' ∨ mark = 'E' → IsRun ds →
      WritesPower (mark :: '+' :: ds) (natOfDigits ds)
  | lowered {mark : Char} {ds : List Char} : mark = 'e' ∨ mark = 'E' → IsRun ds →
      WritesPower (mark :: '-' :: ds) (-natOfDigits ds)

/-- An amount: digits, with a point among them or without, and a power of ten. -/
inductive WritesAmount : List Char → Float → Prop
  | whole {ds power : List Char} {e : Int} : IsRun ds → WritesPower power e →
      WritesAmount (ds ++ power) (nearestFloat (natOfDigits ds) e)
  | pointed {whole fraction power : List Char} {e : Int} : IsRun (whole ++ fraction) →
      WritesPower power e → WritesAmount (whole ++ '.' :: (fraction ++ power))
        (nearestFloat (natOfDigits (whole ++ fraction)) (e - fraction.length))

/-- The name of a number that no digits write, in letters of either case. -/
inductive WritesName (cs : List Char) : Float → Prop
  | infinite : String.ofList (cs.map Char.toLower) = "inf" ∨
      String.ofList (cs.map Char.toLower) = "infinity" → WritesName cs (1 / 0)
  | undefined : String.ofList (cs.map Char.toLower) = "nan" → WritesName cs (0 / 0)

/-- A number without its sign. -/
def WritesUnsigned (cs : List Char) (x : Float) : Prop := WritesAmount cs x ∨ WritesName cs x

/-- A number with or without a fraction. -/
inductive WritesFloat : List Char → Float → Prop
  | plain {cs : List Char} {x : Float} : WritesUnsigned cs x → WritesFloat cs x
  | positive {cs : List Char} {x : Float} : WritesUnsigned cs x → WritesFloat ('+' :: cs) x
  | negative {cs : List Char} {x : Float} : WritesUnsigned cs x → WritesFloat ('-' :: cs) x.neg

theorem all_isDigit {ds : List Char} : ds.all Char.isDigit = true ↔ ∀ c ∈ ds, c.isDigit :=
  List.all_eq_true

theorem not_isDigit_minus : ¬('-').isDigit := by decide

theorem not_isDigit_point : ¬('.').isDigit := by decide

/-- What is said of a run of digits is said of nothing else. -/
theorem unless_run {ds : List Char} {v e : Int} :
    (if ds = [] ∨ !ds.all Char.isDigit then none else some v) = some e ↔ IsRun ds ∧ v = e := by
  by_cases hds : ds = [] ∨ (!ds.all Char.isDigit) = true
  · rw [if_pos hds]
    refine iff_of_false nofun fun ⟨hrun, _⟩ => ?_
    rw [Bool.not_eq_true', ← Bool.not_eq_true, all_isDigit] at hds
    exact hds.elim hrun.1 (absurd hrun.2)
  · rw [if_neg hds, Option.some.injEq]
    rw [not_or, Bool.not_eq_true', Bool.not_eq_false, all_isDigit] at hds
    exact ⟨fun h => ⟨hds, h⟩, And.right⟩

theorem readPower_eq_some {cs : List Char} {e : Int} :
    readPower cs = some e ↔ WritesPower cs e := by
  cases cs with
  | nil =>
      refine ⟨fun h => Option.some.inj h ▸ .absent, fun h => ?_⟩
      cases h
      rfl
  | cons mark rest =>
      unfold readPower
      by_cases hmark : mark = 'e' ∨ mark = 'E'
      · simp only [if_pos hmark]
        split
        case h_1 ds =>
          refine unless_run.trans ⟨fun ⟨hrun, he⟩ => he ▸ .raised hmark hrun, fun h => ?_⟩
          cases h with
          | plain _ hrun => exact absurd (hrun.2 _ List.mem_cons_self) not_isDigit_plus
          | raised _ hrun => exact ⟨hrun, rfl⟩
        case h_2 ds =>
          refine unless_run.trans ⟨fun ⟨hrun, he⟩ => he ▸ .lowered hmark hrun, fun h => ?_⟩
          cases h with
          | plain _ hrun => exact absurd (hrun.2 _ List.mem_cons_self) not_isDigit_minus
          | lowered _ hrun => exact ⟨hrun, rfl⟩
        case h_3 hplus hminus =>
          refine unless_run.trans ⟨fun ⟨hrun, he⟩ => he ▸ .plain hmark hrun, fun h => ?_⟩
          cases h with
          | plain _ hrun => exact ⟨hrun, rfl⟩
          | raised _ _ => exact absurd rfl (hplus _)
          | lowered _ _ => exact absurd rfl (hminus _)
      · simp only [if_neg hmark]
        refine iff_of_false nofun fun h => ?_
        cases h with
        | plain h _ | raised h _ | lowered h _ => exact hmark h

/-- A power of ten does not begin with a digit, nor with a point. -/
theorem WritesPower.head {cs : List Char} {e : Int} (h : WritesPower cs e) {c : Char}
    (hc : cs.head? = some c) : ¬c.isDigit ∧ c ≠ '.' := by
  cases h with
  | absent => cases hc
  | plain hmark _ | raised hmark _ | lowered hmark _ =>
      obtain rfl := Option.some.inj hc
      rcases hmark with rfl | rfl <;> decide

/-- Every text is a run of digits, perhaps an empty one, and what follows it. -/
theorem exists_run (cs : List Char) : ∃ ds rest, cs = ds ++ rest ∧ (∀ c ∈ ds, c.isDigit) ∧
    ∀ c, rest.head? = some c → ¬c.isDigit := by
  induction cs with
  | nil => exact ⟨[], [], rfl, nofun, nofun⟩
  | cons c cs ih =>
      by_cases hdigit : c.isDigit
      · obtain ⟨ds, rest, rfl, hds, hrest⟩ := ih
        exact ⟨c :: ds, rest, rfl, List.forall_mem_cons.mpr ⟨hdigit, hds⟩, hrest⟩
      · refine ⟨[], c :: cs, rfl, nofun, fun d hd => ?_⟩
        obtain rfl := Option.some.inj hd
        exact hdigit

/-- An amount is read off exactly the texts that are one. -/
theorem readMagnitude_eq_some {cs : List Char} {x : Float} :
    readMagnitude cs = some x ↔ WritesAmount cs x := by
  constructor
  · intro h
    obtain ⟨whole, rest, rfl, hwhole, hrest⟩ := exists_run cs
    obtain ⟨htake, hdrop⟩ := takeWhile_isDigit hwhole hrest
    simp only [readMagnitude, htake, hdrop] at h
    split at h
    case h_1 rest =>
      obtain ⟨fraction, power, rfl, hfraction, hpower⟩ := exists_run rest
      obtain ⟨htake, hdrop⟩ := takeWhile_isDigit hfraction hpower
      simp only [htake, hdrop] at h
      split at h
      case isTrue => cases h
      case isFalse hne =>
        obtain ⟨e, he, rfl⟩ := Option.map_eq_some_iff.mp h
        refine .pointed ⟨hne, fun c hc => ?_⟩ (readPower_eq_some.mp he)
        exact (List.mem_append.mp hc).elim (hwhole c) (hfraction c)
    case h_2 =>
      simp only [List.append_nil] at h
      split at h
      case isTrue => cases h
      case isFalse hne =>
        obtain ⟨e, he, rfl⟩ := Option.map_eq_some_iff.mp h
        rw [List.length_nil, Int.natCast_zero, Int.sub_zero]
        exact .whole ⟨hne, hwhole⟩ (readPower_eq_some.mp he)
  · intro h
    cases h with
    | whole hrun hpower =>
        obtain ⟨htake, hdrop⟩ := takeWhile_isDigit hrun.2 fun c hc => (hpower.head hc).1
        simp only [readMagnitude, htake, hdrop]
        split
        case h_1 => exact absurd rfl (hpower.head rfl).2
        case h_2 =>
          rw [List.append_nil, if_neg hrun.1, readPower_eq_some.mpr hpower]
          simp
    | @pointed whole fraction power e hrun hpower =>
        have hwhole : ∀ c ∈ whole, c.isDigit := fun c hc => hrun.2 c (List.mem_append_left _ hc)
        have hpoint : ∀ c, ('.' :: (fraction ++ power)).head? = some c → ¬c.isDigit :=
          fun c hc => Option.some.inj hc ▸ not_isDigit_point
        obtain ⟨htake, hdrop⟩ := takeWhile_isDigit hwhole hpoint
        obtain ⟨htakeFraction, hdropFraction⟩ := takeWhile_isDigit
          (fun c hc => hrun.2 c (List.mem_append_right _ hc)) fun c hc => (hpower.head hc).1
        simp only [readMagnitude, htake, hdrop, htakeFraction, hdropFraction, if_neg hrun.1,
          readPower_eq_some.mpr hpower, Option.map_some]

theorem readName_eq_some {cs : List Char} {x : Float} : readName cs = some x ↔ WritesName cs x := by
  unfold readName
  constructor
  · intro h
    simp only at h
    split at h
    case isTrue hword =>
      obtain rfl := Option.some.inj h
      exact .infinite hword
    case isFalse =>
      split at h
      case isTrue hword =>
        obtain rfl := Option.some.inj h
        exact .undefined hword
      case isFalse => cases h
  · intro h
    cases h with
    | infinite hword => simp only [if_pos hword]
    | undefined hword => simp [hword]

/-- A name begins with a letter that begins no amount. -/
theorem WritesName.head {cs : List Char} {x : Float} (h : WritesName cs x) :
    ∃ c rest, cs = c :: rest ∧ (c.toLower = 'i' ∨ c.toLower = 'n') := by
  have first {word : String} {d : Char} (hword : String.ofList (cs.map Char.toLower) = word)
      (hd : word.toList.head? = some d) : ∃ c rest, cs = c :: rest ∧ c.toLower = d := by
    rw [← hword, String.toList_ofList] at hd
    cases cs with
    | nil => cases hd
    | cons c rest => exact ⟨c, rest, rfl, Option.some.inj hd⟩
  cases h with
  | infinite hword =>
      obtain ⟨c, rest, hcs, hc⟩ := hword.elim (first · (d := 'i') rfl) (first · (d := 'i') rfl)
      exact ⟨c, rest, hcs, .inl hc⟩
  | undefined hword =>
      obtain ⟨c, rest, hcs, hc⟩ := first hword (d := 'n') rfl
      exact ⟨c, rest, hcs, .inr hc⟩

/-- A digit has no other case. -/
theorem toLower_of_isDigit {c : Char} (h : c.isDigit) : c.toLower = c := by
  rw [Char.isDigit, Bool.and_eq_true, decide_eq_true_eq, decide_eq_true_eq] at h
  exact dif_neg fun ⟨hc, _⟩ => absurd (UInt32.le_trans hc h.2) (by decide)

/-- An amount begins with a digit or with its point. -/
theorem WritesAmount.head {cs : List Char} {x : Float} (h : WritesAmount cs x) :
    ∃ c rest, cs = c :: rest ∧ (c.isDigit ∨ c = '.') := by
  cases h with
  | @whole ds _ _ hrun _ =>
      cases ds with
      | nil => exact absurd rfl hrun.1
      | cons d ds => exact ⟨d, _, rfl, .inl (hrun.2 d List.mem_cons_self)⟩
  | @pointed whole _ _ _ hrun _ =>
      cases whole with
      | nil => exact ⟨'.', _, rfl, .inr rfl⟩
      | cons d ds => exact ⟨d, _, rfl, .inl (hrun.2 d List.mem_cons_self)⟩

/-- A name is not an amount. -/
theorem WritesName.not_writesAmount {cs : List Char} {x y : Float} (h : WritesName cs x) :
    ¬WritesAmount cs y := by
  intro hamount
  obtain ⟨c, rest, rfl, hletter⟩ := h.head
  obtain ⟨d, _, hd, hfirst⟩ := hamount.head
  obtain rfl := (List.cons.inj hd).1
  rcases hfirst with hdigit | rfl
  · rw [toLower_of_isDigit hdigit] at hletter
    rcases hletter with rfl | rfl <;> cases hdigit
  · revert hletter
    decide

/-- Without its sign a number begins with none. -/
theorem WritesUnsigned.head {cs : List Char} {x : Float} (h : WritesUnsigned cs x) :
    ∃ c rest, cs = c :: rest ∧ c ≠ '+' ∧ c ≠ '-' := by
  rcases h with hamount | hname
  · obtain ⟨c, rest, rfl, hfirst⟩ := hamount.head
    refine ⟨c, rest, rfl, ?_, ?_⟩ <;>
    · rintro rfl
      revert hfirst
      decide
  · obtain ⟨c, rest, rfl, hletter⟩ := hname.head
    refine ⟨c, rest, rfl, ?_, ?_⟩ <;>
    · rintro rfl
      revert hletter
      decide

theorem readUnsigned_eq_some {cs : List Char} {x : Float} :
    (readMagnitude cs <|> readName cs) = some x ↔ WritesUnsigned cs x := by
  rw [WritesUnsigned, ← readMagnitude_eq_some, ← readName_eq_some]
  cases hamount : readMagnitude cs with
  | none => simp
  | some y =>
      refine ⟨.inl, fun h => h.elim id fun hname => ?_⟩
      exact absurd (readMagnitude_eq_some.mp hamount) (readName_eq_some.mp hname).not_writesAmount

/-- **A number with a fraction is read off exactly the texts that are one.** -/
theorem readFloat_eq_ok {s : String} {x : Float} :
    readFloat s = .ok x ↔ WritesFloat s.toList x := by
  constructor
  · intro h
    unfold readFloat at h
    -- whatever the sign is, the rest was legible
    have legible (cs : List Char) (hread : (readMagnitude cs <|> readName cs) ≠ none) :
        ∃ y, (readMagnitude cs <|> readName cs) = some y ∧ WritesUnsigned cs y := by
      obtain ⟨y, hy⟩ := Option.ne_none_iff_exists'.mp hread
      exact ⟨y, hy, readUnsigned_eq_some.mp hy⟩
    split at h
    case h_1 => cases h
    case h_2 cs hs =>
      obtain ⟨y, hread, hy⟩ := legible cs fun hread => by simp only [hread] at h; cases h
      simp only [hread] at h
      rw [hs, ← Except.ok.inj h]
      exact .positive hy
    case h_3 cs hs =>
      obtain ⟨y, hread, hy⟩ := legible cs fun hread => by simp only [hread] at h; cases h
      simp only [hread] at h
      rw [hs, ← Except.ok.inj h]
      exact .negative hy
    case h_4 =>
      obtain ⟨y, hread, hy⟩ := legible s.toList fun hread => by simp only [hread] at h; cases h
      simp only [hread] at h
      rw [← Except.ok.inj h]
      exact .plain hy
  · intro h
    generalize hs : s.toList = cs at h
    unfold readFloat
    rw [hs]
    cases h with
    | positive h => simp only [readUnsigned_eq_some.mpr h]
    | negative h => simp only [readUnsigned_eq_some.mpr h, Except.map]
    | plain h =>
        obtain ⟨c, rest, rfl, hplus, hminus⟩ := h.head
        split
        case h_1 heq => cases heq
        case h_2 heq => exact absurd (List.cons.inj heq).1 hplus
        case h_3 heq => exact absurd (List.cons.inj heq).1 hminus
        case h_4 => simp only [readUnsigned_eq_some.mpr h]

end Dispatch.Decimal
