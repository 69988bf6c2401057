/-
The text of a value is read as the value's tree.

Reading takes two steps, and so does the proof.  The scanner makes tokens of characters.  Only at a
numeral does it look at what comes next, so the tokens of a value stand in front of whatever tokens
the rest of the text has (`scans_chars`).  The parser makes a tree of tokens and leaves what comes
after it (`value_tokens`).  Both are inductions over the value, together with the items of an array
and the fields of an object.

The parser counts its steps down.  It is called with two steps for each token, and that is more than
it takes: every array, every object and every entry of one brings a token of its own.
-/
import Dispatch.Json.Decode
import Dispatch.Proofs.Json.Numerals
import Mathlib.Data.List.Forall2

namespace Dispatch.Json

open Token

variable {rest : List Char}

/-! ### Strings -/

/-- A code unit stands for a character; only control characters are written by their numbers. -/
def Stands (u : Nat ⊕ Char) (c : Char) : Prop := u = .inr c ∨ (u = .inl c.toNat ∧ c.toNat < 0x20)

/-- A control character is written with the four digits of its number. -/
theorem unicodeEscape_of_lt {c : Char} (hc : c.toNat < 0x20) : ∃ h l,
    unicodeEscape c = ['\\', 'u', '0', '0', h, l] ∧ codeUnit? '0' '0' h l = some c.toNat := by
  have hall : ∀ n < 0x20, List.replicate (4 - (Nat.toDigits 16 n).length) '0' ++ Nat.toDigits 16 n
        = ['0', '0', (n / 16).digitChar, (n % 16).digitChar] ∧
      codeUnit? '0' '0' (n / 16).digitChar (n % 16).digitChar = some n := by decide
  obtain ⟨hdigits, hunit⟩ := hall c.toNat hc
  exact ⟨_, _, congrArg ('\\' :: 'u' :: ·) hdigits, hunit⟩

/-- A character is written as a letter after a backslash, by its number, or as it is. -/
theorem escape_cases (c : Char) :
    (∃ e, escape c = ['\\', e] ∧ e ≠ 'u' ∧ simpleEscape? e = some c) ∨
      (escape c = unicodeEscape c ∧ c.toNat < 0x20) ∨
      (escape c = [c] ∧ c ≠ '"' ∧ c ≠ '\\' ∧ ¬c.toNat < 0x20) := by
  unfold escape
  by_cases hquote : c = '"'
  · subst hquote
    exact .inl ⟨'"', rfl, by decide, rfl⟩
  by_cases hslash : c = '\\'
  · subst hslash
    exact .inl ⟨'\\', rfl, by decide, rfl⟩
  rw [if_neg hquote, if_neg hslash]
  -- five control characters have letters of their own
  iterate 5
    split
    · rename_i h
      subst h
      exact .inl ⟨_, rfl, by decide, rfl⟩
  split
  case isTrue hcontrol => exact .inr (.inl ⟨rfl, hcontrol⟩)
  case isFalse hplain => exact .inr (.inr ⟨rfl, hquote, hslash, hplain⟩)

/-- A character in quotation marks is read as one unit, which stands for it. -/
theorem exists_unit (c : Char) : ∃ u, Stands u c ∧ ∀ {rest us after},
    stringUnits rest = some (us, after) →
      stringUnits (escape c ++ rest) = some (u :: us, after) := by
  rcases escape_cases c with ⟨e, he, hu, hsimple⟩ | ⟨he, hcontrol⟩ | ⟨he, hquote, hslash, hplain⟩
  · refine ⟨.inr c, .inl rfl, fun hrest => ?_⟩
    rw [he]
    simp [stringUnits, hu, hsimple, hrest]
  · obtain ⟨h, l, hunicode, hunit⟩ := unicodeEscape_of_lt hcontrol
    refine ⟨.inl c.toNat, .inr ⟨rfl, hcontrol⟩, fun hrest => ?_⟩
    rw [he, hunicode]
    simp [stringUnits, hunit, hrest]
  · refine ⟨.inr c, .inl rfl, fun hrest => ?_⟩
    rw [he]
    simp [stringUnits, hslash, hplain, hrest]

theorem stringUnits_quoted (cs after : List Char) : ∃ us, List.Forall₂ Stands us cs ∧
    stringUnits (cs.flatMap escape ++ '"' :: after) = some (us, after) := by
  induction cs with
  | nil => exact ⟨[], .nil, rfl⟩
  | cons c cs ih =>
      obtain ⟨us, hus, hread⟩ := ih
      obtain ⟨u, hu, hunit⟩ := exists_unit c
      refine ⟨u :: us, .cons hu hus, ?_⟩
      rw [List.flatMap_cons, List.append_assoc]
      exact hunit hread

/-- Control characters are no halves of others. -/
theorem joinUnits_of_stands {us : List (Nat ⊕ Char)} {cs : List Char}
    (h : List.Forall₂ Stands us cs) : joinUnits us = some cs := by
  have whole {u : Nat} (hu : u < 0x20) : isHighHalf u = false ∧ isLowHalf u = false :=
    ⟨decide_eq_false (by omega), decide_eq_false (by omega)⟩
  induction h with
  | nil => rfl
  | @cons u c us cs hu hus ih =>
      rcases hu with rfl | ⟨rfl, hcontrol⟩
      · rw [joinUnits, ih]
        rfl
      · obtain ⟨hhigh, hlow⟩ := whole hcontrol
        cases hus with
        | nil => simp [joinUnits, hhigh, hlow]
        | @cons v d us cs hv hus =>
            rcases hv with rfl | ⟨rfl, hcontrol'⟩
            · simp [joinUnits, hhigh, hlow] at ih ⊢
              exact ih
            · obtain ⟨hhigh', hlow'⟩ := whole hcontrol'
              simp [joinUnits, hhigh, hlow, hlow', ih]

/-- **A text in quotation marks is read as it was.** -/
theorem first_quote (s : String) (after : List Char) :
    first (quote s ++ after) = (.string (some s), after) := by
  obtain ⟨us, hus, hread⟩ := stringUnits_quoted s.toList after
  have hread' : stringUnits (s.toList.flatMap escape ++ ['"'] ++ after) = some (us, after) := by
    rw [List.append_assoc]
    exact hread
  simp only [quote, List.cons_append, first, hread', joinUnits_of_stands hus, Option.map_some,
    String.ofList_toList]

/-! ### From characters to tokens -/

/-- Scanning a text gives the tokens. -/
inductive Scans : List Char → List Token → Prop
  | nil : Scans [] []
  | cons {c : Char} {cs rest : List Char} {t : Token} {ts : List Token} : isSpace c = false →
      first (c :: cs) = (t, rest) → rest.length ≤ cs.length → Scans rest ts →
      Scans (c :: cs) (t :: ts)

variable {t : Token} {ts : List Token}

/-- As many steps as there are characters are enough. -/
theorem Scans.scanFor {cs : List Char} (h : Scans cs ts) {steps : Nat}
    (hsteps : cs.length ≤ steps) : scanFor steps cs = ts := by
  induction h generalizing steps with
  | nil => cases steps <;> rfl
  | cons hspace hfirst hlength _ ih =>
      rw [List.length_cons] at hsteps
      cases steps with
      | zero => omega
      | succ steps =>
          rw [Token.scanFor, hspace, if_neg Bool.false_ne_true, hfirst]
          exact congrArg (_ :: ·) (ih (by omega))

/-- The characters of one token, before others. -/
theorem Scans.token (h : Scans rest ts) (cs : List Char) (hfirst : first (cs ++ rest) = (t, rest))
    (hspace : ∃ c, cs.head? = some c ∧ isSpace c = false) : Scans (cs ++ rest) (t :: ts) := by
  obtain ⟨c, hc, hspace⟩ := hspace
  cases cs with
  | nil => cases hc
  | cons d cs =>
      obtain rfl := Option.some.inj hc
      exact .cons hspace hfirst (List.length_append ▸ Nat.le_add_left _ _) h

theorem Scans.colon (h : Scans rest ts) : Scans (':' :: rest) (.colon :: ts) :=
  h.token [':'] rfl ⟨_, rfl, rfl⟩

theorem Scans.comma (h : Scans rest ts) : Scans (',' :: rest) (.comma :: ts) :=
  h.token [','] rfl ⟨_, rfl, rfl⟩

theorem Scans.closeBracket (h : Scans rest ts) : Scans (']' :: rest) (.closeBracket :: ts) :=
  h.token [']'] rfl ⟨_, rfl, rfl⟩

theorem Scans.closeBrace (h : Scans rest ts) : Scans ('\x7d' :: rest) (.closeBrace :: ts) :=
  h.token ['\x7d'] rfl ⟨_, rfl, rfl⟩

theorem Scans.quote (h : Scans rest ts) (s : String) :
    Scans (quote s ++ rest) (.string (some s) :: ts) :=
  h.token _ (first_quote s rest) ⟨_, rfl, rfl⟩

theorem Scans.null (h : Scans rest ts) : Scans (['n', 'u', 'l', 'l'] ++ rest) (.null :: ts) :=
  h.token _ rfl ⟨_, rfl, rfl⟩

/-- A numeral does not begin with a blank. -/
theorem Scans.numeral (h : Scans rest ts) {n : Numeral} (hn : n.Proper) (hends : Ends rest) :
    Scans (n.chars ++ rest) (.number n :: ts) := by
  refine h.token _ (first_numeral hn hends) ?_
  rw [chars_eq]
  cases n.negative with
  | true => exact ⟨'-', rfl, rfl⟩
  | false =>
      obtain ⟨hne, hdigits⟩ := hn.whole
      cases hwhole : n.whole with
      | nil => exact absurd hwhole hne
      | cons c ds =>
          refine ⟨c, rfl, ?_⟩
          have hdigit := hdigits c (hwhole ▸ List.mem_cons_self)
          rcases isDigit_cases hdigit with
            rfl | rfl | rfl | rfl | rfl | rfl | rfl | rfl | rfl | rfl <;> rfl

mutual

/-- The tokens of a value. -/
def tokens : Json → List Token
  | null => [.null]
  | bool b => [.bool b]
  | whole n => [.number (Numeral.ofInt n)]
  | real x => match Numeral.ofFloat? x with
    | some n => [.number n]
    | none => [.null]
  | string s => [.string (some s)]
  | array items => .openBracket :: itemTokens items
  | object fields => .openBrace :: fieldTokens fields

/-- The tokens of an array's items and of the bracket that closes it. -/
def itemTokens : List Json → List Token
  | [] => [.closeBracket]
  | [j] => j.tokens ++ [.closeBracket]
  | j :: rest => j.tokens ++ .comma :: itemTokens rest

/-- The tokens of an object's fields and of the brace that closes it. -/
def fieldTokens : List (String × Json) → List Token
  | [] => [.closeBrace]
  | [(k, j)] => .string (some k) :: .colon :: j.tokens ++ [.closeBrace]
  | (k, j) :: rest => .string (some k) :: .colon :: j.tokens ++ .comma :: fieldTokens rest

end

theorem Scans.real (h : Scans rest ts) (x : Float) (hends : Ends rest) :
    Scans ((real x).chars ++ rest) ((real x).tokens ++ ts) := by
  rw [chars, tokens]
  cases hx : Numeral.ofFloat? x with
  | none => exact h.null
  | some n => exact h.numeral (Numeral.proper_of_ofFloat? hx) hends

theorem ends_comma (cs : List Char) : Ends (',' :: cs) := ends_cons cs (by decide)

mutual

/-- **The tokens of a value are found in front of those of what follows.** -/
theorem scans_chars : ∀ (j : Json) {rest : List Char} {ts : List Token}, Ends rest → Scans rest ts →
    Scans (j.chars ++ rest) (j.tokens ++ ts)
  | .null, _, _, _, h => h.null
  | .bool true, _, _, _, h => h.token ['t', 'r', 'u', 'e'] rfl ⟨_, rfl, rfl⟩
  | .bool false, _, _, _, h => h.token ['f', 'a', 'l', 's', 'e'] rfl ⟨_, rfl, rfl⟩
  | .whole n, _, _, hends, h => h.numeral (Numeral.proper_ofInt n) hends
  | .real x, _, _, hends, h => h.real x hends
  | .string s, _, _, _, h => h.quote s
  | .array items, _, _, _, h => (scans_items items h).token ['['] rfl ⟨_, rfl, rfl⟩
  | .object fields, _, _, _, h => (scans_fields fields h).token ['\x7b'] rfl ⟨_, rfl, rfl⟩

theorem scans_items : ∀ (items : List Json) {rest : List Char} {ts : List Token}, Scans rest ts →
    Scans (itemChars items ++ rest) (itemTokens items ++ ts)
  | [], _, _, h => h.closeBracket
  | [j], _, _, h => by
      rw [itemChars, itemTokens, List.append_assoc, List.append_assoc]
      exact scans_chars j (ends_cons _ (by decide)) h.closeBracket
  | j :: k :: items, _, _, h => by
      have hmore := (scans_items (k :: items) h).comma
      rw [itemChars, itemTokens, List.append_assoc, List.append_assoc]
      · exact scans_chars j (ends_comma _) hmore
      all_goals exact nofun

theorem scans_fields : ∀ (fields : List (String × Json)) {rest : List Char} {ts : List Token},
    Scans rest ts → Scans (fieldChars fields ++ rest) (fieldTokens fields ++ ts)
  | [], _, _, h => h.closeBrace
  | [(k, j)], _, _, h => by
      have hfield := (scans_chars j (ends_cons _ (by decide)) h.closeBrace).colon.quote k
      simpa only [fieldChars, fieldTokens, List.append_assoc, List.cons_append, List.nil_append]
        using hfield
  | (k, j) :: l :: fields, _, _, h => by
      have hmore := (scans_fields (l :: fields) h).comma
      have hfield := (scans_chars j (ends_comma _) hmore).colon.quote k
      simpa only [fieldChars, fieldTokens, List.append_assoc, List.cons_append, List.nil_append]
        using hfield

end

/-- The tokens of a value's text. -/
theorem scan_chars (j : Json) : scan j.chars = j.tokens := by
  have h := scans_chars j ends_nil .nil
  rw [List.append_nil, List.append_nil] at h
  exact h.scanFor (Nat.le_refl _)

/-! ### From tokens to a tree -/

namespace Doc

/-- What an array that is not empty is read as. -/
theorem value_openBracket {steps : Nat} {ts : List Token} (hts : ts.head? ≠ some .closeBracket) :
    value (steps + 1) (.openBracket :: ts) =
      (.array (elements steps ts).1 (elements steps ts).2.1, (elements steps ts).2.2) := by
  unfold value
  split <;> simp_all

/-- What an object that is not empty is read as. -/
theorem value_openBrace {steps : Nat} {ts : List Token} (hts : ts.head? ≠ some .closeBrace) :
    value (steps + 1) (.openBrace :: ts) =
      (.object (members steps ts).1 (members steps ts).2.1, (members steps ts).2.2) := by
  unfold value
  split <;> simp_all

end Doc

/-- A value has a first token, and it is not the end of an array. -/
theorem exists_token (j : Json) : ∃ t ts, j.tokens = t :: ts ∧ t ≠ .closeBracket := by
  cases j with
  | real x =>
      rw [tokens]
      cases Numeral.ofFloat? x <;> exact ⟨_, _, rfl, nofun⟩
  | null | bool b | whole n | string s | array items | object fields =>
      exact ⟨_, _, rfl, nofun⟩

theorem head?_itemTokens {items : List Json} (hne : items ≠ []) (ts : List Token) :
    (itemTokens items ++ ts).head? ≠ some .closeBracket := by
  have first (j : Json) (ts : List Token) : (j.tokens ++ ts).head? ≠ some .closeBracket := by
    obtain ⟨t, _, ht, hopens⟩ := exists_token j
    rw [ht]
    exact fun h => hopens (Option.some.inj h)
  match items with
  | [] => exact absurd rfl hne
  | [j] =>
      rw [itemTokens, List.append_assoc]
      exact first j _
  | j :: k :: items =>
      rw [itemTokens, List.append_assoc]
      · exact first j _
      · exact nofun

theorem head?_fieldTokens {fields : List (String × Json)} (hne : fields ≠ []) (ts : List Token) :
    (fieldTokens fields ++ ts).head? ≠ some .closeBrace := by
  match fields with
  | [] => exact absurd rfl hne
  | [(k, j)] => exact nofun
  | (k, j) :: l :: fields => exact nofun

mutual

/-- **The tokens of a value are read as its tree.** -/
theorem value_tokens : ∀ (j : Json) {steps : Nat} (ts : List Token), 2 * j.tokens.length ≤ steps →
    Doc.value steps (j.tokens ++ ts) = (j.toDoc, some ts)
  | .null, _ + 1, _, _ | .bool _, _ + 1, _, _ => rfl
  | .whole _, _ + 1, _, _ | .string _, _ + 1, _, _ => rfl
  | .real x, 0, ts, hsteps => by
      obtain ⟨t, _, ht, -⟩ := exists_token (.real x)
      rw [ht] at hsteps
      cases hsteps
  | .real x, steps + 1, ts, _ => by
      rw [tokens, toDoc, Doc.ofNumber]
      cases Numeral.ofFloat? x <;> rfl
  | .array [], _ + 1, _, _ | .object [], _ + 1, _, _ => rfl
  | .array (j :: items), steps + 1, ts, hsteps => by
      rw [tokens, List.length_cons] at hsteps
      have hne : j :: items ≠ [] := nofun
      rw [tokens, List.cons_append, Doc.value_openBracket (head?_itemTokens hne ts),
        elements_tokens (j :: items) ts hne (by omega), toDoc]
  | .object (f :: fields), steps + 1, ts, hsteps => by
      rw [tokens, List.length_cons] at hsteps
      have hne : f :: fields ≠ [] := nofun
      rw [tokens, List.cons_append, Doc.value_openBrace (head?_fieldTokens hne ts),
        members_tokens (f :: fields) ts hne (by omega), toDoc]

theorem elements_tokens : ∀ (items : List Json) {steps : Nat} (ts : List Token), items ≠ [] →
    2 * (itemTokens items).length ≤ steps →
    Doc.elements steps (itemTokens items ++ ts) = (itemDocs items, .closed, some ts)
  | [j], steps, ts, _, hsteps => by
      rw [itemTokens, List.length_append, List.length_singleton] at hsteps
      obtain ⟨steps, rfl⟩ : ∃ k, steps = k + 1 := ⟨steps - 1, by omega⟩
      rw [itemTokens, List.append_assoc, Doc.elements, value_tokens j _ (by omega)]
      rfl
  | j :: k :: items, steps, ts, _, hsteps => by
      rw [itemTokens, List.length_append, List.length_cons] at hsteps
      · obtain ⟨steps, rfl⟩ : ∃ k, steps = k + 1 := ⟨steps - 1, by omega⟩
        have hmore : Doc.elements steps (itemTokens (k :: items) ++ ts) =
            (itemDocs (k :: items), .closed, some ts) :=
          elements_tokens (k :: items) ts nofun (by omega)
        rw [itemTokens, List.append_assoc, Doc.elements, value_tokens j _ (by omega)]
        · simp only [List.cons_append, hmore]
          rfl
        · exact nofun
      · exact nofun

theorem members_tokens : ∀ (fields : List (String × Json)) {steps : Nat} (ts : List Token),
    fields ≠ [] → 2 * (fieldTokens fields).length ≤ steps →
    Doc.members steps (fieldTokens fields ++ ts) = (entryDocs fields, .closed, some ts)
  | [(k, j)], steps, ts, _, hsteps => by
      rw [fieldTokens] at hsteps ⊢
      simp only [List.length_cons, List.length_append, List.cons_append, List.append_assoc]
        at hsteps ⊢
      obtain ⟨steps, rfl⟩ : ∃ k, steps = k + 2 := ⟨steps - 2, by omega⟩
      have hvalue : Doc.value (steps + 1) (j.tokens ++ .closeBrace :: ts) =
          (j.toDoc, some (.closeBrace :: ts)) := value_tokens j _ (by omega)
      rw [Doc.members, Doc.value]
      simp only [List.nil_append, hvalue]
      rfl
  | (k, j) :: l :: fields, steps, ts, _, hsteps => by
      rw [fieldTokens] at hsteps ⊢
      · simp only [List.length_cons, List.length_append, List.cons_append, List.append_assoc]
          at hsteps ⊢
        obtain ⟨steps, rfl⟩ : ∃ k, steps = k + 2 := ⟨steps - 2, by omega⟩
        have hmore : Doc.members (steps + 1) (fieldTokens (l :: fields) ++ ts) =
            (entryDocs (l :: fields), .closed, some ts) :=
          members_tokens (l :: fields) ts nofun (by omega)
        have hvalue : Doc.value (steps + 1)
            (j.tokens ++ .comma :: (fieldTokens (l :: fields) ++ ts)) =
              (j.toDoc, some (.comma :: (fieldTokens (l :: fields) ++ ts))) :=
          value_tokens j _ (by omega)
        rw [Doc.members, Doc.value]
        simp only [hvalue, hmore]
        rfl
      all_goals exact nofun

end

/-- **The text of a value is read as its tree, to its end.** -/
theorem ofChars_chars (j : Json) : Doc.ofChars j.chars = (j.toDoc, some []) := by
  have h := value_tokens j [] (Nat.le_succ (2 * j.tokens.length))
  rw [List.append_nil] at h
  rw [Doc.ofChars, scan_chars]
  exact h

/-- A record is read from the text of a value as from its tree. -/
theorem readAll_text {α : Type} (r : Reader α) (j : Json) :
    readAll r j.text.toList = r j.toDoc := by
  rw [Json.text, String.toList_ofList, readAll, ofChars_chars]
  cases h : r j.toDoc <;> simp [h]

end Dispatch.Json
