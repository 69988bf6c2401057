/-
Settings are what the variables say.

Seven variables have a form that a value can miss.  Each of them is looked at on its own, and what
comes of it is always the same: a text of the right form gives the setting, a text of another form
is refused by the name of the variable, and without a text the setting is the usual one (`Gives`).
So when settings are read every text has its form, and when nothing is read there is a text that has
not.

What stands in an environment is bytes, and bytes need not be a text.  A variable whose bytes are
none is passed over as if it were not set.  That is the only way in which a value can be lost: an
environment is taken at its word exactly if every value in it is a text, or if some text is refused
anyway.
-/
import Dispatch.Proofs.Numbers
import Dispatch.Proofs.Setup

namespace Dispatch

open Dispatch.Decimal

/-- The fault is laid to the variable: as an error it is internal, and names it. -/
def SettingFault.Names (fault : SettingFault) (key : String) : Prop :=
  ∃ detail, fault.toError = .stated .internal ("invalid " ++ key ++ ": " ++ detail)

namespace Settings

/-! ### The variables and their forms -/

/-- The variables that a value can be wrong for. -/
inductive Variable where
  | httpPort
  | eventBuffer
  | rideSeconds
  | searchRadius
  | staleSeconds
  | sweepSeconds
  | logFormat
  deriving DecidableEq, Repr

/-- The name of a variable. -/
def Variable.key : Variable → String
  | httpPort => "HTTP_PORT"
  | eventBuffer => "EVENT_BUFFER_SIZE"
  | rideSeconds => "ACTIVE_RIDE_TTL_SECS"
  | searchRadius => "DEFAULT_SEARCH_RADIUS_KM"
  | staleSeconds => "AVAILABILITY_STALE_SECS"
  | sweepSeconds => "AVAILABILITY_SWEEP_INTERVAL_SECS"
  | logFormat => "LOG_FORMAT"

/-- The text is a whole number, not zero, of at most `most`. -/
def WritesPositive (most : Nat) (text : String) (n : Nat) : Prop := WritesWhole most text n ∧ n ≠ 0

/-- The text is a distance that one can search within. -/
def WritesRadius (text : String) (km : Float) : Prop :=
  WritesFloat text.toList km ∧ km.isFinite ∧ ¬km < 0

/-- The text is a value of the variable, and the settings have it. -/
def Variable.Says (text : String) (s : Settings) : Variable → Prop
  | httpPort => WritesWhole max16 text s.httpPort
  | eventBuffer => WritesPositive max64 text s.eventBuffer
  | rideSeconds => WritesWhole max64 text s.rideSeconds
  | searchRadius => WritesRadius text s.searchRadius
  | staleSeconds => WritesWhole max64 text s.staleSeconds
  | sweepSeconds => WritesPositive max64 text s.sweepSeconds
  | logFormat => text = s.logFormat.name

/-- The settings have what is usual where the variable says nothing. -/
def Variable.IsUsual (s : Settings) : Variable → Prop
  | httpPort => s.httpPort = 3000
  | eventBuffer => s.eventBuffer = 1024
  | rideSeconds => s.rideSeconds = 86400
  | searchRadius => s.searchRadius = 5.0
  | staleSeconds => s.staleSeconds = 0
  | sweepSeconds => s.sweepSeconds = 60
  | logFormat => s.logFormat = .compact

/-! ### One variable -/

/-- What comes of looking at a variable, if the texts that `Form` allows are its values. -/
inductive Gives {α : Type} (env : Environment) (key : String) (Form : String → α → Prop)
    (usual : α) : Except SettingFault α → Prop
  | usual : text? env key = none → Gives env key Form usual (.ok usual)
  | said {text : String} {a : α} : text? env key = some text → Form text a →
      Gives env key Form usual (.ok a)
  | refused {text : String} {fault : SettingFault} : text? env key = some text →
      (∀ a, ¬Form text a) → SettingFault.Names fault key → Gives env key Form usual (.error fault)

variable {env : Environment} {key : String}

theorem Gives.of_ok {α : Type} {Form : String → α → Prop} {usual a : α}
    {outcome : Except SettingFault α} (h : Gives env key Form usual outcome) (ha : outcome = .ok a) :
    (∀ text, text? env key = some text → Form text a) ∧ (text? env key = none → a = usual) := by
  subst ha
  cases h with
  | usual hnone => exact ⟨fun text ht => (by rw [hnone] at ht; cases ht), fun _ => rfl⟩
  | said htext hform =>
      refine ⟨fun text ht => ?_, fun hnone => (by rw [hnone] at htext; cases htext)⟩
      rw [htext] at ht
      obtain rfl := Option.some.inj ht
      exact hform

theorem Gives.of_error {α : Type} {Form : String → α → Prop} {usual : α}
    {outcome : Except SettingFault α} {fault : SettingFault} (h : Gives env key Form usual outcome)
    (hfault : outcome = .error fault) :
    ∃ text, text? env key = some text ∧ (∀ a, ¬Form text a) ∧ SettingFault.Names fault key := by
  subst hfault
  cases h with
  | refused htext hform hnames => exact ⟨_, htext, hform, hnames⟩

/-- A number is refused with what the reader found wrong. -/
theorem gives_numberOr {α : Type} {read : String → Except NumberFault α} {Form : String → α → Prop}
    (hread : ∀ {text a}, read text = .ok a ↔ Form text a) (usual : α) :
    Gives env key Form usual (numberOr read env key usual) := by
  unfold numberOr
  split
  case h_1 text htext =>
    cases hval : read text with
    | ok a => exact .said htext (hread.mp hval)
    | error e =>
        refine .refused htext (fun a ha => ?_) ⟨e.message, rfl⟩
        rw [hread.mpr ha] at hval
        cases hval
  case h_2 hnone => exact .usual hnone

/-- A check after reading narrows the form, if what is usual passes it. -/
theorem Gives.check {α : Type} {Form Narrow : String → α → Prop} {usual : α}
    {outcome : Except SettingFault α} (refuse : α → Prop) [DecidablePred refuse]
    (fault : α → SettingFault) (h : Gives env key Form usual outcome)
    (hunique : ∀ {text a b}, Form text a → Form text b → a = b)
    (hnarrow : ∀ {text a}, Narrow text a ↔ Form text a ∧ ¬refuse a) (husual : ¬refuse usual)
    (hnames : ∀ a, SettingFault.Names (fault a) key) :
    Gives env key Narrow usual
      (outcome >>= fun a => if refuse a then .error (fault a) else .ok a) := by
  cases h with
  | usual hnone =>
      change Gives _ _ _ _ (if refuse usual then _ else _)
      rw [if_neg husual]
      exact .usual hnone
  | @said text a htext hform =>
      change Gives _ _ _ _ (if refuse a then _ else _)
      by_cases hbad : refuse a
      · rw [if_pos hbad]
        refine .refused htext (fun b hb => ?_) (hnames a)
        obtain ⟨hb, hgood⟩ := hnarrow.mp hb
        exact hgood (hunique hform hb ▸ hbad)
      · rw [if_neg hbad]
        exact .said htext (hnarrow.mpr ⟨hform, hbad⟩)
  | refused htext hform hname => exact .refused htext (fun a ha => hform a (hnarrow.mp ha).1) hname

theorem gives_wholeOr (most usual : Nat) :
    Gives env key (WritesWhole most) usual (wholeOr most env key usual) :=
  gives_numberOr readWhole_eq_ok usual

/-- A text is one whole number at most, since it is read in one way. -/
theorem writesWhole_unique {most n m : Nat} {text : String} (hn : WritesWhole most text n)
    (hm : WritesWhole most text m) : n = m :=
  Except.ok.inj ((readWhole_eq_ok.mpr hn).symm.trans (readWhole_eq_ok.mpr hm))

theorem gives_positiveOr (most : Nat) {usual : Nat} (husual : usual ≠ 0) :
    Gives env key (WritesPositive most) usual (positiveOr most env key usual) :=
  (gives_wholeOr most usual).check (· = 0) (fun _ => .zero key) writesWhole_unique Iff.rfl husual
    fun _ => ⟨"must be > 0", by rw [String.append_assoc]; rfl⟩

theorem writesFloat_unique {x y : Float} {text : String} (hx : WritesFloat text.toList x)
    (hy : WritesFloat text.toList y) : x = y :=
  Except.ok.inj ((readFloat_eq_ok.mpr hx).symm.trans (readFloat_eq_ok.mpr hy))

theorem gives_radiusIn :
    Gives env "DEFAULT_SEARCH_RADIUS_KM" WritesRadius 5.0 (radiusIn env) := by
  refine (gives_numberOr readFloat_eq_ok 5.0).check (fun km => (!km.isFinite || km < 0) = true)
    .badRadius writesFloat_unique ?_ (by decide +kernel) fun km => ?_
  · intro text km
    simp [WritesRadius]
  · exact ⟨positional km, rfl⟩

theorem gives_formatIn :
    Gives env "LOG_FORMAT" (fun text format => text = format.name) .compact (formatIn env) := by
  unfold formatIn
  split
  case h_1 hnone => exact .usual hnone
  case h_2 text htext =>
    by_cases hjson : text = "json"
    · rw [if_pos hjson]
      exact .said htext hjson
    · rw [if_neg hjson]
      by_cases hcompact : text = "compact"
      · rw [if_pos hcompact]
        exact .said htext hcompact
      · rw [if_neg hcompact]
        refine .refused htext (fun format h => ?_) ⟨text ++ ", expected compact/json", ?_⟩
        · cases format with
          | compact => exact hcompact h
          | json => exact hjson h
        · rw [← String.append_assoc]
          rfl

/-! ### All of them -/

theorem bind_eq_error {ε α β : Type} {x : Except ε α} {f : α → Except ε β} {e : ε} :
    x >>= f = .error e ↔ x = .error e ∨ ∃ a, x = .ok a ∧ f a = .error e := by
  cases x with
  | error e' =>
      refine ⟨fun h => .inl (congrArg _ (Except.error.inj h)), fun h => ?_⟩
      rcases h with h | ⟨_, h, _⟩
      · exact congrArg _ (Except.error.inj h)
      · cases h
  | ok a =>
      refine ⟨fun h => .inr ⟨a, rfl, h⟩, fun h => ?_⟩
      rcases h with h | ⟨_, ha, h⟩
      · cases h
      · exact Except.ok.inj ha ▸ h

/-- The text is a value of the variable. -/
def Variable.Allows (v : Variable) (text : String) : Prop := ∃ s, v.Says text s

/-- When settings are read, each of them is what a text says, or what is usual if there is none. -/
theorem says_of_ofEnvironment {s : Settings} (h : ofEnvironment env = .ok s) (v : Variable) :
    (∀ text, text? env v.key = some text → v.Says text s) ∧
      (text? env v.key = none → v.IsUsual s) := by
  obtain ⟨hformat, hradius, hsweep, hbuffer, hport, hride, hstale, _, _⟩ := ofEnvironment_eq_ok.mp h
  cases v with
  | httpPort => exact (gives_wholeOr _ _).of_ok hport
  | eventBuffer => exact (gives_positiveOr _ (by decide)).of_ok hbuffer
  | rideSeconds => exact (gives_wholeOr _ _).of_ok hride
  | searchRadius => exact gives_radiusIn.of_ok hradius
  | staleSeconds => exact (gives_wholeOr _ _).of_ok hstale
  | sweepSeconds => exact (gives_positiveOr _ (by decide)).of_ok hsweep
  | logFormat => exact gives_formatIn.of_ok hformat

/-- A fault is laid to a variable with a text that is no value of it. -/
def Variable.Refused (env : Environment) (fault : SettingFault) (v : Variable) : Prop :=
  ∃ text, text? env v.key = some text ∧ ¬v.Allows text ∧ fault.Names v.key

theorem Gives.refused_of_error {α : Type} {v : Variable} {Form : String → α → Prop} {usual : α}
    {outcome : Except SettingFault α} {fault : SettingFault} (field : Settings → α)
    (h : Gives env v.key Form usual outcome)
    (hsaid : ∀ {text s}, v.Says text s → Form text (field s)) (hfault : outcome = .error fault) :
    v.Refused env fault := by
  obtain ⟨text, htext, hform, hnames⟩ := h.of_error hfault
  exact ⟨text, htext, fun ⟨s, hs⟩ => hform _ (hsaid hs), hnames⟩

/-- When no settings are read, a text is refused by the name of its variable. -/
theorem exists_refused {fault : SettingFault} (h : ofEnvironment env = .error fault) :
    ∃ v : Variable, v.Refused env fault := by
  unfold ofEnvironment at h
  simp only [bind_eq_error] at h
  rcases h with h | ⟨_, _, h | ⟨_, _, h | ⟨_, _, h | ⟨_, _, h | ⟨_, _, h | ⟨_, _, h |
    ⟨_, _, h⟩⟩⟩⟩⟩⟩⟩
  · exact ⟨.logFormat, gives_formatIn.refused_of_error logFormat id h⟩
  · exact ⟨.searchRadius, gives_radiusIn.refused_of_error searchRadius id h⟩
  · exact ⟨.sweepSeconds, (gives_positiveOr _ (by decide)).refused_of_error sweepSeconds id h⟩
  · exact ⟨.eventBuffer, (gives_positiveOr _ (by decide)).refused_of_error eventBuffer id h⟩
  · exact ⟨.httpPort, (gives_wholeOr _ _).refused_of_error httpPort id h⟩
  · exact ⟨.rideSeconds, (gives_wholeOr _ _).refused_of_error rideSeconds id h⟩
  · exact ⟨.staleSeconds, (gives_wholeOr _ _).refused_of_error staleSeconds id h⟩
  · cases h

/-! ### Bytes -/

/-- The bytes are a text that is a value of the variable, and the settings have it. -/
def Variable.Holds (bytes : List UInt8) (s : Settings) (v : Variable) : Prop :=
  ∃ text, Text.utf8? bytes = some text ∧ v.Says text s

/-- The bytes are no value of the variable, as a text of another form or as no text at all. -/
def Variable.Wrong (bytes : List UInt8) (v : Variable) : Prop := ∀ s, ¬v.Holds bytes s

/-- **An environment is taken at its word.**  Settings that are read have every value that is set,
and what is usual where nothing is set; and a wrong value is refused, as an internal error that names
a variable with a wrong value. -/
structure AtItsWord (env : Environment) : Prop where
  read : ∀ s, ofEnvironment env = .ok s → ∀ v : Variable,
    (∀ bytes, env v.key = some bytes → v.Holds bytes s) ∧ (env v.key = none → v.IsUsual s)
  refused : (∃ (v : Variable) (bytes : List UInt8), env v.key = some bytes ∧ v.Wrong bytes) →
    ∃ fault, ofEnvironment env = .error fault ∧ ∃ (v : Variable) (bytes : List UInt8),
      env v.key = some bytes ∧ v.Wrong bytes ∧ fault.Names v.key

/-- A variable that is set to bytes that are no text. -/
def Variable.Illegible (env : Environment) (v : Variable) : Prop :=
  ∃ bytes, env v.key = some bytes ∧ Text.utf8? bytes = none


/-- Bytes that are wrong are no text, or a text of another form. -/
theorem Variable.wrong_iff {bytes : List UInt8} {v : Variable} :
    v.Wrong bytes ↔ ∀ text, Text.utf8? bytes = some text → ¬v.Allows text :=
  ⟨fun h text htext ⟨s, hs⟩ => h s ⟨text, htext, hs⟩,
    fun h s ⟨text, htext, hs⟩ => h text htext ⟨s, hs⟩⟩

theorem text?_eq_some {text : String} :
    text? env key = some text ↔ ∃ bytes, env key = some bytes ∧ Text.utf8? bytes = some text :=
  Option.bind_eq_some_iff

/-- A text that is refused is a wrong value. -/
theorem Variable.Refused.exists_wrong {fault : SettingFault} {v : Variable}
    (h : v.Refused env fault) :
    ∃ bytes, env v.key = some bytes ∧ v.Wrong bytes ∧ fault.Names v.key := by
  obtain ⟨text, htext, hnot, hnames⟩ := h
  obtain ⟨bytes, hbytes, hread⟩ := text?_eq_some.mp htext
  refine ⟨bytes, hbytes, Variable.wrong_iff.mpr fun text' htext' => ?_, hnames⟩
  rw [hread] at htext'
  obtain rfl := Option.some.inj htext'
  exact hnot

theorem atItsWord_of_error {fault : SettingFault} (h : ofEnvironment env = .error fault) :
    AtItsWord env := by
  obtain ⟨v, hrefused⟩ := exists_refused h
  refine ⟨fun s hs => ?_, fun _ => ⟨fault, h, v, hrefused.exists_wrong⟩⟩
  rw [h] at hs
  cases hs

/-- **What reading settings comes to, in every environment.**  Each setting is what the text of its
variable says, and is usual without one; or a text is refused by name.  A value is lost in one case
only: its bytes are no text, and no text is refused. -/
theorem ofEnvironment_read_or_refused (env : Environment) :
    (∀ s, ofEnvironment env = .ok s → ∀ v : Variable,
      (∀ text, text? env v.key = some text → v.Says text s) ∧
      (text? env v.key = none → v.IsUsual s)) ∧
    (∀ fault, ofEnvironment env = .error fault → ∃ v : Variable, v.Refused env fault) ∧
    (AtItsWord env ↔
      (∃ (v : Variable) (text : String), text? env v.key = some text ∧ ¬v.Allows text) ∨
        ∀ v : Variable, ¬v.Illegible env) := by
  refine ⟨fun s => says_of_ofEnvironment, fun fault => exists_refused, ?_⟩
  cases hread : ofEnvironment env with
  | error fault =>
      obtain ⟨v, text, htext, hnot, _⟩ := exists_refused hread
      exact iff_of_true (atItsWord_of_error hread) (.inl ⟨v, text, htext, hnot⟩)
  | ok s =>
      have hsaid := says_of_ofEnvironment hread
      constructor
      · refine fun h => .inr fun v ⟨bytes, hbytes, hnone⟩ => ?_
        obtain ⟨text, htext, _⟩ := (h.read s hread v).1 bytes hbytes
        rw [hnone] at htext
        cases htext
      · rintro (⟨v, text, htext, hnot⟩ | hlegible)
        · exact absurd ⟨s, (hsaid v).1 text htext⟩ hnot
        · have holds {v : Variable} {bytes : List UInt8} (hbytes : env v.key = some bytes) :
              v.Holds bytes s := by
            cases htext : Text.utf8? bytes with
            | none => exact absurd ⟨bytes, hbytes, htext⟩ (hlegible v)
            | some text =>
                exact ⟨text, htext, (hsaid v).1 text (text?_eq_some.mpr ⟨bytes, hbytes, htext⟩)⟩
          refine ⟨fun s' hs' v => ?_,
            fun ⟨v, bytes, hbytes, hwrong⟩ => absurd (holds hbytes) (hwrong s)⟩
          rw [hread] at hs'
          obtain rfl := Except.ok.inj hs'
          refine ⟨fun _ => holds, fun hnone => (hsaid v).2 ?_⟩
          rw [text?, hnone]
          rfl

/-- A port of one byte that is no text: the service listens at the usual port. -/
theorem exists_illegible : ¬∀ env, AtItsWord env := by
  intro h
  have hread : ofEnvironment (fun key => if key = "HTTP_PORT" then some [0xFF] else none) =
      .ok (bindingFor 86400) := by
    rfl
  obtain ⟨text, htext, _⟩ := ((h _).read _ hread .httpPort).1 [0xFF] rfl
  cases htext

end Settings
end Dispatch
