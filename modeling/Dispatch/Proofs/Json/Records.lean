/-
Records are read from what they were written as.

A record is written field by field, and read by looking each field up.  What is written into a field
either does for its reader or has the wrong shape: a coordinate that is no finite number is written
as `null`, and everything else is read back.  So the record as a whole is read just if each of its
fields does (`fields_written`), and it is refused for its shape otherwise.

Whether a finite number is read back as the same double is up to the way its digits are scaled.  It
is not so for every double, and is asked of each number that is written (`ReadsBack`).
-/
import Dispatch.Json.Decode

namespace Dispatch

/-! ### Numbers -/

open Float.Model in
theorem isFinite_dite {c : Prop} [Decidable c] {a : c → UnpackedFloat} {b : ¬c → UnpackedFloat}
    (ha : ∀ h, (a h).isFinite = true) (hb : ∀ h, (b h).isFinite = true) :
    (dite c a b).isFinite = true := by
  by_cases h : c
  · rw [dif_pos h, ha]
  · rw [dif_neg h, hb]

open Float.Model in
/-- The digits of a double can be written just if it is finite: infinities and what is no number
have all bits of the exponent set. -/
theorem Numeral.isSome_ofFloat? (x : Float) : (ofFloat? x).isSome = x.isFinite := by
  have hexponent : @UnpackedFloat.unpackExponent Format.binary64 x.toBits.toBitVec =
      -1#11 ↔ x.toBits.toNat / 2 ^ 52 % 2048 = 2047 := by
    rw [← BitVec.toNat_inj]
    simp [UnpackedFloat.unpackExponent, Nat.shiftRight_eq_div_pow]
  have hfinite : x.isFinite =
      (UnpackedFloat.unpack Format.binary64 x.toBits.toBitVec).isFinite := rfl
  rw [hfinite, ofFloat?, Option.isSome_map, Decimal.Binary.ofFloat?, Decimal.Binary.ofBits?]
  unfold UnpackedFloat.unpack
  by_cases hall : x.toBits.toNat / 2 ^ 52 % 2048 = 2047
  · rw [if_pos hall, if_pos (hexponent.mpr hall)]
    split <;> rfl
  · rw [if_neg hall, if_neg (mt hexponent.mp hall)]
    refine Eq.trans (b := true) ?_ (Eq.symm ?_)
    · split <;> rfl
    · exact isFinite_dite (fun _ => isFinite_dite (fun _ => rfl) fun _ => rfl) fun _ => rfl

namespace Json

/-- The digits that a double is written with are worth just this double. -/
def ReadsBack (x : Float) : Prop :=
  ∀ n, Numeral.ofFloat? x = some n → n.value?.map Quantity.toFloat = some x

instance (x : Float) : Decidable (ReadsBack x) :=
  decidable_of_iff ((Numeral.ofFloat? x).all fun n => n.value?.map Quantity.toFloat = some x) (by
    rw [Option.all_eq_true]
    exact forall₂_congr fun n _ => decide_eq_true_iff)

variable {α : Type}

/-- The value is read if it does, and has the wrong shape otherwise. -/
def Reads (r : Reader α) (d : Doc) (a : α) (does : Bool) : Prop :=
  r d = if does then .ok a else .error .mismatched

theorem Reads.of_ok {r : Reader α} {d : Doc} {a : α} (h : r d = .ok a) : Reads r d a true := h

/-- A number is read unless it is infinite or no number. -/
theorem reads_real {x : Float} (h : ReadsBack x) :
    Reads Doc.asFloat (real x).toDoc x x.isFinite := by
  rw [Reads, toDoc, Doc.ofNumber, ← Numeral.isSome_ofFloat? x]
  cases hx : Numeral.ofFloat? x with
  | none => rfl
  | some n =>
      obtain ⟨q, hq, hvalue⟩ := Option.map_eq_some_iff.mp (h n hx)
      simp only [Doc.asFloat, hq, hvalue, Option.isSome_some, if_true]

/-- What may be missing is read as missing, or as what it is. -/
theorem reads_option {r : Reader α} {f : α → Json} {o : Option α} {does : α → Bool}
    (hsome : ∀ a, o = some a → (f a).toDoc ≠ .null ∧ Reads r (f a).toDoc a (does a)) :
    Reads (Doc.asOption r) (ofOption f o).toDoc o (o.all does) := by
  cases o with
  | none => rfl
  | some a =>
      obtain ⟨hnull, hread⟩ := hsome a rfl
      have hoption : Doc.asOption r (f a).toDoc = (r (f a).toDoc).map some := by
        unfold Doc.asOption
        split
        case h_1 heq => exact absurd heq hnull
        case h_2 => rfl
      rw [Reads, ofOption, hoption, hread, Option.all_some]
      cases does a <;> rfl

/-! ### Fields -/

namespace Doc

/-- A field, what has been written into it, and whether this does. -/
structure Filled where
  field : Field
  value : Json
  does : Bool

/-- A field that is read by `r`, with what has been written into it. -/
def Filled.of (name : String) (r : Reader α) (value : Json) (does : Bool)
    (presence : Presence := .required) : Filled where
  field := .of name r presence
  value := value
  does := does

/-- The field finds fault with what does not do, and only with that. -/
def Filled.Judged (e : Filled) : Prop :=
  e.field.fault? e.value.toDoc = if e.does then none else some .mismatched

theorem Filled.judged_of {name : String} {r : Reader α} {value : Json} {does : Bool}
    {presence : Presence} {a : α} (h : Reads r value.toDoc a does) :
    (Filled.of name r value does presence).Judged := by
  rw [Reads] at h
  unfold Filled.Judged Filled.of Field.of
  dsimp only
  rw [h]
  cases does <;> rfl

/-- The name of the field, and what has been written into it. -/
def Filled.named (e : Filled) : String × Doc := (e.field.name, e.value.toDoc)

/-- The object with the given fields. -/
def objectOf (es : List Filled) : Json := .object (es.map fun e => (e.field.name, e.value))

theorem entryDocs_map (es : List Filled) : entryDocs (es.map fun e => (e.field.name, e.value)) =
    es.map fun e => (Doc.string (some e.field.name), e.value.toDoc) := by
  induction es with
  | nil => rfl
  | cons e es ih => exact congrArg (_ :: ·) ih

variable {schema : List Field} {es : List Filled}

/-- A field is found by its name. -/
theorem find?_name {f : Field} (hnames : (schema.map Field.name).Nodup) (hf : f ∈ schema) :
    schema.find? (fun g => g.name = f.name) = some f := by
  induction schema with
  | nil => cases hf
  | cons g schema ih =>
      rw [List.map_cons, List.nodup_cons] at hnames
      rw [List.find?_cons]
      split
      case h_1 hname =>
        rcases List.mem_cons.mp hf with rfl | hf
        · rfl
        · have hmem := List.mem_map_of_mem (f := Field.name) hf
          rw [← of_decide_eq_true hname] at hmem
          exact absurd hmem hnames.1
      case h_2 hname =>
        rcases List.mem_cons.mp hf with rfl | hf
        · exact absurd rfl (of_decide_eq_false hname)
        · exact ih hnames.2 hf

/-- The entries are taken one after the other, up to the first that does not do. -/
theorem takeEntries_written (hnames : (schema.map Field.name).Nodup)
    (hfields : ∀ e ∈ es, e.field ∈ schema) (hjudged : ∀ e ∈ es, e.Judged) {found : Fields}
    (hfound : ∀ e ∈ es, found.lookup e.field.name = none)
    (hnodup : (es.map fun e => e.field.name).Nodup) :
    takeEntries schema (es.map fun e => (Doc.string (some e.field.name), e.value.toDoc)) found =
      if es.all Filled.does then .ok (found ++ es.map Filled.named) else .error .mismatched := by
  induction es generalizing found with
  | nil => exact congrArg Except.ok (List.append_nil found).symm
  | cons e es ih =>
      obtain ⟨hfield, hfields⟩ := List.forall_mem_cons.mp hfields
      obtain ⟨hjudge, hjudged⟩ := List.forall_mem_cons.mp hjudged
      obtain ⟨hnew, hfound⟩ := List.forall_mem_cons.mp hfound
      rw [List.map_cons, List.nodup_cons] at hnodup
      rw [Filled.Judged] at hjudge
      rw [List.map_cons, takeEntries, find?_name hnames hfield]
      simp only [hnew, hjudge, List.all_cons]
      by_cases hdoes : e.does = true
      · have hlater : ∀ e' ∈ es, (found ++ [e.named]).lookup e'.field.name = none := by
          intro e' he'
          have hne : e'.field.name ≠ e.field.name :=
            fun h => hnodup.1 (List.mem_map.mpr ⟨e', he', h⟩)
          rw [List.lookup_append, hfound e' he', Option.none_or]
          simp only [Filled.named, List.lookup_cons, List.lookup_nil, beq_false_of_ne hne]
        simp only [hdoes, if_true, Bool.true_and]
        refine (ih hfields hjudged hlater hnodup.2).trans ?_
        rw [List.append_assoc]
        rfl
      · simp [hdoes]

/-- What has been written into a field is there. -/
theorem isSome_lookup {e : Filled} (he : e ∈ es) :
    ((es.map Filled.named).lookup e.field.name).isSome = true := by
  induction es with
  | nil => cases he
  | cons e' es ih =>
      rw [List.map_cons, Filled.named, List.lookup_cons]
      split
      case h_1 => rfl
      case h_2 hname =>
        rcases List.mem_cons.mp he with rfl | he
        · exact absurd BEq.rfl (Bool.not_eq_true _ ▸ hname)
        · exact ih he

/-- **A record is read just if each of its fields does.**  There may be more fields, which may be
missing. -/
theorem fields_written {more : List Field}
    (hnames : ((es.map Filled.field ++ more).map Field.name).Nodup)
    (hjudged : ∀ e ∈ es, e.Judged) (hmore : ∀ f ∈ more, f.presence ≠ .required) :
    fields (es.map Filled.field ++ more) (objectOf es).toDoc =
      if es.all Filled.does then .ok (es.map Filled.named) else .error .mismatched := by
  have hnodup : (es.map fun e => e.field.name).Nodup := by
    rw [List.map_append, List.map_map] at hnames
    exact (List.nodup_append.mp hnames).1
  have hfields : ∀ e ∈ es, e.field ∈ es.map Filled.field ++ more :=
    fun e he => List.mem_append_left _ (List.mem_map_of_mem he)
  have hnone : ∀ e ∈ es, List.lookup e.field.name ([] : Fields) = none := fun _ _ => rfl
  have htaken := takeEntries_written hnames hfields hjudged hnone hnodup
  have hthere : (es.map Filled.field ++ more).all (fun f => f.presence ≠ .required ||
      ((es.map Filled.named).lookup f.name).isSome) = true := by
    refine List.all_eq_true.mpr fun f hf => ?_
    rcases List.mem_append.mp hf with hf | hf
    · obtain ⟨e, he, rfl⟩ := List.mem_map.mp hf
      rw [isSome_lookup he, Bool.or_true]
    · rw [decide_eq_true (hmore f hf), Bool.true_or]
  rw [objectOf, toDoc, entryDocs_map, fields, htaken]
  cases es.all Filled.does with
  | false => rfl
  | true => simp only [if_true, List.nil_append, reduceCtorEq, if_false, hthere]

/-- What is made of the fields is made of what has been written into them. -/
theorem reads_record (es : List Filled) (more : List Field) {j : Json}
    {make : Fields → Except Fault α} {a : α} {does : Bool} (hj : j = objectOf es)
    (hschema : schema = es.map Filled.field ++ more)
    (hnames : (schema.map Field.name).Nodup) (hjudged : ∀ e ∈ es, e.Judged)
    (hmore : ∀ f ∈ more, f.presence ≠ .required) (hdoes : es.all Filled.does = does)
    (hmake : does = true → make (es.map Filled.named) = .ok a) :
    Reads (fun d => d.fields schema >>= make) j.toDoc a does := by
  subst hj hschema
  show Except.bind _ make = _
  rw [fields_written hnames hjudged hmore, hdoes]
  cases does with
  | false => rfl
  | true => exact hmake rfl

end Doc
end Json
end Dispatch
