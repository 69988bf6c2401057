/-
What goes over the wire comes back.

Locations, drafts, proposals and acceptance events are written as JSON and read again.  Each of
their fields is read back: identifiers because they are put together again from the groups that they
are written in, texts and truth values as they are, instants by `Instant.ofText?_text`.  A time that
is missing has been left out, a target that is missing has been written as `null`, and both are read
as missing.

Only a coordinate may fail.  One that is infinite or no number is written as `null`, and then the
record is refused: it is not taken for another one.  Of a finite one the record has to say that its
digits are read back (`Legible`).
-/
import Dispatch.Proofs.Json.Records
import Dispatch.Proofs.Json.Texts
import Dispatch.Proofs.Timestamps
import Dispatch.Proposal.Wire

namespace Dispatch

open Json Json.Doc Dispatch.Time

/-! ### Identifiers -/

namespace Uuid

theorem mapM_hexDigit (ds : List (Fin 16)) : (ds.map hexDigit).mapM hexValue? = some ds := by
  induction ds with
  | nil => rfl
  | cons d ds ih =>
      rw [List.map_cons, List.mapM_cons, hexValue?_hexDigit, ih]
      rfl

theorem ofPlain?_plainChars (u : Uuid) : ofPlain? u.plainChars = some u := by
  rw [ofPlain?, plainChars, mapM_hexDigit]
  exact dif_pos u.length_digits

/-- Five groups are put together again. -/
theorem ofHyphenated?_groups {a b c d e : List Char} (ha : a.length = 8) (hb : b.length = 4)
    (hc : c.length = 4) (hd : d.length = 4) (he : e.length = 12) :
    ofHyphenated? (a ++ '-' :: b ++ '-' :: c ++ '-' :: d ++ '-' :: e) =
      ofPlain? (a ++ b ++ c ++ d ++ e) := by
  unfold ofHyphenated?
  simp [ha, hb, hc, hd, he, List.drop_append, List.drop_of_length_le]

theorem length_chars (u : Uuid) : u.chars.length = 36 := by
  simp [chars, plainChars, u.length_digits]

theorem ofText?_text (u : Uuid) : ofText? u.text = some u := by
  have hplain : u.plainChars.length = 32 := (List.length_map _).trans u.length_digits
  have hgroups : u.plainChars.take 8 ++ (u.plainChars.drop 8).take 4 ++
      (u.plainChars.drop 12).take 4 ++ (u.plainChars.drop 16).take 4 ++ u.plainChars.drop 20 =
        u.plainChars := by
    rw [← List.take_add, ← List.take_add, ← List.take_add, List.take_append_drop]
  have hread : ofHyphenated? u.chars = some u := by
    rw [chars, ofHyphenated?_groups (by simp [hplain]) (by simp [hplain]) (by simp [hplain])
      (by simp [hplain]) (by simp [hplain]), hgroups, ofPlain?_plainChars]
  rw [ofText?, text, String.toList_ofList, read?, length_chars, if_neg (by decide), if_pos rfl,
    hread]

end Uuid

/-! ### Fields -/

theorem read_string (s : String) : asString (Json.string s).toDoc = .ok s := rfl

theorem read_bool (b : Bool) : asBool (Json.bool b).toDoc = .ok b := rfl

theorem readMatchId_text (id : MatchId) : readMatchId (Json.string id.text).toDoc = .ok id := by
  simp only [readMatchId, toDoc, asParsed, asString, Uuid.ofText?_text]

theorem readInstant_text {t : Instant} (h : t.Regular) :
    Location.readInstant (Json.string t.text).toDoc = .ok t := by
  simp only [Location.readInstant, toDoc, asParsed, asString, Instant.ofText?_text h]

theorem readStatus_name (s : Status) : Status.ofDoc (Json.string s.name).toDoc = .ok s := by
  simp only [Status.ofDoc, toDoc, asName, Status.ofName?_name]

/-! ### Locations -/

namespace Location

/-- The coordinates are read back as the numbers that they are, and so is the time. -/
structure Legible (l : Location) : Prop where
  lat : ReadsBack l.lat
  lng : ReadsBack l.lng
  timestamp : ∀ t, l.timestamp = some t → t.Regular

instance (l : Location) : Decidable l.Legible :=
  decidable_of_iff (ReadsBack l.lat ∧ ReadsBack l.lng ∧ l.timestamp.all fun t => t.Regular) (by
    rw [Option.all_eq_true]
    exact ⟨fun h => ⟨h.1, h.2.1, fun t ht => of_decide_eq_true (h.2.2 t ht)⟩,
      fun h => ⟨h.lat, h.lng, fun t ht => decide_eq_true (h.timestamp t ht)⟩⟩)

variable {l : Location}

/-- The fields of a location. -/
def schema : List Doc.Field :=
  [.of "lat" asFloat, .of "lng" asFloat, .of "timestamp" (asOption readInstant) .defaulted]

/-- The fields that coordinates are written into. -/
def coordinates (l : Location) : List Filled :=
  [.of "lat" asFloat (real l.lat) l.lat.isFinite, .of "lng" asFloat (real l.lng) l.lng.isFinite]

theorem all_coordinates (l : Location) : l.coordinates.all Filled.does = l.isFinite := by
  simp [coordinates, Filled.of, isFinite]

theorem judged_coordinates (h : l.Legible) : ∀ e ∈ l.coordinates, e.Judged := by
  simp only [coordinates, List.forall_mem_cons]
  exact ⟨Filled.judged_of (reads_real h.lat), Filled.judged_of (reads_real h.lng), nofun⟩

/-- The field that a time is written into. -/
def time (t : Instant) : Filled :=
  .of "timestamp" (asOption readInstant) (.string t.text) true .defaulted

/-- **A location is read back, or refused for a coordinate that is no finite number.** -/
theorem reads (h : l.Legible) : Reads ofDoc l.toJson.toDoc l l.isFinite := by
  have hnames : (schema.map Doc.Field.name).Nodup := by simp [schema, Doc.Field.of]
  have hread (hall : l.isFinite = true) : asFloat (real l.lat).toDoc = .ok l.lat ∧
      asFloat (real l.lng).toDoc = .ok l.lng := by
    obtain ⟨hlat, hlng⟩ := (Bool.and_eq_true _ _).mp hall
    exact ⟨(reads_real h.lat).trans (if_pos hlat), (reads_real h.lng).trans (if_pos hlng)⟩
  cases htimestamp : l.timestamp with
  | none =>
      -- the time is not written, and it may be missing
      have hjson : l.toJson = objectOf l.coordinates := by
        rw [toJson, htimestamp]
        rfl
      have hschema : schema = l.coordinates.map Filled.field ++
          [.of "timestamp" (asOption readInstant) .defaulted] := rfl
      refine reads_record l.coordinates _ hjson hschema hnames (judged_coordinates h)
        (by simp [Doc.Field.of]) (all_coordinates l) fun hall => ?_
      obtain ⟨hlat, hlng⟩ := hread hall
      simp [coordinates, Filled.of, Filled.named, Fields.get, List.lookup_cons, Doc.Field.of, hlat,
        hlng, asOption, bind, Except.bind, pure, Except.pure, ← htimestamp]
  | some t =>
      have hjson : l.toJson = objectOf (l.coordinates ++ [time t]) := by
        rw [toJson, htimestamp]
        rfl
      have htime : asOption readInstant (Json.string t.text).toDoc = .ok (some t) := by
        show (readInstant (Json.string t.text).toDoc).map some = .ok (some t)
        rw [readInstant_text (h.timestamp t htimestamp)]
        rfl
      have hschema : schema = (l.coordinates ++ [time t]).map Filled.field ++ [] := rfl
      refine reads_record (l.coordinates ++ [time t]) _ hjson hschema hnames ?_
        (List.forall_mem_nil _) ?_ fun hall => ?_
      · rw [List.forall_mem_append, List.forall_mem_singleton]
        exact ⟨judged_coordinates h, Filled.judged_of (.of_ok htime)⟩
      · rw [List.all_append, all_coordinates]
        exact Bool.and_true _
      · obtain ⟨hlat, hlng⟩ := hread hall
        simp [coordinates, time, Filled.of, Filled.named, Fields.get, List.lookup_cons,
          Doc.Field.of, hlat, hlng, htime, bind, Except.bind, pure, Except.pure, ← htimestamp]

/-- A location that may be missing. -/
theorem reads_target {o : Option Location} (h : ∀ l, o = some l → l.Legible) :
    Reads (asOption ofDoc) (targetJson o).toDoc o (o.all isFinite) :=
  reads_option fun l hl => ⟨nofun, reads (h l hl)⟩

end Location

/-! ### Trips -/

/-- The places of a proposal. -/
structure Trip where
  driver : Location
  passenger : Location
  target : Option Location

namespace Trip

/-- Whether all coordinates are finite. -/
def isFinite (t : Trip) : Bool :=
  t.driver.isFinite && t.passenger.isFinite && t.target.all Location.isFinite

/-- All coordinates are read back as the numbers that they are, and so are the times. -/
structure Legible (t : Trip) : Prop where
  driver : t.driver.Legible
  passenger : t.passenger.Legible
  target : ∀ l, t.target = some l → l.Legible

instance (t : Trip) : Decidable t.Legible :=
  decidable_of_iff (t.driver.Legible ∧ t.passenger.Legible ∧ t.target.all fun l => l.Legible) (by
    rw [Option.all_eq_true]
    exact ⟨fun h => ⟨h.1, h.2.1, fun l hl => of_decide_eq_true (h.2.2 l hl)⟩,
      fun h => ⟨h.driver, h.passenger, fun l hl => decide_eq_true (h.target l hl)⟩⟩)

/-- The fields that places are written into. -/
def entries (t : Trip) : List Filled :=
  [.of "driver_location" Location.ofDoc t.driver.toJson t.driver.isFinite,
    .of "passenger_location" Location.ofDoc t.passenger.toJson t.passenger.isFinite,
    .of "target_location" (asOption Location.ofDoc) (targetJson t.target)
      (t.target.all Location.isFinite) .optional]

variable {t : Trip}

theorem judged (h : t.Legible) : ∀ e ∈ t.entries, e.Judged := by
  simp only [entries, List.forall_mem_cons]
  exact ⟨Filled.judged_of (Location.reads h.driver), Filled.judged_of (Location.reads h.passenger),
    Filled.judged_of (Location.reads_target h.target), nofun⟩

theorem all_does (t : Trip) : t.entries.all Filled.does = t.isFinite := by
  simp [entries, Filled.of, isFinite, Bool.and_assoc]

/-- What is finite is read. -/
theorem reads (h : t.Legible) (hfinite : t.isFinite = true) :
    Location.ofDoc t.driver.toJson.toDoc = .ok t.driver ∧
      Location.ofDoc t.passenger.toJson.toDoc = .ok t.passenger ∧
      asOption Location.ofDoc (targetJson t.target).toDoc = .ok t.target := by
  rw [isFinite, Bool.and_eq_true, Bool.and_eq_true] at hfinite
  obtain ⟨⟨hdriver, hpassenger⟩, htarget⟩ := hfinite
  exact ⟨(Location.reads h.driver).trans (if_pos hdriver),
    (Location.reads h.passenger).trans (if_pos hpassenger),
    (Location.reads_target h.target).trans (if_pos htarget)⟩

end Trip

/-! ### Records -/

theorem judged_string (name s : String) : (Filled.of name asString (.string s) true).Judged :=
  Filled.judged_of (.of_ok (read_string s))

theorem judged_instant {t : Instant} (h : t.Regular) (name : String) :
    (Filled.of name Location.readInstant (.string t.text) true).Judged :=
  Filled.judged_of (.of_ok (readInstant_text h))

theorem judged_matchId (name : String) (id : MatchId) :
    (Filled.of name readMatchId (.string id.text) true).Judged :=
  Filled.judged_of (.of_ok (readMatchId_text id))

namespace Draft

/-- The places of a draft. -/
def trip (d : Draft) : Trip := ⟨d.driverLocation, d.passengerLocation, d.targetLocation⟩

/-- The fields that a draft is written into. -/
def entries (d : Draft) : List Filled :=
  [.of "driver_id" asString (.string d.driverId) true,
    .of "passenger_id" asString (.string d.passengerId) true] ++ d.trip.entries

/-- **A draft is read back, or refused for a coordinate that is no finite number.** -/
theorem reads {d : Draft} (h : d.trip.Legible) : Reads ofDoc d.toJson.toDoc d d.trip.isFinite := by
  have hnames : (schema.map Doc.Field.name).Nodup := by simp [schema, Doc.Field.of]
  refine reads_record d.entries [] (show d.toJson = objectOf d.entries from rfl)
    (show schema = d.entries.map Filled.field ++ [] from rfl) hnames ?_ nofun ?_ fun hall => ?_
  · simp only [entries, List.forall_mem_append, List.forall_mem_cons]
    exact ⟨⟨judged_string _ _, judged_string _ _, nofun⟩, Trip.judged h⟩
  · rw [entries, List.all_append, Trip.all_does]
    rfl
  · obtain ⟨hdriver, hpassenger, htarget⟩ := Trip.reads h hall
    dsimp only [trip] at hdriver hpassenger htarget
    simp [entries, Trip.entries, trip, Filled.of, Filled.named, Fields.get, List.lookup_cons,
      Doc.Field.of, read_string, hdriver, hpassenger, htarget, bind, Except.bind, pure, Except.pure]

end Draft

namespace Proposal

/-- The places of a proposal. -/
def trip (p : Proposal) : Trip := ⟨p.driverLocation, p.passengerLocation, p.targetLocation⟩

/-- The fields that a proposal is written into. -/
def entries (p : Proposal) : List Filled :=
  [.of "id" readMatchId (.string p.id.text) true,
    .of "driver_id" asString (.string p.driverId) true,
    .of "passenger_id" asString (.string p.passengerId) true] ++ p.trip.entries ++
  [.of "status" Status.ofDoc (.string p.status.name) true,
    .of "driver_confirmed" asBool (.bool p.driverConfirmed) true,
    .of "passenger_confirmed" asBool (.bool p.passengerConfirmed) true,
    .of "created_at" Location.readInstant (.string p.createdAt.text) true,
    .of "updated_at" Location.readInstant (.string p.updatedAt.text) true]

/-- **A proposal is read back, or refused for a coordinate that is no finite number.** -/
theorem reads {p : Proposal} (h : p.trip.Legible) (hcreated : p.createdAt.Regular)
    (hupdated : p.updatedAt.Regular) : Reads ofDoc p.toJson.toDoc p p.trip.isFinite := by
  have hnames : (schema.map Doc.Field.name).Nodup := by simp [schema, Doc.Field.of]
  refine reads_record p.entries [] (show p.toJson = objectOf p.entries from rfl)
    (show schema = p.entries.map Filled.field ++ [] from rfl) hnames ?_ nofun ?_ fun hall => ?_
  · simp only [entries, List.forall_mem_append, List.forall_mem_cons]
    exact ⟨⟨⟨judged_matchId _ _, judged_string _ _, judged_string _ _, nofun⟩, Trip.judged h⟩,
      Filled.judged_of (.of_ok (readStatus_name _)), Filled.judged_of (.of_ok (read_bool _)),
      Filled.judged_of (.of_ok (read_bool _)), judged_instant hcreated _,
      judged_instant hupdated _, nofun⟩
  · rw [entries, List.all_append, List.all_append, Trip.all_does]
    exact Bool.and_true _
  · obtain ⟨hdriver, hpassenger, htarget⟩ := Trip.reads h hall
    dsimp only [trip] at hdriver hpassenger htarget
    simp [entries, Trip.entries, trip, Filled.of, Filled.named, Fields.get, List.lookup_cons,
      Doc.Field.of, read_string, hdriver, hpassenger, htarget, readMatchId_text, readStatus_name,
      read_bool, readInstant_text hcreated, readInstant_text hupdated, bind, Except.bind, pure,
      Except.pure]

end Proposal

namespace Accepted

/-- The places of an accepted proposal. -/
def trip (a : Accepted) : Trip := ⟨a.driverLocation, a.passengerLocation, a.targetLocation⟩

/-- The fields that an acceptance event is written into. -/
def entries (a : Accepted) : List Filled :=
  [.of "match_id" readMatchId (.string a.matchId.text) true,
    .of "driver_id" asString (.string a.driverId) true,
    .of "passenger_id" asString (.string a.passengerId) true] ++ a.trip.entries ++
  [.of "accepted_at" Location.readInstant (.string a.acceptedAt.text) true]

/-- **An acceptance event is read back, or refused for a coordinate that is no finite number.** -/
theorem reads {a : Accepted} (h : a.trip.Legible) (haccepted : a.acceptedAt.Regular) :
    Reads ofDoc a.toJson.toDoc a a.trip.isFinite := by
  have hnames : (schema.map Doc.Field.name).Nodup := by simp [schema, Doc.Field.of]
  refine reads_record a.entries [] (show a.toJson = objectOf a.entries from rfl)
    (show schema = a.entries.map Filled.field ++ [] from rfl) hnames ?_ nofun ?_ fun hall => ?_
  · simp only [entries, List.forall_mem_append, List.forall_mem_cons]
    exact ⟨⟨⟨judged_matchId _ _, judged_string _ _, judged_string _ _, nofun⟩, Trip.judged h⟩,
      judged_instant haccepted _, nofun⟩
  · rw [entries, List.all_append, List.all_append, Trip.all_does]
    exact Bool.and_true _
  · obtain ⟨hdriver, hpassenger, htarget⟩ := Trip.reads h hall
    dsimp only [trip] at hdriver hpassenger htarget
    simp [entries, Trip.entries, trip, Filled.of, Filled.named, Fields.get, List.lookup_cons,
      Doc.Field.of, read_string, hdriver, hpassenger, htarget, readMatchId_text,
      readInstant_text haccepted, bind, Except.bind, pure, Except.pure]

end Accepted

end Dispatch
