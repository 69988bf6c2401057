/-
Finite maps that remember the order in which their keys arrived.

A `Table` is a list of entries with distinct keys.  Writing a key that is present
replaces its entry where it stands, and writing a new one appends it, so the
entries of a table read like a log of first arrivals.  Distinctness is part of the
type: looking a key up and searching the entries say the same.
-/
namespace Dispatch

/-- A finite map from `κ` to `α`, as its entries in order of arrival. -/
structure Table (κ α : Type) where
  /-- the entries, oldest key first -/
  entries : List (κ × α) := []
  /-- no key occurs twice -/
  nodup_keys : (entries.map Prod.fst).Nodup := by exact List.nodup_nil
  deriving DecidableEq

namespace Table

variable {κ α : Type} [DecidableEq κ]

instance : EmptyCollection (Table κ α) := ⟨⟨[], List.nodup_nil⟩⟩
instance : Inhabited (Table κ α) := ⟨∅⟩

/-! ### The operations on entry lists -/

/-- The value of the first entry under `k`. -/
def lookupIn (k : κ) : List (κ × α) → Option α
  | [] => none
  | (k', a) :: rest => if k' = k then some a else lookupIn k rest

/-- Replaces the entry under `k`, or appends one. -/
def putIn (k : κ) (a : α) : List (κ × α) → List (κ × α)
  | [] => [(k, a)]
  | (k', a') :: rest => if k' = k then (k, a) :: rest else (k', a') :: putIn k a rest

theorem mem_keys_putIn {k x : κ} {a : α} {l : List (κ × α)} :
    x ∈ (putIn k a l).map Prod.fst ↔ x = k ∨ x ∈ l.map Prod.fst := by
  induction l with
  | nil => simp [putIn]
  | cons e rest ih =>
    obtain ⟨k', a'⟩ := e
    by_cases h : k' = k
    · subst h; simp [putIn]
    · simp only [putIn, if_neg h, List.map_cons, List.mem_cons, ih]
      exact ⟨fun h => h.elim (fun h => .inr (.inl h)) (·.elim .inl (.inr ∘ .inr)),
        fun h => h.elim (.inr ∘ .inl) (·.elim .inl (.inr ∘ .inr))⟩

theorem nodup_putIn {k : κ} {a : α} {l : List (κ × α)} (h : (l.map Prod.fst).Nodup) :
    ((putIn k a l).map Prod.fst).Nodup := by
  induction l with
  | nil => simp [putIn]
  | cons e rest ih =>
    obtain ⟨k', a'⟩ := e
    rw [List.map_cons, List.nodup_cons] at h
    by_cases hk : k' = k
    · subst hk; simpa [putIn] using h
    · simp only [putIn, if_neg hk, List.map_cons, List.nodup_cons]
      refine ⟨fun hm => ?_, ih h.2⟩
      rcases mem_keys_putIn.1 hm with he | he
      · exact hk he
      · exact h.1 he

theorem lookupIn_putIn_self {k : κ} {a : α} {l : List (κ × α)} :
    lookupIn k (putIn k a l) = some a := by
  induction l with
  | nil => simp [putIn, lookupIn]
  | cons e rest ih =>
    obtain ⟨k', a'⟩ := e
    by_cases hk : k' = k <;> simp [putIn, lookupIn, hk, ih]

theorem lookupIn_putIn_of_ne {k x : κ} {a : α} {l : List (κ × α)} (h : x ≠ k) :
    lookupIn x (putIn k a l) = lookupIn x l := by
  induction l with
  | nil => simp [putIn, lookupIn, Ne.symm h]
  | cons e rest ih =>
    obtain ⟨k', a'⟩ := e
    by_cases hk : k' = k
    · subst hk; simp [putIn, lookupIn, Ne.symm h]
    · simp only [putIn, if_neg hk, lookupIn, ih]

/-! ### The map -/

/-- The value under `k`, if there is one. -/
def find? (t : Table κ α) (k : κ) : Option α := lookupIn k t.entries

/-- Whether there is an entry under `k`. -/
def contains (t : Table κ α) (k : κ) : Bool := (t.find? k).isSome

/-- Writes the entry under `k`. -/
def insert (t : Table κ α) (k : κ) (a : α) : Table κ α where
  entries := putIn k a t.entries
  nodup_keys := nodup_putIn t.nodup_keys

/-- Drops the entry under `k`, if there is one. -/
def erase (t : Table κ α) (k : κ) : Table κ α where
  entries := t.entries.filter fun e => decide (e.1 ≠ k)
  nodup_keys := (List.filter_sublist.map Prod.fst).nodup t.nodup_keys

/-- The keys in order of arrival. -/
def keys (t : Table κ α) : List κ := t.entries.map Prod.fst

/-- The values in order of their keys' arrival. -/
def values (t : Table κ α) : List α := t.entries.map Prod.snd

/-- How many entries there are. -/
def size (t : Table κ α) : Nat := t.entries.length

@[simp] theorem find?_empty (k : κ) : (∅ : Table κ α).find? k = none := rfl

@[simp] theorem find?_insert_self (t : Table κ α) (k : κ) (a : α) :
    (t.insert k a).find? k = some a := lookupIn_putIn_self

theorem find?_insert_of_ne (t : Table κ α) {k x : κ} (a : α) (h : x ≠ k) :
    (t.insert k a).find? x = t.find? x := lookupIn_putIn_of_ne h

theorem find?_insert (t : Table κ α) (k x : κ) (a : α) :
    (t.insert k a).find? x = if x = k then some a else t.find? x := by
  by_cases h : x = k
  · subst h; simp
  · simp [h, find?_insert_of_ne]

theorem find?_erase (t : Table κ α) (k x : κ) :
    (t.erase k).find? x = if x = k then none else t.find? x := by
  obtain ⟨l, hl⟩ := t
  simp only [find?, erase]
  clear hl
  induction l with
  | nil => simp [lookupIn]
  | cons e rest ih =>
    obtain ⟨k', a'⟩ := e
    by_cases hk : k' = k
    · subst hk
      rw [List.filter_cons_of_neg (by simp), ih]
      by_cases hx : x = k'
      · simp [hx]
      · simp [lookupIn, hx, Ne.symm hx]
    · rw [List.filter_cons_of_pos (by simp [hk])]
      by_cases hx : k' = x
      · subst hx; simp [lookupIn, hk]
      · rw [lookupIn, lookupIn, if_neg hx, if_neg hx, ih]

/-- What has been written under a key is gone when the key is dropped. -/
theorem erase_insert_self (t : Table κ α) (k : κ) (a : α) : (t.insert k a).erase k = t.erase k := by
  obtain ⟨l, hl⟩ := t
  simp only [insert, erase, mk.injEq]
  clear hl
  induction l with
  | nil => simp [putIn]
  | cons e rest ih =>
    obtain ⟨k', a'⟩ := e
    by_cases hk : k' = k
    · simp [putIn, hk]
    · simp only [putIn, if_neg hk, List.filter_cons, ih]

/-- What is written twice under a key is what has been written last. -/
theorem insert_insert_self (t : Table κ α) (k : κ) (a b : α) :
    (t.insert k a).insert k b = t.insert k b := by
  obtain ⟨l, hl⟩ := t
  simp only [insert, mk.injEq]
  clear hl
  induction l with
  | nil => simp [putIn]
  | cons e rest ih =>
    obtain ⟨k', a'⟩ := e
    by_cases hk : k' = k
    · simp [putIn, hk]
    · simp only [putIn, if_neg hk, ih]

/-- Writing one key and dropping another can be done in either order. -/
theorem erase_insert_of_ne (t : Table κ α) {k x : κ} (a : α) (h : x ≠ k) :
    (t.insert k a).erase x = (t.erase x).insert k a := by
  obtain ⟨l, hl⟩ := t
  simp only [insert, erase, mk.injEq]
  clear hl
  induction l with
  | nil => simp [putIn, Ne.symm h]
  | cons e rest ih =>
    obtain ⟨k', a'⟩ := e
    by_cases hk : k' = k
    · subst hk
      simp [putIn, Ne.symm h]
    · rw [putIn, if_neg hk, List.filter_cons, List.filter_cons, ih]
      split
      · rw [putIn, if_neg hk]
      · rfl

/-- Dropping a key that is not there changes nothing. -/
theorem erase_of_find?_eq_none (t : Table κ α) {k : κ} (h : t.find? k = none) : t.erase k = t := by
  obtain ⟨l, hl⟩ := t
  simp only [find?] at h
  simp only [erase, mk.injEq]
  clear hl
  induction l with
  | nil => rfl
  | cons e rest ih =>
    obtain ⟨k', a'⟩ := e
    by_cases hk : k' = k
    · simp [lookupIn, hk] at h
    · rw [lookupIn, if_neg hk] at h
      rw [List.filter_cons_of_pos (by simpa using hk), ih h]

/-- The entries are exactly what a look-up finds. -/
theorem find?_eq_some_iff (t : Table κ α) {k : κ} {a : α} :
    t.find? k = some a ↔ (k, a) ∈ t.entries := by
  obtain ⟨l, hl⟩ := t
  simp only [find?]
  induction l with
  | nil => simp [lookupIn]
  | cons e rest ih =>
    obtain ⟨k', a'⟩ := e
    rw [List.map_cons, List.nodup_cons] at hl
    by_cases hk : k' = k
    · subst hk
      simp only [lookupIn, if_true, Option.some.injEq, List.mem_cons, Prod.mk.injEq, true_and]
      refine ⟨fun h => .inl h.symm, fun h => h.elim Eq.symm fun h => ?_⟩
      exact absurd (List.mem_map.2 ⟨_, h, rfl⟩) hl.1
    · simp [lookupIn, hk, ih hl.2, Ne.symm hk]

theorem mem_keys_iff (t : Table κ α) {k : κ} : k ∈ t.keys ↔ (t.find? k).isSome := by
  rw [keys, List.mem_map]
  constructor
  · rintro ⟨⟨k', a⟩, h, rfl⟩
    rw [t.find?_eq_some_iff.2 h]; rfl
  · intro h
    obtain ⟨a, ha⟩ := Option.isSome_iff_exists.1 h
    exact ⟨_, t.find?_eq_some_iff.1 ha, rfl⟩

end Table
end Dispatch
