/-
What partial failures leave of a ride's bindings.

A ride is bound with two writes and unbound with two deletions, and either of the two can fail by itself,
because its key cannot be written or the cache cannot be reached.  Nothing is undone.  So binding can leave
the driver's side without the passenger's, but never the other way round, and this is all that a failure
leaves behind (`BindLeaves`).  Unbinding tries both sides and reports exactly those that it has cleared
(`UnbindLeaves`).

Whatever has been left by any of this, one unbinding that does not fail clears both sides of its pair, and
nobody else's binding is touched on the way (`residue_exact`).
-/
import Dispatch.Proofs.Rides.Registry

namespace Dispatch

open Dispatch.Time

namespace Table

variable {κ α : Type} [DecidableEq κ] {p : Prop} [Decidable p]

theorem find?_insert_if (t : Table κ α) (k x : κ) (a : α) :
    (if p then t.insert k a else t).find? x = if x = k ∧ p then some a else t.find? x := by
  by_cases hp : p
  · rw [if_pos hp, find?_insert]
    exact if_congr (and_iff_left hp).symm rfl rfl
  · rw [if_neg hp, if_neg fun h => hp h.2]

theorem find?_erase_if (t : Table κ α) (k x : κ) :
    (if p then t.erase k else t).find? x = if x = k ∧ p then none else t.find? x := by
  by_cases hp : p
  · rw [if_pos hp, find?_erase]
    exact if_congr (and_iff_left hp).symm rfl rfl
  · rw [if_neg hp, if_neg fun h => hp h.2]

end Table

namespace Lifetime

/-- A lifetime has begun at one instant and has not ended at another. -/
def Lasts (d : Lifetime) (since now : Instant) : Prop := ∀ t ∈ d.endsAt? since, now < t

variable {d : Lifetime} {since now : Instant}

theorem isLive_iff_lasts {v : String} :
    (RideEntry.mk v (d.endsAt? since)).isLive now = true ↔ d.Lasts since now := by
  unfold Lasts
  generalize d.endsAt? since = expiresAt
  cases expiresAt with
  | none => exact iff_of_true rfl nofun
  | some t => exact decide_eq_true_iff.trans ⟨fun h u hu => Option.some.inj hu ▸ h, fun h => h t rfl⟩

instance : Decidable (d.Lasts since now) := decidable_of_iff _ (isLive_iff_lasts (v := ""))

/-- Outside leap seconds a lifetime lasts until its deadline. -/
theorem lasts_iff_lt_deadline (hsince : since.Shown) (hnow : now.Shown) :
    d.Lasts since now ↔ now.toNanos < d.deadline since :=
  isLive_iff_lasts.symm.trans (d.isLive_iff "" hsince hnow)

end Lifetime

namespace Rides

/-! ### One call -/

/-- A look-up in a cache that can be reached finds what is live. -/
theorem run_lookup {c : RideCache} (h : c.offline = false) (now : Instant) (role : Role) (id : ActorId) :
    (lookup role id).run (RideCache.perform now) c =
      (.done (.ok (((kept c role id).filter (·.isLive now)).map (·.value))),
        (c.get now (bindingKey role id)).2) := by
  have hget : RideCache.perform now (.get (bindingKey role id)) c =
      .answer (.ok (c.get now (bindingKey role id)).1) (c.get now (bindingKey role id)).2 := by
    rw [RideCache.perform, h]
    rfl
  rw [lookup, attempt, Program.run_call, hget, get_fst]
  rfl

/-- What a call meets: the time, whether the cache cannot be reached, and the keys that cannot be
written. -/
structure Condition where
  now : Instant
  offline : Bool := false
  failing : List String := []

namespace Condition

variable (k : Condition) (c : RideCache) (key : String)

/-- A key can be written. -/
def Writes : Prop := k.offline = false ∧ key ∉ k.failing

instance : Decidable (k.Writes key) := inferInstanceAs (Decidable (_ ∧ _))

/-- How the cache takes a call. -/
def perform : Handler RideCall.Reply RideCache := fun call c =>
  RideCache.perform k.now call { c with offline := k.offline, failing := k.failing }

/-- A call fails exactly if its key cannot be written. -/
theorem fault_cases :
    (k.Writes key ∧ RideCache.fault? { c with offline := k.offline, failing := k.failing } key = none) ∨
      (¬ k.Writes key ∧
        ∃ e, RideCache.fault? { c with offline := k.offline, failing := k.failing } key = some e) := by
  unfold RideCache.fault? Writes
  cases k.offline with
  | true => exact .inr ⟨(nomatch ·.1), .ridesOffline, rfl⟩
  | false =>
      by_cases hkey : key ∈ k.failing
      · exact .inr ⟨fun h => h.2 hkey, _, if_pos hkey⟩
      · exact .inl ⟨⟨rfl, hkey⟩, if_neg hkey⟩

/-- A key is written if it can be, and otherwise nothing happens. -/
theorem set_takes (v : String) (ttl : Lifetime) : ∃ r c', k.perform (.set key v ttl) c = .answer r c' ∧
    ((∃ u, r = .ok u) ↔ k.Writes key) ∧ c'.entries =
      if k.Writes key then c.entries.insert key ⟨v, ttl.endsAt? k.now⟩ else c.entries := by
  rw [perform, RideCache.perform]
  rcases k.fault_cases c key with ⟨hwrites, hfault⟩ | ⟨hwrites, e, hfault⟩ <;> rw [hfault]
  · exact ⟨.ok (), _, rfl, iff_of_true ⟨(), rfl⟩ hwrites, (if_pos hwrites).symm⟩
  · exact ⟨.error e, _, rfl, iff_of_false (by simp) hwrites, (if_neg hwrites).symm⟩

/-- An entry is removed if its key can be written, and otherwise nothing happens. -/
theorem delete_takes : ∃ r c', k.perform (.delete key) c = .answer r c' ∧
    ((∃ b, r = .ok b) ↔ k.Writes key) ∧ c'.entries =
      if k.Writes key then c.entries.erase key else c.entries := by
  rw [perform, RideCache.perform]
  rcases k.fault_cases c key with ⟨hwrites, hfault⟩ | ⟨hwrites, e, hfault⟩ <;> rw [hfault]
  · exact ⟨.ok (c.entries.contains key), _, rfl, iff_of_true ⟨_, rfl⟩ hwrites, (if_pos hwrites).symm⟩
  · exact ⟨.error e, _, rfl, iff_of_false (by simp) hwrites, (if_neg hwrites).symm⟩

theorem lookup_finds (h : k.offline = false) (role : Role) (id : ActorId) :
    ((lookup role id).run k.perform c).1.result?
      = some (.ok (((kept c role id).filter (·.isLive k.now)).map (·.value))) := by
  have hrun : (lookup role id).run k.perform c = (lookup role id).run (RideCache.perform k.now)
      { c with offline := k.offline, failing := k.failing } := by
    rw [lookup, attempt, Program.run_call, Program.run_call, perform]
    cases RideCache.perform k.now _ _ with
    | wait c' => rfl
    | answer r c' => cases r <;> rfl
  rw [hrun, run_lookup h]
  rfl

end Condition

/-! ### Two calls -/

section

variable {α : Type} (p : RideProgram α) (k k' : Condition) (c : RideCache)

/-- What comes of a program of two calls at most, and what the cache is afterwards. -/
def inTurn : Option α × RideCache :=
  let (p, c) := p.step k.perform c
  let (p, c) := p.step k'.perform c
  (p.result?, c)

/-- The first of two for the driver's side, the second one for the passenger's. -/
def sideOf {β : Type} (driver passenger : β) : Role → β
  | .driver => driver
  | .passenger => passenger

/-- The key of one side of a pair. -/
def sideKey (driver passenger : ActorId) (role : Role) : String :=
  bindingKey role (partyOf driver passenger role)

end

variable {c : RideCache} {driver passenger : ActorId} {ride : RideId} {ttl : Lifetime} {k k' : Condition}

/-- What binding a ride comes to: its answer, and the cache before and after it. -/
structure BindLeaves (driver passenger : ActorId) (ride : RideId) (ttl : Lifetime) (k k' : Condition)
    (c : RideCache) (r : Except ServiceError Unit) (c' : RideCache) : Prop where
  /-- it succeeds exactly if there is a ride and both keys can be written -/
  succeeds : r = .ok () ↔ Text.isBlank ride = false ∧
    k.Writes (bindingKey .driver driver) ∧ k'.Writes (bindingKey .passenger passenger)
  /-- then both sides are found as long as the lifetime lasts -/
  found : r = .ok () → ∀ (role : Role) (later : Condition), later.offline = false →
    ((lookup role (partyOf driver passenger role)).run later.perform c').1.result?
      = some (.ok (if ttl.Lasts (sideOf k.now k'.now role) later.now then some ride else none))
  /-- if it fails nothing is left but the driver's side, and only if the passenger's has failed -/
  residue : r ≠ .ok () → ∀ key, c'.entries.find? key ≠ c.entries.find? key →
    key = bindingKey .driver driver ∧ Text.isBlank ride = false ∧ k.Writes key ∧
      ¬ k'.Writes (bindingKey .passenger passenger)
  others : ∀ key, (∀ role, key ≠ sideKey driver passenger role) →
    c'.entries.find? key = c.entries.find? key

/-- What unbinding a pair comes to: its report, and the cache before and after it. -/
structure UnbindLeaves (driver passenger : ActorId) (k k' : Condition) (c : RideCache) (u : Unbinding)
    (c' : RideCache) : Prop where
  /-- a side is reported clear exactly if its key can be written, whatever comes of the other side -/
  reports : ∀ role, sideOf u.driverCleared u.passengerCleared role = true ↔
    (sideOf k k' role).Writes (sideKey driver passenger role)
  /-- a side that is clear has no entry, and one that is not has the entry that it had -/
  leaves : ∀ role, c'.entries.find? (sideKey driver passenger role) =
    if sideOf u.driverCleared u.passengerCleared role then none
    else c.entries.find? (sideKey driver passenger role)
  others : ∀ key, (∀ role, key ≠ sideKey driver passenger role) →
    c'.entries.find? key = c.entries.find? key

/-! ### Binding -/

/-- What is found once a ride has been bound, given which of the two sides could be written. -/
theorem bind_finds (hride : Text.isBlank ride = false) (driver passenger : ActorId) (ttl : Lifetime)
    (k k' : Condition) (c : RideCache) :
    ∃ r c', inTurn (bind driver passenger ride ttl) k k' c = (some r, c') ∧
      (r = .ok () ↔ k.Writes (bindingKey .driver driver) ∧ k'.Writes (bindingKey .passenger passenger)) ∧
      ∀ key, c'.entries.find? key =
        if key = bindingKey .passenger passenger ∧
            k.Writes (bindingKey .driver driver) ∧ k'.Writes (bindingKey .passenger passenger) then
          some ⟨ride, ttl.endsAt? k'.now⟩
        else if key = bindingKey .driver driver ∧ k.Writes (bindingKey .driver driver) then
          some ⟨ride, ttl.endsAt? k.now⟩
        else c.entries.find? key := by
  obtain ⟨r₁, c₁, h₁, hr₁, he₁⟩ := k.set_takes c (bindingKey .driver driver) ride ttl
  cases r₁ with
  | error e =>
      have hwrites : ¬ k.Writes (bindingKey .driver driver) := by simp [← hr₁]
      refine ⟨.error (.cache e), c₁, ?_, iff_of_false (by simp) fun h => hwrites h.1, fun key => ?_⟩
      · simp [inTurn, bind, attempt, hride, Program.step, Program.result?, h₁]
      · rw [he₁, Table.find?_insert_if, if_neg fun h : _ ∧ _ ∧ _ => hwrites h.2.1]
  | ok u =>
      have hwrites : k.Writes (bindingKey .driver driver) := hr₁.mp ⟨u, rfl⟩
      obtain ⟨r₂, c₂, h₂, hr₂, he₂⟩ := k'.set_takes c₁ (bindingKey .passenger passenger) ride ttl
      have hfinds : ∀ key, c₂.entries.find? key = _ := fun key => by
        rw [he₂, Table.find?_insert_if, he₁, Table.find?_insert_if,
          ← if_congr (and_congr_right' (and_iff_right hwrites)) rfl rfl]
      cases r₂ with
      | error e =>
          refine ⟨.error (.cache e), c₂, ?_, iff_of_false (by simp) (by simp [← hr₂]), hfinds⟩
          simp [inTurn, bind, attempt, hride, Program.step, Program.result?, h₁, h₂]
      | ok u' =>
          refine ⟨.ok (), c₂, ?_, iff_of_true rfl ⟨hwrites, hr₂.mp ⟨u', rfl⟩⟩, hfinds⟩
          simp [inTurn, bind, attempt, hride, Program.step, Program.result?, h₁, h₂]

theorem find_live (v : String) (ttl : Lifetime) (since now : Instant) :
    ((some (RideEntry.mk v (ttl.endsAt? since))).filter (·.isLive now)).map (·.value)
      = if ttl.Lasts since now then some v else none := by
  have hlasts : (RideEntry.mk v (ttl.endsAt? since)).isLive now = true ↔ ttl.Lasts since now :=
    Lifetime.isLive_iff_lasts
  by_cases h : ttl.Lasts since now
  · rw [Option.filter_some, if_pos (hlasts.mpr h), if_pos h]
    rfl
  · rw [Option.filter_some, if_neg (mt hlasts.mp h), if_neg h]
    rfl

/-- **Binding leaves the driver's side at most**, unless it succeeds. -/
theorem bind_leaves (driver passenger : ActorId) (ride : RideId) (ttl : Lifetime) (k k' : Condition)
    (c : RideCache) : ∃ r c', inTurn (bind driver passenger ride ttl) k k' c = (some r, c') ∧
      BindLeaves driver passenger ride ttl k k' c r c' := by
  cases hride : Text.isBlank ride with
  | true =>
      have hrun : inTurn (bind driver passenger ride ttl) k k' c = (some (.error (.refused .emptyRide)), c) := by
        simp [inTurn, bind, hride, Program.step, Program.result?]
      refine ⟨_, _, hrun, iff_of_false (by simp) fun h => ?_, by simp, fun _ _ h => absurd rfl h,
        fun _ _ => rfl⟩
      rw [hride] at h
      cases h.1
  | false =>
      have hne : bindingKey .driver driver ≠ bindingKey .passenger passenger := by simp [bindingKey_inj]
      obtain ⟨r, c', hrun, hr, hfinds⟩ := bind_finds hride driver passenger ttl k k' c
      refine ⟨r, c', hrun, by rw [hr, and_iff_right hride], fun hok role later honline => ?_,
        fun herror key hchanged => ?_, fun key hkey => ?_⟩
      · have hwrites := hr.mp hok
        have hkept : kept c' role (partyOf driver passenger role)
            = some ⟨ride, ttl.endsAt? (sideOf k.now k'.now role)⟩ := by
          rw [kept, hfinds]
          cases role with
          | driver => exact (if_neg fun h => hne h.1).trans (if_pos ⟨rfl, hwrites.1⟩)
          | passenger => exact if_pos ⟨rfl, hwrites⟩
        rw [later.lookup_finds c' honline, hkept, find_live]
      · rw [hfinds, if_neg fun h => herror (hr.mpr h.2)] at hchanged
        by_cases hdriver : key = bindingKey .driver driver ∧ k.Writes (bindingKey .driver driver)
        · obtain ⟨rfl, hwrites⟩ := hdriver
          exact ⟨rfl, hride, hwrites, fun h => herror (hr.mpr ⟨hwrites, h⟩)⟩
        · exact absurd (if_neg hdriver) hchanged
      · rw [hfinds, if_neg fun h => hkey .passenger h.1, if_neg fun h => hkey .driver h.1]

/-! ### Unbinding -/

/-- **Unbinding clears what it reports**, and nothing else. -/
theorem unbind_leaves (driver passenger : ActorId) (k k' : Condition) (c : RideCache) :
    ∃ u c', inTurn (unbind driver passenger) k k' c = (some u, c') ∧
      UnbindLeaves driver passenger k k' c u c' := by
  obtain ⟨r₁, c₁, h₁, hr₁, he₁⟩ := k.delete_takes c (bindingKey .driver driver)
  obtain ⟨r₂, c₂, h₂, hr₂, he₂⟩ := k'.delete_takes c₁ (bindingKey .passenger passenger)
  have hrun : inTurn (unbind driver passenger) k k' c = (some ⟨r₁.toBool, r₂.toBool⟩, c₂) := by
    cases r₁ <;> cases r₂ <;> simp [inTurn, unbind, clear, Program.step, Program.result?, h₁, h₂, Except.toBool]
  have hok : ∀ {ε ρ : Type} (r : Except ε ρ), r.toBool = true ↔ ∃ b, r = .ok b := by
    intro ε ρ r
    cases r <;> simp [Except.toBool]
  have hreports : ∀ role, sideOf r₁.toBool r₂.toBool role = true ↔
      (sideOf k k' role).Writes (sideKey driver passenger role) := by
    intro role
    cases role with
    | driver => exact (hok r₁).trans hr₁
    | passenger => exact (hok r₂).trans hr₂
  have hfind : ∀ key, c₂.entries.find? key =
      if key = bindingKey .passenger passenger ∧ k'.Writes (bindingKey .passenger passenger) then none
      else if key = bindingKey .driver driver ∧ k.Writes (bindingKey .driver driver) then none
      else c.entries.find? key := by
    intro key
    rw [he₂, Table.find?_erase_if, he₁, Table.find?_erase_if]
  refine ⟨_, _, hrun, hreports, fun role => ?_, fun key hkey => ?_⟩
  · rw [hfind, if_congr (hreports role) rfl rfl]
    cases role with
    | driver =>
        have hkey : sideKey driver passenger .driver ≠ bindingKey .passenger passenger := by
          simp [sideKey, bindingKey_inj]
        rw [if_neg fun h => hkey h.1]
        exact if_congr (and_iff_right rfl) rfl rfl
    | passenger =>
        have hkey : sideKey driver passenger .passenger ≠ bindingKey .driver driver := by
          simp [sideKey, bindingKey_inj]
        rw [if_neg fun h : _ ∧ k.Writes _ => hkey h.1]
        exact if_congr (and_iff_right rfl) rfl rfl
  · rw [hfind, if_neg fun h => hkey .passenger h.1, if_neg fun h => hkey .driver h.1]

/-! ### Runs -/

/-- A ride that is bound or unbound. -/
inductive Change where
  | bind (driver passenger : ActorId) (ride : RideId) (ttl : Lifetime)
  | unbind (driver passenger : ActorId)

/-- A change that is tried, with what its two calls meet. -/
structure Trial where
  change : Change
  first : Condition
  second : Condition

namespace Trial

/-- The cache after a change has been tried. -/
def after (c : RideCache) (t : Trial) : RideCache :=
  match t.change with
  | .bind driver passenger ride ttl => (inTurn (Rides.bind driver passenger ride ttl) t.first t.second c).2
  | .unbind driver passenger => (inTurn (Rides.unbind driver passenger) t.first t.second c).2

/-- A key of one of the two actors that a change is about. -/
def Names (t : Trial) (key : String) : Prop :=
  match t.change with
  | .bind driver passenger _ _ | .unbind driver passenger => ∃ role, key = sideKey driver passenger role

/-- A change leaves everybody else's binding as it is. -/
theorem find?_after {t : Trial} {key : String} (h : ¬ t.Names key) (c : RideCache) :
    (t.after c).entries.find? key = c.entries.find? key := by
  obtain ⟨change, first, second⟩ := t
  cases change with
  | bind driver passenger ride ttl =>
      obtain ⟨r, c', hrun, hleaves⟩ := bind_leaves driver passenger ride ttl first second c
      dsimp only [after]
      rw [hrun]
      exact hleaves.others key fun role hkey => h ⟨role, hkey⟩
  | unbind driver passenger =>
      obtain ⟨u, c', hrun, hleaves⟩ := unbind_leaves driver passenger first second c
      dsimp only [after]
      rw [hrun]
      exact hleaves.others key fun role hkey => h ⟨role, hkey⟩

end Trial

/-- Whoever is not named in a run keeps his binding throughout. -/
theorem find?_states {trials : List Trial} {key : String} (h : ∀ t ∈ trials, ¬ t.Names key) :
    ∀ c' ∈ Run.states Trial.after c trials, c'.entries.find? key = c.entries.find? key := by
  induction trials generalizing c with
  | nil =>
      intro c' hc'
      rw [List.mem_singleton.mp hc']
  | cons t rest ih =>
      obtain ⟨ht, hrest⟩ := List.forall_mem_cons.mp h
      intro c' hc'
      rcases List.mem_cons.mp hc' with rfl | hc'
      · rfl
      · rw [ih hrest c' hc', Trial.find?_after ht]

/-- **What partial failures leave is exactly this, and one unbinding clears it.**  Whatever fails, binding
comes to what `BindLeaves` says, where outside leap seconds a lifetime lasts until its deadline, and
unbinding to what `UnbindLeaves` says.  After any run of rides that are bound and unbound, in which anything
may have failed, one unbinding for which both keys can be written leaves no binding of its two actors; and
whoever the run has not named has had the same binding all the time. -/
theorem residue_exact (c : RideCache) (driver passenger : ActorId) (ride : RideId) (ttl : Lifetime)
    (k k' : Condition) :
    (∃ r c', inTurn (bind driver passenger ride ttl) k k' c = (some r, c') ∧
      BindLeaves driver passenger ride ttl k k' c r c') ∧
    (∀ since now : Instant, since.Shown → now.Shown →
      (ttl.Lasts since now ↔ now.toNanos < ttl.deadline since)) ∧
    (∃ u c', inTurn (unbind driver passenger) k k' c = (some u, c') ∧
      UnbindLeaves driver passenger k k' c u c') ∧
    ∀ trials : List Trial, let run := trials ++ [⟨.unbind driver passenger, k, k'⟩]
      (k.Writes (bindingKey .driver driver) → k'.Writes (bindingKey .passenger passenger) →
        ∀ role, (run.foldl Trial.after c).entries.find? (sideKey driver passenger role) = none) ∧
      ∀ key, (∀ t ∈ run, ¬ t.Names key) →
        ∀ c' ∈ Run.states Trial.after c run, c'.entries.find? key = c.entries.find? key := by
  refine ⟨bind_leaves .., fun _ _ => Lifetime.lasts_iff_lt_deadline, unbind_leaves ..,
    fun trials => ⟨fun hdriver hpassenger role => ?_, fun key hkey => find?_states hkey⟩⟩
  obtain ⟨u, c', hrun, hleaves⟩ := unbind_leaves driver passenger k k' (trials.foldl Trial.after c)
  have hclear : sideOf u.driverCleared u.passengerCleared role = true := by
    rw [hleaves.reports]
    cases role
    · exact hdriver
    · exact hpassenger
  rw [List.foldl_concat]
  dsimp only [Trial.after]
  rw [hrun, hleaves.leaves, if_pos hclear]

/-- A ride is bound to its driver only, and his key cannot be written when it is to be unbound; then it
can. -/
theorem residue_exact_halfway :
    let calm : Condition := { now := ⟨0, 0⟩ }
    let trials : List Trial := [
      ⟨.bind "d1" "p1" "r1" .day, calm, { calm with failing := [bindingKey .passenger "p1"] }⟩,
      ⟨.unbind "d1" "p1", { calm with failing := [bindingKey .driver "d1"] }, calm⟩]
    calm.Writes (bindingKey .driver "d1") ∧ calm.Writes (bindingKey .passenger "p1") ∧
    ∀ role, ((trials ++ [Trial.mk (.unbind "d1" "p1") calm calm]).foldl Trial.after {}).entries.find?
      (sideKey "d1" "p1" role) = none := by
  intro calm trials
  have hdriver : calm.Writes (bindingKey .driver "d1") := by decide
  have hpassenger : calm.Writes (bindingKey .passenger "p1") := by decide
  exact ⟨hdriver, hpassenger,
    ((residue_exact {} "d1" "p1" "r1" .day calm calm).2.2.2 trials).1 hdriver hpassenger⟩

end Rides
end Dispatch
