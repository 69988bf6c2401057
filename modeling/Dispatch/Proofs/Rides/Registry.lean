/-
The register of rides as a plain map.

Who is on which ride is kept in a cache whose entries expire, under keys that are put together from a
role and a free text.  The calendar ends, so an expiry may have no instant to stand for it; an expired
entry stays until somebody looks for it; and an unbinding deletes whatever is there, expired or not.

None of this can be told from outside.  Seen by its answers, the register is a plain map from roles and
actors to rides with a deadline in unbounded arithmetic (`Rides.answers_exact`): a look-up finds the ride
of the actor's last binding, unless an unbinding came later, exactly as long as the deadline has not come.

The invariant is `Rides.Reflects`: what the cache has under an actor's key is his standing, or it has
been removed when the deadline had come.  The second case is where the clock has to go forward only.
-/
import Dispatch.Proofs.Run
import Dispatch.Rides.Binding
import Mathlib.Data.List.Induction

namespace Dispatch

open Dispatch.Time

/-! ### Instants and their count of nanoseconds -/

namespace Time.Instant

/-- The clock can show an instant: it is within the calendar, and no leap second. -/
def Shown (t : Instant) : Prop := t.isLeap = false ∧ InRange t.seconds

instance (t : Instant) : Decidable t.Shown := inferInstanceAs (Decidable (_ ∧ _))

variable {t u : Instant}

theorem Shown.nanos_lt (h : t.Shown) : t.nanos < nanosPerSecond := by
  simpa [isLeap] using h.1

/-- Outside leap seconds, earlier is less. -/
theorem lt_iff_toNanos_lt (ht : t.isLeap = false) (hu : u.isLeap = false) :
    t < u ↔ t.toNanos < u.toNanos := by
  have ht : t.nanos < nanosPerSecond := by simpa [isLeap] using ht
  have hu : u.nanos < nanosPerSecond := by simpa [isLeap] using hu
  show t.seconds < u.seconds ∨ (t.seconds = u.seconds ∧ t.nanos < u.nanos) ↔ _
  unfold toNanos nanosPerSecond at *
  omega

theorem toNanos_ofNanos (n : Int) : (ofNanos n).toNanos = n := by
  unfold toNanos ofNanos nanosPerSecond
  dsimp only
  omega

theorem isLeap_ofNanos (n : Int) : (ofNanos n).isLeap = false := by
  unfold isLeap ofNanos nanosPerSecond
  exact decide_eq_false (by dsimp only; omega)

end Time.Instant

namespace Lifetime

variable {now t : Instant}

/-- When a lifetime ends that begins now, in nanoseconds and without any bound. -/
def deadline (d : Lifetime) (now : Instant) : Int :=
  now.toNanos + (Span.ofParts d.seconds d.nanos).nanos

/-- The end of a lifetime is at its deadline, or the deadline is beyond the calendar. -/
theorem endsAt?_cases (d : Lifetime) (hnow : now.Shown) :
    (∃ t, d.endsAt? now = some t ∧ t.isLeap = false ∧ t.toNanos = d.deadline now) ∨
      d.endsAt? now = none ∧ ∀ t : Instant, t.Shown → t.toNanos < d.deadline now := by
  have hbeyond : (Instant.lastSecond + 1) * nanosPerSecond ≤ d.deadline now →
      ∀ t : Instant, t.Shown → t.toNanos < d.deadline now := by
    intro hdeadline t ht
    have hnanos := ht.nanos_lt
    have hlast := ht.2.2
    unfold Instant.toNanos nanosPerSecond at *
    omega
  have hfirst : Instant.first.seconds * nanosPerSecond ≤ now.toNanos := by
    have hseconds := hnow.2.1
    unfold Instant.toNanos nanosPerSecond
    omega
  have hcalendar : Instant.first.seconds = -8334601228800 ∧ Instant.lastSecond = 8210266876799 := by
    decide
  rw [endsAt?, Span.ofUnsigned?]
  split
  · -- the lifetime is a length of time, which may lead out of the calendar
    rw [Option.bind_some, Instant.add?_of_not_isLeap hnow.1]
    split
    · exact .inl ⟨_, rfl, Instant.isLeap_ofNanos _, Instant.toNanos_ofNanos _⟩
    · rename_i hrange
      refine .inr ⟨rfl, hbeyond ?_⟩
      have hlater : (0 : Int) ≤ (Span.ofParts d.seconds d.nanos).nanos := by
        unfold Span.ofParts nanosPerSecond
        dsimp only
        omega
      rw [hcalendar.1] at hfirst
      simp only [Instant.InRange, hcalendar, Instant.ofNanos, deadline, nanosPerSecond] at *
      omega
  · -- the lifetime is longer than the calendar
    rename_i hlong
    refine .inr ⟨rfl, hbeyond ?_⟩
    simp only [Span.longest, hcalendar, deadline, nanosPerSecond] at *
    omega

/-- **A lifetime lasts exactly until its deadline**, whether or not the calendar goes that far. -/
theorem isLive_iff (d : Lifetime) (v : String) (hnow : now.Shown) (ht : t.Shown) :
    (RideEntry.mk v (d.endsAt? now)).isLive t = true ↔ t.toNanos < d.deadline now := by
  have hcases := d.endsAt?_cases hnow
  generalize d.endsAt? now = expiresAt at hcases ⊢
  rcases hcases with ⟨u, rfl, hleap, hdeadline⟩ | ⟨rfl, hbeyond⟩
  · rw [← hdeadline, ← Instant.lt_iff_toNanos_lt ht.1 hleap]
    exact decide_eq_true_iff
  · exact iff_of_true rfl (hbeyond t ht)

end Lifetime

namespace Rides

/-! ### The cache, key by key -/

/-- Roles and actors have keys of their own, whatever characters a name has. -/
theorem bindingKey_inj {role role' : Role} {id id' : ActorId} :
    bindingKey role id = bindingKey role' id' ↔ role = role' ∧ id = id' := by
  refine ⟨fun h => ?_, fun ⟨hrole, hid⟩ => hrole ▸ hid ▸ rfl⟩
  have hchars : (bindingKey role id).toList = (bindingKey role' id').toList := congrArg _ h
  cases role <;> cases role' <;>
    simp [bindingKey, Role.name, String.toList_append, toString, String.ext_iff] at hchars ⊢ <;>
    exact hchars

/-- No call fails. -/
def Calm (c : RideCache) : Prop := c.offline = false ∧ c.failing = []

/-- What the cache has under an actor's key. -/
def kept (c : RideCache) (role : Role) (id : ActorId) : Option RideEntry :=
  c.entries.find? (bindingKey role id)

section

variable {c : RideCache} {now : Instant} {role role' : Role} {id id' : ActorId}

theorem kept_set {v : String} {ttl : Lifetime} :
    kept (c.set now (bindingKey role' id') v ttl) role id
      = if role = role' ∧ id = id' then some ⟨v, ttl.endsAt? now⟩ else kept c role id := by
  rw [kept, RideCache.set, Table.find?_insert]
  exact if_congr bindingKey_inj rfl rfl

theorem kept_delete :
    kept (c.delete (bindingKey role' id')).2 role id
      = if role = role' ∧ id = id' then none else kept c role id := by
  rw [kept, RideCache.delete, Table.find?_erase]
  exact if_congr bindingKey_inj rfl rfl

/-- A look-up finds what is live. -/
theorem get_fst (c : RideCache) (now : Instant) (key : String) :
    (c.get now key).1 = ((c.entries.find? key).filter (·.isLive now)).map (·.value) := by
  unfold RideCache.get
  cases c.entries.find? key with
  | none => rfl
  | some e => cases hlive : e.isLive now <;> simp [Option.filter, hlive]

/-- A look-up removes what is not live. -/
theorem find?_get (c : RideCache) (now : Instant) (key x : String) :
    (c.get now key).2.entries.find? x
      = if x = key then (c.entries.find? key).filter (·.isLive now) else c.entries.find? x := by
  unfold RideCache.get
  cases hfind : c.entries.find? key with
  | none =>
      by_cases hx : x = key
      · simp [hx, hfind]
      · simp [hx]
  | some e =>
      cases hlive : e.isLive now with
      | true =>
          by_cases hx : x = key
          · simp [hx, hfind, Option.filter, hlive]
          · simp [hx, hlive]
      | false =>
          by_cases hx : x = key
          · simp [hx, Option.filter, hlive, Table.find?_erase]
          · simp [hx, hlive, Table.find?_erase]

theorem kept_get (c : RideCache) (now : Instant) (role' role : Role) (id' id : ActorId) :
    kept (c.get now (bindingKey role' id')).2 role id
      = if role = role' ∧ id = id' then (kept c role' id').filter (·.isLive now)
        else kept c role id := by
  rw [kept, find?_get]
  exact if_congr bindingKey_inj rfl rfl

theorem Calm.set (h : Calm c) (now : Instant) (key v : String) (ttl : Lifetime) :
    RideCache.perform now (.set key v ttl) c = .answer (.ok ()) (c.set now key v ttl) := by
  simp [RideCache.perform, RideCache.fault?, h.1, h.2]

theorem Calm.delete (h : Calm c) (now : Instant) (key : String) :
    RideCache.perform now (.delete key) c = .answer (.ok (c.delete key).1) (c.delete key).2 := by
  simp [RideCache.perform, RideCache.fault?, h.1, h.2]

theorem Calm.get (h : Calm c) (now : Instant) (key : String) :
    RideCache.perform now (.get key) c = .answer (.ok (c.get now key).1) (c.get now key).2 := by
  simp [RideCache.perform, h.1]

end

/-! ### Dealings with the register -/

/-- Something that is asked of the register. -/
inductive Dealing where
  | bind (driver passenger : ActorId) (ride : RideId) (ttl : Lifetime)
  | unbind (driver passenger : ActorId)
  | lookup (role : Role) (id : ActorId)

/-- What it answers. -/
inductive Answer where
  | bound (r : Except ServiceError Unit)
  | unbound (u : Unbinding)
  | found (r : Except ServiceError (Option RideId))

/-- A dealing, and what the clock shows at its first and at its second call. -/
structure Deal where
  dealing : Dealing
  first : Instant
  second : Instant

namespace Dealing

/-- The program of a dealing. -/
def program : Dealing → RideProgram Answer
  | bind driver passenger ride ttl => (Rides.bind driver passenger ride ttl).bind fun r => .done (.bound r)
  | unbind driver passenger => (Rides.unbind driver passenger).bind fun u => .done (.unbound u)
  | lookup role id => (Rides.lookup role id).bind fun r => .done (.found r)

end Dealing

namespace Deal

/-- What comes of a dealing: its answer, if it has one after two calls, and the cache. -/
def make (c : RideCache) (d : Deal) : Option Answer × RideCache :=
  let (p, c) := d.dealing.program.step (RideCache.perform d.first) c
  let (p, c) := p.step (RideCache.perform d.second) c
  (p.result?, c)

/-- The cache after a dealing. -/
def after (c : RideCache) (d : Deal) : RideCache := (d.make c).2

/-- What the clock shows when the side of a role is bound. -/
def reading (d : Deal) : Role → Instant
  | .driver => d.first
  | .passenger => d.second

end Deal

/-- One of two. -/
def partyOf (driver passenger : ActorId) : Role → ActorId
  | .driver => driver
  | .passenger => passenger

/-- What a dealing makes of an actor's binding: nothing, or a ride with its deadline, or no ride. -/
def Deal.side (role : Role) (id : ActorId) (d : Deal) : Option (Option (RideId × Int)) :=
  match d.dealing with
  | .bind driver passenger ride ttl =>
    if Text.isBlank ride = false ∧ partyOf driver passenger role = id then
      some (some (ride, ttl.deadline (d.reading role)))
    else none
  | .unbind driver passenger => if partyOf driver passenger role = id then some none else none
  | .lookup .. => none

/-- The ride that an actor was bound to last, with its deadline, unless he has been unbound since. -/
def standing (role : Role) (id : ActorId) (ds : List Deal) : Option (RideId × Int) :=
  (ds.filterMap (Deal.side role id)).getLast?.join

/-- What is answered if the actors' bindings are `b`. -/
def answerBy (b : Role → ActorId → Option (RideId × Int)) (d : Deal) : Answer :=
  match d.dealing with
  | .bind _ _ ride _ => .bound (if Text.isBlank ride then .error (.refused .emptyRide) else .ok ())
  | .unbind .. => .unbound { driverCleared := true, passengerCleared := true }
  | .lookup role id => .found (.ok (((b role id).filter fun x => d.first.toNanos < x.2).map Prod.fst))

/-- What a plain map answers after some dealings. -/
def expected (ds : List Deal) (d : Deal) : Answer := answerBy (fun role id => standing role id ds) d

/-- All that the clock shows. -/
def readings (ds : List Deal) : List Instant := ds.flatMap fun d => [d.first, d.second]

/-- The clock does not go back, and shows no leap second. -/
structure Timely (ds : List Deal) : Prop where
  shown : ∀ t ∈ readings ds, t.Shown
  ordered : (readings ds).Pairwise (· ≤ ·)

/-! ### What the cache has of an actor is his standing -/

/-- What is kept of an actor is his standing, or it has been removed when the deadline had come. -/
def Reflects (c : RideCache) (now : Int) (role : Role) (id : ActorId) (b : Option (RideId × Int)) :
    Prop :=
  (kept c role id = none ∧ ∀ x ∈ b, x.2 ≤ now) ∨
  ∃ ride ttl t, t.Shown ∧ kept c role id = some ⟨ride, Lifetime.endsAt? ttl t⟩ ∧
    b = some (ride, ttl.deadline t)

section

variable {c c' : RideCache} {now now' : Instant} {role : Role} {id : ActorId}
  {b : Option (RideId × Int)} {m n : Int}

theorem Reflects.later (h : Reflects c m role id b) (hmn : m ≤ n) : Reflects c n role id b :=
  h.imp_left fun ⟨hkept, hgone⟩ => ⟨hkept, fun x hx => Int.le_trans (hgone x hx) hmn⟩

theorem Reflects.of_kept (h : Reflects c n role id b) (hkept : kept c' role id = kept c role id) :
    Reflects c' n role id b := by
  rw [Reflects, hkept]
  exact h

/-- A look-up finds what stands. -/
theorem Reflects.look (h : Reflects c now.toNanos role id b) (hnow : now.Shown) :
    ((kept c role id).filter (·.isLive now)).map (·.value)
      = (b.filter fun x => now.toNanos < x.2).map Prod.fst := by
  rcases h with ⟨hkept, hgone⟩ | ⟨ride, ttl, t, ht, hkept, rfl⟩
  · rw [hkept]
    cases b with
    | none => rfl
    | some x =>
        have hle : ¬ now.toNanos < x.2 := Int.not_lt.mpr (hgone x rfl)
        simp [Option.filter, hle]
  · rw [hkept]
    have hlive := ttl.isLive_iff ride ht hnow
    by_cases hdeadline : now.toNanos < ttl.deadline t
    · simp [Option.filter, hdeadline, hlive.mpr hdeadline]
    · simp [Option.filter, hdeadline, Bool.eq_false_iff.mpr (mt hlive.mp hdeadline)]

/-- What a look-up removes is past its deadline. -/
theorem Reflects.evict (h : Reflects c now.toNanos role id b) (hnow : now.Shown)
    (hkept' : kept c' role id = (kept c role id).filter (·.isLive now)) :
    Reflects c' now.toNanos role id b := by
  rcases h with ⟨hkept, hgone⟩ | ⟨ride, ttl, t, ht, hkept, rfl⟩
  · exact .inl ⟨by rw [hkept', hkept]; rfl, hgone⟩
  · have hlive := ttl.isLive_iff ride ht hnow
    by_cases hdeadline : now.toNanos < ttl.deadline t
    · refine .inr ⟨ride, ttl, t, ht, ?_, rfl⟩
      rw [hkept', hkept]
      simp [Option.filter, hlive.mpr hdeadline]
    · refine .inl ⟨?_, fun x hx => ?_⟩
      · rw [hkept', hkept]
        simp [Option.filter, Bool.eq_false_iff.mpr (mt hlive.mp hdeadline)]
      · obtain rfl := Option.some.inj hx
        exact Int.not_lt.mp hdeadline

end

/-! ### One dealing -/

/-- The cache once both sides of a ride have been bound. -/
def bound (c : RideCache) (driver passenger : ActorId) (ride : RideId) (ttl : Lifetime)
    (first second : Instant) : RideCache :=
  (c.set first (bindingKey .driver driver) ride ttl).set second (bindingKey .passenger passenger) ride ttl

/-- The cache once both sides have been unbound. -/
def unbound (c : RideCache) (driver passenger : ActorId) : RideCache :=
  ((c.delete (bindingKey .driver driver)).2.delete (bindingKey .passenger passenger)).2

section

variable {c : RideCache} {ride : RideId}

theorem make_bind_of_isBlank (hride : Text.isBlank ride = true) (driver passenger : ActorId)
    (ttl : Lifetime) (first second : Instant) :
    Deal.make c ⟨.bind driver passenger ride ttl, first, second⟩
      = (some (.bound (.error (.refused .emptyRide))), c) := by
  simp [Deal.make, Dealing.program, Rides.bind, hride, Program.step, Program.result?]

theorem make_bind (hcalm : Calm c) (hride : Text.isBlank ride = false) (driver passenger : ActorId)
    (ttl : Lifetime) (first second : Instant) :
    Deal.make c ⟨.bind driver passenger ride ttl, first, second⟩
      = (some (.bound (.ok ())), bound c driver passenger ride ttl first second) := by
  have hcalm' : Calm (c.set first (bindingKey .driver driver) ride ttl) := hcalm
  simp [Deal.make, Dealing.program, Rides.bind, hride, attempt, Program.step, Program.result?,
    hcalm.set, hcalm'.set, bound]

theorem make_unbind (hcalm : Calm c) (driver passenger : ActorId) (first second : Instant) :
    Deal.make c ⟨.unbind driver passenger, first, second⟩
      = (some (.unbound ⟨true, true⟩), unbound c driver passenger) := by
  have hcalm' : Calm (c.delete (bindingKey .driver driver)).2 := hcalm
  simp [Deal.make, Dealing.program, Rides.unbind, clear, Program.step, Program.result?,
    hcalm.delete, hcalm'.delete, unbound]

theorem make_lookup (hcalm : Calm c) (role : Role) (id : ActorId) (first second : Instant) :
    Deal.make c ⟨.lookup role id, first, second⟩
      = (some (.found (.ok (c.get first (bindingKey role id)).1)),
          (c.get first (bindingKey role id)).2) := by
  simp [Deal.make, Dealing.program, Rides.lookup, attempt, Program.step, Program.result?, hcalm.get]

theorem kept_bound (c : RideCache) (driver passenger : ActorId) (ride : RideId) (ttl : Lifetime)
    (first second : Instant) (role : Role) (id : ActorId) :
    kept (bound c driver passenger ride ttl first second) role id
      = if partyOf driver passenger role = id then
          some ⟨ride, ttl.endsAt? (match role with | .driver => first | .passenger => second)⟩
        else kept c role id := by
  rw [bound, kept_set, kept_set]
  cases role with
  | driver =>
      rw [if_neg (by simp)]
      exact if_congr (by simp [partyOf, eq_comm]) rfl rfl
  | passenger => exact if_congr (by simp [partyOf, eq_comm]) rfl (if_neg (by simp))

theorem kept_unbound (c : RideCache) (driver passenger : ActorId) (role : Role) (id : ActorId) :
    kept (unbound c driver passenger) role id
      = if partyOf driver passenger role = id then none else kept c role id := by
  rw [unbound, kept_delete, kept_delete]
  cases role with
  | driver =>
      rw [if_neg (by simp)]
      exact if_congr (by simp [partyOf, eq_comm]) rfl rfl
  | passenger => exact if_congr (by simp [partyOf, eq_comm]) rfl (if_neg (by simp))

theorem Calm.get_snd (hcalm : Calm c) (now : Instant) (key : String) : Calm (c.get now key).2 := by
  unfold RideCache.get
  split
  · exact hcalm
  · split <;> exact hcalm

end

/-- What one dealing comes to, if the cache reflects the map `b`. -/
structure Deal.Comes (b : Role → ActorId → Option (RideId × Int)) (c : RideCache) (d : Deal) :
    Prop where
  answers : (d.make c).1 = some (answerBy b d)
  calm : Calm (d.after c)
  reflects : ∀ role id,
    Reflects (d.after c) d.second.toNanos role id ((d.side role id).getD (b role id))

section

variable {b : Role → ActorId → Option (RideId × Int)} {c : RideCache} {first second : Instant}

theorem comes_bind (hcalm : Calm c) (hb : ∀ role id, Reflects c second.toNanos role id (b role id))
    (hfirst : first.Shown) (hsecond : second.Shown) (driver passenger : ActorId) (ride : RideId)
    (ttl : Lifetime) : Deal.Comes b c ⟨.bind driver passenger ride ttl, first, second⟩ := by
  cases hride : Text.isBlank ride with
  | true =>
      have hmake := make_bind_of_isBlank (c := c) hride driver passenger ttl first second
      refine ⟨by simp [hmake, answerBy, hride], by rwa [Deal.after, hmake], fun role id => ?_⟩
      rw [Deal.after, hmake]
      simpa [Deal.side, hride] using hb role id
  | false =>
      have hmake := make_bind hcalm hride driver passenger ttl first second
      refine ⟨by simp [hmake, answerBy, hride], by rw [Deal.after, hmake]; exact hcalm, fun role id => ?_⟩
      rw [Deal.after, hmake]
      have hkept := kept_bound c driver passenger ride ttl first second role id
      by_cases hid : partyOf driver passenger role = id
      · rw [if_pos hid] at hkept
        refine .inr ⟨ride, ttl, _, ?_, hkept, by cases role <;> simp [Deal.side, Deal.reading, hride, hid]⟩
        cases role
        · exact hfirst
        · exact hsecond
      · rw [if_neg hid] at hkept
        simpa [Deal.side, hid] using (hb role id).of_kept hkept

theorem comes_unbind (hcalm : Calm c) (hb : ∀ role id, Reflects c second.toNanos role id (b role id))
    (driver passenger : ActorId) : Deal.Comes b c ⟨.unbind driver passenger, first, second⟩ := by
  have hmake := make_unbind hcalm driver passenger first second
  refine ⟨by rw [hmake]; rfl, by rw [Deal.after, hmake]; exact hcalm, fun role id => ?_⟩
  rw [Deal.after, hmake]
  have hkept := kept_unbound c driver passenger role id
  by_cases hid : partyOf driver passenger role = id
  · rw [if_pos hid] at hkept
    exact .inl ⟨hkept, by simp [Deal.side, hid]⟩
  · rw [if_neg hid] at hkept
    simpa [Deal.side, hid] using (hb role id).of_kept hkept

theorem comes_lookup (hcalm : Calm c) (hb : ∀ role id, Reflects c first.toNanos role id (b role id))
    (hfirst : first.Shown) (hle : first.toNanos ≤ second.toNanos) (role' : Role) (id' : ActorId) :
    Deal.Comes b c ⟨.lookup role' id', first, second⟩ := by
  have hmake := make_lookup hcalm role' id' first second
  refine ⟨?_, by rw [Deal.after, hmake]; exact hcalm.get_snd _ _, fun role id => ?_⟩
  · rw [hmake, get_fst]
    exact congrArg (fun o => some (Answer.found (.ok o))) ((hb role' id').look hfirst)
  · rw [Deal.after, hmake]
    refine Reflects.later ?_ hle
    have hkept := kept_get c first role' role id' id
    by_cases hid : role = role' ∧ id = id'
    · rw [if_pos hid] at hkept
      obtain ⟨rfl, rfl⟩ := hid
      exact (hb role id).evict hfirst hkept
    · rw [if_neg hid] at hkept
      exact (hb role id).of_kept hkept

/-- **The cache goes on reflecting the map.** -/
theorem Deal.comes {n : Int} (hcalm : Calm c) (hb : ∀ role id, Reflects c n role id (b role id))
    (d : Deal) (hfirst : d.first.Shown) (hsecond : d.second.Shown) (hn : n ≤ d.first.toNanos)
    (hle : d.first.toNanos ≤ d.second.toNanos) : d.Comes b c := by
  obtain ⟨dealing, first, second⟩ := d
  have hnow : ∀ role id, Reflects c first.toNanos role id (b role id) :=
    fun role id => (hb role id).later hn
  have hlater : ∀ role id, Reflects c second.toNanos role id (b role id) :=
    fun role id => (hnow role id).later hle
  cases dealing with
  | bind driver passenger ride ttl =>
      exact comes_bind hcalm hlater hfirst hsecond driver passenger ride ttl
  | unbind driver passenger => exact comes_unbind hcalm hlater driver passenger
  | lookup role id => exact comes_lookup hcalm hnow hfirst hle role id

end

/-! ### Runs -/

section

variable {role : Role} {id : ActorId} {ds ds' : List Deal} {d : Deal}

theorem standing_concat :
    standing role id (ds ++ [d]) = (d.side role id).getD (standing role id ds) := by
  rw [standing, standing, List.filterMap_append]
  cases hside : d.side role id with
  | none => simp [hside]
  | some b => simp [hside]

theorem readings_concat : readings (ds ++ [d]) = readings ds ++ [d.first, d.second] := by
  simp [readings]

theorem Timely.init (h : Timely (ds ++ [d])) : Timely ds where
  shown t ht := h.shown t (by rw [readings_concat]; exact List.mem_append_left _ ht)
  ordered := by
    have hordered := h.ordered
    rw [readings_concat] at hordered
    exact (List.pairwise_append.mp hordered).1

theorem Timely.toNanos_le (h : Timely (ds ++ [d])) :
    (∀ t ∈ readings ds, t.toNanos ≤ d.first.toNanos) ∧ d.first.toNanos ≤ d.second.toNanos := by
  have hshown := h.shown
  have hordered := h.ordered
  rw [readings_concat] at hshown hordered
  have hle : ∀ {t u : Instant}, t.Shown → u.Shown → t ≤ u → t.toNanos ≤ u.toNanos := by
    intro t u ht hu htu
    exact Int.not_lt.mp fun hlt => htu ((Instant.lt_iff_toNanos_lt hu.1 ht.1).mpr hlt)
  obtain ⟨-, hlast, hacross⟩ := List.pairwise_append.mp hordered
  refine ⟨fun t ht => ?_, ?_⟩
  · exact hle (hshown t (List.mem_append_left _ ht)) (hshown _ (by simp)) (hacross t ht _ (by simp))
  · exact hle (hshown _ (by simp)) (hshown _ (by simp)) (by simpa using hlast)

/-- The register after dealings that are made one after the other. -/
def afterAll (ds : List Deal) : RideCache := ds.foldl Deal.after {}

/-- **The cache reflects the plain map throughout a run.** -/
theorem comes_run (h : Timely (ds ++ [d])) :
    d.Comes (fun role id => standing role id ds) (afterAll ds) := by
  induction ds using List.reverseRecOn generalizing d with
  | nil =>
      obtain ⟨-, hle⟩ := h.toNanos_le
      refine Deal.comes ⟨rfl, rfl⟩ (n := d.first.toNanos) (fun role id => .inl ⟨rfl, by simp [standing]⟩) d
        (h.shown _ (by simp [readings])) (h.shown _ (by simp [readings])) (Int.le_refl _) hle
  | append_singleton ds d' ih =>
      have hcomes := ih h.init
      obtain ⟨hbefore, hle⟩ := h.toNanos_le
      rw [afterAll, List.foldl_concat]
      refine Deal.comes hcomes.calm (n := d'.second.toNanos) (fun role id => ?_) d
        (h.shown _ (by simp [readings])) (h.shown _ (by simp [readings]))
        (hbefore _ (by simp [readings])) hle
      rw [standing_concat]
      exact hcomes.reflects role id

/-- Whether a dealing is a look-up. -/
def Deal.isLookup (d : Deal) : Bool :=
  match d.dealing with
  | .lookup .. => true
  | .bind .. | .unbind .. => false

/-- Look-ups make nothing of any binding. -/
theorem filterMap_side_filter :
    (ds.filter fun d => !d.isLookup).filterMap (Deal.side role id) = ds.filterMap (Deal.side role id) := by
  induction ds with
  | nil => rfl
  | cons d ds ih =>
      cases hlookup : d.isLookup with
      | false =>
          rw [List.filter_cons_of_pos (by simp [hlookup]), List.filterMap_cons, List.filterMap_cons, ih]
      | true =>
          have hside : d.side role id = none := by
            obtain ⟨dealing, first, second⟩ := d
            cases dealing with
            | bind | unbind => cases hlookup
            | lookup => rfl
          rw [List.filter_cons_of_neg (by simp [hlookup]), List.filterMap_cons_none hside, ih]

/-- **The register of rides answers like a plain map** in any run under a clock that does not go back:
binding succeeds unless the ride is blank, unbinding clears both sides, and a look-up finds the ride of the
actor's last binding that no unbinding has followed, exactly as long as its deadline has not come.  An
answer depends on nothing but what the run has made of the binding that is looked up, so other actors
and roles do not matter, nor does any other look-up. -/
theorem answers_exact (h : Timely (ds ++ [d])) :
    (d.make (afterAll ds)).1 = some (expected ds d) ∧
    (∀ ds', Timely (ds' ++ [d]) →
      (∀ role id, d.dealing = .lookup role id →
        ds'.filterMap (Deal.side role id) = ds.filterMap (Deal.side role id)) →
      (d.make (afterAll ds')).1 = (d.make (afterAll ds)).1) ∧
    ∀ ds', Timely (ds' ++ [d]) → (ds'.filter fun d => !d.isLookup) = (ds.filter fun d => !d.isLookup) →
      (d.make (afterAll ds')).1 = (d.make (afterAll ds)).1 := by
  have hsame : ∀ ds', Timely (ds' ++ [d]) →
      (∀ role id, d.dealing = .lookup role id →
        ds'.filterMap (Deal.side role id) = ds.filterMap (Deal.side role id)) →
      (d.make (afterAll ds')).1 = (d.make (afterAll ds)).1 := by
    intro ds' h' hsides
    rw [(comes_run h').answers, (comes_run h).answers]
    obtain ⟨dealing, first, second⟩ := d
    cases dealing with
    | bind | unbind => rfl
    | lookup role id => simp only [answerBy, standing, hsides role id rfl]
  refine ⟨(comes_run h).answers, hsame, fun ds' h' hfilter => hsame ds' h' fun role id _ => ?_⟩
  rw [← filterMap_side_filter, hfilter, filterMap_side_filter]

/-- A ride that has expired when it is looked up, and one that outlives the calendar. -/
theorem answers_exact_rebound :
    let ds : List Deal := [⟨.bind "d1" "p1" "r1" ⟨10, 0⟩, ⟨0, 0⟩, ⟨0, 1⟩⟩,
      ⟨.lookup .driver "d1", ⟨10, 0⟩, ⟨10, 0⟩⟩, ⟨.bind "d1" "p2" "r2" ⟨2 ^ 64 - 1, 0⟩, ⟨20, 0⟩, ⟨20, 0⟩⟩,
      ⟨.unbind "d2" "p1", ⟨30, 0⟩, ⟨30, 0⟩⟩]
    let ds' := ds.filter fun d => !d.isLookup
    let d : Deal := ⟨.lookup .driver "d1", ⟨40, 0⟩, ⟨40, 0⟩⟩
    Timely (ds ++ [d]) ∧ Timely (ds' ++ [d]) ∧
    (d.make (afterAll ds)).1 = some (.found (.ok (some "r2"))) ∧
    (d.make (afterAll ds')).1 = (d.make (afterAll ds)).1 := by
  intro ds ds' d
  have h : Timely (ds ++ [d]) := ⟨by decide +kernel, by decide +kernel⟩
  have h' : Timely (ds' ++ [d]) := ⟨by decide +kernel, by decide +kernel⟩
  have hfound : (standing .driver "d1" ds).filter (fun x => d.first.toNanos < x.2)
      = some ("r2", Lifetime.deadline ⟨2 ^ 64 - 1, 0⟩ ⟨20, 0⟩) := by decide +kernel
  refine ⟨h, h', (answers_exact h).1.trans ?_, (answers_exact h).2.2 ds' h' ?_⟩
  · exact congrArg (fun o => some (Answer.found (.ok (Option.map Prod.fst o)))) hfound
  · rfl

end

end Rides
end Dispatch
