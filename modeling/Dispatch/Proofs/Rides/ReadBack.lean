/-
Reading back a ride that has been bound.

Whoever has bound a ride through the service can look it up at once, under the driver and under the
passenger, for every length of time that a request or the settings can give.  A length that leads past the
end of the calendar never ends, and any other one of a second or more ends later than now.

There is one exception.  A request that gives no time at all is turned down, but the settings accept it: a
ride that is bound for as long as they say has expired before anybody can look it up (`read_back`).
-/
import Dispatch.Proofs.Clock
import Dispatch.Proofs.Http.Answers
import Dispatch.Proofs.Rides.Residue
import Dispatch.Proofs.Setup

namespace Dispatch

open Dispatch.Time

/-- A lifetime of whole seconds lasts for a moment, unless there are none. -/
theorem Lifetime.lasts_now_iff {now : Instant} (hnow : now.OnCalendar) (seconds : Nat) :
    Lifetime.Lasts { seconds } now now ↔ seconds ≠ 0 := by
  constructor
  · rintro hlasts rfl
    have hends : Lifetime.endsAt? { seconds := 0 } now = some now := by
      have hspan : Span.ofUnsigned? 0 0 = some ⟨0⟩ := by decide
      rw [endsAt?, hspan, Option.bind_some, Instant.add?_zero hnow]
    rcases hlasts now hends with h | ⟨-, h⟩
    · exact Int.lt_irrefl _ h
    · exact Nat.lt_irrefl _ h
  · intro hseconds t ht
    obtain ⟨d, hd, hadd⟩ := Option.bind_eq_some_iff.mp ht
    rw [Span.ofUnsigned?] at hd
    split at hd
    case isFalse => cases hd
    obtain rfl := Option.some.inj hd
    exact Instant.lt_of_add?_seconds hseconds hadd

namespace Service

/-- A program of the ride cache comes to the same as a part of the service. -/
theorem run_onRides {α : Type} (p : RideProgram α) (s : Service) :
    (onRides p).run perform s = (onRides (p.run (RideCache.perform s.now) s.rides).1,
      { s with rides := (p.run (RideCache.perform s.now) s.rides).2 }) := by
  refine Program.run_lift (fun rides => { s with rides }) (fun c rides => ?_) p s.rides
  rw [perform]
  cases RideCache.perform s.now c rides with
  | answer r rides' => exact ⟨r, rfl, rfl⟩
  | wait rides' => rfl

end Service

namespace Rides

variable {driver passenger : ActorId} {ride : RideId} {ttl : Lifetime} {now : Instant} {c c' : RideCache}

/-- Binding comes to its end, and if it succeeds both sides are bound. -/
theorem run_bind (driver passenger : ActorId) (ride : RideId) (ttl : Lifetime) (now : Instant)
    (c : RideCache) : ∃ r c', (bind driver passenger ride ttl).run (RideCache.perform now) c = (.done r, c') ∧
      (r = .ok () → ∀ role, kept c' role (partyOf driver passenger role) = some ⟨ride, ttl.endsAt? now⟩) := by
  unfold bind
  split
  · exact ⟨_, c, rfl, by simp⟩
  rw [attempt, Program.run_call, RideCache.perform]
  cases c.fault? (bindingKey .driver driver) with
  | some e => exact ⟨_, c, rfl, by simp⟩
  | none =>
      dsimp only
      rw [attempt, Program.run_call, RideCache.perform]
      cases (c.set now (bindingKey .driver driver) ride ttl).fault? (bindingKey .passenger passenger) with
      | some e => exact ⟨_, _, rfl, by simp⟩
      | none =>
          refine ⟨_, bound c driver passenger ride ttl now now, rfl, fun _ role => ?_⟩
          rw [kept_bound, if_pos rfl]
          cases role <;> rfl

end Rides

namespace Http

open Service Rides

/-- How long a ride is bound. -/
def Binding.lifetime (o : Options) (b : Binding) : Lifetime :=
  match b.seconds with
  | some n => { seconds := n }
  | none => o.rideLifetime

/-- A ride is bound for a moment at least, unless the request gives no time and none is set up. -/
theorem Binding.lasts_now_iff {b : Binding} (h : b.seconds ≠ some 0) (settings : Settings) {now : Instant}
    (hnow : now.OnCalendar) : (b.lifetime settings.options).Lasts now now ↔
      ¬ (b.seconds = none ∧ settings.rideSeconds = 0) := by
  obtain ⟨driver, passenger, ride, seconds⟩ := b
  cases seconds with
  | none => exact (Lifetime.lasts_now_iff hnow _).trans (by simp)
  | some n =>
      refine (Lifetime.lasts_now_iff hnow n).trans (iff_of_true (fun hn => h (congrArg some hn)) ?_)
      exact fun hnone => nomatch hnone.1

theorem bindRide_of_seconds (o : Options) {b : Binding} (h : b.seconds ≠ some 0) :
    bindRide o b = (onRides (Rides.bind b.driverId b.passengerId b.rideId (b.lifetime o))).bind
      fun result => .done (.ofDone result) := by
  rw [bindRide, if_neg h]
  rfl

variable {o : Options} {r : Request} {s s' : Service} {answer : Response}

/-- A request to bind a ride that is answered as done has bound it, for some time unless it is the one that
has been set up. -/
theorem bound_of_answer (hmethod : r.method = "PUT") (hroute : Route.ofPath? r.path = some .activeRides)
    (hrun : (respond o r).run perform s = (.done answer, s')) (hdone : answer.status = 204) :
    ∃ b, r.record Binding.ofDoc = .ok b ∧ b.seconds ≠ some 0 ∧
      ∀ role, kept s'.rides role (partyOf b.driverId b.passengerId role)
        = some ⟨b.rideId, (b.lifetime o).endsAt? s.now⟩ := by
  rw [respond_of_route o hroute (by rw [hmethod]; decide) (by rw [hmethod]; decide) (by rw [hmethod]; decide),
    handle, if_pos hmethod, withRecord] at hrun
  cases hrecord : r.record Binding.ofDoc with
  | error status =>
      rw [hrecord] at hrun
      cases hrun
      exact absurd hdone (Request.status_of_record hrecord)
  | ok b =>
      rw [hrecord] at hrun
      dsimp only at hrun
      by_cases hseconds : b.seconds = some 0
      · rw [bindRide, if_pos hseconds] at hrun
        cases hrun
        cases hdone
      · obtain ⟨result, c', hbind, hkept⟩ :=
          run_bind b.driverId b.passengerId b.rideId (b.lifetime o) s.now s.rides
        rw [bindRide_of_seconds o hseconds, Program.run_bind, Program.run_bind, run_onRides, hbind] at hrun
        cases hrun
        exact ⟨b, rfl, hseconds, hkept (status_ofDone.mp hdone)⟩

/-- A look-up in a cache that can be reached is answered with the ride that is live. -/
theorem answer_of_lookup {role : Role} {segment : Segment} {id : ActorId} (hmethod : r.method = "GET")
    (hroute : Route.ofPath? r.path = some (.activeRide role segment)) (hid : unescapeText? segment = some id)
    (honline : s.rides.offline = false) :
    ∃ answer s', (respond o r).run perform s = (.done answer, s') ∧ answer.status = 200 ∧
      answer.content = .json (ActiveRide.toJson
        ⟨id, ((kept s.rides role id).filter (·.isLive s.now)).map (·.value)⟩) := by
  rw [respond_of_route o hroute (by rw [hmethod]; exact List.mem_cons_self) (by rw [hmethod]; decide)
    (by rw [hmethod]; decide), handle, withText, hid]
  dsimp only
  rw [showRide, Program.run_bind, Program.run_bind, run_onRides, run_lookup honline]
  exact ⟨_, _, rfl, rfl, rfl⟩

/-- **A ride that has been bound can be looked up at once.**  With settings that have been accepted, at any
time that the clock can show: when a request to bind a ride has been answered as done, a look-up of its
driver or its passenger at the same time, in a cache that can be reached and has what it had for him, is
answered with the ride, unless the request gave no length of time and the one that is set up is zero; then
it is answered with none. -/
theorem read_back {env : Environment} {settings : Settings} {r : Request} {s s' : Service}
    {answer : Response} (hsettings : Settings.ofEnvironment env = .ok settings) (hnow : s.now.OnCalendar)
    (hmethod : r.method = "PUT") (hroute : Route.ofPath? r.path = some .activeRides)
    (hrun : (respond settings.options r).run perform s = (.done answer, s')) (hdone : answer.status = 204) :
    ∃ b, r.record Binding.ofDoc = .ok b ∧
      Settings.wholeOr Settings.max64 env "ACTIVE_RIDE_TTL_SECS" 86400 = .ok settings.rideSeconds ∧
      ∀ (role : Role) (g : Request) (segment : Segment) (t : Service), g.method = "GET" →
        Route.ofPath? g.path = some (.activeRide role segment) →
        unescapeText? segment = some (partyOf b.driverId b.passengerId role) →
        t.now = s.now → t.rides.offline = false →
        kept t.rides role (partyOf b.driverId b.passengerId role)
          = kept s'.rides role (partyOf b.driverId b.passengerId role) →
        ∃ found t', (respond settings.options g).run perform t = (.done found, t') ∧ found.status = 200 ∧
          found.content = .json (ActiveRide.toJson ⟨partyOf b.driverId b.passengerId role,
            if b.seconds = none ∧ settings.rideSeconds = 0 then none else some b.rideId⟩) := by
  obtain ⟨-, -, -, -, -, hseconds, -⟩ := Settings.ofEnvironment_eq_ok.mp hsettings
  obtain ⟨b, hrecord, hgiven, hkept⟩ := bound_of_answer hmethod hroute hrun hdone
  refine ⟨b, hrecord, hseconds, fun role g segment t hget hplace hid htime honline hsame => ?_⟩
  obtain ⟨found, t', hanswer, hstatus, hcontent⟩ :=
    answer_of_lookup (o := settings.options) hget hplace hid honline
  refine ⟨found, t', hanswer, hstatus, ?_⟩
  rw [hcontent, hsame, hkept, htime, find_live, if_congr (b.lasts_now_iff hgiven settings hnow) rfl rfl, ite_not]

/-- A request to bind a ride, which gives no length of time. -/
def binding : Request where
  method := "PUT"
  path := "/rides/active".toList
  headers := [("content-type", "application/json")]
  body := "\x7b\"driver_id\":\"d\",\"passenger_id\":\"p\",\"ride_id\":\"r\"\x7d"

/-- A look-up of its driver. -/
def lookingUp : Request := { method := "GET", path := "/rides/active/drivers/d".toList }

/-- What becomes of a request to a new service on which the settings are these. -/
def answered (settings : Settings) (r : Request) : Program ServiceCall.Reply Response × Service :=
  (respond settings.options r).run perform (start settings.options ⟨0, 0⟩)

theorem exists_answer (settings : Settings) (r : Request) {n : Nat}
    (h : (answered settings r).1.result?.map Response.status = some n) :
    ∃ answer, answered settings r = (.done answer, (answered settings r).2) ∧ answer.status = n := by
  obtain ⟨answer, hanswer, hstatus⟩ := Option.map_eq_some_iff.mp h
  refine ⟨answer, Prod.ext ?_ rfl, hstatus⟩
  generalize (answered settings r).1 = p at hanswer
  cases p with
  | done a => exact congrArg _ (Option.some.inj hanswer)
  | call c next => cases hanswer

theorem record_binding : ∃ b, binding.record Binding.ofDoc = .ok b ∧ b.driverId = "d" ∧ b.rideId = "r" ∧
    b.seconds = none := by
  have hfields : (binding.record Binding.ofDoc).toOption.map (fun b => (b.driverId, b.rideId, b.seconds))
      = some ("d", "r", none) := by decide +kernel
  cases hrecord : binding.record Binding.ofDoc with
  | error status => rw [hrecord] at hfields; cases hfields
  | ok b =>
      rw [hrecord] at hfields
      obtain ⟨hdriver, hrest⟩ := Prod.mk.inj (Option.some.inj hfields)
      obtain ⟨hride, hseconds⟩ := Prod.mk.inj hrest
      exact ⟨b, rfl, hdriver, hride, hseconds⟩

/-- Where nothing is set up, a ride is bound for a day. -/
theorem read_back_aDay : Settings.ofEnvironment (fun _ => none) = .ok (.bindingFor 86400) ∧
    ∃ answer s', answered (.bindingFor 86400) binding = (.done answer, s') ∧ answer.status = 204 ∧
      ∃ found t', (respond (Settings.bindingFor 86400).options lookingUp).run perform s' = (.done found, t') ∧
        found.status = 200 ∧ found.content = .json (ActiveRide.toJson ⟨"d", some "r"⟩) := by
  have hsettings : Settings.ofEnvironment (fun _ => none) = .ok (.bindingFor 86400) := rfl
  obtain ⟨answer, hanswer, hdone⟩ := exists_answer (.bindingFor 86400) binding (n := 204)
    (by decide +kernel)
  obtain ⟨b, hrecord, -, hfound⟩ := read_back hsettings (by decide) rfl (by decide +kernel) hanswer hdone
  refine ⟨hsettings, answer, _, hanswer, hdone, ?_⟩
  obtain ⟨b', hrecord', hdriver, hride, hseconds⟩ := record_binding
  obtain rfl := Except.ok.inj (hrecord.symm.trans hrecord')
  have h := hfound .driver lookingUp "d".toList (answered (.bindingFor 86400) binding).2 rfl (by decide +kernel)
    (by rw [partyOf, hdriver]; decide +kernel) (by decide +kernel) (by decide +kernel) rfl
  rw [partyOf, hdriver, hride, if_neg (by simp [Settings.bindingFor])] at h
  exact h

/-- **A ride that has been bound can have expired already**, although the settings have been accepted and
the request has been answered as done. -/
theorem exists_not_read_back :
    Settings.ofEnvironment (Settings.only "ACTIVE_RIDE_TTL_SECS" "0") = .ok (.bindingFor 0) ∧
    ∃ answer s', answered (.bindingFor 0) binding = (.done answer, s') ∧ answer.status = 204 ∧
      ∃ found t', (respond (Settings.bindingFor 0).options lookingUp).run perform s' = (.done found, t') ∧
        found.status = 200 ∧ found.content = .json (ActiveRide.toJson ⟨"d", none⟩) := by
  have hseconds : Settings.wholeOr Settings.max64 (Settings.only "ACTIVE_RIDE_TTL_SECS" "0")
      "ACTIVE_RIDE_TTL_SECS" 86400 = .ok 0 := by
    have hread : (Settings.wholeOr Settings.max64 (Settings.only "ACTIVE_RIDE_TTL_SECS" "0")
        "ACTIVE_RIDE_TTL_SECS" 86400).toOption = some 0 := by decide +kernel
    generalize Settings.wholeOr .. = read at hread
    cases read with
    | error fault => cases hread
    | ok n => exact congrArg _ (Option.some.inj hread)
  refine ⟨Settings.ofEnvironment_eq_ok.mpr ⟨rfl, rfl, rfl, rfl, rfl, hseconds, rfl, rfl, rfl⟩, ?_⟩
  obtain ⟨answer, hanswer, hdone⟩ := exists_answer (.bindingFor 0) binding (n := 204) (by decide +kernel)
  obtain ⟨found, t', hrun, hstatus, hcontent⟩ := answer_of_lookup (o := (Settings.bindingFor 0).options)
    (r := lookingUp) (s := (answered (.bindingFor 0) binding).2) rfl
    (show Route.ofPath? lookingUp.path = some (.activeRide .driver "d".toList) by decide +kernel)
    (show unescapeText? "d".toList = some "d" by decide +kernel) (by decide +kernel)
  have hgone : ((kept (answered (.bindingFor 0) binding).2.rides .driver "d").filter
      (·.isLive (answered (.bindingFor 0) binding).2.now)).map (·.value) = none := by decide +kernel
  rw [hgone] at hcontent
  exact ⟨answer, _, hanswer, hdone, found, t', hrun, hstatus, hcontent⟩

end Http
end Dispatch
