/-
What requests come to.

Most requests make harmless calls only: on the caches, on the counts, and on the match table to look
something up.  The others make the calls of one operation.  Then they are finished, but for a
confirmation that has accepted a proposal: this hands the proposal over to be published
(`Operation.handsOver`).
-/
import Dispatch.Proofs.Matching.Stages
import Dispatch.Proofs.Service.Scene

namespace Dispatch

/-- A call that leaves the match table, the queue, the feed and the background as they are. -/
def ServiceCall.IsHarmless : ServiceCall → Prop
  | .store (.get _) | .store (.list _ _) | .availability _ | .rides _ | .count _ | .counts
  | .clock => True
  | _ => False

namespace Operation

/-- The proposal that is handed over to be published after an outcome. -/
def handsOver : Operation → Outcome → Option Proposal
  | confirm _ _ _, .proposal (.ok p) => if p.status = .accepted then some p else none
  | _, _ => none

/-- The operation is a confirmation. -/
def Confirms : Operation → Prop
  | confirm _ _ _ => True
  | propose _ | rejectCompeting _ _ _ => False

theorem handsOver_eq_some {o : Operation} {r : Outcome} {p : Proposal}
    (h : o.handsOver r = some p) : o.Confirms ∧ r = .proposal (.ok p) ∧ p.status = .accepted := by
  unfold handsOver at h
  split at h
  · split at h
    · obtain rfl := Option.some.inj h
      exact ⟨trivial, rfl, by assumption⟩
    · cases h
  · cases h

theorem handsOver_of_not_confirms {o : Operation} (h : ¬ o.Confirms) (r : Outcome) :
    o.handsOver r = none := by
  cases o with
  | confirm id user role => exact absurd trivial h
  | _ => rfl

end Operation

namespace Service

variable {α β : Type} {o : Operation}

/-! ### Harmless programs -/

/-- A program of harmless calls. -/
def Harmless : ServiceProgram α → Prop
  | .done _ => True
  | .call c next => c.IsHarmless ∧ ∀ r, Harmless (next r)

theorem Harmless.bind {p : ServiceProgram α} (hp : Harmless p) {f : α → ServiceProgram β}
    (hf : ∀ a, Harmless (f a)) : Harmless (p.bind f) := by
  induction p with
  | done a => exact hf a
  | call c next ih => exact ⟨hp.1, fun r => ih r (hp.2 r)⟩

theorem harmless_lift {Call : Type} {Reply : Call → Type} {f : Call → ServiceCall}
    {reply : (c : Call) → (f c).Reply → Reply c} (hf : ∀ c, (f c).IsHarmless)
    (p : Program Reply α) : Harmless (p.lift f reply) := by
  induction p with
  | done a => trivial
  | call c next ih => exact ⟨hf c, fun r => ih _⟩

theorem harmless_onAvailability (p : Program CacheCall.Reply α) : Harmless (onAvailability p) := by
  refine harmless_lift (fun c => ?_) p
  exact (trivial : (ServiceCall.availability c).IsHarmless)

theorem harmless_onRides (p : Program RideCall.Reply α) : Harmless (onRides p) := by
  refine harmless_lift (fun c => ?_) p
  exact (trivial : (ServiceCall.rides c).IsHarmless)

theorem harmless_get (id : MatchId) : Harmless (onMatches (Matching.get id)) := by
  refine ⟨trivial, fun r => ?_⟩
  rcases r with e | p <;> trivial

theorem harmless_list (actor : ActorId) (role : Role) :
    Harmless (onMatches (Matching.list actor role)) := by
  refine ⟨trivial, fun r => ?_⟩
  rcases r with e | ps <;> trivial

theorem harmless_refreshPoolSize (pool : Role) : Harmless (refreshPoolSize pool) := by
  refine (harmless_onAvailability _).bind fun r => ?_
  rcases r with e | n
  · trivial
  · exact ⟨trivial, fun _ => trivial⟩

theorem harmless_thenRefresh {pool : Role} {change : ServiceProgram (Except ServiceError Unit)}
    (h : Harmless change) : Harmless (thenRefresh pool change) := by
  refine h.bind fun r => ?_
  rcases r with e | _
  · trivial
  · exact (harmless_refreshPoolSize pool).bind fun _ => trivial

theorem harmless_addAvailable (pool : Role) (id : ActorId) (l : Location) :
    Harmless (addAvailable pool id l) :=
  ⟨trivial, fun _ => harmless_onAvailability _⟩

/-! ### Programs that make the calls of an operation -/

/-- What follows an operation: a proposal is handed over if there is one, and that is all. -/
def Concludes (o : Operation) (k : Outcome → ServiceProgram α) : Prop :=
  ∀ r, match o.handsOver r with
    | some p => ∃ a, k r = .call (.publishLater p) fun _ => .done a
    | none => ∃ a, k r = .done a

/-- A program goes on with what is left of an operation, and then concludes. -/
def Carries (o : Operation) (rest : CallerProgram) (p : ServiceProgram α) : Prop :=
  ∃ k, Concludes o k ∧ p = (onMatches rest).bind k

theorem onMatches_bind {γ : Type} (p : Program MatchCall.Reply γ)
    (f : γ → Program MatchCall.Reply α) :
    onMatches (p.bind f) = (onMatches p).bind fun a => onMatches (f a) := by
  unfold onMatches
  rw [Program.lift_bind]

/-- The result of an operation is only given another form. -/
theorem bind_onMatches {γ : Type} (p : Program MatchCall.Reply γ) (tell : γ → Outcome)
    (k : Outcome → ServiceProgram α) :
    (onMatches (p.bind fun r => .done (tell r))).bind k
      = (onMatches p).bind fun r => k (tell r) := by
  rw [onMatches_bind, Program.bind_assoc]
  rfl

theorem Carries.bind {rest : CallerProgram} {p : ServiceProgram α} (h : Carries o rest p)
    (f : α → β) : Carries o rest (p.bind fun a => .done (f a)) := by
  obtain ⟨k, hk, rfl⟩ := h
  refine ⟨fun r => (k r).bind fun a => .done (f a), fun r => ?_, Program.bind_assoc _ _ _⟩
  have hr := hk r
  dsimp only
  cases ho : o.handsOver r with
  | none =>
      rw [ho] at hr
      obtain ⟨a, ha⟩ := hr
      exact ⟨f a, by rw [ha]; rfl⟩
  | some p =>
      rw [ho] at hr
      obtain ⟨a, ha⟩ := hr
      exact ⟨f a, by rw [ha]; rfl⟩

theorem carries_propose (d : Draft) (f : Except ServiceError Proposal → α) :
    Carries (.propose d) (Operation.propose d).program
      ((onMatches (Matching.propose d)).bind fun r => .done (f r)) := by
  refine ⟨fun
    | .proposal r => .done (f r)
    | .rejections _ => .done (f (.error (.refused .sameActor))), fun r => ?_, ?_⟩
  · cases r <;> exact ⟨_, rfl⟩
  · rw [Operation.program, bind_onMatches]

theorem carries_confirm (id : MatchId) (c : Http.Confirming) :
    Carries (.confirm id c.userId (.ofIsDriver c.isDriver))
      (Operation.confirm id c.userId (.ofIsDriver c.isDriver)).program (Http.confirm id c) := by
  refine ⟨fun
    | .proposal (.ok p) =>
      if p.status = .accepted then .call (.publishLater p) fun _ => .done (.ok p.toJson)
      else .done (.ok p.toJson)
    | .proposal (.error e) => .done (.ofError e)
    | .rejections _ => .done .notFound, fun r => ?_, ?_⟩
  · rcases r with (e | p) | r
    · exact ⟨_, rfl⟩
    · dsimp only [Operation.handsOver]
      by_cases hp : p.status = .accepted
      · rw [if_pos hp, if_pos hp]
        exact ⟨_, rfl⟩
      · rw [if_neg hp, if_neg hp]
        exact ⟨_, rfl⟩
    · exact ⟨_, rfl⟩
  · rw [Operation.program, bind_onMatches]
    refine congrArg (Program.bind _) (funext fun r => ?_)
    rcases r with e | p <;> rfl

theorem carries_rejectCompeting (accepted : MatchId) (driver passenger : ActorId) (a : α) :
    Carries (.rejectCompeting accepted driver passenger)
      (Operation.rejectCompeting accepted driver passenger).program
      ((onMatches (Matching.rejectCompeting accepted driver passenger)).bind fun _ => .done a) := by
  refine ⟨fun _ => .done a, fun _ => ⟨a, rfl⟩, ?_⟩
  rw [Operation.program, bind_onMatches]

/-! ### Requests -/

/-- What a program comes to; a confirmation only if that may be. -/
inductive Comes (may : Prop) (p : ServiceProgram α) : Prop where
  | harmless (h : Harmless p)
  | carries (o : Operation) (h : Carries o o.program p) (hmay : o.Confirms → may)

namespace Comes

variable {may : Prop}

theorem bind {p : ServiceProgram α} (h : Comes may p) (f : α → β) :
    Comes may (p.bind fun a => .done (f a)) := by
  cases h with
  | harmless h => exact .harmless (h.bind fun _ => trivial)
  | carries o h hmay => exact .carries o (h.bind f) hmay

theorem withText {id : Http.Segment} {f : String → ServiceProgram Http.Response}
    (h : ∀ s, Comes may (f s)) : Comes may (Http.withText id f) := by
  unfold Http.withText
  split
  · exact h _
  · exact .harmless trivial

theorem withMatchId {id : Http.Segment} {f : MatchId → ServiceProgram Http.Response}
    (h : ∀ id, Comes may (f id)) : Comes may (Http.withMatchId id f) := by
  refine .withText fun s => ?_
  split
  · exact h _
  · exact .harmless trivial

theorem withRecord {r : Http.Request} {reader : Json.Reader α}
    {f : α → ServiceProgram Http.Response} (h : ∀ a, Comes may (f a)) :
    Comes may (Http.withRecord r reader f) := by
  unfold Http.withRecord
  split
  · exact h _
  · exact .harmless trivial

theorem handle (opts : Options) (r : Http.Request) (route : Http.Route) :
    Comes (∃ id, route = .confirmation id) (Http.handle opts r route) := by
  cases route with
  | availability pool id =>
      refine .withText fun id => ?_
      split
      · exact .withRecord fun l => .harmless
          ((harmless_thenRefresh (harmless_addAvailable pool id l)).bind fun _ => trivial)
      · exact .harmless ((harmless_thenRefresh (harmless_onAvailability _)).bind fun _ => trivial)
  | location pool id =>
      exact .withText fun id => .harmless ((harmless_onAvailability _).bind fun _ => trivial)
  | nearby pool =>
      rw [Http.handle]
      split
      · exact .harmless ((harmless_onAvailability _).bind fun _ => trivial)
      · exact .harmless trivial
  | matchList =>
      exact .withRecord fun d => .carries (.propose d) (carries_propose d _) fun h => h.elim
  | oneMatch id =>
      exact .withMatchId fun id => .harmless ((harmless_get id).bind fun _ => trivial)
  | confirmation id =>
      exact .withMatchId fun m => .withRecord fun c =>
        .carries _ (carries_confirm m c) fun _ => ⟨id, rfl⟩
  | actorMatches id =>
      refine .withText fun id => ?_
      split
      · exact .harmless ((harmless_list id _).bind fun _ => trivial)
      · exact .harmless trivial
  | activeRides =>
      show Comes _ (if _ then _ else _)
      split
      · refine .withRecord fun b => ?_
        unfold Http.bindRide
        split
        · exact .harmless trivial
        · exact .harmless ((harmless_onRides _).bind fun _ => trivial)
      · exact .withRecord fun p => .harmless ((harmless_onRides _).bind fun _ => trivial)
  | activeRide role id =>
      exact .withText fun id => .harmless ((harmless_onRides _).bind fun _ => trivial)
  | health =>
      refine .harmless ((harmless_onAvailability _).bind fun drivers => ?_)
      rcases drivers with e | drivers
      · trivial
      · refine (harmless_onAvailability _).bind fun passengers => ?_
        rcases passengers with e | passengers <;> trivial
  | metrics => exact .harmless ⟨trivial, fun _ => trivial⟩
  | feed => exact .harmless trivial

/-- **What a request comes to.**  Only one that goes to the confirmation of a proposal confirms. -/
theorem respond (opts : Options) (r : Http.Request) :
    Comes (∃ id, Http.Route.ofPath? r.path = some (.confirmation id)) (Http.respond opts r) := by
  unfold Http.respond
  split
  · exact .harmless trivial
  · refine Comes.bind ?_ _
    unfold Http.dispatch
    split
    · exact .harmless trivial
    · rename_i route hroute
      split
      · rw [hroute]
        simp only [Option.some.injEq]
        exact handle opts r route
      · exact .harmless trivial

/-- What a visitor does comes to. -/
theorem arrival (opts : Options) (a : Arrival) : Comes a.Confirms (a.program opts) := by
  cases a with
  | request r => exact (respond opts r).bind some
  | rejection accepted driver passenger =>
      exact .carries _ (carries_rejectCompeting accepted driver passenger none) fun h => h.elim

end Comes

/-- So does what the worker does about an event. -/
theorem carries_handle (e : Accepted) :
    Carries (.rejectCompeting e.matchId e.driverId e.passengerId)
      (Operation.rejectCompeting e.matchId e.driverId e.passengerId).program (handle e) :=
  carries_rejectCompeting e.matchId e.driverId e.passengerId ()

end Service
end Dispatch
