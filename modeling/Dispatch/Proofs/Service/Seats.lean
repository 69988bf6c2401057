/-
Who is at work on the match table.

`Scene.Seated` goes with a `Traffic` that has the same match table.  A visitor either makes harmless
calls only, or he carries on the operation of one of its callers; and so does the worker when it is
busy.  Nobody shares a caller with anybody else, so whatever one of them does the others go on where
they were, and all that has been proved about any number of operations can be used.

`Scene.Passes` says what becomes of this by the events that are not the worker's, and what they do
to the accepted rows and to what is owed.
-/
import Dispatch.Proofs.Service.Accounts

namespace Dispatch

open Service Store

/-- Somebody who makes the calls of operations. -/
inductive Party where
  | visitor (k : Nat)
  | worker
  deriving DecidableEq

theorem Party.worker_ne_visitor (k : Nat) : Party.worker ≠ .visitor k := by
  rintro ⟨⟩

namespace Traffic

variable {α : Type}

/-- A program is harmless, or it carries on the operation of a caller; a confirmation only if that
may be. -/
def Sits (y : Traffic) (seat? : Option Nat) (may : Prop) (p : ServiceProgram α) : Prop :=
  match seat? with
  | none => Harmless p
  | some i => ∃ c, y.callers[i]? = some c ∧ Carries c.operation c.rest p ∧
      (c.operation.Confirms → may)

/-- The worker is idle, or busy with the operation of a caller. -/
def WorkerSits (y : Traffic) (seat? : Option Nat) : Worker → Prop
  | .idle => seat? = none
  | .busy p => ∃ i, seat? = some i ∧ y.Sits (some i) False p
  | .absent | .ended | .stranded => False

variable {y y' : Traffic} {seat? : Option Nat} {may : Prop}

/-- Nothing changes as long as the caller stays as he is. -/
theorem Sits.frame {p : ServiceProgram α} (h : y.Sits seat? may p)
    (hc : ∀ i, seat? = some i → y'.callers[i]? = y.callers[i]?) : y'.Sits seat? may p := by
  cases seat? with
  | none => exact h
  | some i =>
      obtain ⟨c, hi, h⟩ := h
      exact ⟨c, (hc i rfl).trans hi, h⟩

theorem WorkerSits.frame {w : Worker} (h : y.WorkerSits seat? w)
    (hc : ∀ i, seat? = some i → y'.callers[i]? = y.callers[i]?) : y'.WorkerSits seat? w := by
  cases w with
  | busy p =>
      obtain ⟨i, rfl, h⟩ := h
      exact ⟨i, rfl, h.frame hc⟩
  | _ => exact h

end Traffic

namespace Scene

open Traffic

/-- Everybody at work stands for a caller of his own, and nothing is closed or laid down. -/
structure Seated (x : Scene) (y : Traffic) (gs : List Stage) (seat : Party → Option Nat) :
    Prop where
  orderly : Orderly y gs
  store : y.store = x.store
  online : x.store.offline = false
  faults : x.service.faults = ∅
  queueOpen : x.service.queue.closed = false
  lt : ∀ {p i}, seat p = some i → i < gs.length
  apart : ∀ {p q i}, seat p = some i → seat q = some i → p = q
  visitor : ∀ {k v}, x.visitors[k]? = some v →
    y.Sits (seat (.visitor k)) v.arrival.Confirms v.rest
  worker : y.WorkerSits (seat .worker) x.service.worker

/-- What an event does that is not the worker's: some rows have been accepted and are owed now, or a
proposal that was owed has been handed over. -/
inductive Effect (x x' : Scene) : Prop where
  | accepts (new : List Proposal) (ha : x.store.Accepts x'.store new)
      (hlater : x.store.Later x'.store) (howed : x'.owed.Perm (new ++ x.owed))
      (hwork : KeepsWork x.service x'.service)
  | handsOver (p : Proposal) (hp : p.status = .accepted) (howed : x.owed.Perm (p :: x'.owed))
      (hservice : x'.service
        = { x.service with publishing := x.service.publishing ++ [Service.publish p] })

/-- An event that is not the worker's: everybody still stands for a caller of his own, and the
worker is where it was. -/
def Passes (gs : List Stage) (seat : Party → Option Nat) (x x' : Scene) : Prop :=
  ∃ y' gs' seat', Seated x' y' gs' seat' ∧ seat' .worker = seat .worker ∧
    (∀ i, seat .worker = some i → gs'[i]? = gs[i]?) ∧ Effect x x'

namespace Seated

variable {x x' : Scene} {y y' : Traffic} {gs gs' : List Stage} {seat : Party → Option Nat}
  {o : Options} {k i : Nat} {v : Visitor}

theorem opening (o : Options) (now : Time.Instant) :
    Seated (opening o now) (.opening {}) [] (fun _ => none) where
  orderly := .opening .empty
  store := rfl
  online := rfl
  faults := rfl
  queueOpen := rfl
  lt h := by cases h
  apart h := by cases h
  visitor h := by cases h
  worker := rfl

/-- One party takes another seat, or stands up, and all others stay where they are. -/
theorem move (h : Seated x y gs seat) (p : Party) (seat? : Option Nat) (orderly : Orderly y' gs')
    (store : y'.store = x'.store) (online : x'.store.offline = false)
    (faults : x'.service.faults = ∅) (queueOpen : x'.service.queue.closed = false)
    (hlen : gs.length ≤ gs'.length)
    (hown : ∀ i, seat? = some i → i < gs'.length ∧ (seat p = some i ∨ gs.length ≤ i))
    (hothers : ∀ q i, q ≠ p → seat q = some i → y'.callers[i]? = y.callers[i]?)
    (hvisitor : ∀ k v, x'.visitors[k]? = some v →
      p = .visitor k ∧ y'.Sits seat? v.arrival.Confirms v.rest ∨
        p ≠ .visitor k ∧ x.visitors[k]? = some v)
    (hworker : p = .worker ∧ y'.WorkerSits seat? x'.service.worker ∨
      p ≠ .worker ∧ x'.service.worker = x.service.worker) :
    Seated x' y' gs' (Function.update seat p seat?) where
  orderly := orderly
  store := store
  online := online
  faults := faults
  queueOpen := queueOpen
  lt := by
    intro q i hq
    rw [Function.update_apply] at hq
    split at hq
    · exact (hown i hq).1
    · exact Nat.lt_of_lt_of_le (h.lt hq) hlen
  apart := by
    have hapart : ∀ {q i}, q ≠ p → seat q = some i → seat? ≠ some i := by
      intro q i hqp hq hi
      rcases (hown i hi).2 with hp | hle
      · exact hqp (h.apart hq hp)
      · exact absurd (h.lt hq) (Nat.not_lt.mpr hle)
    intro q r i hq hr
    rw [Function.update_apply] at hq hr
    by_cases hqp : q = p <;> by_cases hrp : r = p
    · rw [hqp, hrp]
    · rw [if_pos hqp] at hq
      rw [if_neg hrp] at hr
      exact absurd hq (hapart hrp hr)
    · rw [if_neg hqp] at hq
      rw [if_pos hrp] at hr
      exact absurd hr (hapart hqp hq)
    · rw [if_neg hqp] at hq
      rw [if_neg hrp] at hr
      exact h.apart hq hr
  visitor := by
    intro k v hv
    rcases hvisitor k v hv with ⟨rfl, hsits⟩ | ⟨hp, hv⟩
    · rw [Function.update_self]
      exact hsits
    · rw [Function.update_of_ne (Ne.symm hp)]
      exact (h.visitor hv).frame fun i => hothers _ i (Ne.symm hp)
  worker := by
    rcases hworker with ⟨rfl, hsits⟩ | ⟨hp, hw⟩
    · rw [Function.update_self]
      exact hsits
    · rw [Function.update_of_ne (Ne.symm hp), hw]
      exact h.worker.frame fun i => hothers _ i (Ne.symm hp)

/-- Nobody takes a seat, and what nobody sits on has changed. -/
theorem rests (h : Seated x y gs seat) (hworker : x'.service.worker = x.service.worker)
    (hfaults : x'.service.faults = x.service.faults)
    (hclosed : x'.service.queue.closed = x.service.queue.closed) (hstore : x'.store = x.store)
    (hvisitor : ∀ k v, x'.visitors[k]? = some v →
      seat (.visitor k) = none ∧ Harmless v.rest ∨ x.visitors[k]? = some v) :
    Seated x' y gs seat where
  orderly := h.orderly
  store := h.store.trans hstore.symm
  online := by rw [hstore]; exact h.online
  faults := hfaults.trans h.faults
  queueOpen := hclosed.trans h.queueOpen
  lt := h.lt
  apart := h.apart
  visitor := by
    intro k v hv
    rcases hvisitor k v hv with ⟨hseat, hharmless⟩ | hv
    · rw [hseat]
      exact hharmless
    · exact h.visitor hv
  worker := by
    rw [hworker]
    exact h.worker

/-- Where one party sits something is replaced, and nobody else sits there. -/
theorem others (h : Seated x y gs seat) {p : Party} (hseat : seat p = some i) {α : Type}
    (l : List α) (a : α) {q : Party} {j : Nat} (hq : q ≠ p) (hj : seat q = some j) :
    (l.set i a)[j]? = l[j]? := by
  refine List.getElem?_set_ne fun hij => hq ?_
  subst hij
  exact h.apart hj hseat

/-- Nobody takes a seat, and nothing happens to the rows. -/
theorem idles (h : Seated x y gs seat) (hwork : KeepsWork x.service x'.service)
    (hstore : x'.store = x.store)
    (hvisitor : ∀ k v, x'.visitors[k]? = some v →
      seat (.visitor k) = none ∧ Harmless v.rest ∨ x.visitors[k]? = some v)
    (howed : x'.owed.Perm ([] ++ x.owed)) : Passes gs seat x x' :=
  ⟨y, gs, seat,
    h.rests hwork.worker hwork.faults (congrArg Queue.closed hwork.queue) hstore hvisitor,
    rfl, fun _ _ => rfl, .accepts [] (.of_row (congrArg Store.row? hstore))
      (.of_row? (congrArg Store.row? hstore)) howed hwork⟩

/-- Nothing happens at all. -/
theorem stays (h : Seated x y gs seat) : Passes gs seat x x :=
  h.idles (.refl _) rfl (fun _ _ => Or.inr) (List.Perm.refl _)

/-- Rows are found under their own identifiers. -/
theorem id_eq (h : Seated x y gs seat) {id : MatchId} {r : Proposal}
    (hr : x.store.row? id = some r) : r.id = id :=
  h.orderly.ok.indexed.id_eq (h.store ▸ hr)

/-! ### Calls of operations -/

/-- A call of an operation that somebody carries on: the next stage of the caller, what is left of
the program, and the service after the call. -/
structure Called {α : Type} (x : Scene) (y : Traffic) (gs : List Stage) (i : Nat) (c : Caller)
    (g g' : Stage) (p p' : ServiceProgram α) (s' : Service) (metrics' : Metrics) : Prop where
  step : p.step Service.perform x.service = (p', s')
  keeps : KeepsWork x.service s'
  carries : Carries c.operation g'.program p'
  goes : Stage.Goes x.store x.service.moment g g' s'.store
  of : Stage.Of c.operation g
  online : s'.store.offline = false
  orderly : Orderly { ledger := ⟨s'.store, metrics'⟩
                      callers := y.callers.set i { c with rest := g'.program } } (gs.set i g')

/-- Whoever has nothing left to do has finished. -/
theorem exists_finished {α : Type} {op : Operation} {g : Stage} {a : α}
    (h : Carries op g.program (.done a)) : ∃ r, g = .finished r := by
  by_contra hg
  obtain ⟨c, next, hcall⟩ := Stage.exists_call fun r hr => hg ⟨r, hr⟩
  obtain ⟨k, -, h⟩ := h
  rw [hcall] at h
  cases h

theorem call {α : Type} {p : ServiceProgram α} (h : Seated x y gs seat) {c : Caller} {g : Stage}
    (hfresh : ∀ d t, g = .inserting d t → x.store.Unused x.service.moment.freshId)
    (hc : y.callers[i]? = some c) (hg : gs[i]? = some g) (hp : Carries c.operation c.rest p)
    (hnot : ∀ r, g ≠ .finished r) :
    ∃ g' p' s' metrics', Called x y gs i c g g' p p' s' metrics' := by
  obtain ⟨hrest, hof, -⟩ := h.orderly.stage hc hg
  obtain ⟨g', s', metrics', step, hafter, hx'⟩ :=
    h.orderly.go (m := x.service.moment) (fun d t hgd => h.store ▸ hfresh d t hgd) hc hg
  obtain ⟨k, hk, rfl⟩ := hp
  obtain ⟨s'', hstep, rfl, hkeeps⟩ := step_of_stage h.faults step h.store hnot k
  refine ⟨g', _, s'', metrics', ?_, hkeeps, ⟨k, hk, rfl⟩, h.store ▸ step.goes, hof, ?_,
    hafter ▸ hx'⟩
  · rw [hrest]
    exact hstep
  · rw [step.advance.offline, h.store]
    exact h.online

namespace Called

variable {α : Type} {c : Caller} {g g' : Stage} {p p' : ServiceProgram α} {s' : Service}
  {metrics' : Metrics}

/-- The caller is at the next stage. -/
theorem sits (hcall : Called x y gs i c g g' p p' s' metrics') (hc : y.callers[i]? = some c)
    {may : Prop} (hmay : c.operation.Confirms → may) :
    Traffic.Sits { ledger := ⟨s'.store, metrics'⟩
                   callers := y.callers.set i { c with rest := g'.program } } (some i) may p' := by
  have hi : i < y.callers.length := (List.getElem?_eq_some_iff.mp hc).1
  exact ⟨_, List.getElem?_set_self hi, hcall.carries, hmay⟩

theorem later (hcall : Called x y gs i c g g' p p' s' metrics') : x.store.Later s'.store :=
  (hcall.goes.rowChange hcall.of).later

end Called

/-! ### Visitors -/

theorem update_worker (seat : Party → Option Nat) (k : Nat) (seat? : Option Nat) :
    Function.update seat (.visitor k) seat? .worker = seat .worker :=
  Function.update_of_ne (Party.worker_ne_visitor k) _ _

theorem owed_set (hv : x.visitors[k]? = some v) {p' : ServiceProgram (Option Http.Response)}
    {new : List Proposal} (hp : Service.owed p' = new ++ Service.owed v.rest)
    (hvisitors : x'.visitors = x.visitors.set k { v with rest := p' }) :
    x'.owed.Perm (new ++ x.owed) := by
  unfold owed
  rw [hvisitors]
  exact perm_flatMap_set hv hp

/-- Of the visitors one has been replaced. -/
theorem getElem?_visitors {vs : List Visitor} {v' : Visitor} {j : Nat} {w : Visitor}
    (h : (vs.set k v')[j]? = some w) : Party.visitor k = .visitor j ∧ w = v' ∨
      Party.visitor k ≠ .visitor j ∧ vs[j]? = some w := by
  rcases getElem?_set_cases h with ⟨rfl, hw⟩ | ⟨hj, hw⟩
  · exact Or.inl ⟨rfl, hw⟩
  · exact Or.inr ⟨fun he => hj (Party.visitor.inj he).symm, hw⟩

/-- A visitor who carries on an operation makes its next call. -/
theorem goCall (h : Seated x y gs seat) (hfresh : x.store.Unused x.service.moment.freshId)
    (hv : x.visitors[k]? = some v) (hseat : seat (.visitor k) = some i) {c : Caller} {g : Stage}
    (hc : y.callers[i]? = some c) (hg : gs[i]? = some g) (hp : Carries c.operation c.rest v.rest)
    (hmay : c.operation.Confirms → v.arrival.Confirms) (hnot : ∀ r, g ≠ .finished r) :
    Passes gs seat x (x.after o (.go k)) := by
  obtain ⟨g', p', s', metrics', hcall⟩ := h.call (fun _ _ _ => hfresh) hc hg hp hnot
  have hafter : x.after o (.go k)
      = { service := s', visitors := x.visitors.set k { v with rest := p' } } :=
    after_go hv hcall.step
  obtain ⟨new, howed, haccepts⟩ := hcall.goes.accepts hcall.of h.online fun hr => h.id_eq hr
  rw [hafter]
  refine ⟨_, _, _, h.move (.visitor k) (some i) hcall.orderly rfl hcall.online
    (hcall.keeps.faults.trans h.faults) (by rw [hcall.keeps.queue]; exact h.queueOpen)
    (Nat.le_of_eq List.length_set.symm) ?_ ?_ ?_ (Or.inr ⟨(Party.worker_ne_visitor k).symm, hcall.keeps.worker⟩), ?_, ?_,
    .accepts new haccepts hcall.later ?_ hcall.keeps⟩
  · intro j hj
    obtain rfl := Option.some.inj hj
    rw [List.length_set]
    exact ⟨h.lt hseat, Or.inl hseat⟩
  · exact fun q j hq hj => h.others hseat _ _ hq hj
  · intro j w hw
    refine (getElem?_visitors hw).imp_left ?_
    rintro ⟨hkj, rfl⟩
    exact ⟨hkj, hcall.sits hc hmay⟩
  · exact update_worker _ _ _
  · exact fun j hj => h.others hseat _ _ (Party.worker_ne_visitor k) hj
  · have hp' : Carries c.operation g.program v.rest := (h.orderly.stage hc hg).1 ▸ hp
    refine owed_set hv ?_ rfl
    rw [hcall.carries.owed_eq, howed, hp'.owed_eq]

/-- A visitor who makes harmless calls makes the next one. -/
theorem goHarmless (h : Seated x y gs seat) (hv : x.visitors[k]? = some v)
    (hseat : seat (.visitor k) = none) (hharmless : Harmless v.rest) :
    Passes gs seat x (x.after o (.go k)) := by
  obtain ⟨hrest, hkeeps, hstore⟩ := hharmless.step h.faults
  rcases hstep : v.rest.step Service.perform x.service with ⟨p', s'⟩
  rw [hstep] at hrest hkeeps hstore
  rw [after_go hv hstep]
  refine h.idles hkeeps hstore (fun j w hw => ?_) ?_
  · rcases getElem?_visitors hw with ⟨hkj, rfl⟩ | ⟨-, hw⟩
    · exact Or.inl ⟨hkj ▸ hseat, hrest⟩
    · exact Or.inr hw
  · refine owed_set hv ?_ rfl
    rw [hharmless.owed_eq_nil]
    exact hrest.owed_eq_nil

/-- A visitor whose operation has come to its end hands over what is owed, or stays as he is. -/
theorem goFinished (h : Seated x y gs seat) (hv : x.visitors[k]? = some v) {op : Operation}
    {r : Outcome} (hp : Carries op (.done r) v.rest) : Passes gs seat x (x.after o (.go k)) := by
  obtain ⟨f, hf, hrest⟩ := hp
  change v.rest = f r at hrest
  have hr := hf r
  cases ho : op.handsOver r with
  | none =>
      rw [ho] at hr
      obtain ⟨a, ha⟩ := hr
      have hstep : v.rest.step Service.perform x.service = (v.rest, x.service) := by
        rw [hrest, ha]
        rfl
      have hset : x.visitors.set k v = x.visitors := by
        obtain ⟨hk, rfl⟩ := List.getElem?_eq_some_iff.mp hv
        exact List.set_getElem_self hk
      rw [after_go hv hstep, hset]
      exact h.stays
  | some p =>
      rw [ho] at hr
      obtain ⟨a, ha⟩ := hr
      have hstep : v.rest.step Service.perform x.service = (.done a, { x.service with
          publishing := x.service.publishing ++ [Service.publish p] }) := by
        rw [hrest, ha]
        rfl
      rw [after_go hv hstep]
      refine ⟨y, gs, _, h.move (.visitor k) none h.orderly h.store h.online h.faults
        h.queueOpen (Nat.le_refl _) (fun _ hi => by cases hi) (fun _ _ _ _ => rfl) (fun j w hw => ?_)
        (Or.inr ⟨(Party.worker_ne_visitor _).symm, rfl⟩), update_worker _ _ _, fun _ _ => rfl,
        .handsOver p (Operation.handsOver_eq_some ho).2.2 ?_ rfl⟩
      · refine (getElem?_visitors hw).imp_left ?_
        rintro ⟨hkj, rfl⟩
        exact ⟨hkj, trivial⟩
      · show (x.visitors.flatMap fun v => Service.owed v.rest).Perm ([p] ++
          (x.visitors.set k { v with rest := .done a }).flatMap fun v => Service.owed v.rest)
        refine perm_flatMap_of_set hv ?_
        rw [hrest, ha]
        rfl

/-- A visitor makes his next call. -/
theorem go (h : Seated x y gs seat) (hfresh : x.store.Unused x.service.moment.freshId) :
    Passes gs seat x (x.after o (.go k)) := by
  cases hv : x.visitors[k]? with
  | none =>
      rw [Scene.after, hv]
      exact h.stays
  | some v =>
      have hsits := h.visitor hv
      cases hseat : seat (.visitor k) with
      | none =>
          rw [hseat] at hsits
          exact h.goHarmless hv hseat hsits
      | some i =>
          rw [hseat] at hsits
          obtain ⟨c, hc, hp, hmay⟩ := hsits
          obtain ⟨g, hg⟩ := h.orderly.exists_stage hc
          by_cases hfin : ∃ r, g = .finished r
          · obtain ⟨r, rfl⟩ := hfin
            rw [(h.orderly.stage hc hg).1] at hp
            exact h.goFinished hv hp
          · exact h.goCall hfresh hv hseat hc hg hp hmay fun r hr => hfin ⟨r, hr⟩

/-- Somebody has come. -/
theorem arrive (h : Seated x y gs seat) (a : Arrival) :
    Passes gs seat x (x.after o (.arrive a)) := by
  have hvisitors : ∀ {j w}, (x.after o (.arrive a)).visitors[j]? = some w →
      Party.visitor x.visitors.length = .visitor j ∧ w = { arrival := a, rest := a.program o } ∨
        Party.visitor x.visitors.length ≠ .visitor j ∧ x.visitors[j]? = some w := by
    intro j w hw
    rcases getElem?_concat_cases hw with hw | ⟨rfl, rfl⟩
    · refine Or.inr ⟨fun he => ?_, hw⟩
      obtain rfl := Party.visitor.inj he
      rw [List.getElem?_eq_none (Nat.le_refl _)] at hw
      cases hw
    · exact Or.inl ⟨rfl, rfl⟩
  have howed : Service.owed (a.program o) = [] →
      (x.after o (.arrive a)).owed.Perm ([] ++ x.owed) := by
    intro hnil
    show ((x.visitors ++ [_]).flatMap _).Perm _
    rw [List.flatMap_append, List.flatMap_singleton, hnil, List.append_nil]
    exact List.Perm.refl _
  cases Comes.arrival o a with
  | harmless hharmless =>
      refine ⟨y, gs, _, h.move (.visitor x.visitors.length) none h.orderly h.store h.online
        h.faults h.queueOpen (Nat.le_refl _) (fun _ hi => by cases hi) (fun _ _ _ _ => rfl) (fun j w hw => ?_)
        (Or.inr ⟨(Party.worker_ne_visitor _).symm, rfl⟩), update_worker _ _ _, fun _ _ => rfl,
        .accepts [] (.of_row rfl) (.of_row? rfl) (howed hharmless.owed_eq_nil) (.refl _)⟩
      refine (hvisitors hw).imp_left ?_
      rintro ⟨hj, rfl⟩
      exact ⟨hj, hharmless⟩
  | carries op hp hmay =>
      have hfirst : (Stage.first op).owed op = [] := by
        cases op with
        | propose d =>
            rw [Stage.first_propose]
            cases d.refusal? <;> rfl
        | _ => rfl
      have hnil : Service.owed (a.program o) = [] := by
        rw [op.program_eq] at hp
        rw [hp.owed_eq, hfirst]
      refine ⟨y.after (.arrive op), gs ++ [Stage.first op], _,
        h.move (.visitor x.visitors.length) (some gs.length) (h.orderly.arrive op) h.store
          h.online h.faults h.queueOpen (by simp) ?_ ?_ (fun j w hw => ?_) (Or.inr ⟨(Party.worker_ne_visitor _).symm, rfl⟩),
        update_worker _ _ _, fun i hi => ?_,
        .accepts [] (.of_row rfl) (.of_row? rfl) (howed hnil) (.refl _)⟩
      · intro i hi
        obtain rfl := Option.some.inj hi
        exact ⟨by simp, Or.inr (Nat.le_refl _)⟩
      · intro q i _ hi
        exact List.getElem?_append_left (h.orderly.length ▸ h.lt hi)
      · refine (hvisitors hw).imp_left ?_
        rintro ⟨hj, rfl⟩
        refine ⟨hj, { operation := op, rest := op.program }, ?_, hp, hmay⟩
        rw [h.orderly.length]
        exact List.getElem?_concat_length
      · exact List.getElem?_append_left (h.lt hi)

/-- A visitor who has to wait goes away: nothing of his remains. -/
theorem leave (h : Seated x y gs seat) (hadm : x.Admits (.leave k)) :
    Passes gs seat x (x.after o (.leave k)) := by
  cases hv : x.visitors[k]? with
  | none =>
      rw [Scene.after, hv]
      exact h.stays
  | some v =>
      have hafter : x.after o (.leave k) = {
          service := Service.abandon v.rest x.service
          visitors := x.visitors.set k { v with rest := .done none } } := by
        rw [Scene.after, hv]
      have hwaits : waits v.rest x.service = true := by
        change (x.visitors[k]?).all _ = true at hadm
        rw [hv] at hadm
        exact hadm
      have hsits := h.visitor hv
      cases hseat : seat (.visitor k) with
      | none =>
          rw [hseat] at hsits
          have hharmless : Harmless v.rest := hsits
          rw [hafter, hharmless.abandon]
          refine h.idles (.refl _) rfl (fun j w hw => ?_) ?_
          · rcases getElem?_visitors hw with ⟨hkj, rfl⟩ | ⟨-, hw⟩
            · exact Or.inl ⟨hkj ▸ hseat, trivial⟩
            · exact Or.inr hw
          · refine owed_set hv ?_ rfl
            rw [hharmless.owed_eq_nil]
            rfl
      | some i =>
          rw [hseat] at hsits
          obtain ⟨c, hc, hp, -⟩ := hsits
          obtain ⟨g, hg⟩ := h.orderly.exists_stage hc
          obtain ⟨hrest, -, hh⟩ := h.orderly.stage hc hg
          rw [hrest] at hp
          have hstore : y.store = x.service.store := h.store
          obtain ⟨t, s', ht, habandon, hadv, hidle, hrow, hoff⟩ := hp.exists_left h.faults
            (hstore ▸ h.orderly.ok) (hstore ▸ h.orderly.present) (hstore ▸ hh) hwaits
          have hact : g.actor y.store = t := Stage.actor_of_holding ht
          rw [hafter, habandon]
          refine ⟨_, _, _, h.move (.visitor k) none
            (h.orderly.abandon c (.proposal (.error (.store .offline))) hg
              (hact ▸ hstore ▸ hadv) (hact ▸ hidle))
            rfl (hoff.trans h.online) h.faults h.queueOpen (Nat.le_of_eq List.length_set.symm)
            (fun _ hi => by cases hi)
            ?_ (fun j w hw => ?_) (Or.inr ⟨(Party.worker_ne_visitor _).symm, rfl⟩), update_worker _ _ _, fun j hj => ?_,
            .accepts [] (.of_row hrow) (.of_row? hrow) ?_ ⟨rfl, rfl, rfl, rfl, rfl⟩⟩
          · exact fun q j hq hj => h.others hseat _ _ hq hj
          · refine (getElem?_visitors hw).imp_left ?_
            rintro ⟨hkj, rfl⟩
            exact ⟨hkj, trivial⟩
          · exact h.others hseat _ _ (Party.worker_ne_visitor k) hj
          · refine owed_set hv ?_ rfl
            rw [hp.owed_eq, Stage.owed_of_ticket ht]
            rfl

/-- The clock moves. -/
theorem clock (h : Seated x y gs seat) (now : Time.Instant) :
    Passes gs seat x (x.after o (.clock now)) :=
  h.idles ⟨rfl, rfl, rfl, rfl, rfl⟩ rfl (fun _ _ => Or.inr) (List.Perm.refl _)

end Seated
end Scene
end Dispatch
