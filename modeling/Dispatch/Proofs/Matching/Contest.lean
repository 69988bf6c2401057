/-
Operations that go for one row at the same time.

The run so far is told as a `History`: the events, the acts that have ended at the row, and who has
got its lock and has yet to write it.  A rejection ends in the call in which it gets the lock, and
so does a confirmation that is refused; one that is not refused is pending until it has committed.
While it is, nobody else gets the lock, so the row it writes is the row it has read.

`Contest` is the invariant.  Its heart is that the row is what the ended acts make of it, and that
what each caller is about to return is what his act says (`Stage.At`).  An event leaves the history
of the row alone, or somebody gets the lock and has yet to write, or an act ends.
-/
import Dispatch.Proofs.Matching.Acts
import Dispatch.Proofs.Matching.LockOrder

namespace Dispatch

open Store

/-- What somebody has asked for. -/
def Traffic.operation? (x : Traffic) (k : Nat) : Option Operation :=
  (x.callers[k]?).map Caller.operation

/-- What has happened at a row: the events, the acts that have ended, and who has got the lock and
has yet to write. -/
structure History where
  events : List Event
  ended : List Act := []
  pending : List Nat := []

namespace History

/-- Who has got the lock, the first one first. -/
def order (h : History) : List Nat := h.ended.map Act.caller ++ h.pending

/-- Nothing happens at the row. -/
def passed (h : History) (e : Event) : History := { h with events := h.events ++ [e] }

/-- Somebody gets the lock, and has yet to write. -/
def taken (h : History) (e : Event) (k : Nat) : History :=
  { h with events := h.events ++ [e], pending := [k] }

/-- An act ends. -/
def acted (h : History) (e : Event) (u : Act) : History where
  events := h.events ++ [e]
  ended := h.ended ++ [u]

/-- A confirmation has ended at the row, and this is what it returns. -/
structure Settled (m : MatchId) (s₀ : Store) (h : History) (k : Nat) (o : Operation)
    (r : Except ServiceError Proposal) : Prop where
  /-- It returns what the row says that the acts before have left. -/
  answer : ∃ user role, o = .confirm m user role ∧
    ∃ before u after, h.ended = before ++ u :: after ∧ u.caller = k ∧
      r = Confirming.answer ⟨m, user, role⟩ u.moment.now (replay (s₀.row? m) before)
  /-- If it succeeds it returns the row as it is right after its commit. -/
  committed : ∀ p, r = .ok p → ∃ pre mo post t, h.events = pre ++ .go k mo :: post ∧
    (pre.foldl Traffic.after (.opening s₀)).next? k = some (.store (.commit t)) ∧
    ((pre ++ [.go k mo]).foldl Traffic.after (.opening s₀)).store.row? m = some p

/-- A history goes on, and one caller does not get the lock meanwhile and does not write. -/
structure Extends (k : Nat) (h h' : History) : Prop where
  events : ∃ post, h'.events = h.events ++ post
  ended : ∃ more, h'.ended = h.ended ++ more
  order : k ∉ h.order → k ∉ h'.order
  pending : k ∈ h.pending → k ∈ h'.pending

theorem Settled.mono {m : MatchId} {s₀ : Store} {h h' : History} {k : Nat} {o : Operation}
    {r : Except ServiceError Proposal} (hs : h.Settled m s₀ k o r) (hext : Extends k h h') :
    h'.Settled m s₀ k o r where
  answer := by
    obtain ⟨user, role, ho, before, u, after, hended, hu⟩ := hs.answer
    obtain ⟨more, hmore⟩ := hext.ended
    exact ⟨user, role, ho, before, u, after ++ more, by simp [hmore, hended], hu⟩
  committed := by
    intro p hp
    obtain ⟨pre, mo, post, t, hevents, hcommit⟩ := hs.committed p hp
    obtain ⟨post', hpost⟩ := hext.events
    exact ⟨pre, mo, post ++ post', t, by simp [hpost, hevents], hcommit⟩

end History

namespace Stage

/-- The row that a caller is about to write. -/
def writes? : Stage → Option Proposal
  | updating _ _ r | rereading _ _ r _ | closing _ _ r _ => some r
  | _ => none

theorem locked?_of_writes? {g : Stage} {r : Proposal} (h : g.writes? = some r) :
    g.holding.locked? = some r := by
  cases g <;> first | exact h | cases h

/-- What is known of a caller at a stage. -/
def At (m : MatchId) (s₀ : Store) (h : History) (k : Nat) (o : Operation) : Stage → Prop
  | starting _ | asking _ _ | checking _ => k ∉ h.order
  | updating _ _ _ => k ∈ h.pending
  -- the confirmation bears the time of the call in which it was staged
  | rereading _ _ _ now | closing _ _ _ now =>
    k ∈ h.pending ∧ ∃ mo : Moment, .go k mo ∈ h.events ∧ mo.now = now
  | dropping _ _ _ e => h.Settled m s₀ k o (.error e)
  | counting _ (.proposal r) | finished (.proposal r) => h.Settled m s₀ k o r
  | counting _ (.rejections _) | finished (.rejections _) =>
    ∀ user role, o ≠ .confirm m user role
  | listingDriven q => k ∉ h.order ∧
    (q.accepted ≠ m → ∃ a, s₀.row? q.accepted = some a ∧ a.status = .accepted)
  | listingRidden q driven => k ∉ h.order ∧
    (q.accepted ≠ m → ∃ a, s₀.row? q.accepted = some a ∧ a.status = .accepted) ∧
    ((∃ p ∈ driven, p.id = m) → ∃ r, s₀.row? m = some r ∧ r.driverId = q.driver)
  | opening q ids => k ∉ h.order ∧ (m ∈ ids → q.GoesFor m s₀)
  | rejecting q _ ids _ => ids.Nodup ∧ (m ∈ ids → q.GoesFor m s₀ ∧ k ∉ h.order)
  | searching _ | beginning _ | inserting _ _ | committing _ _ _ _ | withdrawing _ _ _ _
  | searchingAgain _ _ => False

theorem At.mono {m : MatchId} {s₀ : Store} {h h' : History} {k : Nat} {o : Operation} {g : Stage}
    (hat : g.At m s₀ h k o) (hext : History.Extends k h h') : g.At m s₀ h' k o := by
  have hgo : ∀ {now}, (∃ mo : Moment, .go k mo ∈ h.events ∧ mo.now = now) →
      ∃ mo : Moment, .go k mo ∈ h'.events ∧ mo.now = now := by
    rintro now ⟨mo, hmo, hnow⟩
    obtain ⟨post, hpost⟩ := hext.events
    exact ⟨mo, by simp [hpost, hmo], hnow⟩
  cases g with
  | starting q => exact hext.order hat
  | asking q t => exact hext.order hat
  | checking q => exact hext.order hat
  | updating q t r => exact hext.pending hat
  | rereading q t r now => exact ⟨hext.pending hat.1, hgo hat.2⟩
  | closing q t r now => exact ⟨hext.pending hat.1, hgo hat.2⟩
  | dropping q t hold e => exact History.Settled.mono hat hext
  | counting obs r =>
      cases r with
      | proposal r => exact History.Settled.mono hat hext
      | rejections r => exact hat
  | finished r =>
      cases r with
      | proposal r => exact History.Settled.mono hat hext
      | rejections r => exact hat
  | listingDriven q => exact ⟨hext.order hat.1, hat.2⟩
  | listingRidden q driven => exact ⟨hext.order hat.1, hat.2⟩
  | opening q ids => exact ⟨hext.order hat.1, hat.2⟩
  | rejecting q t ids n => exact ⟨hat.1, fun hm => ⟨(hat.2 hm).1, hext.order (hat.2 hm).2⟩⟩
  | _ => exact hat

end Stage

/-- Operations go for a row, from a table on which nobody was at work. -/
structure Contest (m : MatchId) (s₀ : Store) (h : History) (x : Traffic) (gs : List Stage) :
    Prop where
  orderly : x.Orderly gs
  reached : x = h.events.foldl Traffic.after (.opening s₀)
  online : x.store.offline = false
  contended : s₀.Contended m x.store
  /-- The row is what the ended acts make of it. -/
  row : x.store.row? m = replay (s₀.row? m) h.ended
  order : Traffic.lockOrder m (.opening s₀) h.events = h.order
  nodup : h.order.Nodup
  acts : ∀ u ∈ h.ended, u.operation.GoesFor m s₀ ∧ x.operation? u.caller = some u.operation ∧
    .go u.caller u.moment ∈ h.events
  pending_le : h.pending.length ≤ 1
  pending : ∀ k ∈ h.pending, ∃ g r, gs[k]? = some g ∧ g.writes? = some r ∧ r.id = m
  callers : ∀ {k : Nat} {c : Caller} {g : Stage}, x.callers[k]? = some c → gs[k]? = some g →
    c.operation.Contends m ∧ g.At m s₀ h k c.operation

namespace Contest

variable {m : MatchId} {s₀ : Store} {h h' : History} {x : Traffic} {gs : List Stage}

theorem opening (hq : s₀.Quiet) (hon : s₀.offline = false) :
    Contest m s₀ { events := [] } (.opening s₀) [] where
  orderly := .opening hq
  reached := rfl
  online := hon
  contended := .refl m s₀
  row := rfl
  order := rfl
  nodup := List.nodup_nil
  acts := by simp
  pending_le := Nat.zero_le 1
  pending := by simp
  callers hc := by simp [Traffic.opening] at hc

/-- Whoever is pending has the row locked, and it exists. -/
theorem held_of_pending (hx : Contest m s₀ h x gs) {k : Nat} (hk : k ∈ h.pending) :
    ∃ t l r, (m, l) ∈ x.store.held t ∧ x.store.row? m = some r := by
  obtain ⟨g, r, hg, hr, rfl⟩ := hx.pending k hk
  obtain ⟨c, hc⟩ := hx.orderly.exists_caller hg
  obtain ⟨t, l, -, hl, hrow⟩ :=
    (hx.orderly.stage hc hg).2.2.exists_held (Stage.locked?_of_writes? hr)
  exact ⟨t, l, r, hl, hrow⟩

/-- Whoever has got the lock has called. -/
theorem lt_of_mem_order (hx : Contest m s₀ h x gs) {k : Nat} (hk : k ∈ h.order) :
    k < x.callers.length := by
  rcases List.mem_append.mp hk with hk | hk
  · obtain ⟨u, hu, rfl⟩ := List.mem_map.mp hk
    obtain ⟨c, hc, -⟩ := Option.map_eq_some_iff.mp (hx.acts u hu).2.1
    exact (List.getElem?_eq_some_iff.mp hc).1
  · obtain ⟨g, r, hg, -⟩ := hx.pending k hk
    rw [← hx.orderly.length]
    exact (List.getElem?_eq_some_iff.mp hg).1

end Contest

/-! ### A caller goes on -/

/-- A caller has made his next call. -/
structure Traffic.Went (x : Traffic) (gs : List Stage) (k : Nat) (mo : Moment) (c : Caller)
    (g g' : Stage) (s' : Store) : Prop where
  caller : x.callers[k]? = some c
  stage : gs[k]? = some g
  goes : Stage.Goes x.store mo g g' s'
  store : (x.after (.go k mo)).store = s'
  callers : (x.after (.go k mo)).callers = x.callers.set k { c with rest := g'.program }
  orderly : (x.after (.go k mo)).Orderly (gs.set k g')
  offline : s'.offline = x.store.offline

namespace Contest

variable {m : MatchId} {s₀ : Store} {h h' : History} {x : Traffic} {gs : List Stage} {k : Nat}
  {mo : Moment} {c : Caller} {g g' : Stage} {s' : Store}

/-- The history goes on by one call of one caller. -/
theorem advance (hx : Contest m s₀ h x gs) (hwent : x.Went gs k mo c g g' s')
    (hcont : x.store.Contended m s') {new : List Act}
    (hevents : h'.events = h.events ++ [.go k mo]) (hended : h'.ended = h.ended ++ new)
    (hnew : ∀ u ∈ new, u.caller = k ∧ u.operation = c.operation ∧
      u.operation.GoesFor m s₀ ∧ .go k u.moment ∈ h'.events)
    (hrow : s'.row? m = replay (x.store.row? m) new)
    (horder : h'.order = h.order ++ (x.gets? m (.go k mo)).toList)
    (hfree : x.gets? m (.go k mo) = none ∨ k ∉ h.order) (hle : h'.pending.length ≤ 1)
    (hkeep : ∀ j, j ≠ k → (j ∈ h'.pending ↔ j ∈ h.pending))
    (hwrites : k ∈ h'.pending → ∃ r, g'.writes? = some r ∧ r.id = m)
    (hat : g'.At m s₀ h' k c.operation) :
    Contest m s₀ h' (x.after (.go k mo)) (gs.set k g') := by
  have hkc : k < x.callers.length := (List.getElem?_eq_some_iff.mp hwent.caller).1
  have hkg : k < gs.length := (List.getElem?_eq_some_iff.mp hwent.stage).1
  have hget : ∀ j ∈ (x.gets? m (.go k mo)).toList, j = k := by
    intro j hj
    rw [Traffic.gets?_go hwent.caller] at hj
    split at hj <;> simp_all
  have hop : ∀ j, (x.after (.go k mo)).operation? j = x.operation? j := by
    intro j
    rw [Traffic.operation?, Traffic.operation?, hwent.callers]
    by_cases hj : j = k
    · subst hj
      rw [List.getElem?_set_self hkc, hwent.caller]
      rfl
    · rw [List.getElem?_set_ne (Ne.symm hj)]
  constructor
  · exact hwent.orderly
  · rw [hevents, List.foldl_append, ← hx.reached]
    rfl
  · rw [hwent.store, hwent.offline, hx.online]
  · rw [hwent.store]
    exact hx.contended.trans hcont
  · rw [hwent.store, hrow, hended, replay_append, hx.row]
  · rw [hevents, Traffic.lockOrder_concat, ← hx.reached, hx.order, horder]
  · rw [horder, List.nodup_append]
    refine ⟨hx.nodup, ?_, fun i hi j hj he => ?_⟩
    · cases x.gets? m (.go k mo) <;> simp
    · obtain rfl := hget j hj
      rcases hfree with hnone | hnot
      · rw [hnone] at hj
        cases hj
      · exact hnot (he ▸ hi)
  · intro u hu
    rw [hended] at hu
    rcases List.mem_append.mp hu with hu | hu
    · obtain ⟨hfor, hu, hmem⟩ := hx.acts u hu
      exact ⟨hfor, by rw [hop, hu], by rw [hevents]; exact List.mem_append_left _ hmem⟩
    · obtain ⟨rfl, ho, hfor, hmem⟩ := hnew u hu
      refine ⟨hfor, ?_, hmem⟩
      rw [hop, Traffic.operation?, hwent.caller, ho]
      rfl
  · exact hle
  · intro j hj
    by_cases hjk : j = k
    · subst hjk
      obtain ⟨r, hr⟩ := hwrites hj
      exact ⟨g', r, by rw [List.getElem?_set_self hkg], hr⟩
    · obtain ⟨g'', r, hg'', hr⟩ := hx.pending j ((hkeep j hjk).1 hj)
      exact ⟨g'', r, by rw [List.getElem?_set_ne (Ne.symm hjk)]; exact hg'', hr⟩
  · intro j c' g'' hc' hg''
    rw [hwent.callers] at hc'
    rcases getElem?_set_cases hc' with ⟨rfl, rfl⟩ | ⟨hjk, hc'⟩
    · obtain ⟨-, rfl⟩ | ⟨hjk, -⟩ := getElem?_set_cases hg''
      · exact ⟨(hx.callers hwent.caller hwent.stage).1, hat⟩
      · exact absurd rfl hjk
    · obtain ⟨hjk', -⟩ | ⟨-, hg''⟩ := getElem?_set_cases hg''
      · exact absurd hjk' hjk
      obtain ⟨hcontends, hat'⟩ := hx.callers hc' hg''
      refine ⟨hcontends, hat'.mono ⟨⟨_, hevents⟩, ⟨_, hended⟩, fun hnot hmem => ?_, (hkeep j hjk).2⟩⟩
      rw [horder] at hmem
      rcases List.mem_append.mp hmem with hmem | hmem
      · exact hnot hmem
      · exact hjk (hget j hmem)

/-- Nothing happens at the row. -/
theorem pass (hx : Contest m s₀ h x gs) (hwent : x.Went gs k mo c g g' s')
    (hcont : x.store.Contended m s') (hrow : s'.row? m = x.store.row? m)
    (hgets : x.store.grantsNext m mo g.program = false)
    (hwrites : k ∈ h.pending → ∃ r, g'.writes? = some r ∧ r.id = m)
    (hat : g'.At m s₀ (h.passed (.go k mo)) k c.operation) :
    Contest m s₀ (h.passed (.go k mo)) (x.after (.go k mo)) (gs.set k g') := by
  have hnone : x.gets? m (.go k mo) = none := by
    rw [Traffic.gets?_go hwent.caller, (hx.orderly.stage hwent.caller hwent.stage).1, hgets]
    rfl
  refine hx.advance hwent hcont rfl (List.append_nil _).symm (by simp) hrow ?_ (Or.inl hnone)
    hx.pending_le (fun _ _ => Iff.rfl) hwrites hat
  rw [hnone]
  exact (List.append_nil _).symm

/-- A caller gets the lock, and has yet to write. -/
theorem take (hx : Contest m s₀ h x gs) (hwent : x.Went gs k mo c g g' s')
    (hrow : s'.row? = x.store.row?) (hgets : x.store.grantsNext m mo g.program = true)
    (hnot : k ∉ h.order) (hfree : h.pending = []) (hwrites : ∃ r, g'.writes? = some r ∧ r.id = m)
    (hat : g'.At m s₀ (h.taken (.go k mo) k) k c.operation) :
    Contest m s₀ (h.taken (.go k mo) k) (x.after (.go k mo)) (gs.set k g') := by
  have hsome : x.gets? m (.go k mo) = some k := by
    rw [Traffic.gets?_go hwent.caller, (hx.orderly.stage hwent.caller hwent.stage).1, hgets]
    rfl
  refine hx.advance hwent (.of_row? hrow) rfl (List.append_nil _).symm (by simp)
    (congrFun hrow m) ?_ (Or.inr hnot) (Nat.le_refl 1) (fun j hj => ?_) (fun _ => hwrites) hat
  · rw [hsome]
    simp [History.order, History.taken, hfree]
  · simp [History.taken, hfree, hj]

/-- A caller gets the lock, and his act ends at once. -/
theorem act (hx : Contest m s₀ h x gs) (hwent : x.Went gs k mo c g g' s')
    (hcont : x.store.Contended m s') (hfor : c.operation.GoesFor m s₀)
    (hrow : s'.row? m = Act.onRow (x.store.row? m) ⟨k, c.operation, mo⟩)
    (hgets : x.store.grantsNext m mo g.program = true) (hnot : k ∉ h.order)
    (hfree : h.pending = [])
    (hat : g'.At m s₀ (h.acted (.go k mo) ⟨k, c.operation, mo⟩) k c.operation) :
    Contest m s₀ (h.acted (.go k mo) ⟨k, c.operation, mo⟩) (x.after (.go k mo)) (gs.set k g') := by
  have hsome : x.gets? m (.go k mo) = some k := by
    rw [Traffic.gets?_go hwent.caller, (hx.orderly.stage hwent.caller hwent.stage).1, hgets]
    rfl
  refine hx.advance hwent hcont rfl rfl ?_ hrow ?_ (Or.inr hnot) (Nat.zero_le 1) (fun j hj => ?_)
    (fun hk => by cases hk) hat
  · simp [History.acted, hfor]
  · rw [hsome]
    simp [History.order, History.acted, hfree]
  · simp [History.acted, hfree]

/-- The act of the one who is pending ends. -/
theorem finish (hx : Contest m s₀ h x gs) (hwent : x.Went gs k mo c g g' s')
    (hcont : x.store.Contended m s') (hfor : c.operation.GoesFor m s₀) {mo' : Moment}
    (hrow : s'.row? m = Act.onRow (x.store.row? m) ⟨k, c.operation, mo'⟩)
    (hgets : x.store.grantsNext m mo g.program = false) (hk : k ∈ h.pending)
    (hmo : .go k mo' ∈ h.events)
    (hat : g'.At m s₀ (h.acted (.go k mo) ⟨k, c.operation, mo'⟩) k c.operation) :
    Contest m s₀ (h.acted (.go k mo) ⟨k, c.operation, mo'⟩) (x.after (.go k mo)) (gs.set k g') := by
  have hnone : x.gets? m (.go k mo) = none := by
    rw [Traffic.gets?_go hwent.caller, (hx.orderly.stage hwent.caller hwent.stage).1, hgets]
    rfl
  have hpend : h.pending = [k] := by
    obtain ⟨j, hj⟩ := List.length_eq_one_iff.mp
      (Nat.le_antisymm hx.pending_le (List.length_pos_of_mem hk))
    rw [hj, List.mem_singleton] at hk
    rw [hj, hk]
  refine hx.advance hwent hcont rfl rfl ?_ hrow ?_ (Or.inl hnone) (Nat.zero_le 1)
    (fun j hj => ?_) (fun hk => by cases hk) hat
  · simp [History.acted, hfor, hmo]
  · rw [hnone]
    simp [History.order, History.acted, hpend]
  · simp [History.acted, hpend, hj]

end Contest
end Dispatch
