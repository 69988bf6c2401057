/-
A contest goes on.

Whatever a caller calls next, what is known of a contest stays true.  The stages are gone through
one by one.  A confirmation gets the lock of the row when it reads it: if it finds the row missing
or is refused its act has ended, and otherwise it is pending until it commits.  A rejection gets the
lock when it comes to the row in its batch.
-/
import Dispatch.Proofs.Matching.Contest

namespace Dispatch

open Store

/-- A call of an operation that contends for a row confirms no other one. -/
theorem Stage.Goes.contended {s s' : Store} {mo : Moment} {o : Operation} {g g' : Stage}
    {m : MatchId} (h : Stage.Goes s mo g g' s') (hof : Stage.Of o g) (ho : o.Contends m) :
    s.Contended m s' := by
  cases h with
  | entered d t id now hnew hrow => cases hof; exact ho.elim
  | closed q t now hid hr he hrow =>
      cases hof
      exact .of_update hr hrow rfl (Or.inl ho)
  | rejected q t id ids n hr hopen _ _ hrow =>
      exact .of_update hr hrow rfl (Or.inr ⟨hopen, mo.now, rfl⟩)
  | _ => first | exact .refl m s | exact .of_row? (by assumption)

namespace Contest

variable {m : MatchId} {s₀ : Store} {h : History} {x : Traffic} {gs : List Stage} {k : Nat}
  {mo : Moment} {o : Operation} {rest : CallerProgram} {g' : Stage} {s' : Store}

/-- A refused confirmation has ended. -/
theorem settled_error (hx : Contest m s₀ h x gs) (e : Event) (k : Nat) (mo : Moment) {user : ActorId}
    {role : Role} {err : ServiceError}
    (hans : Confirming.answer ⟨m, user, role⟩ mo.now (x.store.row? m) = .error err) :
    (h.acted e ⟨k, .confirm m user role, mo⟩).Settled m s₀ k (.confirm m user role) (.error err) where
  answer := by
    refine ⟨user, role, rfl, h.ended, _, [], rfl, rfl, ?_⟩
    rw [← hx.row, hans]
  committed p hp := by cases hp

/-- Nobody is pending when somebody else gets the lock of the row. -/
theorem pending_eq_nil (hx : Contest m s₀ h x gs)
    (hfree : ∀ t l r, (m, l) ∈ x.store.held t → x.store.row? m = some r → False) :
    h.pending = [] := by
  refine List.eq_nil_iff_forall_not_mem.mpr fun j hj => ?_
  obtain ⟨t, l, r, hl, hr⟩ := hx.held_of_pending hj
  exact hfree t l r hl hr

/-- Nobody is pending when somebody else has read the row under its lock. -/
theorem pending_eq_nil_of_locked {c : Caller} {g : Stage} (hx : Contest m s₀ h x gs)
    (hwent : x.Went gs k mo c g g' s') (hnot : k ∉ h.order) {r : Proposal}
    (hr : g'.holding.locked? = some r) (hid : r.id = m) : h.pending = [] := by
  refine List.eq_nil_iff_forall_not_mem.mpr fun j hj => hnot (List.mem_append_right _ ?_)
  have hkg : k < gs.length := (List.getElem?_eq_some_iff.mp hwent.stage).1
  by_cases hjk : j = k
  · exact hjk ▸ hj
  · obtain ⟨g'', r', hg'', hr', hid'⟩ := hx.pending j hj
    refine absurd (hwent.orderly.locks_unique ?_ (List.getElem?_set_self hkg)
      (Stage.locked?_of_writes? hr') hr (hid'.trans hid.symm)) hjk
    rw [List.getElem?_set_ne (Ne.symm hjk)]
    exact hg''

/-- A stage at which nothing is written is nobody's who is pending. -/
theorem not_pending {g : Stage} (hx : Contest m s₀ h x gs) (hg : gs[k]? = some g)
    (hw : g.writes? = none) : k ∉ h.pending := by
  intro hk
  obtain ⟨g'', r, hg'', hr, -⟩ := hx.pending k hk
  rw [hg] at hg''
  obtain rfl := Option.some.inj hg''
  rw [hw] at hr
  cases hr

/-- The history goes on by an event, and so does the contest. -/
def GoesOn (m : MatchId) (s₀ : Store) (h : History) (e : Event) (x : Traffic) (gs : List Stage) :
    Prop := ∃ h', h'.events = h.events ++ [e] ∧ Contest m s₀ h' x gs

/-- A call that is not about the lock of the row, and after which nothing more is known of the
caller than before. -/
theorem goesOn_of_pass {g : Stage} (hx : Contest m s₀ h x gs)
    (hwent : x.Went gs k mo ⟨o, rest⟩ g g' s') (hrow : s'.row? = x.store.row?)
    (hgets : x.store.grantsNext m mo g.program = false) (hw : g.writes? = none)
    (hat : g'.At m s₀ h k o) : GoesOn m s₀ h (.go k mo) (x.after (.go k mo)) (gs.set k g') := by
  refine ⟨_, rfl, hx.pass hwent (.of_row? hrow) (congrFun hrow m) hgets
    (fun hk => absurd hk (hx.not_pending hwent.stage hw)) ?_⟩
  exact hat.mono ⟨⟨_, rfl⟩, ⟨[], (List.append_nil _).symm⟩, fun hn => hn, fun hp => hp⟩

/-! ### Confirming -/

section Confirming

variable {q : Confirming} {t : Ticket} {r : Proposal}

theorem starting (hx : Contest m s₀ h x gs)
    (hwent : x.Went gs k mo ⟨o, rest⟩ (.starting q) g' s') :
    GoesOn m s₀ h (.go k mo) (x.after (.go k mo)) (gs.set k g') := by
  have hat : k ∉ h.order := (hx.callers hwent.caller hwent.stage).2
  cases hwent.goes with
  | unreachable _ hoff => simp [hx.online] at hoff
  | started _ hrow => exact hx.goesOn_of_pass hwent hrow rfl rfl hat

theorem asking (hx : Contest m s₀ h x gs)
    (hwent : x.Went gs k mo ⟨o, rest⟩ (.asking q t) g' s') :
    GoesOn m s₀ h (.go k mo) (x.after (.go k mo)) (gs.set k g') := by
  obtain ⟨hcontends, hat⟩ := hx.callers hwent.caller hwent.stage
  obtain ⟨-, hof, hopen, -, hheld, -⟩ := hx.orderly.stage hwent.caller hwent.stage
  change k ∉ h.order at hat
  cases hof
  obtain rfl : q.id = m := hcontends
  have hnot : (x.store.transaction t).hasLocked q.id = false := by
    refine Bool.eq_false_iff.mpr fun hl => ?_
    obtain ⟨l, hl⟩ := (x.store.hasLocked_iff t q.id).1 hl
    rw [hheld] at hl
    cases hl
  cases hwent.goes with
  | unreachable _ hoff => simp [hx.online] at hoff
  | waits _ _ hwait halone hrow =>
      exact hx.goesOn_of_pass hwent hrow (Store.grants_of_wait hwait) rfl hat
  | missing _ _ hr hans hrow =>
      have hnone := hx.pending_eq_nil fun t l r _ hr' => by rw [hr] at hr'; cases hr'
      have herr : q.answer mo.now (x.store.row? q.id) = .error (.store (.notFound q.id)) := by
        rw [hr]; rfl
      refine ⟨_, rfl, hx.act hwent (.of_row? hrow) rfl ?_
        (Store.grants_of_answer rfl hnot hans) hat hnone (hx.settled_error _ k mo herr)⟩
      exact (congrFun hrow q.id).trans (Confirming.onRow_of_error herr).symm
  | refused _ _ hr he hans hrow =>
      have hnone := hx.pending_eq_nil_of_locked hwent hat rfl (hx.orderly.ok.indexed.id_eq hr)
      have herr := hr ▸ Confirming.answer_of_refusal he mo.now
      refine ⟨_, rfl, hx.act hwent (.of_row? hrow) rfl ?_
        (Store.grants_of_answer rfl hnot hans) hat hnone (hx.settled_error _ k mo herr)⟩
      exact (congrFun hrow q.id).trans (Confirming.onRow_of_error herr).symm
  | read _ _ hr he hans hrow =>
      have hid := hx.orderly.ok.indexed.id_eq hr
      have hnone := hx.pending_eq_nil_of_locked hwent hat rfl hid
      exact ⟨_, rfl, hx.take hwent hrow (Store.grants_of_answer rfl hnot hans) hat hnone
        ⟨_, rfl, hid⟩ (List.mem_singleton_self k)⟩

/-- Whoever writes a row has it locked, and does not get the lock when he asks for it again. -/
theorem grantsNext_of_writes {g : Stage} (hx : Contest m s₀ h x gs)
    (hwent : x.Went gs k mo ⟨o, rest⟩ g g' s') (ht : g.holding.ticket? = some t)
    (hr : g.writes? = some r) {c : StoreCall} (hhead : g.program.head? = some (.store c))
    (hc : c.asks? = some (t, r.id)) : x.store.grantsNext m mo g.program = false := by
  obtain ⟨u, l, hu, hl, -⟩ := (hx.orderly.stage hwent.caller hwent.stage).2.2.exists_held
    (Stage.locked?_of_writes? hr)
  rw [ht] at hu
  obtain rfl := Option.some.inj hu
  rw [Store.grantsNext, hhead]
  exact Store.grants_of_hasLocked hc ((x.store.hasLocked_iff t r.id).2 ⟨l, hl⟩)

theorem updating (hx : Contest m s₀ h x gs)
    (hwent : x.Went gs k mo ⟨o, rest⟩ (.updating q t r) g' s') :
    GoesOn m s₀ h (.go k mo) (x.after (.go k mo)) (gs.set k g') := by
  obtain ⟨hcontends, hat⟩ := hx.callers hwent.caller hwent.stage
  obtain ⟨-, hof, -⟩ := hx.orderly.stage hwent.caller hwent.stage
  change k ∈ h.pending at hat
  cases hof
  rename_i hid he
  obtain rfl : q.id = m := hcontends
  cases hwent.goes with
  | unreachable _ hoff => simp [hx.online] at hoff
  | updated _ _ _ hrow =>
      have hgets := hx.grantsNext_of_writes hwent rfl rfl rfl (by rw [hid]; rfl)
      exact ⟨_, rfl, hx.pass hwent (.of_row? hrow) (congrFun hrow q.id) hgets (fun _ => ⟨r, rfl, hid⟩)
        ⟨hat, mo, by simp [History.passed], rfl⟩⟩

theorem rereading {now : Time.Instant} (hx : Contest m s₀ h x gs)
    (hwent : x.Went gs k mo ⟨o, rest⟩ (.rereading q t r now) g' s') :
    GoesOn m s₀ h (.go k mo) (x.after (.go k mo)) (gs.set k g') := by
  obtain ⟨hcontends, hat, mo', hmo', hnow⟩ := hx.callers hwent.caller hwent.stage
  obtain ⟨-, hof, -⟩ := hx.orderly.stage hwent.caller hwent.stage
  cases hof
  rename_i hid he
  obtain rfl : q.id = m := hcontends
  cases hwent.goes with
  | unreachable _ hoff => simp [hx.online] at hoff
  | reread _ _ _ _ =>
      have hgets := hx.grantsNext_of_writes hwent rfl rfl rfl (by rw [hid]; rfl)
      exact ⟨_, rfl, hx.pass hwent (.refl _ _) rfl hgets (fun _ => ⟨r, rfl, hid⟩)
        ⟨hat, mo', by simp [History.passed, hmo'], hnow⟩⟩

/-- The commit: the act ends with the row as the caller has read it, because he has had it locked
since. -/
theorem closing {now : Time.Instant} (hx : Contest m s₀ h x gs)
    (hwent : x.Went gs k mo ⟨o, rest⟩ (.closing q t r now) g' s') :
    GoesOn m s₀ h (.go k mo) (x.after (.go k mo)) (gs.set k g') := by
  obtain ⟨hcontends, hat, mo', hmo', rfl⟩ := hx.callers hwent.caller hwent.stage
  obtain ⟨hrest, hof, -⟩ := hx.orderly.stage hwent.caller hwent.stage
  have hgoes := hwent.goes.contended hof hcontends
  cases hof
  obtain rfl : q.id = m := hcontends
  cases hwent.goes with
  | unreachable _ hoff => simp [hx.online] at hoff
  | closed _ _ _ hid hr he hrow =>
      have hans : q.answer mo'.now (x.store.row? q.id) = .ok (r.confirmedBy q.role mo'.now) := by
        rw [hr]
        exact Confirming.answer_of_no_refusal he _
      have hm : s'.row? q.id = some (r.confirmedBy q.role mo'.now) := by
        rw [hrow]
        exact Function.update_self _ _ _
      refine ⟨_, rfl, hx.finish hwent hgoes rfl ?_ rfl hat hmo' ⟨?_, ?_⟩⟩
      · exact hm.trans (Confirming.onRow_of_ok hans).symm
      · refine ⟨q.user, q.role, rfl, h.ended, _, [], rfl, rfl, ?_⟩
        rw [← hx.row]
        exact hans.symm
      · intro p hp
        obtain rfl := Except.ok.inj hp
        refine ⟨h.events, mo, [], t, rfl, ?_, ?_⟩
        · rw [← hx.reached, Traffic.next?, hwent.caller]
          exact congrArg Program.head? hrest
        · rw [List.foldl_append, ← hx.reached]
          exact (congrFun (congrArg Store.row? hwent.store) q.id).trans hm

theorem dropping {hold : Holding} {e : ServiceError} (hx : Contest m s₀ h x gs)
    (hwent : x.Went gs k mo ⟨o, rest⟩ (.dropping q t hold e) g' s') :
    GoesOn m s₀ h (.go k mo) (x.after (.go k mo)) (gs.set k g') := by
  obtain ⟨hcontends, hat⟩ := hx.callers hwent.caller hwent.stage
  cases hwent.goes with
  | unreachable _ hoff => simp [hx.online] at hoff
  | dropped _ _ _ _ hrow => exact hx.goesOn_of_pass hwent hrow rfl rfl hat

end Confirming

/-! ### The end -/

theorem counting {obs : Observation} {r : Outcome} (hx : Contest m s₀ h x gs)
    (hwent : x.Went gs k mo ⟨o, rest⟩ (.counting obs r) g' s') :
    GoesOn m s₀ h (.go k mo) (x.after (.go k mo)) (gs.set k g') := by
  obtain ⟨-, hat⟩ := hx.callers hwent.caller hwent.stage
  cases hwent.goes with
  | unreachable _ hoff => simp [hx.online] at hoff
  | counted _ _ =>
      refine hx.goesOn_of_pass hwent rfl rfl rfl ?_
      cases r <;> exact hat

theorem finished {r : Outcome} (hx : Contest m s₀ h x gs)
    (hwent : x.Went gs k mo ⟨o, rest⟩ (.finished r) g' s') :
    GoesOn m s₀ h (.go k mo) (x.after (.go k mo)) (gs.set k g') := by
  obtain ⟨-, hat⟩ := hx.callers hwent.caller hwent.stage
  cases hwent.goes with
  | unreachable _ hoff => simp [hx.online] at hoff
  | finished _ => exact hx.goesOn_of_pass hwent rfl rfl rfl hat

/-! ### Rejecting -/

section Rejecting

variable {q : Rejecting} {t : Ticket}

theorem checking (hx : Contest m s₀ h x gs)
    (hwent : x.Went gs k mo ⟨o, rest⟩ (.checking q) g' s') :
    GoesOn m s₀ h (.go k mo) (x.after (.go k mo)) (gs.set k g') := by
  obtain ⟨-, hat⟩ := hx.callers hwent.caller hwent.stage
  obtain ⟨-, hof, -⟩ := hx.orderly.stage hwent.caller hwent.stage
  cases hof
  cases hwent.goes with
  | unreachable _ hoff => simp [hx.online] at hoff
  | notChecked _ e _ => exact hx.goesOn_of_pass hwent rfl rfl rfl nofun
  | checked _ hr ha =>
      exact hx.goesOn_of_pass hwent rfl rfl rfl
        ⟨hat, fun hne => ⟨_, (hx.contended.accepted hne ha).1 hr, ha⟩⟩

theorem listingDriven (hx : Contest m s₀ h x gs)
    (hwent : x.Went gs k mo ⟨o, rest⟩ (.listingDriven q) g' s') :
    GoesOn m s₀ h (.go k mo) (x.after (.go k mo)) (gs.set k g') := by
  obtain ⟨-, hat, hacc⟩ := hx.callers hwent.caller hwent.stage
  cases hwent.goes with
  | unreachable _ hoff => simp [hx.online] at hoff
  | listedDriven _ =>
      refine hx.goesOn_of_pass hwent rfl rfl rfl ⟨hat, hacc, ?_⟩
      rintro ⟨p, hp, rfl⟩
      obtain ⟨hparty, id, hr⟩ := mem_rowsOf.1 hp
      rw [← hx.orderly.ok.indexed.id_eq hr] at hr
      obtain ⟨r, hr₀, hd, -⟩ := hx.contended.parties hr
      exact ⟨r, hr₀, hd.trans hparty⟩

theorem listingRidden {driven : List Proposal} (hx : Contest m s₀ h x gs)
    (hwent : x.Went gs k mo ⟨o, rest⟩ (.listingRidden q driven) g' s') :
    GoesOn m s₀ h (.go k mo) (x.after (.go k mo)) (gs.set k g') := by
  obtain ⟨-, hat, hacc, hdriven⟩ := hx.callers hwent.caller hwent.stage
  obtain ⟨-, hof, -⟩ := hx.orderly.stage hwent.caller hwent.stage
  cases hof
  cases hwent.goes with
  | unreachable _ hoff => simp [hx.online] at hoff
  | noneListed _ _ _ => exact hx.goesOn_of_pass hwent rfl rfl rfl nofun
  | listedRidden _ _ _ =>
      refine hx.goesOn_of_pass hwent rfl rfl rfl ⟨hat, fun hm => ?_⟩
      rw [Stage.competing, mem_sortedIds, List.mem_append, mem_competitors, mem_competitors] at hm
      rcases hm with ⟨p, hp, hne, -, rfl⟩ | ⟨p, hp, hne, -, rfl⟩
      · obtain ⟨r, hr, hd⟩ := hdriven ⟨p, hp, rfl⟩
        exact ⟨hne.symm, hacc hne.symm, r, hr, Or.inl hd⟩
      · obtain ⟨hparty, id, hr⟩ := mem_rowsOf.1 hp
        rw [← hx.orderly.ok.indexed.id_eq hr] at hr
        obtain ⟨r, hr₀, -, hr⟩ := hx.contended.parties hr
        exact ⟨hne.symm, hacc hne.symm, r, hr₀, Or.inr (hr.trans hparty)⟩

theorem opening_batch {ids : List MatchId} (hx : Contest m s₀ h x gs)
    (hwent : x.Went gs k mo ⟨o, rest⟩ (.opening q ids) g' s') :
    GoesOn m s₀ h (.go k mo) (x.after (.go k mo)) (gs.set k g') := by
  obtain ⟨-, hat, hfor⟩ := hx.callers hwent.caller hwent.stage
  cases hwent.goes with
  | unreachable _ hoff => simp [hx.online] at hoff
  | opened _ _ hrow =>
      exact hx.goesOn_of_pass hwent hrow rfl rfl
        ⟨nodup_sortedIds ids, fun hm => ⟨hfor (mem_sortedIds.1 hm), hat⟩⟩

/-- A rejection comes to the next row of its batch, which may be the row in question or not. -/
theorem rejecting_next {id : MatchId} {ids : List MatchId} {n n' : Nat} {b : Bool}
    (hx : Contest m s₀ h x gs)
    (hwent : x.Went gs k mo ⟨o, rest⟩ (.rejecting q t (id :: ids) n) (.rejecting q t ids n') s')
    (hans : Store.perform mo (.updateRow t id .rejected Status.openStates) x.store = .answer b s')
    (hfree : ∀ u l, x.store.Exists id → (id, l) ∉ x.store.held u)
    (hrow : s'.row? = Function.update x.store.row? id
      ((x.store.row? id).map (Proposal.closedAt mo.now))) :
    GoesOn m s₀ h (.go k mo) (x.after (.go k mo)) (gs.set k (.rejecting q t ids n')) := by
  obtain ⟨hcontends, hnodup, hfor⟩ := hx.callers hwent.caller hwent.stage
  obtain ⟨-, hof, hclosed, -⟩ := hx.orderly.stage hwent.caller hwent.stage
  have hgoes := hwent.goes.contended hof hcontends
  cases hof
  obtain ⟨hnotin, hnodup⟩ := List.nodup_cons.mp hnodup
  have hnot : (x.store.transaction t).hasLocked id = false := by
    refine Bool.eq_false_iff.mpr fun hl => ?_
    obtain ⟨l, hl⟩ := (x.store.hasLocked_iff t id).1 hl
    rw [x.store.held_of_not_isOpen hclosed] at hl
    cases hl
  by_cases hid : id = m
  · subst hid
    obtain ⟨hfor, hat⟩ := hfor List.mem_cons_self
    have hnone : h.pending = [] := by
      refine hx.pending_eq_nil fun u l r hl hr => hfree u l ?_ hl
      unfold Store.Exists
      rw [hr]
      rfl
    refine ⟨_, rfl, hx.act hwent hgoes hfor ?_ (Store.grants_of_answer rfl hnot hans) hat hnone
      ⟨hnodup, fun hm => absurd hm hnotin⟩⟩
    rw [hrow]
    exact Function.update_self _ _ _
  · have hm : s'.row? m = x.store.row? m := by
      rw [hrow]
      exact Function.update_of_ne (Ne.symm hid) _ _
    have hgets : x.store.grants m mo (.updateRow t id .rejected Status.openStates) = false :=
      Store.grants_of_ne rfl hid
    refine ⟨_, rfl, hx.pass hwent hgoes hm hgets
      (fun hk => absurd hk (hx.not_pending hwent.stage rfl)) ⟨hnodup, fun hmem => ?_⟩⟩
    exact hfor (List.mem_cons_of_mem _ hmem)

theorem rejecting {ids : List MatchId} {n : Nat} (hx : Contest m s₀ h x gs)
    (hwent : x.Went gs k mo ⟨o, rest⟩ (.rejecting q t ids n) g' s') :
    GoesOn m s₀ h (.go k mo) (x.after (.go k mo)) (gs.set k g') := by
  obtain ⟨-, hat⟩ := hx.callers hwent.caller hwent.stage
  obtain ⟨-, hof, -⟩ := hx.orderly.stage hwent.caller hwent.stage
  cases hwent.goes with
  | unreachable _ hoff => simp [hx.online] at hoff
  | waitsToReject _ _ _ _ _ hwait halone hrow =>
      exact hx.goesOn_of_pass hwent hrow (Store.grants_of_wait hwait) rfl hat
  | passed _ _ id _ _ hclosed hans hfree hrow =>
      refine hx.rejecting_next hwent hans hfree ?_
      rw [hrow, eq_comm, Function.update_eq_self_iff]
      cases hr : x.store.row? id with
      | none => rfl
      | some r => rw [Option.map_some, Proposal.closedAt_of_not_isOpen (hclosed r hr)]
  | rejected _ _ _ _ _ hr hopen hans hfree hrow =>
      refine hx.rejecting_next hwent hans hfree ?_
      rw [hrow, hr, Option.map_some, Proposal.closedAt_of_isOpen hopen]
  | rejectedAll _ _ _ =>
      cases hof
      exact hx.goesOn_of_pass hwent rfl rfl rfl nofun

end Rejecting

/-! ### Any event -/

/-- **A contest goes on** whatever is called next. -/
theorem go (hx : Contest m s₀ h x gs) (k : Nat) (mo : Moment) :
    ∃ gs', GoesOn m s₀ h (.go k mo) (x.after (.go k mo)) gs' := by
  cases hc : x.callers[k]? with
  | none =>
      have hafter := Traffic.after_go_of_none (m := mo) hc
      refine ⟨gs, h.passed (.go k mo), rfl, ?_⟩
      rw [hafter]
      exact {
        hx with
        reached := by
          rw [History.passed, List.foldl_append, ← hx.reached]
          exact hafter.symm
        order := by
          rw [History.passed, Traffic.lockOrder_concat, ← hx.reached, Traffic.gets?_go_of_none hc]
          exact (List.append_nil _).trans hx.order
        acts := fun u hu =>
          ⟨(hx.acts u hu).1, (hx.acts u hu).2.1, List.mem_append_left _ (hx.acts u hu).2.2⟩
        callers := fun hc' hg' => ⟨(hx.callers hc' hg').1, (hx.callers hc' hg').2.mono
          ⟨⟨_, rfl⟩, ⟨[], (List.append_nil _).symm⟩, fun hn => hn, fun hp => hp⟩⟩ }
  | some c =>
      obtain ⟨g, hg⟩ := hx.orderly.exists_stage hc
      obtain ⟨hcontends, hat⟩ := hx.callers hc hg
      have hfresh : ∀ d t, g = .inserting d t → x.store.Unused mo.freshId := by
        rintro d t rfl
        exact hat.elim
      obtain ⟨g', s', metrics', step, hafter, horderly⟩ := hx.orderly.go hfresh hc hg
      obtain ⟨o, rest⟩ := c
      have hwent : x.Went gs k mo ⟨o, rest⟩ g g' s' :=
        ⟨hc, hg, step.goes, by rw [hafter], by rw [hafter], horderly, step.advance.offline⟩
      refine ⟨gs.set k g', ?_⟩
      cases g with
      | finished r => exact hx.finished hwent
      | counting obs r => exact hx.counting hwent
      | starting q => exact hx.starting hwent
      | asking q t => exact hx.asking hwent
      | updating q t r => exact hx.updating hwent
      | rereading q t r now => exact hx.rereading hwent
      | closing q t r now => exact hx.closing hwent
      | dropping q t hold e => exact hx.dropping hwent
      | checking q => exact hx.checking hwent
      | listingDriven q => exact hx.listingDriven hwent
      | listingRidden q driven => exact hx.listingRidden hwent
      | opening q ids => exact hx.opening_batch hwent
      | rejecting q t ids n => exact hx.rejecting hwent
      | _ => exact hat.elim

/-- A contest goes on when somebody calls. -/
theorem arrive (hx : Contest m s₀ h x gs) {o : Operation} (ho : o.Contends m) :
    ∃ gs', GoesOn m s₀ h (.arrive o) (x.after (.arrive o)) gs' := by
  have hnot : x.callers.length ∉ h.order := fun hmem => Nat.lt_irrefl _ (hx.lt_of_mem_order hmem)
  have hext : ∀ j, History.Extends j h (h.passed (.arrive o)) := fun j =>
    ⟨⟨_, rfl⟩, ⟨[], (List.append_nil _).symm⟩, fun hn => hn, fun hp => hp⟩
  refine ⟨gs ++ [Stage.first o], h.passed (.arrive o), rfl, ?_⟩
  exact {
    orderly := hx.orderly.arrive o
    reached := by
      rw [History.passed, List.foldl_append, ← hx.reached]
      rfl
    online := hx.online
    contended := hx.contended
    row := hx.row
    order := by
      rw [History.passed, Traffic.lockOrder_concat, ← hx.reached]
      exact (List.append_nil _).trans hx.order
    nodup := hx.nodup
    acts := by
      intro u hu
      obtain ⟨hfor, hop, hmem⟩ := hx.acts u hu
      refine ⟨hfor, ?_, List.mem_append_left _ hmem⟩
      obtain ⟨c, hc, hop⟩ := Option.map_eq_some_iff.mp hop
      rw [Traffic.operation?, Option.map_eq_some_iff]
      exact ⟨c, List.getElem?_append_left (List.getElem?_eq_some_iff.mp hc).1 ▸ hc, hop⟩
    pending_le := hx.pending_le
    pending := by
      intro k hk
      obtain ⟨g, r, hg, hr⟩ := hx.pending k hk
      refine ⟨g, r, ?_, hr⟩
      rw [List.getElem?_append_left (List.getElem?_eq_some_iff.mp hg).1]
      exact hg
    callers := by
      intro k c g hc hg
      rcases getElem?_concat_cases hc with hc | ⟨hk, rfl⟩
      · rcases getElem?_concat_cases hg with hg | ⟨hk, -⟩
        · exact ⟨(hx.callers hc hg).1, (hx.callers hc hg).2.mono (hext k)⟩
        · rw [hk, hx.orderly.length] at hc
          simp at hc
      · rw [hk, ← hx.orderly.length, List.getElem?_concat_length] at hg
        obtain rfl := Option.some.inj hg
        refine ⟨ho, ?_⟩
        rw [hk]
        cases o with
        | propose d => exact ho.elim
        | confirm id user role => exact hnot
        | rejectCompeting accepted driver passenger => exact hnot }

end Contest
end Dispatch
