/-
Proposals that compete.

What competes with an accepted proposal is rejected by the worker, when the event of the acceptance
has come to it.  Until then nothing keeps a competitor from being accepted as well, and one driver
may come to have two accepted proposals.

But this is the only way.  Once the worker has finished with the event, each competitor that was
there while the accepted proposal was still open has been closed, and stays what it is.
-/
import Dispatch.Proofs.Service.Published

namespace Dispatch

open Service Store

namespace Scene

/-! ### The worker's first calls -/

section Listing

variable {s : Service} {e : Accepted}

/-- The worker is to go on with what is left of a rejection. -/
def atWork (s : Service) (p : CallerProgram) : Service :=
  { s with worker := .busy ((onMatches p).bind fun _ => .done ()) }

theorem handle_eq (e : Accepted) :
    handle e = (onMatches e.rejecting.check).bind fun _ => .done () := by
  rw [← Rejecting.program_eq, Operation.program, bind_onMatches]
  rfl

/-- A call that is answered and changes nothing takes the worker further. -/
theorem workerCall_atWork {c : StoreCall} {next : c.Reply → CallerProgram} {r : c.Reply}
    (hc : Service.perform (.store c) s = .answer r s) :
    (atWork s (.call (.store c) next)).workerCall
      = resumed ((onMatches (next r)).bind fun _ => .done (), s) := by
  rw [atWork, workerCall_busy]
  show resumed (Program.step Service.perform (.call (.store c) _) s) = _
  rw [Program.step, hc]
  rfl

/-- The worker looks at the accepted row, and lists what competes with it. -/
theorem workerCalls_listing (hf : s.faults = ∅) (hon : s.store.offline = false) {a : Proposal}
    (ha : s.store.row? e.matchId = some a) (hstatus : a.status = .accepted) {ids : List MatchId}
    (hids : Stage.competing s.store e.rejecting (s.store.rowsOf e.driverId .driver) = ids)
    (hne : ids ≠ []) :
    (atWork s e.rejecting.check).workerCall.workerCall.workerCall
      = atWork s (Rejecting.openBatch ids) := by
  have hcheck : (atWork s e.rejecting.check).workerCall = atWork s e.rejecting.listDriven := by
    refine (workerCall_atWork (perform_get hf hon ha)).trans ?_
    show resumed ((onMatches
      (if a.status ≠ .accepted then _ else e.rejecting.listDriven)).bind _, s) = _
    rw [if_neg (not_not_intro hstatus)]
    rfl
  have hdriven : (atWork s e.rejecting.listDriven).workerCall
      = atWork s (e.rejecting.listRidden (s.store.rowsOf e.driverId .driver)) :=
    workerCall_atWork (perform_list hf hon e.driverId .driver)
  rw [hcheck, hdriven]
  refine (workerCall_atWork (perform_list hf hon e.passengerId .passenger)).trans ?_
  show resumed ((onMatches (Rejecting.rejectListed (Stage.competing s.store e.rejecting _))).bind _,
    s) = _
  rw [hids, Rejecting.rejectListed_of_ne_nil hne]
  rfl

end Listing

/-- The worker has taken the only event, and is to reject what competes with it. -/
def listed (x : Scene) (ids : List MatchId) : Scene :=
  let s := { x.service with queue := { x.service.queue with events := [] } }
  { x with service := atWork s (Rejecting.openBatch ids) }

variable {o : Options} {x : Scene} {added : List Accepted} {ts : List Taking} {e : Accepted}
  {ids : List MatchId}

/-- What competes with an accepted row is known from the rows. -/
theorem competing_eq_singleton {s : Store} (ok : StoreOK s) {id : MatchId}
    (hrows : s.rows.entries.map (fun p => (p.1, p.2.driverId, p.2.isOpen))
      = [(e.matchId, e.driverId, false), (id, e.driverId, true)]) (hne : id ≠ e.matchId) :
    Stage.competing s e.rejecting (s.rowsOf e.driverId .driver) = [id] := by
  refine List.perm_singleton.1 ((List.perm_ext_iff_of_nodup (nodup_sortedIds _)
    (List.nodup_singleton _)).2 fun id' => ?_)
  refine (Stage.mem_competing (fun _ _ => ok.indexed.id_eq) (q := e.rejecting)).trans ?_
  rw [List.mem_singleton]
  constructor
  · rintro ⟨-, r, hr, hopen, -⟩
    have hmem := List.mem_map_of_mem
      (f := fun p : MatchId × Proposal => (p.1, p.2.driverId, p.2.isOpen))
      (s.rows.find?_eq_some_iff.1 hr)
    rw [hrows] at hmem
    rcases List.mem_cons.mp hmem with hmem | hmem
    · rw [(Prod.mk.inj (Prod.mk.inj hmem).2).2] at hopen
      cases hopen
    · exact (Prod.mk.inj (List.mem_singleton.mp hmem)).1
  · rintro rfl
    have hmem : (id', e.driverId, true) ∈ s.rows.entries.map
        (fun p => (p.1, p.2.driverId, p.2.isOpen)) := by
      rw [hrows]
      simp
    obtain ⟨⟨id, r⟩, hr, he⟩ := List.mem_map.mp hmem
    simp only [Prod.mk.injEq] at he
    obtain ⟨rfl, hdriver, hopen⟩ := he
    exact ⟨hne, r, s.rows.find?_eq_some_iff.2 hr, hopen, Or.inl hdriver⟩

/-- The worker takes an event, looks at the accepted row, and lists what competes with it. -/
theorem run_listing (h : InOrder x added ts) (hw : x.service.worker = .idle)
    (hevents : x.service.queue.events = [e])
    (hids : Stage.competing x.store e.rejecting (x.store.rowsOf e.driverId .driver) = ids)
    (hne : ids ≠ []) : x.run o (List.replicate 4 .work) = listed x ids := by
  obtain ⟨y, gs, seat, hseated, -⟩ := h.seated
  obtain ⟨a, ⟨hrow, hstatus⟩, he⟩ := h.exists_row (e := e)
    (by rw [h.queue, hevents]; exact List.mem_append_right _ List.mem_cons_self)
  let s := { x.service with queue := { x.service.queue with events := [] } }
  have htake : x.service.workerCall = atWork s e.rejecting.check := by
    rw [workerCall, hw]
    simp only [Queue.take, hevents, handle_eq]
    rfl
  have hcalls : (atWork s e.rejecting.check).workerCall.workerCall.workerCall
      = atWork s (Rejecting.openBatch ids) :=
    workerCalls_listing (s := s) hseated.faults hseated.online (he ▸ hrow) hstatus hids hne
  show { x with service := x.service.workerCall.workerCall.workerCall.workerCall } = _
  rw [htake, hcalls]
  rfl

/-- If only one other row of the driver is open when the event is the only one in the queue, and the
worker is idle again after it has closed that row, it has finished with the event. -/
theorem mem_handled {before : List Event} {n : Nat} {id id' : MatchId} {driver : ActorId}
    (h : InOrder (x.run o before) added ts) (hw : (x.run o before).service.worker = .idle)
    (hevents : (x.run o before).service.queue.events.map (fun e => (e.matchId, e.driverId))
      = [(id, driver)])
    (hrows : (x.run o before).store.rows.entries.map (fun p => (p.1, p.2.driverId, p.2.isOpen))
      = [(id, driver, false), (id', driver, true)]) (hne : id' ≠ id)
    (hidle : ((listed (x.run o before) [id']).run o (List.replicate n .work)).service.worker
      = .idle) :
    id ∈ (handled o x (before ++ List.replicate (4 + n) .work)).map Accepted.matchId := by
  obtain ⟨e, hqueue, he⟩ := List.map_eq_singleton_iff.mp hevents
  obtain ⟨rfl, rfl⟩ := Prod.mk.inj he
  obtain ⟨y, gs, seat, hseated, -⟩ := h.seated
  have hids := competing_eq_singleton (hseated.store ▸ hseated.orderly.ok) hrows hne
  have htakes : takes (x.run o before) .work = [e] := by
    rw [takes, hw]
    simp only [Queue.take, hqueue]
    rfl
  have hrun : x.run o (before ++ List.replicate (4 + n) .work)
      = (listed (x.run o before) [id']).run o (List.replicate n .work) := by
    rw [← run_listing (o := o) h hw hqueue hids (List.cons_ne_nil _ _), run, List.foldl_append,
      List.replicate_add, List.foldl_append]
  refine List.mem_map.mpr ⟨e, ?_, rfl⟩
  rw [handled, hrun, hidle, taken, Run.collect_append]
  refine List.mem_append_right _ ?_
  rw [Nat.add_comm, List.replicate_succ, Run.collect]
  exact List.mem_append_left _ (by rw [htakes]; exact List.mem_singleton_self e)

/-! ### A run in which the worker is in time -/

/-- The driver gets two proposals. -/
def contending : List Event :=
  [.arrive (creation "d" "p")] ++ List.replicate 5 (.go 0) ++
    [.arrive (creation "d" "q")] ++ List.replicate 5 (.go 1)

/-- The first one is confirmed by everybody, and the event comes into the queue. -/
def deciding : List Event :=
  [.arrive (confirmation (Uuid.fresh 0) "d" true)] ++ List.replicate 6 (.go 2) ++
    [.arrive (confirmation (Uuid.fresh 0) "p" false)] ++ List.replicate 7 (.go 3) ++
    List.replicate 3 (.publish 0)

/-- A row is there if something is known of it. -/
theorem exists_row {s : Store} {α : Type} {f : Proposal → α} {id : MatchId} {v : α}
    (h : (s.row? id).map (fun r => (r.id, f r)) = some (id, v)) :
    ∃ r, r.id = id ∧ s.row? r.id = some r ∧ f r = v := by
  obtain ⟨r, hr, he⟩ := Option.map_eq_some_iff.mp h
  obtain ⟨hid, hf⟩ := Prod.mk.inj he
  exact ⟨r, hid, hid ▸ hr, hf⟩

/-- There are two open proposals of one driver. -/
theorem exists_contending : ∃ a b : Proposal, a.id = Uuid.fresh 0 ∧ b.id = Uuid.fresh 1 ∧
    a.driverId = b.driverId ∧
    ((opening {} ⟨0, 0⟩).run {} contending).store.row? a.id = some a ∧ a.isOpen = true ∧
    ((opening {} ⟨0, 0⟩).run {} contending).store.row? b.id = some b ∧ b.isOpen = true := by
  have hrow : ∀ n ∈ [0, 1], (((opening {} ⟨0, 0⟩).run {} contending).store.row? (Uuid.fresh n)).map
      (fun r => (r.id, r.driverId, r.isOpen)) = some (Uuid.fresh n, "d", true) := by
    decide +kernel
  generalize (opening {} ⟨0, 0⟩).run {} contending = x at hrow ⊢
  obtain ⟨a, hida, ha, hae⟩ := exists_row (hrow 0 (by decide))
  obtain ⟨b, hidb, hb, hbe⟩ := exists_row (hrow 1 (by decide))
  obtain ⟨hda, hoa⟩ := Prod.mk.inj hae
  obtain ⟨hdb, hob⟩ := Prod.mk.inj hbe
  exact ⟨a, b, hida, hidb, hda.trans hdb.symm, ha, hoa, hb, hob⟩

/-- The run in which the worker is in time can happen. -/
theorem along_deciding : Run.Along (Scene.after {}) Admits (opening {} ⟨0, 0⟩)
    (contending ++ (deciding ++ List.replicate 7 .work) ++ []) := by
  decide +kernel

/-- After the event has come into the queue, seven calls bring the worker to the end of it. -/
theorem handled_deciding : Uuid.fresh 0 ∈ (handled {} (opening {} ⟨0, 0⟩)
    (contending ++ (deciding ++ List.replicate 7 .work))).map Accepted.matchId := by
  have hadm : Run.Along (Scene.after {}) Admits (opening {} ⟨0, 0⟩) (contending ++ deciding) := by
    have h := (Run.along_append.mp along_deciding).1
    rw [← List.append_assoc] at h
    exact (Run.along_append.mp h).1
  have hx : ((opening {} ⟨0, 0⟩).run {} (contending ++ deciding)).service.worker = .idle ∧
      ((opening {} ⟨0, 0⟩).run {} (contending ++ deciding)).service.queue.events.map
        (fun e => (e.matchId, e.driverId)) = [(Uuid.fresh 0, "d")] ∧
      ((opening {} ⟨0, 0⟩).run {} (contending ++ deciding)).store.rows.entries.map
        (fun p => (p.1, p.2.driverId, p.2.isOpen))
          = [(Uuid.fresh 0, "d", false), (Uuid.fresh 1, "d", true)] := by
    decide +kernel
  have hidle : ((listed ((opening {} ⟨0, 0⟩).run {} (contending ++ deciding)) [Uuid.fresh 1]).run {}
      (List.replicate 3 .work)).service.worker = .idle := by
    decide +kernel
  rw [← List.append_assoc]
  exact mem_handled (n := 3) (inOrder_of_along hadm) hx.1 hx.2.1 hx.2.2 (by decide) hidle

/-! ### What becomes of competitors -/

/-- **Once the worker has finished with an accepted proposal, what competed with it while it was
open is accepted or rejected, once and for all.** -/
theorem competitor_closed {o : Options} {now : Time.Instant} {before during later : List Event}
    (hadm : Run.Along (Scene.after o) Admits (opening o now) (before ++ during ++ later))
    {a b : Proposal} (ha : ((opening o now).run o before).store.row? a.id = some a)
    (hopen : a.isOpen = true) (hb : ((opening o now).run o before).store.row? b.id = some b)
    (hc : b.driverId = a.driverId ∨ b.passengerId = a.passengerId)
    (hdone : a.id ∈ (handled o (opening o now) (before ++ during)).map Accepted.matchId) :
    ∃ b', ((opening o now).run o (before ++ during)).store.row? b.id = some b' ∧
      (b'.status = .accepted ∨ b'.status = .rejected) ∧
      ((opening o now).run o (before ++ during ++ later)).store.row? b.id = some b' := by
  obtain ⟨hboth, hrest⟩ := Run.along_append.mp hadm
  obtain ⟨hbefore, hduring⟩ := Run.along_append.mp hboth
  have h := inOrder_of_along hbefore
  have h' := inOrder_of_along hboth
  have hlater := (h.run hduring).2
  have hlater' := (h'.run hrest).2
  rw [← List.foldl_append] at hlater hlater'
  obtain ⟨e, he, hid⟩ := List.mem_map.mp hdone
  obtain ⟨t, ht, rfl, hfinished⟩ := h'.exists_finished he
  -- the worker has taken the event when the competitor was there
  have hthere : ((opening o now).run o before).store.Later t.store := by
    rw [Run.collect_append] at ht
    rcases List.mem_append.mp ht with ht | ht
    · obtain ⟨r, hr, hevent⟩ := h.exists_accepted ht
      have hrid : r.id = a.id := by rw [← hid, hevent]; rfl
      rw [HasAccepted, hrid, ha] at hr
      obtain rfl := Option.some.inj hr.1
      rw [(Proposal.not_isOpen_iff a).2 (Or.inl hr.2)] at hopen
      cases hopen
    · obtain ⟨first, rest, hsplit, -, hstore⟩ := exists_taking ht
      rw [hsplit] at hduring
      rw [hstore]
      exact (h.run (Run.along_append.mp hduring).1).2
  obtain ⟨b', hb', hbl⟩ := hlater _ _ hb
  have hclosed : b'.isOpen = false := by
    by_contra hbopen
    rw [Bool.not_eq_false] at hbopen
    obtain ⟨r, hr, hevent⟩ := h'.exists_accepted ht
    have hrid : r.id = a.id := by rw [← hid, hevent]; rfl
    obtain ⟨a', ha', hal⟩ := hlater _ _ ha
    rw [← hrid, hr.1] at ha'
    obtain rfl := Option.some.inj ha'
    have hcompetes : b'.Competes t.event := by
      rw [hevent]
      show b'.driverId = r.driverId ∨ b'.passengerId = r.passengerId
      rwa [hbl.driverId, hbl.passengerId, hal.driverId, hal.passengerId]
    have hnone := hfinished.competing b' (by rw [hbl.id]; exact hb') hbopen hcompetes
    replace hnone := hnone.resolve_right id
    obtain ⟨b₀, hb₀, -⟩ := hthere _ _ hb
    rw [hbl.id, hb₀] at hnone
    cases hnone
  obtain ⟨b'', hb'', hbl'⟩ := hlater' _ _ hb'
  rw [hbl'.closed ((Proposal.not_isOpen_iff b').1 hclosed)] at hb''
  exact ⟨b', hb', (Proposal.not_isOpen_iff b').1 hclosed, hb''⟩

/-- In the run in which the worker is in time, two proposals compete. -/
theorem competitor_closed_contending :
    Run.Along (Scene.after {}) Admits (opening {} ⟨0, 0⟩)
      (contending ++ (deciding ++ List.replicate 7 .work) ++ []) ∧
    ∃ a b : Proposal, a.id ≠ b.id ∧
      ((opening {} ⟨0, 0⟩).run {} contending).store.row? a.id = some a ∧ a.isOpen = true ∧
      ((opening {} ⟨0, 0⟩).run {} contending).store.row? b.id = some b ∧ b.isOpen = true ∧
      (b.driverId = a.driverId ∨ b.passengerId = a.passengerId) ∧
      a.id ∈ (handled {} (opening {} ⟨0, 0⟩)
        (contending ++ (deciding ++ List.replicate 7 .work))).map Accepted.matchId ∧
      ∃ b', ((opening {} ⟨0, 0⟩).run {}
          (contending ++ (deciding ++ List.replicate 7 .work))).store.row? b.id = some b' ∧
        (b'.status = .accepted ∨ b'.status = .rejected) ∧
        ((opening {} ⟨0, 0⟩).run {}
          (contending ++ (deciding ++ List.replicate 7 .work) ++ [])).store.row? b.id
            = some b' := by
  obtain ⟨a, b, hida, hidb, hdriver, ha, haopen, hb, hbopen⟩ := exists_contending
  have hne : a.id ≠ b.id := by
    rw [hida, hidb]
    decide
  have hdone := handled_deciding
  rw [← hida] at hdone
  exact ⟨along_deciding, a, b, hne, ha, haopen, hb, hbopen, Or.inl hdriver.symm, hdone,
    competitor_closed along_deciding ha haopen hb (Or.inl hdriver.symm) hdone⟩

/-- Both proposals are confirmed by everybody, and the worker comes too late. -/
def hurrying : List Event :=
  [.arrive (confirmation (Uuid.fresh 0) "d" true)] ++ List.replicate 6 (.go 2) ++
    [.arrive (confirmation (Uuid.fresh 1) "d" true)] ++ List.replicate 6 (.go 3) ++
    [.arrive (confirmation (Uuid.fresh 0) "p" false)] ++ List.replicate 7 (.go 4) ++
    [.arrive (confirmation (Uuid.fresh 1) "q" false)] ++ List.replicate 7 (.go 5)

/-- **One driver can come to have two accepted proposals**, out of two that were open at once. -/
theorem exists_accepted_both : ∃ before rest : List Event,
    Run.Along (Scene.after {}) Admits (opening {} ⟨0, 0⟩) (before ++ rest) ∧
    ∃ a b : Proposal, a.id ≠ b.id ∧ a.driverId = b.driverId ∧
      ((opening {} ⟨0, 0⟩).run {} before).store.row? a.id = some a ∧ a.isOpen = true ∧
      ((opening {} ⟨0, 0⟩).run {} before).store.row? b.id = some b ∧ b.isOpen = true ∧
      ∃ a' b' : Proposal, a'.id = a.id ∧ b'.id = b.id ∧
        ((opening {} ⟨0, 0⟩).run {} (before ++ rest)).store.HasAccepted a' ∧
        ((opening {} ⟨0, 0⟩).run {} (before ++ rest)).store.HasAccepted b' := by
  have hadm : Run.Along (Scene.after {}) Admits (opening {} ⟨0, 0⟩) (contending ++ hurrying) := by
    decide +kernel
  have hrow : ∀ n ∈ [0, 1], (((opening {} ⟨0, 0⟩).run {} (contending ++ hurrying)).store.row?
      (Uuid.fresh n)).map (fun r => (r.id, r.status)) = some (Uuid.fresh n, .accepted) := by
    decide +kernel
  obtain ⟨a, b, hida, hidb, hdriver, ha, haopen, hb, hbopen⟩ := exists_contending
  refine ⟨contending, hurrying, hadm, a, b, ?_, hdriver, ha, haopen, hb, hbopen, ?_⟩
  · rw [hida, hidb]
    decide
  · generalize (opening {} ⟨0, 0⟩).run {} (contending ++ hurrying) = x at hrow ⊢
    obtain ⟨a', hida', ha', hae⟩ := exists_row (hrow 0 (by decide))
    obtain ⟨b', hidb', hb', hbe⟩ := exists_row (hrow 1 (by decide))
    exact ⟨a', b', hida'.trans hida.symm, hidb'.trans hidb.symm, ⟨ha', hae⟩, ⟨hb', hbe⟩⟩

end Scene
end Dispatch
