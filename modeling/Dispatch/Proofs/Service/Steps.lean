/-
Single calls of the service.

A harmless call leaves the match table as it is.  A call of an operation is taken by the match table
and the counts just as if they stood alone (`Service.step_onMatches`), as long as no outcomes have
been laid down, so that the operation gets to the same stage (`Service.step_of_stage`).  Neither
touches the queue, the feed or the work in the background (`Service.KeepsWork`).  Whoever goes away
while an operation has to wait leaves nothing of it behind (`Service.exists_left`).
-/
import Dispatch.Proofs.Matching.Steps
import Dispatch.Proofs.Service.Requests

namespace Dispatch.Service

open Store

/-- The queue, the feed and the work in the background are as before. -/
structure KeepsWork (s s' : Service) : Prop where
  queue : s'.queue = s.queue
  feed : s'.feed = s.feed
  publishing : s'.publishing = s.publishing
  worker : s'.worker = s.worker
  faults : s'.faults = s.faults

namespace KeepsWork

variable {s s' s'' : Service}

theorem refl (s : Service) : KeepsWork s s := ⟨rfl, rfl, rfl, rfl, rfl⟩

end KeepsWork

variable {α β : Type} {s : Service}

/-! ### Calls on the match table -/

theorem outcome_empty (c : StoreCall) (s : Store) :
    (∅ : Faults).outcome c s = (Rehearsed.pass, ∅) := by
  unfold Faults.outcome
  cases c.method? with
  | none => rfl
  | some m => cases c.isWaiting s <;> rfl

/-- Calls on the match table go through if no outcomes have been laid down. -/
theorem perform_store (hf : s.faults = ∅) (c : StoreCall) :
    perform (.store c) s = s.performTable c := by
  rw [perform, hf, outcome_empty, ← hf]
  rfl

theorem afterTable_store (c : StoreCall) (t : Store) : (s.afterTable c t).store = t := by
  cases c <;> rfl

theorem keepsWork_afterTable (c : StoreCall) (t : Store) : KeepsWork s (s.afterTable c t) := by
  cases c <;> exact ⟨rfl, rfl, rfl, rfl, rfl⟩

/-- A row that is there is found. -/
theorem perform_get (hf : s.faults = ∅) (hon : s.store.offline = false) {id : MatchId}
    {r : Proposal} (hr : s.store.row? id = some r) :
    perform (.store (.get id)) s = .answer (.ok r) s := by
  rw [perform_store hf, performTable, Store.perform, hr, Store.guarded, hon]
  rfl

/-- The rows of an actor are listed. -/
theorem perform_list (hf : s.faults = ∅) (hon : s.store.offline = false) (actor : ActorId)
    (role : Role) : perform (.store (.list actor role)) s
      = .answer (.ok (s.store.rowsOf actor role)) s := by
  refine (perform_store hf _).trans ?_
  show Turn.answer (s.store.guarded (.ok (s.store.rowsOf actor role))) s = _
  rw [Store.guarded, hon]
  rfl

/-! ### Harmless calls -/

theorem perform_harmless (hf : s.faults = ∅) {c : ServiceCall} (hc : c.IsHarmless) :
    KeepsWork s (perform c s).state ∧ (perform c s).state.store = s.store := by
  cases c with
  | store c =>
      rw [perform_store hf]
      cases c with
      | get id => exact ⟨keepsWork_afterTable (.get id) s.store, rfl⟩
      | list actor role => exact ⟨keepsWork_afterTable (.list actor role) s.store, rfl⟩
      | _ => exact hc.elim
  | availability c =>
      have hperform : perform (.availability c) s
          = (AvailabilityCache.perform Location.distance c s.availability).mapState
              fun availability => { s with availability } := rfl
      rw [hperform]
      cases AvailabilityCache.perform Location.distance c s.availability <;>
        exact ⟨⟨rfl, rfl, rfl, rfl, rfl⟩, rfl⟩
  | rides c =>
      have hperform : perform (.rides c) s
          = (RideCache.perform s.now c s.rides).mapState fun rides => { s with rides } := rfl
      rw [hperform]
      cases RideCache.perform s.now c s.rides <;> exact ⟨⟨rfl, rfl, rfl, rfl, rfl⟩, rfl⟩
  | count o => exact ⟨⟨rfl, rfl, rfl, rfl, rfl⟩, rfl⟩
  | counts => exact ⟨.refl s, rfl⟩
  | clock => exact ⟨.refl s, rfl⟩
  | _ => exact hc.elim

/-- A program of harmless calls is one after a step as well. -/
theorem Harmless.step (hf : s.faults = ∅) {p : ServiceProgram α} (hp : Harmless p) :
    Harmless (p.step perform s).1 ∧ KeepsWork s (p.step perform s).2 ∧
      (p.step perform s).2.store = s.store := by
  cases p with
  | done a => exact ⟨trivial, .refl s, rfl⟩
  | call c next =>
      have hstate := perform_harmless hf hp.1
      rw [Program.step]
      cases hc : perform c s with
      | answer r s' =>
          rw [hc] at hstate
          exact ⟨hp.2 r, hstate⟩
      | wait s' =>
          rw [hc] at hstate
          exact ⟨hp, hstate⟩

/-- Whoever goes away in the middle of harmless calls leaves nothing behind. -/
theorem Harmless.abandon {p : ServiceProgram α} (hp : Harmless p) : abandon p s = s := by
  cases p with
  | done a => rfl
  | call c next =>
      cases c with
      | store c =>
          cases c with
          | get id => rfl
          | list actor role => rfl
          | _ => exact hp.1.elim
      | table c => exact hp.1.elim
      | enqueue t e => exact hp.1.elim
      | _ => rfl

/-! ### Calls of operations -/

/-- **The match table and the counts take a call of an operation as if they stood alone.** -/
theorem step_onMatches (hf : s.faults = ∅) (metrics : Metrics) (c : MatchCall)
    (next : c.Reply → Program MatchCall.Reply α) (k : α → ServiceProgram β) :
    ∃ s', ((onMatches (.call c next)).bind k).step perform s
        = ((onMatches (Program.step (Ledger.perform s.moment) (.call c next)
            ⟨s.store, metrics⟩).1).bind k, s') ∧
      s'.store
        = (Program.step (Ledger.perform s.moment) (.call c next) ⟨s.store, metrics⟩).2.store ∧
      KeepsWork s s' := by
  cases c with
  | count o => exact ⟨_, rfl, rfl, ⟨rfl, rfl, rfl, rfl, rfl⟩⟩
  | store c =>
      show ∃ s', Program.step perform
        (.call (.store c) fun r => (onMatches (next r)).bind k) s = _ ∧ _ ∧ _
      rw [Program.step, Program.step, perform_store hf, performTable, Ledger.perform]
      cases Store.perform s.moment c s.store with
      | answer r t => exact ⟨_, rfl, afterTable_store c t, keepsWork_afterTable c t⟩
      | wait t => exact ⟨_, rfl, afterTable_store c t, keepsWork_afterTable c t⟩

/-- Where an operation gets to on a match table, it gets to in the service that has this table. -/
theorem step_of_stage (hf : s.faults = ∅) {t t' : Store} {metrics metrics' : Metrics}
    {o : Operation} {g g' : Stage} (h : Stage.Step t metrics s.moment o g g' t' metrics')
    (ht : t = s.store) (hg : ∀ r, g ≠ .finished r) (k : Outcome → ServiceProgram α) :
    ∃ s', ((onMatches g.program).bind k).step perform s = ((onMatches g'.program).bind k, s') ∧
      s'.store = t' ∧ KeepsWork s s' := by
  subst ht
  obtain ⟨c, next, hcall⟩ := Stage.exists_call hg
  obtain ⟨s', hstep, hstore, hkeeps⟩ := step_onMatches hf metrics c next k
  rw [← hcall, h.called.step] at hstep hstore
  exact ⟨s', hstep, hstore, hkeeps⟩

/-! ### Who can be made to wait -/

/-- Only calls that ask for a lock have to wait. -/
theorem waits_store (hf : s.faults = ∅) {c : StoreCall} {next : c.Reply → ServiceProgram α}
    (h : waits (.call (.store c) next) s = true) :
    (∃ t id, c = .lock t id) ∨
      (∃ t id status driver passenger, c = .update t id status driver passenger) ∨
      ∃ t id status allowed, c = .updateRow t id status allowed := by
  have hanswer : ∀ {r : c.Reply} {t : Store}, Store.perform s.moment c s.store = .answer r t →
      False := by
    intro r t hr
    simp only [waits, perform_store hf, performTable, hr, Turn.mapState_answer,
      Bool.false_eq_true] at h
  cases c with
  | lock t id => exact Or.inl ⟨t, id, rfl⟩
  | update t id status driver passenger => exact Or.inr (Or.inl ⟨_, _, _, _, _, rfl⟩)
  | updateRow t id status allowed => exact Or.inr (Or.inr ⟨_, _, _, _, rfl⟩)
  | begin =>
      refine (hanswer (r := if s.store.offline then .error .offline else .ok s.store.nextTicket)
        (t := if s.store.offline then s.store else s.store.beginTransaction.2) ?_).elim
      rw [Store.perform]
      cases s.store.offline <;> rfl
  | insert t d =>
      refine (hanswer (r := if s.store.offline then .error .offline
          else (s.store.stageInsert t d s.moment.freshId s.moment.now).1)
        (t := if s.store.offline then s.store
          else (s.store.stageInsert t d s.moment.freshId s.moment.now).2) ?_).elim
      rw [Store.perform]
      cases s.store.offline <;> rfl
  | openBatch =>
      refine (hanswer (r := if s.store.offline then .error .offline else .ok s.store.nextTicket)
        (t := if s.store.offline then s.store else s.store.openBatch.2) ?_).elim
      rw [Store.perform]
      cases s.store.offline <;> rfl
  | find driver passenger => exact (hanswer rfl).elim
  | get id => exact (hanswer rfl).elim
  | list actor role => exact (hanswer rfl).elim
  | commit t => exact (hanswer rfl).elim
  | rollback t => exact (hanswer rfl).elim

/-- Whoever goes away while an operation has to wait ends what he has under way in the match table,
and changes no row. -/
theorem exists_left (hf : s.faults = ∅) (ok : StoreOK s.store) (hp : s.store.Present) {g : Stage}
    (hh : g.holding.Holds s.store) {k : Outcome → ServiceProgram α}
    (hk : ∀ r, waits (k r) s = false) (hwaits : waits ((onMatches g.program).bind k) s = true) :
    ∃ t s', g.holding.ticket? = some t ∧
      abandon ((onMatches g.program).bind k) s = { s with store := s' } ∧
      Advance t s.store s' ∧ s'.Idle t ∧ s'.row? = s.store.row? ∧
      s'.offline = s.store.offline := by
  have hnot : ∀ {c : StoreCall} {next : c.Reply → ServiceProgram α},
      waits (.call (.store c) next) s = true → (∀ t id, c ≠ .lock t id) →
      (∀ t id status driver passenger, c ≠ .update t id status driver passenger) →
      (∀ t id status allowed, c ≠ .updateRow t id status allowed) → False := by
    intro c next hw hlock hupdate hrow
    rcases waits_store hf hw with ⟨t, id, hc⟩ | ⟨t, id, status, driver, passenger, hc⟩ |
      ⟨t, id, status, allowed, hc⟩
    · exact hlock t id hc
    · exact hupdate t id status driver passenger hc
    · exact hrow t id status allowed hc
  have hnever : ∀ {r : Outcome}, waits (k r) s = true → False := by
    intro r hw
    rw [hk] at hw
    cases hw
  have hends := fun t => Advance.endTransaction ok hp t
  cases g with
  | asking q t => exact ⟨t, _, rfl, rfl, (hends t).1, (hends t).2, rfl, rfl⟩
  | updating q t r => exact ⟨t, _, rfl, rfl, (hends t).1, (hends t).2, rfl, rfl⟩
  | rereading q t r now => exact ⟨t, _, rfl, rfl, (hends t).1, (hends t).2, rfl, rfl⟩
  | rejecting q t ids n =>
      cases ids with
      | nil => cases hwaits
      | cons id ids =>
          obtain ⟨hadv, hidle⟩ := Advance.giveUp ok hp hh.1
          exact ⟨t, _, rfl, rfl, hadv, hidle, rfl, rfl⟩
  | finished r => exact (hnever hwaits).elim
  | counting obs r => cases hwaits
  | _ => exact (hnot hwaits nofun nofun nofun).elim

end Dispatch.Service
