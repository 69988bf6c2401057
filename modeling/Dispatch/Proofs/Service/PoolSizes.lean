/-
The sizes of the pools as the service shows them.

How many actors of a pool are available is looked up after every change of the pool that succeeds, and
after every sweep, whatever has failed in it.  It is not looked up after a change that fails; and such a
change can still have given an actor his flag, or taken it away.  A removal that fails may have removed the
flag, and the same goes for the removal of what has been written by an addition that fails; that addition
may also leave the flag it has set, if the flag cannot be removed again (`AddSlips`, `RemoveSlips`).

So the size that is shown is the one that was last looked up.  It is right from then on until a failed
change slips in this way, and wrong right after that (`pool_size_shown`).
-/
import Dispatch.Proofs.Availability.Adding
import Dispatch.Proofs.Availability.Pruning
import Dispatch.Proofs.Http.Answers
import Dispatch.Proofs.Run
import Dispatch.Proofs.Service.Outdoors
import Mathlib.Data.List.Induction

namespace Dispatch

open Dispatch.Time

/-! ### Counting flags -/

/-- Two tables that differ at one key only differ in size by what they have under it. -/
theorem Table.size_add {κ α : Type} [DecidableEq κ] {t t' : Table κ α} {k : κ}
    (h : ∀ x, x ≠ k → t'.contains x = t.contains x) :
    t'.size + (t.contains k).toNat = t.size + (t'.contains k).toNat := by
  have hsize : ∀ t : Table κ α, t.size = (t.keys.erase k).length + (t.contains k).toNat := by
    intro t
    have hmem := t.mem_keys_iff (k := k)
    have hlength : t.keys.length = t.size := List.length_map _
    rw [List.length_erase, hlength, contains]
    by_cases hk : k ∈ t.keys
    · have hpos : 0 < t.size := hlength ▸ List.length_pos_of_mem hk
      rw [if_pos hk, hmem.mp hk, Bool.toNat_true]
      omega
    · rw [if_neg hk, Bool.eq_false_iff.mpr fun h => hk (hmem.mpr h), Bool.toNat_false, Nat.add_zero]
  have hrest : (t'.keys.erase k).length = (t.keys.erase k).length := by
    refine ((List.perm_ext_iff_of_nodup (t'.nodup_keys.erase k) (t.nodup_keys.erase k)).mpr
      fun x => ?_).length_eq
    rw [t'.nodup_keys.mem_erase_iff, t.nodup_keys.mem_erase_iff]
    exact and_congr_right fun hx =>
      t'.mem_keys_iff.trans ((Bool.eq_iff_iff.mp (h x hx)).trans t.mem_keys_iff.symm)
  rw [hsize t, hsize t', hrest]
  omega

namespace AvailabilityCache

open Availability

variable {c c' : AvailabilityCache} {pool : Role}

/-- How many actors are flagged in a pool. -/
def flagCount (c : AvailabilityCache) (pool : Role) : Nat := (c.setAt (flagsKey pool)).size

/-- Where no other flag has changed, the number of flags has changed exactly if this one has. -/
theorem flagCount_eq_iff {id : ActorId} (h : ∀ id', id' ≠ id →
    (c'.entry pool id').flagged = (c.entry pool id').flagged) :
    c'.flagCount pool = c.flagCount pool ↔ (c'.entry pool id).flagged = (c.entry pool id).flagged := by
  have hadd : c'.flagCount pool + (c.entry pool id).flagged.toNat
      = c.flagCount pool + (c'.entry pool id).flagged.toNat := Table.size_add h
  cases h₁ : (c.entry pool id).flagged <;> cases h₂ : (c'.entry pool id).flagged <;>
    simp [h₁, h₂] at hadd ⊢ <;> omega

theorem flagCount_congr
    (h : ∀ id, (c'.entry pool id).flagged = (c.entry pool id).flagged) :
    c'.flagCount pool = c.flagCount pool := (flagCount_eq_iff fun id' _ => h id').mpr (h "")

end AvailabilityCache

/-! ### Changes that slip -/

namespace Availability

open Exposed

/-- An addition in which these operations fail takes the actor's flag away, or leaves it to him although
he did not have it. -/
def AddSlips (flagged : Bool) (failed : List CacheOp) : Prop :=
  if flagged then (.setAdd ∈ failed ∨ .hashSet ∈ failed) ∧ .setRemove ∉ failed
  else .hashSet ∈ failed ∧ .setRemove ∈ failed

/-- A removal in which these operations fail, and some do, takes the actor's flag away. -/
def RemoveSlips (flagged : Bool) (failed : List CacheOp) : Prop :=
  flagged = true ∧ failed ≠ [] ∧ .setRemove ∉ failed

theorem not_addSlips_nil (flagged : Bool) : ¬ AddSlips flagged [] := by
  unfold AddSlips
  split <;> simp

theorem not_removeSlips_nil (flagged : Bool) : ¬ RemoveSlips flagged [] := fun h => h.2.1 rfl

end Availability

namespace Entry

open Availability

theorem flagged_leftBy_eq_iff (e : Entry) {failed : List CacheOp} (h : failed ≠ []) :
    (e.leftBy failed).flagged = e.flagged ↔ ¬ RemoveSlips e.flagged failed := by
  unfold RemoveSlips leftBy
  cases e.flagged <;> simp [h]

theorem flagged_addedBy_eq_iff (e : Entry) (l : Location) {failed : List CacheOp}
    (h : FailsAdding failed) (hfailed : failed ≠ []) :
    (e.addedBy l failed).flagged = e.flagged ↔ ¬ AddSlips e.flagged failed := by
  obtain ⟨op, undo, rfl⟩ := List.exists_cons_of_ne_nil hfailed
  obtain ⟨hop, hundo⟩ := h
  -- what is undone are removals
  have hset : CacheOp.setAdd ∉ undo := fun h => hundo _ h
  have hhash : CacheOp.hashSet ∉ undo := fun h => hundo _ h
  unfold AddSlips
  cases op <;> first | exact hop.elim | (cases hf : e.flagged <;> simp [addedBy, leftBy, hf, hset, hhash])

end Entry

namespace Availability

open Exposed

variable {distance : Location → Location → Float} {pool : Role} {id : ActorId} {x : Exposed}

/-- What comes of a change of an actor, before which nothing has failed: nobody else is touched; nothing
has failed if it succeeds, and if it does not he is flagged as before unless it slips. -/
structure Alters (slips : Bool → List CacheOp → Prop) (pool : Role) (id : ActorId) (x : Exposed)
    (r : Except ServiceError Unit) (x' : Exposed) : Prop where
  others : ∀ pool' id', ¬ (pool = pool' ∧ id = id') →
    x'.cache.entry pool' id' = x.cache.entry pool' id'
  succeeds : r = .ok () → x'.failed = []
  fails : r ≠ .ok () → ((x'.cache.entry pool id).flagged = (x.cache.entry pool id).flagged ↔
    ¬ slips (x.cache.entry pool id).flagged x'.failed)

theorem add_alters (now : Instant) (l : Location) (h : x.failed = []) :
    Leads distance (add now pool id l) x (Alters AddSlips pool id x) := by
  by_cases haccepted : Accepted id l
  · refine ((add_leaves haccepted x).and (leads_of_confined (confined_add now l) x)).mono
      fun r x' ⟨⟨failed, hfailed, hshape, hok, hentry⟩, hothers⟩ => ?_
    obtain rfl : x'.failed = failed := by rw [hfailed, h, List.nil_append]
    refine ⟨hothers, hok.mp, fun hr => ?_⟩
    rw [hentry]
    exact Entry.flagged_addedBy_eq_iff _ _ hshape fun hnil => hr (hok.mpr hnil)
  · obtain ⟨reason, hadd⟩ := add_of_not_accepted now pool haccepted
    rw [hadd]
    refine leads_done ⟨fun _ _ _ => rfl, nofun, fun _ => iff_of_true rfl ?_⟩
    rw [h]
    exact not_addSlips_nil _

theorem remove_alters (h : x.failed = []) :
    Leads distance (remove pool id) x (Alters RemoveSlips pool id x) := by
  refine ((removeEntries_leaves x).and (leads_of_confined confined_removeEntries x)).bind
    fun e x' ⟨⟨failed, hfailed, hnone, hentry⟩, hothers⟩ => ?_
  obtain rfl : x'.failed = failed := by rw [hfailed, h, List.nil_append]
  cases e with
  | none => exact leads_done ⟨hothers, fun _ => hnone.mp rfl, fun hr => absurd rfl hr⟩
  | some e =>
      refine leads_done ⟨hothers, nofun, fun _ => ?_⟩
      rw [hentry]
      exact Entry.flagged_leftBy_eq_iff _ fun hnil => nomatch hnone.mpr hnil

/-- Looking up the size of a pool changes nothing, and finds how many are flagged unless it fails. -/
theorem poolSize_finds (pool : Role) (x : Exposed) :
    Leads distance (poolSize pool) x fun r x' =>
      (∀ pool' id, x'.cache.entry pool' id = x.cache.entry pool' id) ∧
        ((∃ e, r = .error e) ∧ .setMembers ∈ x'.failed ∨
          r = .ok (x.cache.flagCount pool) ∧ x'.failed = x.failed) := by
  refine leads_attempt (fun error x' h => ?_) fun members x' h => leads_done ?_
  · cases h with
    | fails hfailed hentry =>
        have hlast : CacheOp.setMembers ∈ x'.failed := by
          rw [hfailed]
          exact List.mem_append_right _ List.mem_cons_self
        exact ⟨hentry, .inl ⟨⟨_, rfl⟩, hlast⟩⟩
  · have hentry : ∀ pool' id, x'.cache.entry pool' id = x.cache.entry pool' id :=
      fun _ _ => h.entry_eq fun h => h
    cases h with
    | works hresult hfailed _ =>
        subst hresult
        exact ⟨hentry, .inr ⟨congrArg Except.ok (List.length_map _), hfailed⟩⟩

end Availability

namespace Service

open Availability

/-! ### What is shown -/

/-- The size of a pool as it is shown, zero as long as it has not been looked up. -/
def shownSize (s : Service) (pool : Role) : Nat := Metrics.count s.metrics.poolSizes pool

/-- The size of a pool is shown as it is. -/
def ShowsSize (s : Service) (pool : Role) : Prop := s.shownSize pool = s.availability.flagCount pool

instance (s : Service) (pool : Role) : Decidable (s.ShowsSize pool) :=
  inferInstanceAs (Decidable (_ = _))

/-- What comes of something for the size of a pool.  If it has been looked up it is shown as it is; if not
it is shown as before, and it is the same as before unless there was a slip. -/
def Reports (looked slipped : Prop) (pool : Role) (s s' : Service) : Prop :=
  (looked ∧ ¬ slipped ∧ s'.ShowsSize pool) ∨
    (¬ looked ∧ s'.shownSize pool = s.shownSize pool ∧
      (s'.availability.flagCount pool = s.availability.flagCount pool ↔ ¬ slipped))

variable {pool pool' : Role} {id : ActorId} {s : Service} {looked slipped : Prop}

theorem Reports.congr {s' : Service} {looked' slipped' : Prop} (h : Reports looked slipped pool s s')
    (hlooked : looked' ↔ looked) (hslipped : slipped' ↔ slipped) :
    Reports looked' slipped' pool s s' := by
  rw [Reports, hlooked, hslipped]
  exact h

theorem reports_self (hlooked : ¬ looked) (hslipped : ¬ slipped) :
    Reports looked slipped pool s s := .inr ⟨hlooked, rfl, iff_of_true rfl hslipped⟩

namespace Outdoors

variable {x x' : Outdoors} {age : Span}

/-- What looking up the size of a pool leaves. -/
structure Refreshes (pool : Role) (x x' : Outdoors) : Prop where
  now : x'.service.now = x.service.now
  failed : .setMembers ∉ x'.failed → x'.failed = x.failed
  flags : ∀ pool', x'.service.availability.flagCount pool' = x.service.availability.flagCount pool'
  shows : .setMembers ∉ x'.failed → x'.service.ShowsSize pool
  others : ∀ pool', pool' ≠ pool → x'.service.shownSize pool' = x.service.shownSize pool'

theorem refresh_leaves (pool : Role) (x : Outdoors) :
    Ends (refreshPoolSize pool) x fun _ x' => Refreshes pool x x' := by
  refine (ends_onAvailability (poolSize_finds pool x.exposed)).bind ?_
  rintro r _ ⟨e, rfl, hentry, hr⟩
  have hflags : ∀ pool', e.cache.flagCount pool' = x.service.availability.flagCount pool' :=
    fun pool' => AvailabilityCache.flagCount_congr fun id => congrArg Entry.flagged (hentry pool' id)
  rcases hr with ⟨⟨error, rfl⟩, hfailed⟩ | ⟨rfl, hfailed⟩
  · exact ends_done ⟨rfl, fun h => absurd hfailed h, hflags, fun h => absurd hfailed h, fun _ _ => rfl⟩
  · refine ends_count (ends_done ⟨rfl, fun _ => hfailed, hflags, fun _ => ?_, fun pool' hne => ?_⟩)
    · show Metrics.count (x.service.metrics.poolSizes.insert pool _) pool = e.cache.flagCount pool
      rw [Metrics.count, Table.find?_insert_self, Option.getD_some, hflags]
      rfl
    · show Metrics.count (x.service.metrics.poolSizes.insert pool _) pool' = _
      rw [Metrics.count, Table.find?_insert_of_ne _ _ hne]
      rfl

/-! ### Changes and sweeps -/

/-- **After a change that succeeds the size of its pool is shown as it is**; after one that fails it is
shown as before, and so are the sizes of other pools, which do not change. -/
theorem thenRefresh_reports {slips : Bool → List CacheOp → Prop}
    {change : ServiceProgram (Except ServiceError Unit)} (hnone : ∀ flagged, ¬ slips flagged [])
    (h : Ends change x fun r x' => x'.service.metrics = x.service.metrics ∧
      Alters slips pool id x.exposed r x'.exposed) :
    Ends (thenRefresh pool change) x fun r x' => .setMembers ∉ x'.failed → ∀ pool',
      Reports (r = .ok () ∧ pool = pool')
        (pool = pool' ∧ slips (x.service.availability.entry pool id).flagged x'.failed)
        pool' x.service x'.service := by
  refine h.bind fun r x₁ ⟨hmetrics, hchange⟩ => ?_
  have hshown : ∀ pool', x₁.service.shownSize pool' = x.service.shownSize pool' := fun pool' => by
    rw [shownSize, hmetrics]
    rfl
  have hothers : ∀ pool', pool ≠ pool' →
      x₁.service.availability.flagCount pool' = x.service.availability.flagCount pool' :=
    fun pool' hne => AvailabilityCache.flagCount_congr fun id' =>
      congrArg Entry.flagged (hchange.others pool' id' fun h => hne h.1)
  cases r with
  | error e =>
      refine ends_done fun _ pool' => .inr ⟨nofun, hshown pool', ?_⟩
      by_cases hpool : pool = pool'
      · subst hpool
        have hcount := AvailabilityCache.flagCount_eq_iff fun id' hne =>
          congrArg Entry.flagged (hchange.others pool id' fun h => hne h.2.symm)
        exact hcount.trans ((hchange.fails nofun).trans (not_congr (and_iff_right rfl).symm))
      · exact iff_of_true (hothers pool' hpool) fun h => hpool h.1
  | ok _ =>
      refine (refresh_leaves pool x₁).bind fun _ x₂ h₂ => ends_done fun hlooked pool' => ?_
      have hslips : ¬ slips (x.service.availability.entry pool id).flagged x₂.failed := by
        rw [h₂.failed hlooked, show x₁.failed = [] from hchange.succeeds rfl]
        exact hnone _
      by_cases hpool : pool = pool'
      · subst hpool
        exact .inl ⟨⟨rfl, rfl⟩, fun h => hslips h.2, h₂.shows hlooked⟩
      · refine .inr ⟨fun h => hpool h.2, ?_, iff_of_true ?_ fun h => hpool h.1⟩
        · rw [h₂.others pool' (Ne.symm hpool), hshown]
        · rw [h₂.flags, hothers pool' hpool]

/-- A pruning leaves the other pools alone. -/
theorem prune_spares {cutoff : Instant} (pool : Role) (h : x.service.now.sub? age = some cutoff) :
    Ends (prune age pool) x fun r x' => (∃ gone, r = .ok gone) ∧
      x'.service.now = x.service.now ∧ x'.service.metrics = x.service.metrics ∧
      (∃ more, x'.failed = x.failed ++ more) ∧ ∀ pool', pool' ≠ pool →
        x'.service.availability.flagCount pool' = x.service.availability.flagCount pool' := by
  refine ends_clock ?_
  rw [h]
  have : Nonempty (Role × ActorId) := ⟨(.driver, "")⟩
  refine (ends_onAvailability (Exposed.leads_forall fun i : Role × ActorId =>
    prune_leaves cutoff pool i.1 i.2 x.exposed)).bind fun r x' ⟨e, he, hleft⟩ => ends_done ?_
  subst he
  obtain ⟨more, hmore, -⟩ := hleft (pool, "")
  refine ⟨⟨r, rfl⟩, rfl, rfl, ⟨more, hmore⟩, fun pool' hne =>
    AvailabilityCache.flagCount_congr fun id => congrArg Entry.flagged ?_⟩
  obtain ⟨more', -, hentry⟩ := hleft (pool', id)
  cases r with
  | error _ => exact hentry.2
  | ok gone =>
      obtain ⟨-, -, hentry⟩ := hentry
      rw [if_neg fun h => hne h.1.symm] at hentry
      exact hentry.2

/-- Within the calendar a sweep comes to its end, and the sizes of all pools that it has swept are shown as
they are. -/
theorem sweepPools_shows {cutoff : Instant} (pools : List Role)
    (h : x.service.now.sub? age = some cutoff) :
    Ends (sweepPools age pools) x fun r x' => r = .ok () ∧ (.setMembers ∉ x'.failed →
      .setMembers ∉ x.failed ∧ ∀ pool', pool' ∈ pools ∨ x.service.ShowsSize pool' →
        x'.service.ShowsSize pool') := by
  induction pools generalizing x with
  | nil => exact ends_done ⟨rfl, fun h => ⟨h, fun pool' hp => hp.resolve_left List.not_mem_nil⟩⟩
  | cons pool rest ih =>
      refine (prune_spares pool h).bind fun r x₁ hprune => ?_
      obtain ⟨⟨gone, rfl⟩, hnow, hmetrics, ⟨more, hmore⟩, hothers⟩ := hprune
      refine (refresh_leaves pool x₁).bind fun _ x₂ h₂ => ?_
      have hcutoff : x₂.service.now.sub? age = some cutoff := by rw [h₂.now, hnow, h]
      refine (ih hcutoff).mono fun r x₃ ⟨hr, hrest⟩ => ⟨hr, fun hlooked => ?_⟩
      obtain ⟨hlooked₂, hshows⟩ := hrest hlooked
      have hlooked₁ : .setMembers ∉ x₁.failed := h₂.failed hlooked₂ ▸ hlooked₂
      refine ⟨fun h => hlooked₁ (hmore ▸ List.mem_append_left _ h), fun pool' hpool' => hshows pool' ?_⟩
      by_cases hpool : pool' = pool
      · exact .inr (hpool ▸ h₂.shows hlooked₂)
      · refine (hpool'.imp_left fun h => (List.mem_cons.mp h).resolve_left hpool).imp_right fun h => ?_
        show x₂.service.shownSize pool' = x₂.service.availability.flagCount pool'
        rw [h₂.others pool' hpool, h₂.flags, hothers pool' hpool, ← h, shownSize, hmetrics]
        rfl

/-- A sweep that leads out of the calendar does nothing. -/
theorem sweep_of_overflow (h : x.service.now.sub? age = none) :
    Ends (sweep age) x fun r x' => r = .error .afterSubtraction ∧ x' = x := by
  have hprune : Ends (prune age .driver) x fun r x' => r = .error .afterSubtraction ∧ x' = x := by
    refine ends_clock ?_
    rw [h]
    exact ends_done ⟨rfl, rfl⟩
  refine hprune.bind fun r x' ⟨hr, hx⟩ => ?_
  subst hr
  exact ends_done ⟨rfl, hx⟩

/-- **After a sweep the sizes of both pools are shown as they are**, whatever has failed, unless it has
led out of the calendar. -/
theorem sweep_reports (age : Span) (x : Outdoors) :
    Ends (sweep age) x fun r x' => .setMembers ∉ x'.failed → ∀ pool,
      Reports (r = .ok ()) False pool x.service x'.service := by
  cases hcutoff : x.service.now.sub? age with
  | none =>
      refine (sweep_of_overflow hcutoff).mono fun r x' ⟨hr, hx⟩ _ pool => ?_
      subst hr hx
      exact reports_self nofun id
  | some cutoff =>
      refine (sweepPools_shows Role.all hcutoff).mono fun r x' ⟨hr, hshows⟩ hlooked pool => ?_
      exact .inl ⟨hr, id, (hshows hlooked).2 pool (.inl (by cases pool <;> decide))⟩

end Outdoors
end Service

/-! ### Requests -/

namespace Http

open Service Outdoors Availability

/-- The pool and the actor that a request to become available or unavailable is about. -/
def Request.about? (r : Request) : Option (Role × ActorId) :=
  match Route.ofPath? r.path with
  | some (.availability pool id) => (unescapeText? id).map fun id => (pool, id)
  | _ => none

/-- The failures that change whether an actor is flagged although the request fails. -/
def Request.SlipsFor (r : Request) (flagged : Bool) (failed : List CacheOp) : Prop :=
  if r.method = "PUT" then AddSlips flagged failed else RemoveSlips flagged failed

/-- With these failures a request slips for an actor of a pool. -/
def Request.Slips (r : Request) (s : Service) (pool : Role) (failed : List CacheOp) : Prop :=
  ∃ id, r.about? = some (pool, id) ∧ r.SlipsFor (s.availability.entry pool id).flagged failed

/-- What comes of a request for the sizes of the pools, as long as they can be looked up. -/
def Request.Accounts (r : Request) (x : Outdoors) (answer : Response) (x' : Outdoors) : Prop :=
  .setMembers ∉ x'.failed → ∀ pool, Reports (answer.status = 204 ∧ r.about?.map Prod.fst = some pool)
    (r.Slips x.service pool x'.failed) pool x.service x'.service

variable {o : Options} {r : Request} {x : Outdoors} {pool : Role} {id : ActorId}

/-- A request that is turned down does nothing. -/
theorem accounts_of_refused (hx : x.failed = []) {answer : Response} (h : answer.status ≠ 204) :
    Ends (.done answer) x (r.Accounts x) := by
  refine ends_done fun _ pool => reports_self (fun hdone => h hdone.1) ?_
  rintro ⟨id, -, hslips⟩
  rw [hx, Request.SlipsFor] at hslips
  split at hslips
  · exact not_addSlips_nil _ hslips
  · exact not_removeSlips_nil _ hslips

theorem accounts_of_change {slips : Bool → List CacheOp → Prop}
    {change : ServiceProgram (Except ServiceError Unit)} (habout : r.about? = some (pool, id))
    (hslips : r.SlipsFor = slips) (hnone : ∀ flagged, ¬ slips flagged [])
    (h : Ends change x fun r x' => x'.service.metrics = x.service.metrics ∧
      Alters slips pool id x.exposed r x'.exposed) :
    Ends ((thenRefresh pool change).bind fun result => .done (.ofDone result)) x (r.Accounts x) := by
  refine (thenRefresh_reports hnone h).bind fun result x' hreports => ends_done fun hlooked pool' => ?_
  refine (hreports hlooked pool').congr ?_ ?_
  · rw [status_ofDone, habout]
    simp
  · rw [Request.Slips, habout, hslips]
    constructor
    · rintro ⟨id', hid, h⟩
      cases hid
      exact ⟨rfl, h⟩
    · rintro ⟨rfl, h⟩
      exact ⟨id, rfl, h⟩

/-- **What a request to become available or unavailable comes to for the sizes of the pools.** -/
theorem respond_accounts (o : Options) {segment : Segment}
    (hroute : Route.ofPath? r.path = some (.availability pool segment)) (hx : x.failed = []) :
    Ends (respond o r) x (r.Accounts x) := by
  unfold respond
  split
  · exact accounts_of_refused hx (by simp [Response.adding, permission])
  have hdispatch : Ends (dispatch o r) x (r.Accounts x) := by
    rw [dispatch, hroute]
    dsimp only
    split
    case isFalse => exact accounts_of_refused hx (by simp)
    rw [handle, withText]
    cases hid : unescapeText? segment with
    | none => exact accounts_of_refused hx (by decide)
    | some id =>
        have habout : r.about? = some (pool, id) := by
          simp only [Request.about?, hroute, hid, Option.map_some]
        dsimp only
        split
        case isTrue hput =>
          rw [withRecord]
          cases hrecord : r.record Location.ofDoc with
          | error status => exact accounts_of_refused hx (Request.status_of_record hrecord)
          | ok l =>
              refine accounts_of_change habout (funext₂ fun _ _ => if_pos hput) not_addSlips_nil ?_
              refine ends_clock ((ends_onAvailability (add_alters _ l hx)).mono ?_)
              rintro result _ ⟨e, rfl, h⟩
              exact ⟨rfl, h⟩
        case isFalse hput =>
          refine accounts_of_change habout (funext₂ fun _ _ => if_neg hput) not_removeSlips_nil ?_
          refine (ends_onAvailability (remove_alters hx)).mono ?_
          rintro result _ ⟨e, rfl, h⟩
          exact ⟨rfl, h⟩
  refine hdispatch.bind fun answer x' h => ends_done ?_
  split <;> exact h

end Http

/-! ### Runs -/

namespace Service

open Outdoors

/-- Something that can change who is available: a request, or a sweep. -/
inductive Errand where
  | request (r : Http.Request)
  | sweep (age : Span)

/-- An errand, with the time at which it is done and the weather in which it is done. -/
structure Occasion where
  now : Instant
  errand : Errand
  weather : List Availability.Weather := []

namespace Errand

/-- The program of an errand, which tells whether it has succeeded. -/
def program (o : Options) : Errand → ServiceProgram Bool
  | request r => (Http.respond o r).bind fun answer => .done (decide (answer.status = 204))
  | sweep age => (Service.sweep age).bind fun result => .done result.toBool

/-- A request to become available or unavailable, or a sweep. -/
def IsAboutAvailability : Errand → Prop
  | request r => ∃ pool id, Http.Route.ofPath? r.path = some (.availability pool id)
  | sweep _ => True

/-- An errand that is about a pool. -/
def IsAbout (pool : Role) : Errand → Prop
  | request r => r.about?.map Prod.fst = some pool
  | sweep _ => True

instance (pool : Role) : (e : Errand) → Decidable (e.IsAbout pool)
  | request _ => inferInstanceAs (Decidable (_ = _))
  | sweep _ => inferInstanceAs (Decidable True)

/-- With these failures an errand slips for an actor of a pool. -/
def Slips (s : Service) (pool : Role) (failed : List CacheOp) : Errand → Prop
  | request r => r.Slips s pool failed
  | sweep _ => False

end Errand

namespace Occasion

variable (o : Options) (s : Service) (e : Occasion)

/-- What becomes of an errand and of the service. -/
def run : ServiceProgram Bool × Outdoors :=
  (e.errand.program o).run Outdoors.perform { service := { s with now := e.now }, ahead := e.weather }

/-- Whether the errand has succeeded, if it has come to its end. -/
def outcome? : Option Bool := (e.run o s).1.result?

/-- The service afterwards. -/
def after : Service := (e.run o s).2.service

/-- The operations of the availability cache that have failed. -/
def failed : List CacheOp := (e.run o s).2.failed

/-- The size of a pool has been looked up. -/
def LooksUp (pool : Role) : Prop := e.outcome? o s = some true ∧ e.errand.IsAbout pool

instance (pool : Role) : Decidable (e.LooksUp o s pool) := inferInstanceAs (Decidable (_ ∧ _))

/-- The errand has failed, and has slipped for an actor of a pool. -/
def Slips (pool : Role) : Prop := e.errand.Slips s pool (e.failed o s)

/-- **What an errand comes to for the size of a pool**: it comes to its end, and the size is looked up
unless it fails. -/
theorem reports (h : e.errand.IsAboutAvailability) :
    (∃ b, e.outcome? o s = some b) ∧ (.setMembers ∉ e.failed o s → ∀ pool,
      Reports (e.LooksUp o s pool) (e.Slips o s pool) pool s (e.after o s)) := by
  have hprogram : Ends (e.errand.program o) { service := { s with now := e.now }, ahead := e.weather }
      fun b x' => .setMembers ∉ x'.failed → ∀ pool,
        Reports (b = true ∧ e.errand.IsAbout pool) (e.errand.Slips s pool x'.failed) pool s x'.service := by
    cases herrand : e.errand with
    | request r =>
        obtain ⟨pool, segment, hroute⟩ := herrand ▸ h
        refine (Http.respond_accounts o hroute rfl).bind fun answer x' haccounts => ?_
        exact ends_done fun hlooked pool =>
          (haccounts hlooked pool).congr (and_congr_left' decide_eq_true_iff) Iff.rfl
    | sweep age =>
        refine (sweep_reports age _).bind fun result x' hreports => ends_done fun hlooked pool => ?_
        refine (hreports hlooked pool).congr ?_ Iff.rfl
        cases result <;> simp [Except.toBool, Errand.IsAbout]
  obtain ⟨b, x', hrun, hreports⟩ := hprogram
  replace hrun : e.run o s = (.done b, x') := hrun
  have houtcome : e.outcome? o s = some b := by rw [outcome?, hrun]; rfl
  refine ⟨⟨b, houtcome⟩, ?_⟩
  rw [failed, after, hrun]
  refine fun hlooked pool => (hreports hlooked pool).congr ?_ ?_
  · rw [LooksUp, houtcome, Option.some.injEq]
  · rw [Slips, failed, hrun]

/-- The size of a pool as it was looked up on an occasion, if it was. -/
def lookUps (pool : Role) : List Nat :=
  if e.LooksUp o s pool then [(e.after o s).availability.flagCount pool] else []

end Occasion

variable (o : Options) (s : Service) (es : List Occasion) (pool : Role)

/-- The size of a pool as it was last looked up in a run, or as it was at the beginning. -/
def lastLookUp : Nat :=
  (Run.collect (Occasion.after o) (fun s e => e.lookUps o s pool) s es).getLast?.getD
    (s.availability.flagCount pool)

/-- A run of requests to become available or unavailable and of sweeps, in which the sizes of the pools
can be looked up. -/
def CanLookUp : Prop :=
  Run.Along (Occasion.after o)
    (fun s e => e.errand.IsAboutAvailability ∧ .setMembers ∉ e.failed o s) s es

variable {o s es pool}

theorem Reports.showsSize_iff {s' : Service} {looked slipped : Prop}
    (h : Reports looked slipped pool s s') (hs : s.ShowsSize pool) :
    s'.ShowsSize pool ↔ ¬ slipped := by
  rcases h with ⟨-, hslipped, hs'⟩ | ⟨-, hshown, hflags⟩
  · exact iff_of_true hs' hslipped
  · rw [ShowsSize, hshown, hs, ← hflags]
    exact eq_comm

theorem shownSize_eq_lastLookUp (hstart : s.ShowsSize pool) (h : CanLookUp o s es) :
    (es.foldl (Occasion.after o) s).shownSize pool = lastLookUp o s es pool := by
  induction es using List.reverseRecOn with
  | nil => exact hstart
  | append_singleton es e ih =>
      obtain ⟨hbefore, ⟨habout, hlooked⟩, -⟩ := Run.along_append.mp h
      rw [lastLookUp, Run.collect_concat, List.foldl_append, Occasion.lookUps]
      rcases (e.reports o _ habout).2 hlooked pool with ⟨hlooks, -, hs'⟩ | ⟨hlooks, hshown, -⟩
      · rw [if_pos hlooks, List.getLast?_concat]
        exact hs'
      · rw [if_neg hlooks, List.append_nil]
        exact hshown.trans (ih hbefore)

theorem forall_showsSize_iff (hstart : s.ShowsSize pool) (h : CanLookUp o s es) :
    (∀ s' ∈ Run.states (Occasion.after o) s es, s'.ShowsSize pool) ↔
      Run.Along (Occasion.after o) (fun s e => ¬ e.Slips o s pool) s es :=
  Run.states_iff (I := fun _ => True) (fun _ _ => trivial)
    (fun _ ha hs => ((Occasion.reports o _ _ ha.1).2 ha.2 pool).showsSize_iff hs) trivial hstart h

/-- **The size of a pool is shown as it was last looked up.**  In any run of requests to become available
or unavailable and of sweeps, in any weather in which the sizes of the pools can be looked up, everything
comes to its end; what is shown is what was found by the last sweep, or the last request for the pool that
succeeded; and it is the size of the pool throughout exactly if no request that failed has slipped. -/
theorem pool_size_shown (hstart : s.ShowsSize pool) (hrun : CanLookUp o s es) :
    Run.Along (Occasion.after o) (fun s e => ∃ b, e.outcome? o s = some b) s es ∧
    (es.foldl (Occasion.after o) s).shownSize pool = lastLookUp o s es pool ∧
    ((∀ s' ∈ Run.states (Occasion.after o) s es, s'.ShowsSize pool) ↔
      Run.Along (Occasion.after o) (fun s e => ¬ e.Slips o s pool) s es) := by
  refine ⟨?_, shownSize_eq_lastLookUp hstart hrun, forall_showsSize_iff hstart hrun⟩
  exact hrun.mono fun s e h => (e.reports o s h.1).1

/-- A driver becomes available. -/
def arriving : Occasion where
  now := ⟨0, 0⟩
  errand := .request {
    method := "PUT"
    path := "/drivers/d/availability".toList
    headers := [("content-type", "application/json")]
    body := "\x7b\"lat\":52.5,\"lng\":13.25\x7d" }

/-- He leaves while positions cannot be removed. -/
def leaving : Occasion where
  now := ⟨0, 0⟩
  errand := .request { method := "DELETE", path := "/drivers/d/availability".toList }
  weather := [{ failing := [.geoRemove] }]

theorem canLookUp_leaving : CanLookUp {} (start {} ⟨0, 0⟩) [arriving, leaving] := by
  refine ⟨⟨⟨.driver, "d".toList, ?_⟩, ?_⟩, ⟨⟨.driver, "d".toList, ?_⟩, ?_⟩, trivial⟩ <;> decide +kernel

/-- When he has arrived one driver is shown, and so it is after he has left: what was last looked up. -/
theorem pool_size_shown_leaving : (start {} ⟨0, 0⟩).ShowsSize .driver ∧
    CanLookUp {} (start {} ⟨0, 0⟩) [arriving, leaving] ∧
    ([arriving, leaving].foldl (Occasion.after {}) (start {} ⟨0, 0⟩)).shownSize .driver = 1 := by
  have hstart : (start {} ⟨0, 0⟩).ShowsSize .driver := by decide
  refine ⟨hstart, canLookUp_leaving, ?_⟩
  rw [(pool_size_shown hstart canLookUp_leaving).2.1]
  decide +kernel

/-- **The size of a pool can be shown wrong**: somebody who has left, although not in full, is still
counted. -/
theorem exists_size_not_shown : ∃ es, CanLookUp {} (start {} ⟨0, 0⟩) es ∧
    (start {} ⟨0, 0⟩).ShowsSize .driver ∧
    (es.foldl (Occasion.after {}) (start {} ⟨0, 0⟩)).shownSize .driver = 1 ∧
    (es.foldl (Occasion.after {}) (start {} ⟨0, 0⟩)).availability.flagCount .driver = 0 := by
  refine ⟨[arriving, leaving], canLookUp_leaving, ?_⟩
  decide +kernel

end Service
end Dispatch
