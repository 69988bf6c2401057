/-
The lines without one party.

Leave out of a run all that one party does, whose ticket is `t`.  Tickets that are drawn after `t`
are then lower by one (`closeUp`), and locks may get other numbers.  `RowLocks.Shadow` relates the
lines of the two runs by a renaming `g` of locks.  It speaks only of locks at which somebody else
than `t` stands: their lines are the same but for `t`, and they are found under the same rows.  Of
the other locks nothing is said; `g` need not even be injective on them.

The lines stay related when the others ask for locks and let them go.  Two things could be seen of
`t`: that somebody waits for a lock of his, and that he makes the table forget a lock at which
somebody else stands.  The lemmas here assume of the first that it does not happen (`Shadow.request`),
and of the second too (`Shadow.own`).
-/
import Dispatch.Proofs.Store.Asking

namespace Dispatch

/-! ### Tickets without one of them -/

/-- The ticket that is drawn instead when one ticket is never drawn. -/
def closeUp (t u : Nat) : Nat := if t < u then u - 1 else u

section CloseUp

variable {t u v : Nat}

theorem closeUp_inj (hu : u ≠ t) (hv : v ≠ t) : closeUp t u = closeUp t v ↔ u = v := by
  unfold closeUp
  split <;> split <;> omega

theorem closeUp_succ (hu : u ≠ t) : closeUp t (u + 1) = closeUp t u + 1 := by
  unfold closeUp
  split <;> split <;> omega

theorem closeUp_succ_self (t : Nat) : closeUp t (t + 1) = closeUp t t := by
  unfold closeUp
  split <;> split <;> omega

theorem closeUp_lt (hu : u ≠ t) (h : u < v) : closeUp t u < closeUp t v := by
  unfold closeUp
  split <;> split <;> omega

/-- Every ticket is the one that is drawn instead of some other. -/
theorem exists_closeUp (t v : Nat) : ∃ u, u ≠ t ∧ closeUp t u = v := by
  by_cases h : v < t
  · refine ⟨v, by omega, ?_⟩
    unfold closeUp
    split <;> omega
  · refine ⟨v + 1, by omega, ?_⟩
    unfold closeUp
    split <;> omega

end CloseUp

/-- What the others have in one table they have in another one, under the tickets that they draw
there. -/
def ClosedUp {α β : Type} (t : Ticket) (f : α → β) (w : Table Ticket α) (w' : Table Ticket β) :
    Prop :=
  ∀ u, u ≠ t → w'.find? (closeUp t u) = (w.find? u).map f

namespace ClosedUp

variable {α β : Type} {t u : Ticket} {f : α → β} {w : Table Ticket α} {w' : Table Ticket β}

theorem insert (h : ClosedUp t f w w') (hu : u ≠ t) (a : α) :
    ClosedUp t f (w.insert u a) (w'.insert (closeUp t u) (f a)) := by
  intro v hv
  rw [Table.find?_insert, Table.find?_insert, h v hv]
  simp only [closeUp_inj hv hu]
  split
  · rfl
  · rfl

theorem erase (h : ClosedUp t f w w') (hu : u ≠ t) :
    ClosedUp t f (w.erase u) (w'.erase (closeUp t u)) := by
  intro v hv
  rw [Table.find?_erase, Table.find?_erase, h v hv]
  simp only [closeUp_inj hv hu]
  split
  · rfl
  · rfl

/-- What the one who is left out has is not looked at. -/
theorem own (h : ClosedUp t f w w') {w₁ : Table Ticket α}
    (hw : ∀ v, v ≠ t → w₁.find? v = w.find? v) : ClosedUp t f w₁ w' := by
  intro v hv
  rw [hw v hv]
  exact h v hv

theorem congr (h : ClosedUp t f w w') {f' : α → β}
    (hf : ∀ v a, v ≠ t → w.find? v = some a → f' a = f a) : ClosedUp t f' w w' := by
  intro v hv
  rw [h v hv]
  cases hw : w.find? v with
  | none => rfl
  | some a => rw [Option.map_some, Option.map_some, hf v a hv hw]

end ClosedUp

namespace RowLocks

/-! ### The others in a line -/

variable (ls : RowLocks) (t : Ticket)

/-- A line without one party. -/
def others (l : LockId) : List Ticket := (ls.line l).filter fun u => decide (u ≠ t)

/-- Somebody else stands at a lock. -/
def Crowded (l : LockId) : Prop := ls.others t l ≠ []

instance (l : LockId) : Decidable (ls.Crowded t l) := inferInstanceAs (Decidable (_ ≠ []))

variable {ls t} {u : Ticket} {l : LockId}

theorem mem_others : u ∈ ls.others t l ↔ u ∈ ls.line l ∧ u ≠ t := by
  unfold others
  simp

theorem crowded_of_mem (h : u ∈ ls.line l) (hu : u ≠ t) : ls.Crowded t l :=
  List.ne_nil_of_mem (mem_others.2 ⟨h, hu⟩)

/-- At a lock where nobody else stands there is only the one who is left out. -/
theorem eq_of_not_crowded (h : ¬ ls.Crowded t l) (hu : u ∈ ls.line l) : u = t := by
  by_contra hne
  exact h (crowded_of_mem hu hne)

/-- In the line of the others, with their other tickets, stand those who stood in the line. -/
theorem closeUp_mem_others (hu : u ≠ t) :
    closeUp t u ∈ (ls.others t l).map (closeUp t) ↔ u ∈ ls.line l := by
  rw [List.mem_map]
  constructor
  · rintro ⟨v, hv, he⟩
    obtain ⟨hv, hvt⟩ := mem_others.1 hv
    rwa [← (closeUp_inj hvt hu).1 he]
  · exact fun h => ⟨u, mem_others.2 ⟨h, hu⟩, rfl⟩

theorem map_closeUp_erase (hu : u ≠ t) {line : List Ticket} (hline : ∀ v ∈ line, v ≠ t) :
    (line.map (closeUp t)).erase (closeUp t u) = (line.erase u).map (closeUp t) := by
  induction line with
  | nil => rfl
  | cons v rest ih =>
      have hv : v ≠ t := hline v List.mem_cons_self
      rw [List.map_cons, List.erase_cons, List.erase_cons,
        ih fun w hw => hline w (List.mem_cons_of_mem _ hw)]
      by_cases he : v = u
      · simp [he]
      · have hne : closeUp t v ≠ closeUp t u := fun h => he ((closeUp_inj hv hu).1 h)
        simp [he, hne]

/-- Whoever else leaves a line leaves the line of the others. -/
theorem others_leave (ls : RowLocks) (l : LockId) (hu : u ≠ t) :
    ((ls.leave l u).others t l).map (closeUp t)
      = ((ls.others t l).map (closeUp t)).erase (closeUp t u) := by
  rw [map_closeUp_erase hu fun v hv => (mem_others.1 hv).2]
  unfold others
  rw [line_leave, if_pos rfl, List.erase_filter]

/-- Somebody leaves all of the locks that he holds. -/
def leaveAll (ls : RowLocks) (u : Ticket) (hs : List (Uuid × LockId)) : RowLocks :=
  hs.foldl (fun ls h => ls.leave h.2 u) ls

/-! ### What the party that is left out does -/

/-- One party has joined lines and left them, and has perhaps had locks made or forgotten. -/
structure OwnDoing (t : Ticket) (ls ls₁ : RowLocks) : Prop where
  waiting : ∀ u, u ≠ t → ls₁.waiting.find? u = ls.waiting.find? u
  others : ∀ l, ls₁.others t l = ls.others t l
  name : ∀ {x l}, ls₁.names.find? x = some l → ls.Crowded t l → ls.names.find? x = some l

namespace OwnDoing

variable {ls₁ ls₂ : RowLocks}

theorem refl (t : Ticket) (ls : RowLocks) : OwnDoing t ls ls :=
  ⟨fun _ _ => rfl, fun _ => rfl, fun h _ => h⟩

theorem crowded (h : OwnDoing t ls ls₁) {l : LockId} : ls₁.Crowded t l ↔ ls.Crowded t l := by
  unfold Crowded
  rw [h.others]

theorem trans (h : OwnDoing t ls ls₁) (h' : OwnDoing t ls₁ ls₂) : OwnDoing t ls ls₂ where
  waiting u hu := (h'.waiting u hu).trans (h.waiting u hu)
  others l := (h'.others l).trans (h.others l)
  name hx hl := h.name (h'.name hx (h.crowded.2 hl)) hl

theorem leave (t : Ticket) (ls : RowLocks) (l : LockId) : OwnDoing t ls (ls.leave l t) where
  waiting _ _ := rfl
  others l' := by
    unfold RowLocks.others
    rw [line_leave]
    split
    · subst l'
      rw [← List.erase_filter, List.erase_of_not_mem (by simp)]
    · rfl
  name h _ := h

theorem leaveAll (t : Ticket) (hs : List (Uuid × LockId)) (ls : RowLocks) :
    OwnDoing t ls (ls.leaveAll t hs) := by
  induction hs generalizing ls with
  | nil => exact refl t ls
  | cons h rest ih => exact (leave t ls h.2).trans (ih _)

theorem giveUp (t : Ticket) (ls : RowLocks) : OwnDoing t ls (ls.giveUp t) := by
  refine ⟨fun u hu => ?_, fun l => ?_, fun {x l} h _ => ?_⟩
  · rw [LinesOK.waiting_giveUp, if_neg hu]
  · unfold RowLocks.giveUp
    split
    · exact (leave t ls _).others l
    · rfl
  · unfold RowLocks.giveUp at h
    split at h
    · exact h
    · exact h

theorem forget (t : Ticket) (ls : RowLocks) (x : Uuid) : OwnDoing t ls (ls.forget x) where
  waiting _ _ := rfl
  others _ := rfl
  name {y l} h _ := by
    have hname : (ls.forget x).names.find? y = if y = x then none else ls.names.find? y :=
      Table.find?_erase _ _ _
    rw [hname] at h
    split at h
    · cases h
    · exact h

theorem join (t : Ticket) (ls : RowLocks) (l : LockId) : OwnDoing t ls (ls.join l t) where
  waiting u _ := by rw [waiting_join]
  others l' := by
    unfold RowLocks.others
    rw [line_join]
    split
    · rename_i h
      rw [h.1]
      simp
    · rfl
  name h _ := by rwa [names_join] at h

/-- A new lock is one at which nobody stands. -/
theorem named {held : Holdings} {rowOf : LockId → Uuid} {present : Uuid → Prop}
    (ok : LinesOK ls held rowOf present) (t : Ticket) (x : Uuid) :
    OwnDoing t ls (ls.named x).2 := by
  cases hx : ls.names.find? x with
  | some l =>
      rw [ls.named_of_some hx]
      exact refl t ls
  | none =>
      rw [ls.named_of_none hx]
      refine ⟨fun _ _ => rfl, fun _ => rfl, fun {y l} h hl => ?_⟩
      rw [Table.find?_insert] at h
      split at h
      · obtain rfl := Option.some.inj h
        obtain ⟨u, hu⟩ := List.exists_mem_of_ne_nil _ hl
        exact absurd (ok.line_lt (mem_others.1 hu).1) (Nat.lt_irrefl _)
      · exact h

/-- Asking for a lock concerns nobody else. -/
theorem request {held : Holdings} {rowOf : LockId → Uuid} {present : Uuid → Prop}
    (ok : LinesOK ls held rowOf present) (t : Ticket) (x : Uuid) :
    OwnDoing t ls (ls.request t x).2 := by
  have htarget : OwnDoing t ls (ls.target t x).2 := by
    unfold target
    split
    · split
      · exact refl t ls
      · exact named ok t x
    · exact named ok t x
  have hjoin := htarget.trans (join t _ (ls.target t x).1)
  refine ⟨fun u hu => LinesOK.waiting_request ls x hu, fun l => ?_, fun {y l} h hl => ?_⟩
  · rw [ls.request_eq (show ls.target t x = ((ls.target t x).1, (ls.target t x).2) from rfl)]
    split
    · exact hjoin.others l
    · exact hjoin.others l
  · rw [ls.request_eq (show ls.target t x = ((ls.target t x).1, (ls.target t x).2) from rfl)] at h
    split at h
    · exact hjoin.name h hl
    · exact hjoin.name h hl

end OwnDoing

/-! ### The same lines without one party -/

/-- The same row with another lock. -/
def relabel (g : LockId → LockId) (w : Uuid × LockId) : Uuid × LockId := (w.1, g w.2)

/-- The lines of a run in which `t` does nothing, beside those of the run in which he does what he
does.  The renaming `g` is of locks at which somebody else stands. -/
structure Shadow (t : Ticket) (g : LockId → LockId) (ls ls' : RowLocks) : Prop where
  waiting : ClosedUp t (relabel g) ls.waiting ls'.waiting
  line : ∀ {l}, ls.Crowded t l → ls'.line (g l) = (ls.others t l).map (closeUp t)
  inj : ∀ {l l₂}, ls.Crowded t l → ls.Crowded t l₂ → g l = g l₂ → l = l₂
  name : ∀ {x l}, ls.names.find? x = some l → ls.Crowded t l → ls'.names.find? x = some (g l)
  /-- Nobody stands at any other lock that is found. -/
  spare : ∀ {x l'}, ls'.names.find? x = some l' → ls'.line l' ≠ [] →
    ∃ l, ls.names.find? x = some l ∧ ls.Crowded t l

namespace Shadow

variable {ls' ls₁ ls₁' : RowLocks} {g g₁ : LockId → LockId} {l' : LockId}

/-- **What `t` does is not seen**, as long as he makes nothing forgotten at which somebody else
stands. -/
theorem own (h : Shadow t g ls ls') (ho : OwnDoing t ls ls₁)
    (hkept : ∀ x l, ls.names.find? x = some l → ls.Crowded t l → ls₁.names.find? x = some l) :
    Shadow t g ls₁ ls' where
  waiting := h.waiting.own ho.waiting
  line hl := by
    rw [ho.others]
    exact h.line (ho.crowded.1 hl)
  inj hl hl₂ := h.inj (ho.crowded.1 hl) (ho.crowded.1 hl₂)
  name hx hl := h.name (ho.name hx (ho.crowded.1 hl)) (ho.crowded.1 hl)
  spare hx hl' := by
    obtain ⟨l, hl, hcr⟩ := h.spare hx hl'
    exact ⟨l, hkept _ l hl hcr, ho.crowded.2 hcr⟩

/-- A lock at which somebody else stands is found under the same rows in both runs. -/
theorem name_iff (h : Shadow t g ls ls') (hl : ls.Crowded t l) {x : Uuid} :
    ls'.names.find? x = some (g l) ↔ ls.names.find? x = some l := by
  refine ⟨fun hx => ?_, fun hx => h.name hx hl⟩
  have hne : ls'.line (g l) ≠ [] := by
    rw [h.line hl]
    simpa [Crowded] using hl
  obtain ⟨l₂, hl₂, hcr₂⟩ := h.spare hx hne
  have hg : g l₂ = g l := Option.some.inj ((h.name hl₂ hcr₂).symm.trans hx)
  rw [h.inj hcr₂ hl hg] at hl₂
  exact hl₂

/-- Both runs may change the line at one lock, whatever it was called before. -/
theorem relines (h : Shadow t g ls ls') (hl : g₁ l = l')
    (hg : ∀ l₂, l₂ ≠ l → ls.Crowded t l₂ → g₁ l₂ = g l₂ ∧ g l₂ ≠ l')
    (hwait : ls₁.waiting = ls.waiting) (hwait' : ls₁'.waiting = ls'.waiting)
    (hstand : ∀ u x l₂, u ≠ t → ls.waiting.find? u = some (x, l₂) → g₁ l₂ = g l₂)
    (hnames : ls₁.names = ls.names) (hnames' : ls₁'.names = ls'.names)
    (hname : ∀ x, ls'.names.find? x = some l' ↔ ls.names.find? x = some l)
    (hline : ls₁'.line l' = (ls₁.others t l).map (closeUp t))
    (hother : ∀ l₂, l₂ ≠ l → ls₁.others t l₂ = ls.others t l₂)
    (hother' : ∀ l₂, l₂ ≠ l' → ls₁'.line l₂ = ls'.line l₂) : Shadow t g₁ ls₁ ls₁' := by
  have hcr : ∀ {l₂}, l₂ ≠ l → (ls₁.Crowded t l₂ ↔ ls.Crowded t l₂) := by
    intro l₂ hne
    unfold Crowded
    rw [hother l₂ hne]
  refine ⟨?_, fun {l₂} hl₂ => ?_, fun {l₂ l₃} hl₂ hl₃ he => ?_, fun {x l₂} hx hl₂ => ?_,
    fun {x l₂} hx hl₂ => ?_⟩
  · rw [hwait, hwait']
    refine h.waiting.congr fun u w hu hw => ?_
    rw [relabel, relabel, hstand u w.1 w.2 hu hw]
  · by_cases hne : l₂ = l
    · rw [hne, hl, hline]
    · obtain ⟨he, hn⟩ := hg l₂ hne ((hcr hne).1 hl₂)
      rw [he, hother' _ hn, hother l₂ hne, h.line ((hcr hne).1 hl₂)]
  · by_cases hne₂ : l₂ = l
    · by_cases hne₃ : l₃ = l
      · rw [hne₂, hne₃]
      · obtain ⟨he₃, hn⟩ := hg l₃ hne₃ ((hcr hne₃).1 hl₃)
        rw [hne₂, hl, he₃] at he
        exact absurd he.symm hn
    · obtain ⟨he₂, hn⟩ := hg l₂ hne₂ ((hcr hne₂).1 hl₂)
      by_cases hne₃ : l₃ = l
      · rw [hne₃, hl, he₂] at he
        exact absurd he hn
      · rw [he₂, (hg l₃ hne₃ ((hcr hne₃).1 hl₃)).1] at he
        exact h.inj ((hcr hne₂).1 hl₂) ((hcr hne₃).1 hl₃) he
  · rw [hnames] at hx
    rw [hnames']
    by_cases hne : l₂ = l
    · rw [hne, hl]
      rw [hne] at hx
      exact (hname x).2 hx
    · rw [(hg l₂ hne ((hcr hne).1 hl₂)).1]
      exact h.name hx ((hcr hne).1 hl₂)
  · rw [hnames'] at hx
    rw [hnames]
    by_cases hne : l₂ = l'
    · rw [hne] at hx hl₂
      refine ⟨l, (hname x).1 hx, ?_⟩
      rw [hline] at hl₂
      simpa [Crowded] using hl₂
    · rw [hother' l₂ hne] at hl₂
      obtain ⟨l₃, hl₃, hcr₃⟩ := h.spare hx hl₂
      have hne₃ : l₃ ≠ l := by
        rintro rfl
        rw [(hname x).2 hl₃] at hx
        exact hne (Option.some.inj hx).symm
      exact ⟨l₃, hl₃, (hcr hne₃).2 hcr₃⟩

/-- Both runs may change the line at a lock where somebody else stands. -/
theorem relines_crowded (h : Shadow t g ls ls') (hl : ls.Crowded t l)
    (hwait : ls₁.waiting = ls.waiting) (hwait' : ls₁'.waiting = ls'.waiting)
    (hnames : ls₁.names = ls.names) (hnames' : ls₁'.names = ls'.names)
    (hline : ls₁'.line (g l) = (ls₁.others t l).map (closeUp t))
    (hother : ∀ l₂, l₂ ≠ l → ls₁.others t l₂ = ls.others t l₂)
    (hother' : ∀ l₂, l₂ ≠ g l → ls₁'.line l₂ = ls'.line l₂) : Shadow t g ls₁ ls₁' := by
  refine h.relines rfl (fun l₂ hne hcr => ⟨rfl, fun he => hne (h.inj hcr hl he)⟩) hwait hwait'
    (fun _ _ _ _ _ => rfl) hnames hnames' (fun x => h.name_iff hl) hline hother hother'

/-! ### What the others do -/

/-- Somebody else leaves a line. -/
theorem leave (h : Shadow t g ls ls') (hu : u ≠ t) (hin : u ∈ ls.line l) :
    Shadow t g (ls.leave l u) (ls'.leave (g l) (closeUp t u)) := by
  have hcr : ls.Crowded t l := crowded_of_mem hin hu
  refine h.relines_crowded hcr rfl rfl rfl rfl ?_ (fun l₂ hne => ?_) fun l₂ hne => ?_
  · rw [line_leave, if_pos rfl, h.line hcr, others_leave ls l hu]
  · unfold others
    rw [line_leave, if_neg hne]
  · rw [line_leave, if_neg hne]

/-- Somebody else leaves the lines at some of the locks that he holds. -/
theorem leaveAll (h : Shadow t g ls ls') (hu : u ≠ t) (hs : List (Uuid × LockId))
    (hin : ∀ h ∈ hs, u ∈ ls.line h.2) (hnodup : (hs.map Prod.snd).Nodup) :
    Shadow t g (ls.leaveAll u hs) (ls'.leaveAll (closeUp t u) (hs.map (relabel g))) := by
  induction hs generalizing ls ls' with
  | nil => exact h
  | cons w rest ih =>
      rw [List.map_cons, List.nodup_cons] at hnodup
      refine ih (h.leave hu (hin w List.mem_cons_self)) (fun v hv => ?_) hnodup.2
      have hne : v.2 ≠ w.2 := fun he => hnodup.1 (List.mem_map.mpr ⟨v, hv, he⟩)
      rw [line_leave, if_neg hne]
      exact hin v (List.mem_cons_of_mem _ hv)

theorem leaveAll_held {held : Holdings} {rowOf : LockId → Uuid} {present : Uuid → Prop}
    (h : Shadow t g ls ls') (ok : LinesOK ls held rowOf present) (hu : u ≠ t)
    {hs : List (Uuid × LockId)} (hsub : hs.Sublist (held u)) :
    Shadow t g (ls.leaveAll u hs) (ls'.leaveAll (closeUp t u) (hs.map (relabel g))) :=
  h.leaveAll hu hs (fun _ hw => ok.mem_line (Or.inl (hsub.subset hw)))
    ((hsub.map Prod.snd).nodup (ok.nodup_locks u))

/-- Somebody else begins to wait at a lock, or stops waiting. -/
theorem rewait (h : Shadow t g ls ls') {w w' : Table Ticket (Uuid × LockId)}
    (hw : ClosedUp t (relabel g) w w') :
    Shadow t g { ls with waiting := w } { ls' with waiting := w' } :=
  { h with waiting := hw }

theorem giveUp {held : Holdings} {rowOf : LockId → Uuid} {present : Uuid → Prop}
    (h : Shadow t g ls ls') (ok : LinesOK ls held rowOf present) (hu : u ≠ t) :
    Shadow t g (ls.giveUp u) (ls'.giveUp (closeUp t u)) := by
  have hw := h.waiting u hu
  unfold RowLocks.giveUp
  cases hwait : ls.waiting.find? u with
  | none =>
      rw [hwait, Option.map_none] at hw
      rw [hw]
      exact h
  | some w =>
      obtain ⟨x, l⟩ := w
      rw [hwait, Option.map_some] at hw
      rw [hw]
      exact (h.leave hu (ok.standing hwait)).rewait (h.waiting.erase hu)

theorem forget (h : Shadow t g ls ls') (x : Uuid) : Shadow t g (ls.forget x) (ls'.forget x) := by
  have hname : ∀ (ls : RowLocks) (y : Uuid), (ls.forget x).names.find? y
      = if y = x then none else ls.names.find? y := fun ls y => Table.find?_erase _ _ _
  refine { h with name := fun {y l} hy hl => ?_, spare := fun {y l'} hy hl' => ?_ }
  · rw [hname] at hy ⊢
    split at hy
    · cases hy
    · rename_i hne
      rw [if_neg hne]
      exact h.name hy hl
  · rw [hname] at hy ⊢
    split at hy
    · cases hy
    · rename_i hne
      rw [if_neg hne]
      exact h.spare hy hl'

/-! ### Asking for a lock -/

/-- Somebody else joins a line in which a third one stands. -/
theorem join_crowded (h : Shadow t g ls ls') (hu : u ≠ t) (hl : ls.Crowded t l)
    (hnot : u ∉ ls.line l) : Shadow t g (ls.join l u) (ls'.join (g l) (closeUp t u)) := by
  have hnot' : closeUp t u ∉ ls'.line (g l) := by
    rw [h.line hl, closeUp_mem_others hu]
    exact hnot
  refine h.relines_crowded hl (ls.waiting_join l u) (ls'.waiting_join _ _) (ls.names_join l u)
    (ls'.names_join _ _) ?_ (fun l₂ hne => ?_) fun l₂ hne => ?_
  · unfold others
    rw [line_join, line_join, if_pos ⟨rfl, hnot'⟩, if_pos ⟨rfl, hnot⟩, h.line hl,
      List.filter_append, List.map_append]
    simp [others, hu]
  · unfold others
    rw [line_join, if_neg fun hc => hne hc.1]
  · rw [line_join, if_neg fun hc => hne hc.1]

/-- Somebody else takes a lock at which nobody stands: another such lock does as well, if it is
found under the same rows. -/
theorem join_empty (h : Shadow t g ls ls') (hu : u ≠ t) (hl : ls.line l = []) (hl' : ls'.line l' = [])
    (hstand : ∀ v x l₂, ls.waiting.find? v = some (x, l₂) → v ∈ ls.line l₂)
    (hname : ∀ x, ls'.names.find? x = some l' ↔ ls.names.find? x = some l) :
    Shadow t (Function.update g l l') (ls.join l u) (ls'.join l' (closeUp t u)) := by
  have hfree : ∀ l₂, ls.Crowded t l₂ → g l₂ ≠ l' := by
    rintro l₂ hcr rfl
    rw [h.line hcr] at hl'
    exact hcr (by simpa using hl')
  refine h.relines (Function.update_self _ _ _) (fun l₂ hne hcr => ?_) (ls.waiting_join l u)
    (ls'.waiting_join _ _) (fun v x l₂ _ hw => ?_) (ls.names_join l u) (ls'.names_join _ _) hname ?_
    (fun l₂ hne => ?_) fun l₂ hne => ?_
  · exact ⟨Function.update_of_ne hne _ _, hfree l₂ hcr⟩
  · refine Function.update_of_ne ?_ _ _
    rintro rfl
    have hin := hstand v x _ hw
    rw [hl] at hin
    cases hin
  · unfold others
    rw [line_join, line_join, hl, hl']
    simp [hu]
  · unfold others
    rw [line_join, if_neg fun hc => hne hc.1]
  · rw [line_join, if_neg fun hc => hne hc.1]

/-- Nobody else stands at the lock of a row in the one run, and nobody at all in the other. -/
def Uncrowded (t : Ticket) (ls ls' : RowLocks) (x : Uuid) : Prop :=
  (∀ l, ls.names.find? x = some l → ¬ ls.Crowded t l) ∧
    ∀ l', ls'.names.find? x = some l' → ls'.line l' = []

/-- A row has a lock at which somebody else stands, or none. -/
theorem crowded_or_uncrowded (h : Shadow t g ls ls') (x : Uuid) :
    (∃ l, ls.names.find? x = some l ∧ ls.Crowded t l) ∨ Uncrowded t ls ls' x := by
  by_cases hex : ∃ l, ls.names.find? x = some l ∧ ls.Crowded t l
  · exact Or.inl hex
  · refine Or.inr ⟨fun l hl hcr => hex ⟨l, hl, hcr⟩, fun l' hl' => ?_⟩
    by_contra hne
    exact hex (h.spare hl' hne)

section Request

variable {held held' : Holdings} {rowOf rowOf' : LockId → Uuid} {present present' : Uuid → Prop}
  {x : Uuid}

/-- What is said of the locks that are found holds of new ones as well. -/
theorem Uncrowded.not_crowded (hun : Uncrowded t ls ls' x) (ok : LinesOK ls held rowOf present) :
    ¬ ls.Crowded t (ls.named x).1 := by
  cases hx : ls.names.find? x with
  | some l =>
      rw [ls.named_of_some hx]
      exact hun.1 l hx
  | none =>
      unfold Crowded others
      rw [ok.line_named_of_none hx]
      exact fun hne => hne rfl

theorem Uncrowded.line_eq_nil (hun : Uncrowded t ls ls' x) (ok' : LinesOK ls' held' rowOf' present') :
    ls'.line (ls'.named x).1 = [] := by
  cases hx : ls'.names.find? x with
  | some l' =>
      rw [ls'.named_of_some hx]
      exact hun.2 l' hx
  | none => exact ok'.line_named_of_none hx

/-- Where nobody else stands, each run may find a lock of its own, or make one. -/
theorem named (h : Shadow t g ls ls') (ok : LinesOK ls held rowOf present)
    (ok' : LinesOK ls' held' rowOf' present') (hun : Uncrowded t ls ls' x) :
    Shadow t g (ls.named x).2 (ls'.named x).2 := by
  have hcr : ∀ {l}, (ls.named x).2.Crowded t l ↔ ls.Crowded t l := by
    intro l
    unfold Crowded others
    rw [ls.line_named]
  refine ⟨?_, fun hl => ?_, fun hl hl₂ => h.inj (hcr.1 hl) (hcr.1 hl₂), fun {y l} hy hl => ?_,
    fun {y l'} hy hl' => ?_⟩
  · rw [ls.waiting_named, ls'.waiting_named]
    exact h.waiting
  · unfold others
    rw [ls'.line_named, ls.line_named]
    exact h.line (hcr.1 hl)
  · rw [names_named] at hy ⊢
    split at hy
    · rw [← Option.some.inj hy] at hl
      exact absurd (hcr.1 hl) (hun.not_crowded ok)
    · rename_i hne
      rw [if_neg hne]
      exact h.name hy (hcr.1 hl)
  · rw [names_named] at hy
    rw [ls'.line_named] at hl'
    split at hy
    · rw [← Option.some.inj hy] at hl'
      exact absurd (hun.line_eq_nil ok') hl'
    · rename_i hne
      obtain ⟨l, hl, hcrl⟩ := h.spare hy hl'
      refine ⟨l, ?_, hcr.2 hcrl⟩
      rw [names_named, if_neg hne, hl]

/-- Whoever waits asks again. -/
theorem request_of_waiting (h : Shadow t g ls ls') (ok : LinesOK ls held rowOf present) (hu : u ≠ t)
    (hwait : ls.waiting.find? u = some (x, l))
    (hfree : ∀ w, (ls.request u x).2.waiting.find? u = some w →
      (ls.request u x).2.holds w.2 t = false) :
    Shadow t g (ls.request u x).2 (ls'.request (closeUp t u) x).2 ∧
      (ls'.request (closeUp t u) x).1 = (ls.request u x).1.map g := by
  have hwait' : ls'.waiting.find? (closeUp t u) = some (x, g l) := by
    rw [h.waiting u hu, hwait]
    rfl
  have hin : u ∈ ls.line l := ok.standing hwait
  have hcr : ls.Crowded t l := crowded_of_mem hin hu
  have hline := h.line hcr
  have hjoin : ls.join l u = ls := ok.join_of_waiting hwait
  have hjoin' : ls'.join (g l) (closeUp t u) = ls' := by
    rw [join, if_pos]
    rw [hline, closeUp_mem_others hu]
    exact hin
  rw [ls.request_eq (ls.target_of_waiting hwait), hjoin] at hfree ⊢
  rw [ls'.request_eq (ls'.target_of_waiting hwait'), hjoin']
  -- somebody stands first, and it is not the one who is left out
  obtain ⟨v, rest, hvr⟩ := List.exists_cons_of_ne_nil (List.ne_nil_of_mem hin)
  by_cases hv : v = u
  · subst hv
    have hfirst : ls.holds l v = true := by
      rw [holds, hvr]
      simp
    have hfirst' : ls'.holds (g l) (closeUp t v) = true := by
      rw [holds, hline, others, hvr]
      simp [hu]
    rw [if_pos hfirst, if_pos hfirst']
    exact ⟨h.rewait (h.waiting.erase hu), rfl⟩
  · have hfirst : ¬ ls.holds l u = true := by
      rw [holds, hvr]
      simpa using hv
    rw [if_neg hfirst] at hfree ⊢
    have hvt : v ≠ t := by
      rintro rfl
      have hnot := hfree (x, l) (Table.find?_insert_self _ _ _)
      change (ls.join l u).holds l v = false at hnot
      rw [hjoin, holds, hvr] at hnot
      simp at hnot
    have hfirst' : ¬ ls'.holds (g l) (closeUp t u) = true := by
      rw [holds, hline, others, hvr]
      have hne : closeUp t v ≠ closeUp t u := fun he => hv ((closeUp_inj hvt hu).1 he)
      simpa [hvt] using hne
    rw [if_neg hfirst']
    unfold queueUp
    rw [hjoin, hjoin']
    exact ⟨h.rewait (h.waiting.insert hu (x, l)), rfl⟩

/-- Whoever asks for a row for which others are in line waits behind them. -/
theorem request_of_crowded (h : Shadow t g ls ls') (hu : u ≠ t)
    (hwait : ls.waiting.find? u = none) (hx : ls.names.find? x = some l) (hl : ls.Crowded t l)
    (hnot : u ∉ ls.line l) :
    Shadow t g (ls.request u x).2 (ls'.request (closeUp t u) x).2 ∧
      (ls'.request (closeUp t u) x).1 = (ls.request u x).1.map g := by
  have hwait' : ls'.waiting.find? (closeUp t u) = none := by
    rw [h.waiting u hu, hwait]
    rfl
  have htarget : ls.target u x = (l, ls) := by
    rw [ls.target_of_not_waiting hwait, ls.named_of_some hx]
  have htarget' : ls'.target (closeUp t u) x = (g l, ls') := by
    rw [ls'.target_of_not_waiting hwait', ls'.named_of_some (h.name hx hl)]
  have hfirst : (ls.join l u).holds l u = false := by
    refine ls.holds_join_of_not_mem (fun hnil => hl ?_) hnot
    rw [others, hnil]
    rfl
  have hfirst' : (ls'.join (g l) (closeUp t u)).holds (g l) (closeUp t u) = false := by
    refine ls'.holds_join_of_not_mem ?_ ?_
    · rw [h.line hl]
      simpa [Crowded] using hl
    · rw [h.line hl, closeUp_mem_others hu]
      exact hnot
  rw [ls.request_eq htarget, ls'.request_eq htarget', hfirst, hfirst']
  exact ⟨(h.join_crowded hu hl hnot).rewait (h.waiting.insert hu (x, l)), rfl⟩

/-- Whoever asks for a row for which nobody else is in line gets its lock. -/
theorem request_of_uncrowded (h : Shadow t g ls ls') (ok : LinesOK ls held rowOf present)
    (ok' : LinesOK ls' held' rowOf' present') (hu : u ≠ t) (hwait : ls.waiting.find? u = none)
    (hun : Uncrowded t ls ls' x)
    (hfree : ∀ w, (ls.request u x).2.waiting.find? u = some w →
      (ls.request u x).2.holds w.2 t = false) :
    ∃ g₁, (∀ l, ls.Crowded t l → g₁ l = g l) ∧
      Shadow t g₁ (ls.request u x).2 (ls'.request (closeUp t u) x).2 ∧
      (ls'.request (closeUp t u) x).1 = (ls.request u x).1.map g₁ := by
  have hwait' : ls'.waiting.find? (closeUp t u) = none := by
    rw [h.waiting u hu, hwait]
    rfl
  have hnot := hun.not_crowded ok
  have hl' := hun.line_eq_nil ok'
  have h₁ := h.named ok ok' hun
  have htarget : ls.target u x = ((ls.named x).1, (ls.named x).2) := ls.target_of_not_waiting hwait
  have htarget' : ls'.target (closeUp t u) x = ((ls'.named x).1, (ls'.named x).2) :=
    ls'.target_of_not_waiting hwait'
  have hname : ∀ y, (ls'.named x).2.names.find? y = some (ls'.named x).1 ↔
      (ls.named x).2.names.find? y = some (ls.named x).1 :=
    fun y => (ok'.named_iff x y).trans (ok.named_iff x y).symm
  have hstand : ∀ v y l₂, (ls.named x).2.waiting.find? v = some (y, l₂) →
      v ∈ (ls.named x).2.line l₂ := by
    intro v y l₂ hv
    rw [ls.waiting_named] at hv
    rw [ls.line_named]
    exact ok.standing hv
  rw [ls.request_eq htarget] at hfree ⊢
  rw [ls'.request_eq htarget']
  rw [← ls'.line_named x] at hl'
  -- nobody stands there, not even the one who is left out
  have hl : (ls.named x).2.line (ls.named x).1 = [] := by
    have honly : ∀ v ∈ (ls.named x).2.line (ls.named x).1, v = t := by
      intro v hv
      rw [ls.line_named] at hv
      exact eq_of_not_crowded hnot hv
    by_contra hne
    obtain ⟨v, rest, hvr⟩ := List.exists_cons_of_ne_nil hne
    obtain rfl : v = t := honly v (by rw [hvr]; exact List.mem_cons_self)
    have hnotu : u ∉ (ls.named x).2.line (ls.named x).1 := fun hin => hu (honly u hin)
    have hfirst := (ls.named x).2.holds_join_of_not_mem hne hnotu
    rw [hfirst] at hfree
    have hfalse := hfree (x, (ls.named x).1) (Table.find?_insert_self _ _ _)
    change ((ls.named x).2.join (ls.named x).1 u).holds (ls.named x).1 v = false at hfalse
    rw [holds, line_join, if_pos ⟨rfl, hnotu⟩, hvr] at hfalse
    simp at hfalse
  have h₂ := h₁.join_empty hu hl hl' hstand hname
  rw [(ls.named x).2.holds_join_of_nil u hl, (ls'.named x).2.holds_join_of_nil _ hl']
  refine ⟨_, fun l₂ hl₂ => ?_, h₂.rewait (h₂.waiting.erase hu), ?_⟩
  · refine Function.update_of_ne ?_ _ _
    rintro rfl
    exact hnot hl₂
  · simp

/-- **Somebody else asks for a lock** and gets the same answer, unless he has to wait at a lock of
the one who is left out. -/
theorem request (h : Shadow t g ls ls') (ok : LinesOK ls held rowOf present)
    (ok' : LinesOK ls' held' rowOf' present') (hu : u ≠ t)
    (hask : ∀ w, ls.waiting.find? u = some w → w.1 = x) (hheld : ∀ h ∈ held u, h.1 ≠ x)
    (hfree : ∀ w, (ls.request u x).2.waiting.find? u = some w →
      (ls.request u x).2.holds w.2 t = false) :
    ∃ g₁, (∀ l, ls.Crowded t l → g₁ l = g l) ∧
      Shadow t g₁ (ls.request u x).2 (ls'.request (closeUp t u) x).2 ∧
      (ls'.request (closeUp t u) x).1 = (ls.request u x).1.map g₁ := by
  cases hwait : ls.waiting.find? u with
  | some w =>
      obtain ⟨y, l⟩ := w
      obtain rfl : y = x := hask _ hwait
      exact ⟨g, fun _ _ => rfl, h.request_of_waiting ok hu hwait hfree⟩
  | none =>
      rcases h.crowded_or_uncrowded x with ⟨l, hx, hl⟩ | hun
      · have hnot : u ∉ ls.line l := by
          intro hin
          rcases ok.known hin with hin | hin
          · exact hheld _ hin (ok.rowOf_name hx)
          · rw [hwait] at hin
            cases hin
        exact ⟨g, fun _ _ => rfl, h.request_of_crowded hu hwait hx hl hnot⟩
      · exact h.request_of_uncrowded ok ok' hu hwait hun hfree

end Request

end Shadow

end RowLocks
end Dispatch
