/-
Runs.

A run is a list of events that happen one after the other, each of which changes a state.
What every event preserves holds throughout a run, and what every event respects, if it is
transitive, relates any two of its states.  Both are proved here once, for all systems whose
parties act in any order.

What some events bring about and others undo holds after a run if an event of the first kind has
happened and none of the second kind since (`Since`); `since_concat` says so event by event.
-/
import Mathlib.Data.List.Basic

namespace Dispatch.Run

variable {σ ε : Type} (after : σ → ε → σ)

/-- Each event of a run has a property in the state in which it happens. -/
def Along (P : σ → ε → Prop) : σ → List ε → Prop
  | _, [] => True
  | s, e :: rest => P s e ∧ Along P (after s e) rest

/-- The states that a run leads through. -/
def states : σ → List ε → List σ
  | s, [] => [s]
  | s, e :: rest => s :: states (after s e) rest

instance decidableAlong {P : σ → ε → Prop} [∀ s e, Decidable (P s e)] :
    (s : σ) → (es : List ε) → Decidable (Along after P s es)
  | _, [] => inferInstanceAs (Decidable True)
  | s, e :: rest =>
    have : Decidable (Along after P (after s e) rest) := decidableAlong (after s e) rest
    inferInstanceAs (Decidable (P s e ∧ Along after P (after s e) rest))

/-- What the events of a run bring forth, the first one's first. -/
def collect {α : Type} (f : σ → ε → List α) : σ → List ε → List α
  | _, [] => []
  | s, e :: rest => f s e ++ collect f (after s e) rest

/-- Some event of a run has the first property, and none that comes after it has the second. -/
def Since (P P' : σ → ε → Prop) (s : σ) (es : List ε) : Prop :=
  ∃ first e rest, es = first ++ e :: rest ∧ P (first.foldl after s) e ∧
    Along after (fun s e => ¬ P' s e) (after (first.foldl after s) e) rest

/-- What holds of all parties, and of one who joins them, holds of all then. -/
theorem forall_mem_concat {α : Type} {Q : α → Prop} {as : List α} {a : α} (h : ∀ b ∈ as, Q b)
    (ha : Q a) : ∀ b ∈ as ++ [a], Q b :=
  List.forall_mem_append.mpr ⟨h, List.forall_mem_singleton.mpr ha⟩

/-- What holds of all parties holds of all when one has taken a step, if it holds of this one. -/
theorem forall_mem_set {α : Type} {Q : α → Prop} {as : List α} {a : α} (h : ∀ b ∈ as, Q b)
    (ha : Q a) (k : Nat) : ∀ b ∈ as.set k a, Q b := by
  intro b hb
  rcases List.mem_or_eq_of_mem_set hb with hb | rfl
  · exact h b hb
  · exact ha

variable {after} {P P' : σ → ε → Prop} {s : σ} {es : List ε}

theorem mem_states_self (s : σ) (es : List ε) : s ∈ states after s es := by
  cases es <;> exact List.mem_cons_self

theorem foldl_mem_states (s : σ) (es : List ε) : es.foldl after s ∈ states after s es := by
  induction es generalizing s with
  | nil => exact List.mem_singleton_self s
  | cons e rest ih => exact List.mem_cons_of_mem _ (ih (after s e))

theorem Along.and (h : Along after P s es) (h' : Along after P' s es) :
    Along after (fun s e => P s e ∧ P' s e) s es := by
  induction es generalizing s with
  | nil => trivial
  | cons e rest ih => exact ⟨⟨h.1, h'.1⟩, ih h.2 h'.2⟩

theorem Along.mono (h : Along after P s es) (hP : ∀ s e, P s e → P' s e) : Along after P' s es := by
  induction es generalizing s with
  | nil => trivial
  | cons e rest ih => exact ⟨hP s e h.1, ih h.2⟩

/-- What holds along a run holds along both of its parts. -/
theorem along_append {es' : List ε} : Along after P s (es ++ es') ↔
    Along after P s es ∧ Along after P (es.foldl after s) es' := by
  induction es generalizing s with
  | nil => exact ⟨fun h => ⟨trivial, h⟩, fun h => h.2⟩
  | cons e rest ih => exact (and_congr_right' ih).trans and_assoc.symm

theorem collect_append {α : Type} {f : σ → ε → List α} (es' : List ε) :
    collect after f s (es ++ es') = collect after f s es ++ collect after f (es.foldl after s) es' := by
  induction es generalizing s with
  | nil => rfl
  | cons e rest ih => rw [List.cons_append, collect, ih, collect, List.append_assoc]; rfl

theorem collect_concat {α : Type} {f : σ → ε → List α} (e : ε) :
    collect after f s (es ++ [e]) = collect after f s es ++ f (es.foldl after s) e := by
  rw [collect_append, collect, collect, List.append_nil]

theorem map_collect {α β : Type} {f : σ → ε → List α} (g : α → β) :
    (collect after f s es).map g = collect after (fun s e => (f s e).map g) s es := by
  induction es generalizing s with
  | nil => rfl
  | cons e rest ih => rw [collect, List.map_append, ih]; rfl

/-- What has been brought forth has been so by some event. -/
theorem mem_collect {α : Type} {f : σ → ε → List α} {a : α} (h : a ∈ collect after f s es) :
    ∃ pre e post, es = pre ++ e :: post ∧ a ∈ f (pre.foldl after s) e := by
  induction es generalizing s with
  | nil => cases h
  | cons e rest ih =>
      rcases List.mem_append.mp h with h | h
      · exact ⟨[], e, rest, rfl, h⟩
      · obtain ⟨pre, e', post, rfl, h'⟩ := ih h
        exact ⟨e :: pre, e', post, rfl, h'⟩

theorem not_since_nil : ¬ Since after P P' s [] := by
  rintro ⟨first, e, rest, h, -⟩
  simp at h

/-- One more event is of the first kind, or it is at least not of the second. -/
theorem since_concat (e : ε) : Since after P P' s (es ++ [e]) ↔
    P (es.foldl after s) e ∨ Since after P P' s es ∧ ¬ P' (es.foldl after s) e := by
  constructor
  · rintro ⟨first, e', rest, heq, hP, hnone⟩
    rcases List.eq_nil_or_concat rest with rfl | ⟨rest', last, rfl⟩
    · obtain ⟨rfl, he⟩ := List.append_inj' heq rfl
      obtain rfl : e = e' := by simpa using he
      exact .inl hP
    · rw [List.concat_eq_append] at heq hnone
      rw [← List.cons_append, ← List.append_assoc] at heq
      obtain ⟨rfl, he⟩ := List.append_inj' heq rfl
      obtain rfl : e = last := by simpa using he
      obtain ⟨hnone, hlast, -⟩ := along_append.mp hnone
      refine .inr ⟨⟨first, e', rest', rfl, hP, hnone⟩, ?_⟩
      rw [List.foldl_append, List.foldl_cons]
      exact hlast
  · rintro (hP | ⟨⟨first, e', rest, rfl, hP, hnone⟩, hlast⟩)
    · exact ⟨es, e, [], rfl, hP, trivial⟩
    · refine ⟨first, e', rest ++ [e], by simp, hP, along_append.mpr ⟨hnone, ?_, trivial⟩⟩
      rw [List.foldl_append, List.foldl_cons] at hlast
      exact hlast

/-- A system that only observes another one goes through the same run. -/
theorem along_map {τ : Type} {after' : τ → ε → τ} {f : τ → σ}
    (hf : ∀ t e, f (after' t e) = after (f t) e) {t : τ} :
    Along after' (fun t e => P (f t) e) t es ↔ Along after P (f t) es := by
  induction es generalizing t with
  | nil => exact Iff.rfl
  | cons e rest ih =>
      refine and_congr_right' ?_
      rw [ih, hf]

/-- **What every event preserves holds throughout a run.** -/
theorem invariant {Q : σ → Prop} (hstep : ∀ {s e}, Q s → P s e → Q (after s e)) (hs : Q s)
    (h : Along after P s es) : ∀ s' ∈ states after s es, Q s' := by
  induction es generalizing s with
  | nil =>
      intro s' hs'
      rw [List.mem_singleton.mp hs']
      exact hs
  | cons e rest ih =>
      intro s' hs'
      rcases List.mem_cons.mp hs' with rfl | hs'
      · exact hs
      · exact ih (hstep hs h.1) h.2 s' hs'

/-- **What an event preserves just if it has a property holds throughout just the runs whose events
all have it.** -/
theorem states_iff {Q I : σ → Prop} (hinv : ∀ {s e}, I s → P s e → I (after s e))
    (hstep : ∀ {s e}, I s → P s e → Q s → (Q (after s e) ↔ P' s e)) (hI : I s) (hs : Q s)
    (h : Along after P s es) : (∀ s' ∈ states after s es, Q s') ↔ Along after P' s es := by
  induction es generalizing s with
  | nil =>
      refine ⟨fun _ => trivial, fun _ s' hs' => ?_⟩
      rw [List.mem_singleton.mp hs']
      exact hs
  | cons e rest ih =>
      have hiff := hstep hI h.1 hs
      have hrest := fun hs' => ih (hinv hI h.1) hs' h.2
      rw [states, List.forall_mem_cons]
      constructor
      · rintro ⟨-, hall⟩
        have hs' := hall _ (mem_states_self _ rest)
        exact ⟨hiff.mp hs', (hrest hs').mp hall⟩
      · rintro ⟨hP', hall⟩
        exact ⟨hs, (hrest (hiff.mpr hP')).mpr hall⟩

/-- **What every event respects relates any two states of a run**, if it is transitive. -/
theorem pairwise {Q : σ → Prop} {R : σ → σ → Prop} (hinv : ∀ {s e}, Q s → P s e → Q (after s e))
    (hstep : ∀ {s e}, Q s → P s e → R s (after s e)) (hrefl : ∀ s, R s s)
    (htrans : ∀ {a b c}, R a b → R b c → R a c) (hs : Q s) (h : Along after P s es) :
    (states after s es).Pairwise R := by
  have hfrom : ∀ {s es}, Q s → Along after P s es → ∀ s' ∈ states after s es, R s s' := by
    intro s es
    induction es generalizing s with
    | nil =>
        intro _ _ s' hs'
        rw [List.mem_singleton.mp hs']
        exact hrefl s
    | cons e rest ih =>
        intro hs h s' hs'
        rcases List.mem_cons.mp hs' with rfl | hs'
        · exact hrefl s'
        · exact htrans (hstep hs h.1) (ih (hinv hs h.1) h.2 s' hs')
  induction es generalizing s with
  | nil => exact List.pairwise_singleton R s
  | cons e rest ih =>
      refine List.pairwise_cons.mpr ⟨fun s' hs' => ?_, ih (hinv hs h.1) h.2⟩
      exact htrans (hstep hs h.1) (hfrom (hinv hs h.1) h.2 s' hs')

end Dispatch.Run
