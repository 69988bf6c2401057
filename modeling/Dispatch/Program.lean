/-
Computations that talk to their surroundings by single calls.

Everything in this service that several clients can do at once is written as a
`Program`: a tree whose nodes are single calls (one read of the match table, one
write to a cache) and whose branches are the possible replies.  What happens
between two calls of one client is then visible, which is what every statement
about interleavings needs, and the same tree can simply be run from end to end
when nobody else is there.

A call may have to wait, for a row lock or for room in a queue.  A handler answers
such a call with `Turn.wait`: the caller has taken its place in a line, and the
program stays at that call until it is tried again.
-/
namespace Dispatch

/-- A computation that is finished, or that makes the call `c` and goes on with the reply. -/
inductive Program {Call : Type} (Reply : Call → Type) (α : Type) : Type where
  | done (result : α)
  | call (c : Call) (next : Reply c → Program Reply α)

/-- What comes of trying a call: an answer, or a place in a line. -/
inductive Turn (σ ρ : Type) where
  | answer (reply : ρ) (state : σ)
  | wait (state : σ)

/-- How surroundings of type `σ` take each call. -/
abbrev Handler {Call : Type} (Reply : Call → Type) (σ : Type) : Type :=
  (c : Call) → σ → Turn σ (Reply c)

namespace Turn

variable {σ τ ρ : Type}

/-- The surroundings after the attempt. -/
def state : Turn σ ρ → σ
  | answer _ s => s
  | wait s => s

/-- The same attempt seen from larger surroundings. -/
def mapState (f : σ → τ) : Turn σ ρ → Turn τ ρ
  | answer r s => answer r (f s)
  | wait s => wait (f s)

@[simp] theorem state_answer (r : ρ) (s : σ) : (answer r s).state = s := rfl
@[simp] theorem state_wait (s : σ) : (wait s : Turn σ ρ).state = s := rfl
@[simp] theorem mapState_answer (f : σ → τ) (r : ρ) (s : σ) :
    (answer r s).mapState f = answer r (f s) := rfl
@[simp] theorem mapState_wait (f : σ → τ) (s : σ) :
    (wait s : Turn σ ρ).mapState f = wait (f s) := rfl

end Turn

namespace Program

variable {Call : Type} {Reply : Call → Type} {α β γ σ : Type}

/-- First one program, then what its result asks for. -/
def bind : Program Reply α → (α → Program Reply β) → Program Reply β
  | done a, f => f a
  | call c next, f => call c fun r => (next r).bind f

instance : Monad (Program Reply) where
  pure := done
  bind := bind

/-- The program that makes one call and returns its reply. -/
def ask (c : Call) : Program Reply (Reply c) := call c done

@[simp] theorem pure_eq (a : α) : (pure a : Program Reply α) = done a := rfl
@[simp] theorem bind_eq (p : Program Reply α) (f : α → Program Reply β) : p >>= f = p.bind f := rfl
@[simp] theorem bind_done (a : α) (f : α → Program Reply β) : (done a).bind f = f a := rfl
@[simp] theorem bind_call (c : Call) (next : Reply c → Program Reply α)
    (f : α → Program Reply β) : (call c next).bind f = call c fun r => (next r).bind f := rfl
@[simp] theorem ask_bind (c : Call) (f : Reply c → Program Reply β) :
    (ask c).bind f = call c f := rfl

theorem bind_pure (p : Program Reply α) : p.bind done = p := by
  induction p with
  | done a => rfl
  | call c next ih => simp [ih]

theorem bind_assoc (p : Program Reply α) (f : α → Program Reply β) (g : β → Program Reply γ) :
    (p.bind f).bind g = p.bind fun a => (f a).bind g := by
  induction p with
  | done a => rfl
  | call c next ih => simp [ih]

/-! ### Running

`step` makes the next call; `run` goes on until the program is finished or has to
wait, and returns what is left of it.
-/

/-- The result, if the program is finished. -/
def result? : Program Reply α → Option α
  | done a => some a
  | call _ _ => none

/-- One call.  A finished program stays as it is, and so does one that has to wait. -/
def step (h : Handler Reply σ) : Program Reply α → σ → Program Reply α × σ
  | done a, s => (done a, s)
  | call c next, s =>
    match h c s with
    | .answer r s' => (next r, s')
    | .wait s' => (call c next, s')

/-- All calls up to the end, or up to the first one that has to wait. -/
def run (h : Handler Reply σ) : Program Reply α → σ → Program Reply α × σ
  | done a, s => (done a, s)
  | call c next, s =>
    match h c s with
    | .answer r s' => (next r).run h s'
    | .wait s' => (call c next, s')

@[simp] theorem run_done (h : Handler Reply σ) (a : α) (s : σ) :
    (done a : Program Reply α).run h s = (done a, s) := rfl

theorem run_call (h : Handler Reply σ) (c : Call) (next : Reply c → Program Reply α) (s : σ) :
    (call c next).run h s =
      match h c s with
      | .answer r s' => (next r).run h s'
      | .wait s' => (call c next, s') := by rw [run]

/-- Running two programs in sequence is running the first and then the second. -/
theorem run_bind (h : Handler Reply σ) (p : Program Reply α) (f : α → Program Reply β) (s : σ) :
    (p.bind f).run h s =
      match p.run h s with
      | (done a, s') => (f a).run h s'
      | (call c next, s') => (call c fun r => (next r).bind f, s') := by
  induction p generalizing s with
  | done a => rfl
  | call c next ih =>
    rw [bind_call, run_call, run_call]
    cases h c s with
    | answer r s' => exact ih r s'
    | wait s' => rfl

/-- A program that makes its calls through larger surroundings. -/
def lift {Call' : Type} {Reply' : Call' → Type} (f : Call → Call')
    (reply : (c : Call) → Reply' (f c) → Reply c) : Program Reply α → Program Reply' α
  | done a => done a
  | call c next => call (f c) fun r => (next (reply c r)).lift f reply

@[simp] theorem lift_done {Call' : Type} {Reply' : Call' → Type} (f : Call → Call')
    (reply : (c : Call) → Reply' (f c) → Reply c) (a : α) :
    (done a : Program Reply α).lift f reply = done a := rfl

@[simp] theorem lift_call {Call' : Type} {Reply' : Call' → Type} (f : Call → Call')
    (reply : (c : Call) → Reply' (f c) → Reply c) (c : Call) (next : Reply c → Program Reply α) :
    (call c next).lift f reply = call (f c) fun r => (next (reply c r)).lift f reply := rfl

theorem lift_bind {Call' : Type} {Reply' : Call' → Type} (f : Call → Call')
    (reply : (c : Call) → Reply' (f c) → Reply c) (p : Program Reply α)
    (g : α → Program Reply β) :
    (p.bind g).lift f reply = (p.lift f reply).bind fun a => (g a).lift f reply := by
  induction p with
  | done a => rfl
  | call c next ih => simp [ih]

/-- Larger surroundings that take each call as smaller ones do run a program as these do. -/
theorem run_lift {Call' : Type} {Reply' : Call' → Type} {τ : Type} {f : Call → Call'}
    {reply : (c : Call) → Reply' (f c) → Reply c} {h : Handler Reply σ} {h' : Handler Reply' τ}
    (embed : σ → τ)
    (hcall : ∀ c s, match h c s with
      | .answer r s' => ∃ r', h' (f c) (embed s) = .answer r' (embed s') ∧ reply c r' = r
      | .wait s' => h' (f c) (embed s) = .wait (embed s'))
    (p : Program Reply α) (s : σ) :
    (p.lift f reply).run h' (embed s) = ((p.run h s).1.lift f reply, embed (p.run h s).2) := by
  induction p generalizing s with
  | done a => rfl
  | call c next ih =>
    have hc := hcall c s
    rw [lift_call, run_call, run_call]
    cases hturn : h c s with
    | answer r s' =>
      rw [hturn] at hc
      obtain ⟨r', hanswer, rfl⟩ := hc
      rw [hanswer]
      exact ih (reply c r') s'
    | wait s' =>
      rw [hturn] at hc
      rw [hc]
      rfl

end Program
end Dispatch
