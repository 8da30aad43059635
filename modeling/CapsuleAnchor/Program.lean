import Mathlib

/-!
# Programs over atomic calls

A program is a tree of calls to some service: it returns, raises, or makes one call and continues with the answer.
Keeping the calls visible gives one text two meanings: `run` executes it alone, as a process does that holds a lock,
and an interleaving of several programs executes their calls one at a time.

`run_bind` computes the meaning of a sequence from the meanings of its parts.
-/

/-- Programs that make calls `c : Call` (answered by a value of `Ans c`), raise errors in `ε` and return values in
`α`. -/
inductive Prog (Call : Type) (Ans : Call → Type) (ε α : Type) where
  | pure (a : α)
  | throw (e : ε)
  | call (c : Call) (k : Ans c → Prog Call Ans ε α)

namespace Prog

variable {Call : Type} {Ans : Call → Type} {ε α β : Type} {σ : Type}

protected def bind : Prog Call Ans ε α → (α → Prog Call Ans ε β) → Prog Call Ans ε β
  | pure a, f => f a
  | throw e, _ => throw e
  | call c k, f => call c fun r => (k r).bind f

instance : Monad (Prog Call Ans ε) where
  pure := pure
  bind := Prog.bind

/-- One call, returning its answer. -/
def perform (c : Call) : Prog Call Ans ε (Ans c) := call c pure

/-- Raise or return the result of a computation that makes no call. -/
def ofExcept : Except ε α → Prog Call Ans ε α
  | .ok a => pure a
  | .error e => throw e

@[simp] theorem pure_bind (a : α) (f : α → Prog Call Ans ε β) : (Pure.pure a >>= f) = f a := rfl

@[simp] theorem pure_bind' (a : α) (f : α → Prog Call Ans ε β) : (Prog.pure a >>= f) = f a := rfl

@[simp] theorem throw_bind (e : ε) (f : α → Prog Call Ans ε β) : (throw e >>= f) = throw e := rfl

@[simp] theorem call_bind (c : Call) (k : Ans c → Prog Call Ans ε α) (f : α → Prog Call Ans ε β) :
    (call c k >>= f) = call c fun r => k r >>= f := rfl

/-- A program up to its end or its first exception, as a program that does not raise. -/
def attempt {ε' : Type} : Prog Call Ans ε α → Prog Call Ans ε' (Except ε α)
  | pure a => pure (.ok a)
  | throw e => pure (.error e)
  | call c k => call c fun r => (k r).attempt

/-- Execute a program alone from state `s`; `exec` says what each call answers and does. -/
def run (exec : (c : Call) → σ → Ans c × σ) : Prog Call Ans ε α → σ → Except ε α × σ
  | pure a, s => (.ok a, s)
  | throw e, s => (.error e, s)
  | call c k, s => (k (exec c s).1).run exec (exec c s).2

variable (exec : (c : Call) → σ → Ans c × σ)

@[simp] theorem run_pure (a : α) (s : σ) :
    (Pure.pure a : Prog Call Ans ε α).run exec s = (.ok a, s) := rfl

@[simp] theorem run_pure' (a : α) (s : σ) : (Prog.pure a : Prog Call Ans ε α).run exec s = (.ok a, s) := rfl

@[simp] theorem run_throw (e : ε) (s : σ) :
    (throw e : Prog Call Ans ε α).run exec s = (.error e, s) := rfl

@[simp] theorem run_ofExcept (r : Except ε α) (s : σ) :
    (ofExcept r : Prog Call Ans ε α).run exec s = (r, s) := by
  cases r <;> rfl

theorem run_perform (c : Call) (s : σ) :
    (perform c : Prog Call Ans ε _).run exec s = (.ok (exec c s).1, (exec c s).2) := rfl

theorem run_bind (p : Prog Call Ans ε α) (f : α → Prog Call Ans ε β) (s : σ) :
    (p >>= f).run exec s =
      match p.run exec s with
      | (.ok a, s') => (f a).run exec s'
      | (.error e, s') => (.error e, s') := by
  induction p generalizing s with
  | pure a => rfl
  | throw e => rfl
  | call c k ih => exact ih (exec c s).1 (exec c s).2

theorem run_map (f : α → β) (p : Prog Call Ans ε α) (s : σ) :
    (f <$> p).run exec s = ((p.run exec s).1.map f, (p.run exec s).2) := by
  change (p >>= fun a => Pure.pure (f a)).run exec s = _
  rw [run_bind]
  cases h : p.run exec s with
  | mk r s' => cases r <;> rfl

theorem run_attempt {ε' : Type} (p : Prog Call Ans ε α) (s : σ) :
    (attempt p : Prog Call Ans ε' (Except ε α)).run exec s = (.ok (p.run exec s).1, (p.run exec s).2) := by
  induction p generalizing s with
  | pure a => rfl
  | throw e => rfl
  | call c k ih => exact ih (exec c s).1 (exec c s).2

/-- A part that returns hands its value and its state on. -/
theorem run_bind_ok {p : Prog Call Ans ε α} {f : α → Prog Call Ans ε β} {s s' : σ} {a : α}
    (h : p.run exec s = (.ok a, s')) : (p >>= f).run exec s = (f a).run exec s' := by
  rw [run_bind, h]

/-- A part that raises ends the sequence. -/
theorem run_bind_error {p : Prog Call Ans ε α} {f : α → Prog Call Ans ε β} {s s' : σ} {e : ε}
    (h : p.run exec s = (.error e, s')) : (p >>= f).run exec s = (.error e, s') := by
  rw [run_bind, h]

end Prog
