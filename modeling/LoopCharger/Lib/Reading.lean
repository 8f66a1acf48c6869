import Mathlib.Data.Nat.Notation

/-!
# Computations that read a buffer

A computation over a buffer, step by step: it reads at an index and goes on with what it has read.
So the indices that it reads are known for every buffer.

## Main definitions

* `Reading`, `Reading.run`, `Reading.reads`: a computation, its result, and the indices read.

## Main results

* `Reading.run_bind`, `Reading.reads_bind`: a computation that goes on with the result of another.
-/

namespace LoopCharger.Lib

/-- A computation that reads elements of `α` and returns a `β`. -/
inductive Reading (α β : Type)
  | done (b : β)
  | read (i : ℕ) (next : α → Reading α β)

namespace Reading

variable {α β γ : Type}

def bind : Reading α β → (β → Reading α γ) → Reading α γ
  | done b, f => f b
  | read i next, f => read i fun a => (next a).bind f

instance : Monad (Reading α) where
  pure := done
  bind := bind

/-- The element at an index. -/
def get (i : ℕ) : Reading α α := read i done

/-- The result over a buffer. -/
def run (buf : ℕ → α) : Reading α β → β
  | done b => b
  | read i next => (next (buf i)).run buf

/-- The indices that are read, in their order. -/
def reads (buf : ℕ → α) : Reading α β → List ℕ
  | done _ => []
  | read i next => i :: (next (buf i)).reads buf

section Simp

variable (buf : ℕ → α)

@[simp] theorem run_pure (b : β) : (pure b : Reading α β).run buf = b := rfl

@[simp] theorem run_get (i : ℕ) : (get i).run buf = buf i := rfl

@[simp] theorem run_bind (m : Reading α β) (f : β → Reading α γ) :
    (m >>= f).run buf = (f (m.run buf)).run buf := by
  induction m with
  | done b => rfl
  | read i next ih => exact ih (buf i)

@[simp] theorem reads_pure (b : β) : (pure b : Reading α β).reads buf = [] := rfl

@[simp] theorem reads_get (i : ℕ) : (get i).reads buf = [i] := rfl

@[simp] theorem reads_bind (m : Reading α β) (f : β → Reading α γ) :
    (m >>= f).reads buf = m.reads buf ++ (f (m.run buf)).reads buf := by
  induction m with
  | done b => rfl
  | read i next ih => exact congrArg (i :: ·) (ih (buf i))

end Simp

end Reading

end LoopCharger.Lib
