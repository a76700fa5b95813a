import Mathlib

/-!
# The stack of `stack.c`

A stack is its chain of nodes from the top down; the end of the chain is the null pointer.
Allocation succeeds.
-/

namespace C10K

/-- The chain of nodes `stack`, each with its `data`. -/
abbrev Stack (α : Type*) := List α

variable {α : Type*}

def stackCreate : Stack α := []

def stackPush (s : Stack α) (val : α) : Stack α := val :: s

/-- `none` where the stack is empty: the source would read through a null pointer. -/
def stackPop : Stack α → Option (α × Stack α)
  | []       => none
  | val :: s => some (val, s)

def stackIsEmpty (s : Stack α) : Bool := s.isEmpty

/-- The loop frees the top node until the top is null. -/
def stackEmpty : Stack α → Stack α
  | []     => []
  | _ :: s => stackEmpty s

def stackDestroy (s : Stack α) : Stack α := stackEmpty s

/-- A destroyed stack is an empty one. -/
@[simp] lemma stackDestroy_eq (s : Stack α) : stackDestroy s = stackCreate := by
  induction s with
  | nil => rfl
  | cons _ s ih => exact ih

end C10K
