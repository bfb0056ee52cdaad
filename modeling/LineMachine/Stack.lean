/-
**Stacks.**

A stack is kept with its top first, and is shown with its bottom first, as in listings, test
cases and messages.  The view `LineMachine.Stack.toList` is the list from the bottom to the top.

Main definitions:

* `LineMachine.Stack` — a stack of values of any type;
* `LineMachine.Stack.push`, `LineMachine.Stack.pop?`, `LineMachine.Stack.top?` — its operations;
* `LineMachine.Stack.toList`, `LineMachine.Stack.ofList` — the contents, bottom first;
* `LineMachine.Stack.render`, `LineMachine.Stack.mismatch?` — a stack as it is shown, and what is
  said of a stack that is not as expected.

Main results:

* `LineMachine.Stack.toList_push` — a push appends at the end of the view;
* `LineMachine.Stack.toList_ofList`, `LineMachine.Stack.ofList_toList` — the view loses nothing.
-/

import LineMachine.Text.Bracketed

set_option relaxedAutoImplicit false
set_option autoImplicit false

namespace LineMachine

/-- **A stack**, held with its top first. -/
structure Stack (α : Type) where
  /-- The contents from the top to the bottom. -/
  topFirst : List α
  deriving DecidableEq, Repr

namespace Stack

variable {α : Type}

/-- The stack that holds nothing. -/
def empty : Stack α := ⟨[]⟩

/-- Puts a value on top. -/
def push (s : Stack α) (a : α) : Stack α := ⟨a :: s.topFirst⟩

/-- The value on top and the stack below it, unless there is nothing. -/
def pop? (s : Stack α) : Option (α × Stack α) :=
  match s.topFirst with
  | [] => none
  | a :: rest => some (a, ⟨rest⟩)

/-- The value on top, unless there is nothing. -/
def top? (s : Stack α) : Option α := s.topFirst.head?

/-- How many values the stack holds. -/
def depth (s : Stack α) : Nat := s.topFirst.length

/-- The contents from the bottom to the top. -/
def toList (s : Stack α) : List α := s.topFirst.reverse

/-- The stack with the given contents, bottom first. -/
def ofList (l : List α) : Stack α := ⟨l.reverse⟩

/-- Whether the stack holds so many values. -/
def has (s : Stack α) (count : Int) : Bool := decide (count ≤ s.depth)

/-- A stack of numbers as it is shown under its name. -/
def render (s : Stack Int) (name : String) : String := s!"{name}Stk{Text.bracketed s.toList}"

/-- What is said of a stack of numbers that does not hold what is expected. -/
def mismatch? (s : Stack Int) (expected : List Int) : Option String :=
  if expected = s.toList then none
  else some s!"{Text.bracketed expected} != {Text.bracketed s.toList}"

@[simp] theorem toList_empty : (empty : Stack α).toList = [] := rfl

@[simp] theorem toList_push (s : Stack α) (a : α) : (s.push a).toList = s.toList ++ [a] := by
  simp [push, toList]

@[simp] theorem pop?_push (s : Stack α) (a : α) : (s.push a).pop? = some (a, s) := rfl

@[simp] theorem toList_ofList (l : List α) : (ofList l).toList = l := by
  simp [ofList, toList]

@[simp] theorem ofList_toList (s : Stack α) : ofList s.toList = s := by
  simp [ofList, toList]

@[simp] theorem length_toList (s : Stack α) : s.toList.length = s.depth := by
  simp [toList, depth]

end Stack

end LineMachine
