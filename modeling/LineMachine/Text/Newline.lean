/-
**Universal newlines.**

Main definitions:

* `LineMachine.Text.unifyNewlines` — a text in which every line end is a line feed.
-/

set_option relaxedAutoImplicit false
set_option autoImplicit false

namespace LineMachine.Text

/-- A character as it is read behind another: a line feed behind a carriage return belongs to that
line end, and a carriage return reads as a line feed. -/
def readAfter (before c : Char) : Option Char :=
  if c = '\n' ∧ before = '\r' then none
  else if c = '\r' then some '\n'
  else some c

/-- **A text in which every line end is a line feed**, whether it was a line feed, a carriage
return or both. -/
def unifyNewlines (text : List Char) : List Char :=
  (('\n' :: text).zip text).filterMap (fun pair => readAfter pair.1 pair.2)

end LineMachine.Text
