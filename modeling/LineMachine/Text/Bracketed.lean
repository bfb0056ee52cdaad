/-
**Lists as they are shown.**

Main definitions:

* `LineMachine.Text.bracketed` — a list of numbers between brackets, with commas.
-/

set_option relaxedAutoImplicit false
set_option autoImplicit false

namespace LineMachine.Text

/-- **A list of numbers as it is shown**: between brackets, with commas. -/
def bracketed (vs : List Int) : String := "[" ++ ", ".intercalate (vs.map toString) ++ "]"

end LineMachine.Text
