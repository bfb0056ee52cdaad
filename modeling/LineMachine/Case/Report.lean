/-
**The report of a test run.**

A report reads of each result its name, whether it has passed, and why not.  It has a line for each
case that passed, two for each that failed, and a last line that counts both.

Main definitions:

* `LineMachine.Report.Entry`, `LineMachine.CaseResult.entry` — **what a report reads of a result**;
* `LineMachine.Report.text` — the report of any entries;
* `LineMachine.Report.render` — the report of several results;
* `LineMachine.Report.allPassed` — whether all cases passed.
-/

import LineMachine.Case.Verdict

set_option relaxedAutoImplicit false
set_option autoImplicit false

namespace LineMachine

namespace Report

/-- **What a report reads of a result.** -/
structure Entry where
  name : String
  passed : Bool
  /-- The data stack at the end, bottom first. -/
  values : List Int
  steps : Int
  /-- Why the case has not passed. -/
  reason : String

/-- The lines that are printed of an entry. -/
def Entry.lines (e : Entry) : List String :=
  if e.passed then [s!"  ok    {e.name} ({e.steps} steps)"]
  else [s!"  FAIL  {e.name}: {e.reason}", s!"        got {Text.bracketed e.values}"]

/-- The last line of a report. -/
def summary (passed failed : Nat) : String := s!"{passed} passed, {failed} failed"

/-- The lines that are printed of several entries. -/
def linesOf (es : List Entry) : List String :=
  es.flatMap Entry.lines ++ [summary (es.countP (·.passed)) (es.countP (!·.passed))]

/-- **The text that is printed of several entries.** -/
def text (es : List Entry) : String := String.join ((linesOf es).map (· ++ "\n"))

end Report

/-- What a report reads of the result of a case. -/
def CaseResult.entry (r : CaseResult) : Report.Entry :=
  ⟨r.case.name, r.passed, r.values, r.steps, r.reason⟩

namespace Report

/-- **The report of several results.** -/
def render (rs : List CaseResult) : String := text (rs.map CaseResult.entry)

/-- Whether all cases passed. -/
def allPassed (rs : List CaseResult) : Bool := rs.all CaseResult.passed

end Report

end LineMachine
