/-
**Running test cases.**

A case runs on a machine of its own, with the program loaded, its inputs pushed and a return
address on the return stack that no program line has.  It ends when the call returns to that
address, and it has passed if the data stack then holds what is expected.  If it holds something
else, the result says what was expected; so there is no result if that cannot be written.  The
cases of a suite share nothing but the input and the output.

Main definitions:

* `LineMachine.Verdict`, `LineMachine.CaseResult` — how a case ended;
* `LineMachine.CaseResult.stated` — a result with its reason, unless that cannot be written;
* `LineMachine.Suite`, `LineMachine.Suite.run` — what the cases share, and a case run with it;
* `LineMachine.Suite.runAll` — several cases in order;
* `LineMachine.Suite.trialTraced`, `LineMachine.Suite.runAllTraced` — the same with their log.

Main results:

* `LineMachine.CaseResult.stated_eq_error_iff` — when a result cannot be stated;
* `LineMachine.CaseResult.passed_iff_of_ofRun` — when a case has passed;
* `LineMachine.Suite.runAll_cons` — the first case, then the others on what it left unread.
-/

import LineMachine.Case.Basic
import LineMachine.Source.Listing
import LineMachine.Text.Bracketed
import LineMachine.Trace

set_option relaxedAutoImplicit false
set_option autoImplicit false

namespace LineMachine

/-! ### Verdicts -/

/-- **How a case ended.** -/
inductive Verdict where
  | passed
  /-- The call returned with something else on the data stack. -/
  | unexpected
  /-- The call did not return within the limit. -/
  | noReturn
  /-- A fault interrupted the program. -/
  | failed (d : Diagnosis)
  /-- The program stopped itself. -/
  | exited (status : Cell)
  deriving DecidableEq, Repr

/-- **The result of a case**: the verdict with the data stack at the end and the steps it took. -/
structure CaseResult where
  case : Case
  verdict : Verdict
  stack : List Cell
  steps : Nat
  deriving DecidableEq, Repr

/-- Why a case comes to no result. -/
inductive NoResult where
  /-- The machine looked for a cell before the beginning of a line. -/
  | missingCell
  /-- A number that was expected cannot be written. -/
  | unwritable
  deriving DecidableEq, Repr

/-- What is said of a case that comes to no result. -/
def NoResult.message : NoResult → String
  | missingCell => Fault.message .missingCell
  | unwritable => Numeral.unwritableMessage

/-- A case of which every expected number can be written. -/
def Case.IsWritable (c : Case) : Prop := ∀ v ∈ c.outputs, Numeral.IsWritable v

instance (c : Case) : Decidable c.IsWritable := inferInstanceAs (Decidable (∀ _ ∈ _, _))

namespace CaseResult

variable {r r' : CaseResult}

/-- Whether the case has passed. -/
def passed (r : CaseResult) : Bool := r.verdict == .passed

/-- Why the case has not passed; empty if it has. -/
def reason (r : CaseResult) : String :=
  match r.verdict with
  | .passed => ""
  | .unexpected => s!"expected {Text.bracketed r.case.outputs}"
  | .noReturn => s!"no return after {r.steps} steps"
  | .failed d => d.message
  | .exited status => s!"program called exit({status.toInt})"

/-- The numbers on the data stack at the end. -/
def values (r : CaseResult) : List Int := r.stack.map Int32.toInt

/-- What is logged of a result. -/
def event (r : CaseResult) : Event := .judged r.case.name r.passed r.steps

/-- **A result whose reason can be written.**  What was expected is told only if something else was
left. -/
def IsStatable (r : CaseResult) : Prop := r.verdict = .unexpected → r.case.IsWritable

instance (r : CaseResult) : Decidable r.IsStatable := inferInstanceAs (Decidable (_ → _))

/-- **A result with its reason**, if that can be written. -/
def stated (r : CaseResult) : Except NoResult CaseResult :=
  if r.IsStatable then .ok r else .error .unwritable

theorem stated_of_ne (h : r.verdict ≠ .unexpected) : r.stated = .ok r :=
  if_pos fun hverdict => absurd hverdict h

theorem stated_of_isWritable (h : r.case.IsWritable) : r.stated = .ok r := if_pos fun _ => h

theorem stated_eq_ok_iff : r.stated = .ok r' ↔ r.IsStatable ∧ r = r' := by
  unfold stated
  split
  case isTrue h => simp [h]
  case isFalse h => simp [h]

/-- **A result cannot be stated** if something else than expected was left, and what was expected
cannot be written. -/
theorem stated_eq_error_iff {e : NoResult} :
    r.stated = .error e ↔ e = .unwritable ∧ r.verdict = .unexpected ∧ ¬ r.case.IsWritable := by
  have hnot : ¬ r.IsStatable ↔ r.verdict = .unexpected ∧ ¬ r.case.IsWritable := by
    unfold IsStatable
    exact Classical.not_imp
  rw [← hnot]
  unfold stated
  split
  case isTrue h => simp [h]
  case isFalse h => simp [h, eq_comm]

/-- The verdict on a call that returned. -/
theorem passed_returned_iff {c : Case} {stack : List Cell} {n : Nat} :
    (⟨c, if stack.map Int32.toInt = c.outputs then .passed else .unexpected, stack, n⟩ :
      CaseResult).passed ↔ stack.map Int32.toInt = c.outputs := by
  by_cases h : stack.map Int32.toInt = c.outputs <;> simp [passed, h]

/-- A call that returned has its result if it left what is expected, or if that can be written. -/
theorem stated_returned {c : Case} {stack : List Cell} {n : Nat}
    (h : stack.map Int32.toInt = c.outputs ∨ c.IsWritable) :
    stated ⟨c, if stack.map Int32.toInt = c.outputs then .passed else .unexpected, stack, n⟩ =
      .ok ⟨c, if stack.map Int32.toInt = c.outputs then .passed else .unexpected, stack, n⟩ := by
  rcases h with houtputs | hwritable
  · exact stated_of_ne (by simp [houtputs])
  · exact stated_of_isWritable hwritable

/-- **The result that a run of a case comes to.**  A fault that is no verdict on the case is passed
on. -/
def ofRun (c : Case) (r : Run) : Except NoResult CaseResult :=
  let stack := r.machine.data.toList
  match r.ending with
  | .arrived =>
      let verdict := if stack.map Int32.toInt = c.outputs then .passed else .unexpected
      stated ⟨c, verdict, stack, r.steps⟩
  | .outOfSteps => .ok ⟨c, .noReturn, stack, r.steps⟩
  | .halted (.underflow d) => .ok ⟨c, .failed d, stack, r.steps⟩
  | .halted (.divisionByZero d) => .ok ⟨c, .failed d, stack, r.steps⟩
  | .halted (.exit status) => .ok ⟨c, .exited status, stack, r.steps⟩
  | .halted .missingCell => .error .missingCell

/-- **A case has passed** when the call returned and left what is expected. -/
theorem passed_iff_of_ofRun {c : Case} {run : Run} (h : ofRun c run = .ok r) :
    r.passed ↔
      run.ending = .arrived ∧ run.machine.data.toList.map Int32.toInt = c.outputs := by
  obtain ⟨m, n, ending⟩ := run
  unfold ofRun at h
  cases ending with
  | arrived =>
      obtain ⟨-, rfl⟩ := stated_eq_ok_iff.1 h
      rw [passed_returned_iff, and_iff_right rfl]
  | outOfSteps =>
      simp only [Except.ok.injEq] at h
      subst h
      simp [passed]
  | halted f =>
      cases f with
      | missingCell => simp at h
      | underflow d | divisionByZero d | exit status =>
          simp only [Except.ok.injEq] at h
          subst h
          simp [passed]

end CaseResult

/-! ### Suites -/

/-- The return address that the runner puts on the return stack; no program line has it. -/
def sentinel : Place := ⟨0, 0⟩

/-- The streams that the cases of a suite share. -/
structure Streams where
  input : List Char
  output : Sink
  deriving DecidableEq, Repr

/-- **What the cases of a suite share**: the program, the name of its file and the step limit. -/
structure Suite where
  program : Listing
  file : String
  maxSteps : Int
  deriving DecidableEq, Repr

namespace Suite

/-- The step limit when none is asked for. -/
def defaultMaxSteps : Int := 100000

/-- The machine as a case finds it. -/
def machine (s : Suite) (c : Case) (io : Streams) : Machine :=
  let m := (Machine.fresh io.input io.output).load s.program
  let m := ({ m with file := s.file }.pushAll c.inputs).pushReturn sentinel.line
  (m.pushReturn sentinel.col).jump (c.start.getD firstLine)

/-- The run of a case. -/
def trial (s : Suite) (c : Case) (io : Streams) : Run :=
  (s.machine c io).runUntil (·.isAt sentinel) s.maxSteps.toNat

/-- What a case leaves of the streams. -/
def streamsAfter (s : Suite) (c : Case) (io : Streams) : Streams :=
  let m := (s.trial c io).machine
  ⟨m.input, m.output⟩

/-- **The result of a case.** -/
def run (s : Suite) (c : Case) (io : Streams) : Except NoResult CaseResult :=
  CaseResult.ofRun c (s.trial c io)

/-- The results of several cases and what they leave of the streams. -/
def runAll (s : Suite) : List Case → Streams → Except NoResult (List CaseResult × Streams)
  | [], io => .ok ([], io)
  | c :: cs, io =>
      let trial := s.trial c io
      match CaseResult.ofRun c trial with
      | .error e => .error e
      | .ok r =>
          match runAll s cs ⟨trial.machine.input, trial.machine.output⟩ with
          | .error e => .error e
          | .ok (rs, io) => .ok (r :: rs, io)

/-- The run of a case with its log. -/
def trialTraced (s : Suite) (c : Case) (io : Streams) : Logging Run :=
  (s.machine c io).runUntilTraced (·.isAt sentinel) s.maxSteps.toNat

/-- **Several cases with their log.**  A result is logged before the next case is run. -/
def runAllTraced (s : Suite) :
    List Case → Streams → Logging (Except NoResult (List CaseResult × Streams))
  | [], io => return .ok ([], io)
  | c :: cs, io => do
      let trial ← s.trialTraced c io
      match CaseResult.ofRun c trial with
      | .error e => return .error e
      | .ok r =>
          Logging.log r.event
          match ← runAllTraced s cs ⟨trial.machine.input, trial.machine.output⟩ with
          | .error e => return .error e
          | .ok (rs, io) => return .ok (r :: rs, io)

/-- The first case, then the others on what it left of the streams. -/
theorem runAll_cons (s : Suite) (c : Case) (cs : List Case) (io : Streams) :
    s.runAll (c :: cs) io =
      match s.run c io with
      | .error f => .error f
      | .ok r => (s.runAll cs (s.streamsAfter c io)).map (fun p => (r :: p.1, p.2)) := by
  simp only [runAll, run, streamsAfter]
  split
  · rfl
  · split <;> rename_i h <;> simp [h, Except.map]

end Suite

end LineMachine
