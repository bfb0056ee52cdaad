/-
**Sessions: the whole program, from its arguments to its exit status.**

A session reads its arguments, then either runs a program or runs test cases against it.  It is a
function of the arguments, the files and the input, and it comes to a transcript: the status, what
was written to the standard output and what was written beside it.

Main definitions:

* `LineMachine.Status`, `LineMachine.Transcript` — what a session comes to;
* `LineMachine.Need`, `LineMachine.Crash` — what ends a session without a status;
* `LineMachine.Session.launch`, `LineMachine.Session.conclude` — the beginning and the end of a
  program that is run;
* `LineMachine.Session.runProgramTraced`, `LineMachine.Session.runCasesTraced` — the two kinds of
  session, with what they write to the journal;
* `LineMachine.Session.run` — a session.

Main results:

* `LineMachine.Session.need?_eq_none` — only a blank option keeps a program from its first step.
-/

import LineMachine.Case.Report
import LineMachine.CommandLine.Usage
import LineMachine.Files
import LineMachine.Text.Newline

set_option relaxedAutoImplicit false
set_option autoImplicit false

namespace LineMachine

/-! ### Crashes -/

/-- What needs a number. -/
inductive Need where
  /-- A number is to be pushed. -/
  | push
  /-- The completed steps of a program are held against its limit. -/
  | limit
  /-- The line of the instruction pointer is looked up. -/
  | line
  /-- The completed steps of a test case are held against its limit. -/
  | caseLimit
  deriving DecidableEq, Repr

/-- What is said when a number is needed and an option was left blank. -/
def Need.message : Need → String
  | push => "'list' object cannot be interpreted as an integer"
  | limit => "'<' not supported between instances of 'int' and 'list'"
  | line => "'<=' not supported between instances of 'int' and 'list'"
  | caseLimit => "'>=' not supported between instances of 'int' and 'list'"

/-- What ends a session without a status. -/
inductive Crash where
  /-- A numeral with too many digits was to be converted. -/
  | tooLong (digits : Nat)
  /-- The machine looked for a cell before the beginning of a line. -/
  | missingCell
  /-- A number with too many digits was to be written. -/
  | unwritable
  /-- An option was left blank whose number is needed. -/
  | blank (n : Need)
  deriving DecidableEq, Repr

/-- The message of a crash. -/
def Crash.message : Crash → String
  | tooLong digits => Numeral.tooLongMessage digits
  | missingCell => Fault.message .missingCell
  | unwritable => Numeral.unwritableMessage
  | blank n => n.message

/-- What becomes of a session if a case comes to no result. -/
def NoResult.crash : NoResult → Crash
  | missingCell => .missingCell
  | unwritable => .unwritable

/-! ### Transcripts -/

/-- **How a session ended.** -/
inductive Status where
  /-- It gave a status. -/
  | code (n : Int)
  | crashed (c : Crash)
  /-- The program was still running when it was last looked at. -/
  | unfinished
  deriving DecidableEq, Repr

/-- **What a session comes to.** -/
structure Transcript where
  status : Status
  /-- The bytes of the standard output. -/
  stdout : Array UInt8
  /-- What was written beside the output, in order. -/
  notices : List Notice
  deriving DecidableEq, Repr

/-- The text that was written beside the output. -/
def Transcript.stderr (t : Transcript) : String := String.join (t.notices.map Notice.render)

namespace Session

open Logging

/-- The status of a session that failed. -/
def failureCode : Int := 1

/-- The status of a program that reached its step limit. -/
def stepLimitCode : Int := 2

/-- What is said of a failure. -/
def complaint (message : String) : String := s!"{Usage.program}: {message}\n"

/-- The bytes that have reached an output, with the text that waited before the end. -/
def delivered (s : Sink) : Array UInt8 :=
  match s.flush with
  | .text written => written.toUTF8.data
  | .bytes codes _ => codes

/-- **What a session comes to** that writes to a journal, which is empty at the start. -/
def transcribe (trace : Bool) (session : Logging (Status × Array UInt8)) : Transcript :=
  let ((status, stdout), j) := session.run (.fresh trace)
  ⟨status, stdout, j.notices.toList⟩

/-! ### Failures -/

/-- A session that ended with a failure before any output. -/
def refuse (message : String) : Transcript := ⟨.code failureCode, #[], [.text (complaint message)]⟩

/-- Complains of a failure. -/
def complain (message : String) : Logging Status := do
  say (complaint message)
  return .code failureCode

/-- The status of a session that ends because a listing is at fault. -/
def refuseListing (f : Listing.Fault) : Logging Status :=
  match f with
  | .tooLong digits => return .crashed (.tooLong digits)
  | f => complain f.message

/-- The status of a session that ends because no cases can be read. -/
def refuseCases (f : Case.FileFault) : Logging Status :=
  match f with
  | .unopened path _ => complain s!"Cannot open '{path}'"
  | .faulty ⟨_, _, .tooLong digits⟩ => return .crashed (.tooLong digits)
  | .faulty f => complain f.message

/-- A session that ends before any output. -/
def endEarly (status : Logging Status) : Logging (Status × Array UInt8) := return (← status, #[])

/-! ### Running a program -/

/-- The machine at the start of a program, and the listing that is loaded. -/
def start (files : Files) (o : Options) (pushes : List Int) (input : List Char) :
    Logging (Except Listing.Fault (Listing × Machine)) :=
  let line := o.start.number?.getD firstLine
  (((Machine.fresh input .emptyBytes).jump line).pushAll pushes).loadFileTraced files o.file

/-- What the first step of a program needs, if an option that it depends on was left blank.  The
line to start at does not matter if no step may be taken. -/
def need? (o : Options) : Option Need :=
  match o.maxSteps, o.start with
  | some .blank, _ => some .limit
  | some (.number n), .blank => if 0 < n then some .line else none
  | none, .blank => some .line
  | _, .number _ => none

/-- Nothing is missing if the line to start at and the step limit were not left blank. -/
theorem need?_eq_none {o : Options} {line : Int} (hs : o.start = .number line)
    (hm : o.maxSteps ≠ some .blank) : need? o = none := by
  unfold need?
  split <;> simp_all

/-- **Begins to run a program**: the machine at the start with the listing that was loaded, or the
status of a session that ends before the first step. -/
def launch (files : Files) (o : Options) (input : List Char) :
    Logging (Except Status (Listing × Machine)) :=
  match o.pushes.mapM Amount.number? with
  | none => return .error (.crashed (.blank .push))
  | some pushes => do
      match ← start files o pushes input with
      | .error f => return .error (← refuseListing f)
      | .ok (listing, m) =>
          match need? o with
          | some n => return .error (.crashed (.blank n))
          | none => return .ok (listing, m)

/-- Where a program stopped, as it is shown.  From a blank line it has not moved. -/
def stoppedAt (o : Options) (m : Machine) : String :=
  match o.start with
  | .number _ => m.ip.render
  | .blank => s!"({Amount.blank.render}, 0)"

/-- **The status at the end of a run.** -/
def conclude (o : Options) (r : Run) : Logging Status :=
  match r.ending with
  | .halted (.exit status) => return .code status.toInt
  | .halted .missingCell => return .crashed .missingCell
  | .halted f => complain f.message
  | .arrived => return .unfinished
  | .outOfSteps =>
      match o.maxSteps with
      | none => return .unfinished
      | some _ => do
          log (.stopped r.steps (stoppedAt o r.machine))
          return .code stepLimitCode

/-- How many steps a program may take: what its options allow, or so many as its fuel. -/
def stepLimit (o : Options) (fuel : Nat) : Nat :=
  match o.maxSteps with
  | none => fuel
  | some (.number n) => n.toNat
  | some .blank => 0

/-- A program never stops by itself: only a fault, an exit or the limit ends it. -/
def never (_ : Machine) : Bool := false

/-- Takes the steps of a program.  Without a step limit it is given up when its fuel is spent. -/
def playTraced (o : Options) (fuel : Nat) (m : Machine) : Logging (Status × Array UInt8) := do
  let r ← m.runUntilTraced never (stepLimit o fuel)
  let status ← conclude o r
  return (status, delivered r.machine.output)

/-- Runs a program, from its file to its end. -/
def runProgramTraced (files : Files) (o : Options) (fuel : Nat) (input : List Char) :
    Logging (Status × Array UInt8) := do
  match ← launch files o input with
  | .error status => return (status, #[])
  | .ok (_, m) => playTraced o fuel m

/-- **Runs a program**, and shows what it logs if it is to be traced. -/
def runProgram (files : Files) (o : Options) (fuel : Nat) (input : List Char) : Transcript :=
  transcribe o.trace (runProgramTraced files o fuel input)

/-! ### Running test cases -/

/-- The step limit of the cases, unless it was left blank and there is a case to run. -/
def caseLimit? (o : Options) (cases : List Case) : Option Int :=
  match o.maxSteps, cases with
  | some (.number n), _ => some n
  | some .blank, _ :: _ => none
  | _, _ => some Suite.defaultMaxSteps

/-- What a session comes to whose cases have been run: their report, and whether all passed. -/
def reported (found : Except NoResult (List CaseResult × Streams)) : Status × Array UInt8 :=
  match found with
  | .error e => (.crashed e.crash, #[])
  | .ok (results, io) =>
      let code := if Report.allPassed results then 0 else failureCode
      (.code code, delivered (io.output.write (Report.render results)))

/-- Runs cases and reports their results. -/
def runSuiteTraced (suite : Suite) (cases : List Case) (input : List Char) :
    Logging (Status × Array UInt8) :=
  return reported (← suite.runAllTraced cases ⟨input, .emptyBytes⟩)

/-- Runs the cases of a file against a program. -/
def runCasesTraced (files : Files) (o : Options) (casesFile : String) (input : List Char) :
    Logging (Status × Array UInt8) :=
  match Listing.ofFile files o.file with
  | .error f => endEarly (refuseListing f)
  | .ok program =>
      match Case.ofFile files casesFile with
      | .error f => endEarly (refuseCases f)
      | .ok cases =>
          match caseLimit? o cases with
          | none => return (.crashed (.blank .caseLimit), #[])
          | some limit => runSuiteTraced ⟨program, o.file, limit⟩ cases input

/-- **Runs the cases of a file**, and shows what is logged if they are to be traced. -/
def runCases (files : Files) (o : Options) (casesFile : String) (input : List Char) :
    Transcript :=
  transcribe o.trace (runCasesTraced files o casesFile input)

/-! ### Sessions -/

/-- The case file that the options ask for.  An empty name asks for none. -/
def casesFile? (o : Options) : Option String := o.test.filter (· != "")

/-- **A session**, with the fuel that a program without a step limit may use. -/
def run (files : Files) (arguments : List String) (fuel : Nat) (input : List Char) : Transcript :=
  match Options.ofArguments arguments with
  | .error p => ⟨.code 2, #[], [.text (Usage.complain p)]⟩
  | .ok none => ⟨.code 0, Usage.help.toUTF8.data, []⟩
  | .ok (some o) =>
      let input := Text.unifyNewlines input
      match casesFile? o with
      | some casesFile => runCases files o casesFile input
      | none => runProgram files o fuel input

end Session

end LineMachine
