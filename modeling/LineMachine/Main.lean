/-
**The program.**

Opens the files that the arguments name, runs the session and shows its transcript.  A program that
is run by itself may never end and may talk to its user, so it is run piece by piece: after each
piece its output is shown, and input is fetched when it is about to be read.
-/

import LineMachine.CommandLine.Session

set_option relaxedAutoImplicit false
set_option autoImplicit false

namespace LineMachine.Program

/-- The most steps between two looks at the output. -/
def pieceLength : Nat := 10000

/-- The text of a file, each byte of which stands for one character. -/
def openFile (path : String) : IO (Except OpenFailure (List Char)) := do
  try
    let bytes ← IO.FS.readBinFile path
    return .ok (bytes.toList.map (fun b => Char.ofNat b.toNat))
  catch _ => return .error .missing

/-- The files that the arguments name. -/
def openFiles (o : Options) : IO Files := do
  let program ← openFile o.file
  let cases ← match Session.casesFile? o with
    | some path => openFile path
    | none => pure (.error .missing)
  return fun path => if path = o.file then program else cases

/-- Shows what is written beside the output. -/
def showNotices (journal : Journal) : IO Unit := do
  for n in journal.notices do
    (← IO.getStderr).putStr n.render

/-- Shows output. -/
def showOutput (bytes : Array UInt8) : IO Unit := do
  unless bytes.isEmpty do
    let stdout ← IO.getStdout
    stdout.write ⟨bytes⟩
    stdout.flush

/-- The exit status of the process. -/
def exitStatus (s : Status) : IO UInt32 := do
  match s with
  | .code n => return (n % 256).toNat.toUInt32
  | .crashed c =>
      (← IO.getStderr).putStr s!"{c.message}\n"
      return 1
  | .unfinished => return 1

/-- Shows a transcript and ends with its status. -/
def finish (t : Transcript) : IO UInt32 := do
  (← IO.getStderr).putStr t.stderr
  showOutput t.stdout
  exitStatus t.status

/-- Runs a program piece by piece, after some completed steps.  The flag says whether there may be
more input than the machine has. -/
partial def drive (o : Options) (more : Bool) (done : Nat) (m : Machine) : IO UInt32 := do
  let limit := min pieceLength ((Session.stepLimit o (done + pieceLength)) - done)
  let stop := if more then Machine.awaitsInput else Session.never
  let (r, journal) := (m.runUntilTraced stop limit).run (.fresh o.trace)
  showNotices journal
  showOutput (Session.delivered r.machine.output)
  let m := { r.machine with output := .emptyBytes }
  let done := done + r.steps
  match r.ending with
  | .halted _ => conclude done r
  | ending =>
      if Session.stepLimit o (done + 1) ≤ done then conclude done { r with ending := .outOfSteps }
      else if ending = .arrived then
        let line ← (← IO.getStdin).getLine
        drive o (!line.isEmpty) done { m with input := Text.unifyNewlines line.toList }
      else drive o more done m
where
  /-- Ends with what is said about the whole run. -/
  conclude (done : Nat) (r : Run) : IO UInt32 := do
    let (status, journal) := (Session.conclude o { r with steps := done }).run (.fresh o.trace)
    showNotices journal
    exitStatus status

end LineMachine.Program

open LineMachine Program in
/-- Runs the program on the arguments of the command line. -/
def main (arguments : List String) : IO UInt32 := do
  match Options.ofArguments arguments with
  | .ok (some o) =>
      let files ← openFiles o
      match Session.casesFile? o with
      | some _ => do
          let input ← (← IO.getStdin).readToEnd
          finish (Session.run files arguments 0 input.toList)
      | none =>
          let (launched, journal) := (Session.launch files o []).run (.fresh o.trace)
          showNotices journal
          match launched with
          | .error status => exitStatus status
          | .ok (_, m) => drive o true 0 m
  | _ => finish (Session.run (fun _ => .error .missing) arguments 0 [])
