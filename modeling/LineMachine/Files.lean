/-
**Files: programs and cases under a name.**

Programs and cases are read from named files.  What a name leads to is a parameter, so nothing here
depends on a file system.  A file is a sequence of bytes, each of which stands for one character.

Main definitions:

* `LineMachine.Files` — what the names of files lead to;
* `LineMachine.Listing.ofFile`, `LineMachine.Case.ofFile` — the program and the cases in a file;
* `LineMachine.Machine.loadFile` — loads a file into the machine;
* `LineMachine.Machine.loadFileTraced` — the same with its log.
-/

import LineMachine.Case.Basic
import LineMachine.Journal
import LineMachine.Source.Listing

set_option relaxedAutoImplicit false
set_option autoImplicit false

namespace LineMachine

/-- Why a file cannot be opened. -/
inductive OpenFailure where
  | missing
  | directory
  /-- The name goes on behind that of a file. -/
  | notDirectory
  /-- A part of the name is longer than any name of a file. -/
  | nameTooLong
  deriving DecidableEq, Repr

/-- The message of a file that cannot be opened. -/
def OpenFailure.message (path : String) : OpenFailure → String
  | missing => s!"[Errno 2] No such file or directory: {Text.quoted path}"
  | directory => s!"[Errno 21] Is a directory: {Text.quoted path}"
  | notDirectory => s!"[Errno 20] Not a directory: {Text.quoted path}"
  | nameTooLong => s!"[Errno 36] File name too long: {Text.quoted path}"

/-- **What the names of files lead to**: the text of the file, or why there is none. -/
abbrev Files := String → Except OpenFailure (List Char)

/-- **The program in a file.** -/
def Listing.ofFile (files : Files) (path : String) : Except Listing.Fault Listing :=
  match files path with
  | .error _ => .error (.unopened path)
  | .ok text => Listing.ofText path text

/-- **Loads a file into the machine**: its program is appended to program memory, and its name
becomes the machine's.  Nothing changes if the file is at fault. -/
def Machine.loadFile (m : Machine) (files : Files) (path : String) :
    Except Listing.Fault (Listing × Machine) :=
  (Listing.ofFile files path).map fun listing => (listing, { m.load listing with file := path })

/-- **Loads a file into the machine**, and logs how many lines it has once they are there. -/
def Machine.loadFileTraced (m : Machine) (files : Files) (path : String) :
    Logging (Except Listing.Fault (Listing × Machine)) :=
  match m.loadFile files path with
  | .error f => return .error f
  | .ok (listing, m) => do
      Logging.log (.loaded path listing.length)
      return .ok (listing, m)

/-- Why no cases can be read from a file. -/
inductive Case.FileFault where
  | unopened (path : String) (failure : OpenFailure)
  | faulty (f : Case.Fault)
  deriving DecidableEq, Repr

/-- **The cases in a file.** -/
def Case.ofFile (files : Files) (path : String) : Except Case.FileFault (List Case) :=
  match files path with
  | .error failure => .error (.unopened path failure)
  | .ok text => (Case.ofText path text).mapError .faulty

end LineMachine
