/-
**The journal: what is written beside the output.**

A session logs what happens to it, and complains of what is wrong.  Both go to one stream beside the
output, in the order in which they happen.  Whether a record of the log gets there depends on the
journal alone: it leaves out what is of less importance than its threshold.  A computation that
writes to the journal carries it along, like any other state.

Main definitions:

* `LineMachine.Event`, `LineMachine.Event.record` — **what is logged**, and the line that tells it;
* `LineMachine.Journal`, `LineMachine.Journal.log`, `LineMachine.Journal.say` — the journal, and
  how it is written to;
* `LineMachine.Logging` — computations that write to a journal.

Main results:

* `LineMachine.Journal.log_of_warning` — a journal of warnings takes no records.
-/

import LineMachine.Memory
import LineMachine.Text.Quoted

set_option relaxedAutoImplicit false
set_option autoImplicit false

namespace LineMachine

/-! ### Log records -/

/-- How important a record is. -/
inductive Level where
  | debug | info | warning
  deriving DecidableEq, Repr

/-- The name of a level, as wide as those that are logged. -/
def Level.name : Level → String
  | debug => "DEBUG"
  | info => " INFO"
  | warning => "WARNING"

/-- The place of a level in their order. -/
def Level.rank : Level → Nat
  | debug => 0
  | info => 1
  | warning => 2

/-- **A line of the log.** -/
structure LogRecord where
  level : Level
  /-- The part of the program that logs. -/
  logger : String
  message : String
  deriving DecidableEq, Repr

/-- The text of a record, with the end of its line. -/
def LogRecord.render (r : LogRecord) : String := s!"{r.level.name} {r.logger}: {r.message}\n"

/-! ### Events -/

/-- **What is logged.** -/
inductive Event where
  /-- A file has been loaded, with so many lines. -/
  | loaded (path : String) (lines : Nat)
  /-- The instruction pointer wraps to the first line. -/
  | wrapped (origin : Place)
  /-- A line is called. -/
  | called (line : Int) (origin : Place)
  /-- The machine has returned. -/
  | returned (target : Place)
  /-- The program stops itself. -/
  | exited (status : Cell)
  /-- A case has come to its result. -/
  | judged (name : String) (passed : Bool) (steps : Nat)
  /-- A program has reached its step limit. -/
  | stopped (steps : Nat) (place : String)
  deriving DecidableEq, Repr

namespace Event

/-- How important an event is. -/
def level : Event → Level
  | stopped _ _ => .info
  | _ => .debug

/-- **The record of an event.** -/
def record (e : Event) : LogRecord :=
  match e with
  | loaded path lines => ⟨e.level, "fty.parser", s!"loaded {path}: {lines} lines"⟩
  | wrapped origin => ⟨e.level, "fty.runtime", s!"wrap from {origin.render}"⟩
  | called line origin => ⟨e.level, "fty.runtime", s!"call {line} from {origin.render}"⟩
  | returned target => ⟨e.level, "fty.runtime", s!"return to {target.render}"⟩
  | exited status => ⟨e.level, "fty.actions", s!"exit status={status.toInt}"⟩
  | judged name passed steps =>
      let passed := if passed then "True" else "False"
      ⟨e.level, "fty.tester", s!"case {Text.quoted name} passed={passed} steps={steps}"⟩
  | stopped steps place => ⟨e.level, "forthytwo", s!"stopped after {steps} steps at {place}"⟩

/-- No event is a warning. -/
theorem rank_level_lt (e : Event) : e.level.rank < Level.warning.rank := by
  cases e <;> simp [level, Level.rank]

end Event

/-! ### The journal -/

/-- **What is written beside the output.** -/
inductive Notice where
  /-- A line of the log. -/
  | record (r : LogRecord)
  /-- Anything else. -/
  | text (s : String)
  deriving DecidableEq, Repr

namespace Notice

/-- The text of a notice. -/
def render : Notice → String
  | record r => r.render
  | text s => s

/-- Whether a notice is a line of the log. -/
def isRecord : Notice → Bool
  | record _ => true
  | text _ => false

end Notice

/-- **The journal**: what has been written, and how important a record must be to be written. -/
structure Journal where
  threshold : Level
  notices : Array Notice
  deriving DecidableEq, Repr

namespace Journal

/-- The journal at the start of a session: with the option to trace it takes every record, and else
it takes warnings. -/
def fresh (trace : Bool) : Journal := ⟨if trace then .debug else .warning, #[]⟩

/-- Logs an event, if it is important enough. -/
def log (j : Journal) (e : Event) : Journal :=
  if e.level.rank < j.threshold.rank then j
  else { j with notices := j.notices.push (.record e.record) }

/-- Writes a text. -/
def say (j : Journal) (text : String) : Journal := { j with notices := j.notices.push (.text text) }

/-- A journal of warnings takes no records. -/
theorem log_of_warning {j : Journal} (h : j.threshold = .warning) (e : Event) : j.log e = j := by
  have hlow : e.level.rank < j.threshold.rank := h ▸ e.rank_level_lt
  exact if_pos hlow

end Journal

/-! ### Computations that write to a journal -/

/-- **A computation that writes to a journal.** -/
abbrev Logging := StateM Journal

namespace Logging

/-- Logs an event. -/
def log (e : Event) : Logging Unit := modify (·.log e)

/-- Writes a text beside the output. -/
def say (text : String) : Logging Unit := modify (·.say text)

end Logging

end LineMachine
