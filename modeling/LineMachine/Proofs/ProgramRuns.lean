/-
**Program runs: what the command line starts, and where it stops.**

The command line puts the program that it loads into a machine with the given numbers on its data
stack and nothing on its return stack.  Without a step limit nothing but a fault ends the run.  How
much fuel there is makes no difference to where that is, so a run stops in one way only.

Main definitions:

* `LineMachine.Machine.Stops` — **a run that nothing but a fault ends has stopped**;
* `LineMachine.Session.machine` — the machine that the command line starts;
* `LineMachine.Session.Launches` — a session that starts a machine;
* `LineMachine.Session.endStatus` — the status at the end of a run.

Main results:

* `LineMachine.Machine.stops_iff`, `LineMachine.Machine.Stops.unique` — where a run stops;
* `LineMachine.Machine.steps_or_stops` — a run goes on or stops;
* `LineMachine.Session.launches_machine` — **what the command line starts**;
* `LineMachine.Session.runProgram_of_launches` — **what a program comes to** that is started.
-/

import LineMachine.CommandLine.Session
import LineMachine.Proofs.Erasure
import LineMachine.Proofs.Trials

set_option relaxedAutoImplicit false
set_option autoImplicit false

namespace LineMachine

/-! ### Runs that only a fault ends -/

namespace Machine

variable {m m' : Machine} {n : Nat} {f : Fault}

/-- **A run has stopped**: given enough fuel, a fault ends it after so many completed steps. -/
def Stops (m : Machine) (n : Nat) (f : Fault) (m' : Machine) : Prop :=
  ∃ fuel, m.runUntil Session.never fuel = ⟨m', n, .halted f⟩

theorem stops_iff : m.Stops n f m' ↔ ∃ m₁, steps n m = .next m₁ ∧ m₁.step = .halt f m' := by
  constructor
  · rintro ⟨fuel, hrun⟩
    cases runUntil_eq_iff.1 hrun with
    | halted hvisits _ _ hstep => exact ⟨_, hvisits.steps, hstep⟩
  · rintro ⟨m₁, hsteps, hstep⟩
    have hvisits : Visits Session.never m n m₁ := visits_iff.2 ⟨hsteps, fun _ _ => rfl⟩
    exact ⟨n + 1, runUntil_eq_iff.2 (.halted hvisits (Nat.lt_succ_self n) rfl hstep)⟩

/-- No more steps complete than those before the fault. -/
theorem Stops.le_of_steps {k : Nat} {m₂ : Machine} (h : m.Stops n f m')
    (hsteps : steps k m = .next m₂) : k ≤ n := by
  obtain ⟨m₁, hbefore, hstep⟩ := stops_iff.1 h
  refine Nat.le_of_not_lt fun hlt => ?_
  obtain ⟨rest, rfl⟩ : ∃ rest, k = n + (rest + 1) := ⟨k - (n + 1), by omega⟩
  rw [steps_add hbefore, steps_succ_halt hstep] at hsteps
  cases hsteps

/-- A run stops in one way only. -/
theorem Stops.unique {n₂ : Nat} {f₂ : Fault} {m₂ : Machine} (h : m.Stops n f m')
    (h₂ : m.Stops n₂ f₂ m₂) : n = n₂ ∧ f = f₂ ∧ m' = m₂ := by
  obtain ⟨m₁, hsteps, hstep⟩ := stops_iff.1 h
  obtain ⟨m₃, hsteps₂, hstep₂⟩ := stops_iff.1 h₂
  obtain rfl : n = n₂ := Nat.le_antisymm (h₂.le_of_steps hsteps) (h.le_of_steps hsteps₂)
  rw [hsteps] at hsteps₂
  cases hsteps₂
  rw [hstep] at hstep₂
  cases hstep₂
  exact ⟨rfl, rfl, rfl⟩

/-- So many steps complete, or a fault stops the run before. -/
theorem steps_or_stops (n : Nat) (m : Machine) :
    (∃ m', steps n m = .next m') ∨ ∃ k < n, ∃ f m', m.Stops k f m' := by
  induction n with
  | zero => exact .inl ⟨m, rfl⟩
  | succ n ih =>
      rcases ih with ⟨m₁, hsteps⟩ | ⟨k, hk, hstops⟩
      · cases hstep : m₁.step with
        | next m₂ => exact .inl ⟨m₂, steps_succ_eq_next_iff.2 ⟨m₁, hsteps, hstep⟩⟩
        | halt f m₂ => exact .inr ⟨n, Nat.lt_succ_self n, f, m₂, stops_iff.2 ⟨m₁, hsteps, hstep⟩⟩
      · exact .inr ⟨k, Nat.lt_succ_of_lt hk, hstops⟩

end Machine

/-! ### The machine of the command line -/

namespace Session

/-- **The machine that the command line starts** on a program: with the given numbers pushed, at
the beginning of a line, and without a return address. -/
def machine (program : Listing) (file : String) (line : Int) (pushes : List Int)
    (io : Streams) : Machine :=
  { (((Machine.fresh io.input io.output).jump line).pushAll pushes).load program with file := file }

theorem machine_eq (program : Listing) (file : String) (line : Int) (pushes : List Int)
    (io : Streams) :
    machine program file line pushes io =
      { data := .ofList (pushes.map Cell.wrap)
        ret := .empty
        memory := Memory.empty.load program
        ip := .start line
        file := file
        input := io.input
        output := io.output } := by
  simp [machine, Machine.fresh, Machine.load, Machine.jump, Machine.pushAll_eq]

/-- **A session that starts a machine**, and logs that its file has been loaded. -/
def Launches (files : Files) (o : Options) (input : List Char) (program : Listing) (m : Machine) :
    Prop :=
  ∀ j, (launch files o input).run j = (.ok (program, m), j.log (.loaded o.file program.length))

variable {files : Files} {o : Options} {program : Listing} {input : List Char} {m : Machine}

/-- A file that can be loaded is, and that is logged. -/
theorem start_of_ofFile (hfile : Listing.ofFile files o.file = .ok program) (pushes : List Int)
    (input : List Char) :
    start files o pushes input = (do
      Logging.log (.loaded o.file program.length)
      return .ok (program, machine program o.file (o.start.number?.getD firstLine) pushes
        ⟨input, .emptyBytes⟩)) := by
  simp [start, Machine.loadFileTraced, Machine.loadFile, hfile, Except.map, machine]

/-- A session starts the machine of its program if nothing is missing. -/
theorem launches_of_need {pushes : List Int} (hfile : Listing.ofFile files o.file = .ok program)
    (hpushes : o.pushes.mapM Amount.number? = some pushes) (hneed : need? o = none)
    (input : List Char) :
    Launches files o input program (machine program o.file (o.start.number?.getD firstLine) pushes
      ⟨input, .emptyBytes⟩) := by
  intro j
  simp only [launch, hpushes, start_of_ofFile hfile, hneed]
  rfl

/-- **What the command line starts**, if the file can be loaded and no option was left blank. -/
theorem launches_machine {line : Int} {pushes : List Int}
    (hfile : Listing.ofFile files o.file = .ok program)
    (hstart : o.start = .number line) (hpushes : o.pushes = pushes.map .number)
    (hlimit : o.maxSteps ≠ some .blank) (input : List Char) :
    Launches files o input program (machine program o.file line pushes ⟨input, .emptyBytes⟩) := by
  have hnumbers : o.pushes.mapM Amount.number? = some pushes := by
    rw [hpushes]
    clear hpushes
    induction pushes with
    | nil => rfl
    | cons v pushes ih => simp [List.mapM_cons, ih]
  have hlaunches := launches_of_need hfile hnumbers (need?_eq_none hstart hlimit) input
  rwa [hstart] at hlaunches

/-! ### What a program comes to -/

/-- The status at the end of a run. -/
def endStatus (o : Options) (r : Run) : Status :=
  match r.ending with
  | .halted (.exit status) => .code status.toInt
  | .halted .missingCell => .crashed .missingCell
  | .halted _ => .code failureCode
  | .arrived => .unfinished
  | .outOfSteps => if o.maxSteps.isSome then .code stepLimitCode else .unfinished

/-- The end of a run gives its status, whatever else it says. -/
theorem fst_run_conclude (o : Options) (r : Run) (j : Journal) :
    ((conclude o r).run j).1 = endStatus o r := by
  obtain ⟨m, n, ending⟩ := r
  cases ending with
  | arrived => rfl
  | outOfSteps =>
      unfold conclude endStatus
      cases o.maxSteps with
      | none => rfl
      | some limit => rfl
  | halted f => cases f <;> rfl

/-- **What a program comes to** is read off its plain run. -/
theorem fst_run_playTraced (o : Options) (fuel : Nat) (m : Machine) (j : Journal) :
    ((playTraced o fuel m).run j).1 =
      (endStatus o (m.runUntil never (stepLimit o fuel)),
        delivered (m.runUntil never (stepLimit o fuel)).machine.output) := by
  have hruns := Machine.observes_runUntilTraced never (stepLimit o fuel) m
  generalize m.runUntil never (stepLimit o fuel) = r at hruns ⊢
  obtain ⟨j', hj'⟩ := hruns.exists_run_bind
    (fun r => do return (← conclude o r, delivered r.machine.output)) j
  rw [playTraced, hj', ← fst_run_conclude o r j']
  rfl

/-- A program that is started logs that, and goes on from the machine at the start. -/
theorem runProgram_eq (h : Launches files o input program m) (fuel : Nat) :
    runProgram files o fuel input = transcribe o.trace (do
      Logging.log (.loaded o.file program.length)
      playTraced o fuel m) := by
  have hplay : (runProgramTraced files o fuel input).run (.fresh o.trace) =
      (playTraced o fuel m).run ((Journal.fresh o.trace).log (.loaded o.file program.length)) := by
    rw [runProgramTraced, StateT.run_bind, h]
    rfl
  rw [runProgram, transcribe, hplay]
  rfl

/-- **What a program comes to** that is started. -/
theorem runProgram_of_launches (h : Launches files o input program m) (fuel : Nat) :
    let r := m.runUntil never (stepLimit o fuel)
    (runProgram files o fuel input).status = endStatus o r ∧
      (runProgram files o fuel input).stdout = delivered r.machine.output := by
  intro r
  have hplay := fst_run_playTraced o fuel m
    ((Journal.fresh o.trace).log (.loaded o.file program.length))
  rw [runProgram_eq h]
  exact ⟨congrArg Prod.fst hplay, congrArg Prod.snd hplay⟩

end Session

end LineMachine
