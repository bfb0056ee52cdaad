/-
**Refusals: sessions that cannot load their input.**

A session reads the program, and the cases behind it if it is to run cases.  Where either cannot be
read the session refuses to go on: it complains and gives the status of a failure, unless a numeral
was too long, which it does not expect.  Once everything is loaded no numeral is converted any more.

Main results:

* `LineMachine.Session.run_of_cases`, `LineMachine.Session.run_of_program` — the two kinds of
  session;
* `LineMachine.Session.run_of_listing_fault`, `LineMachine.Session.run_of_cases_fault` — **what a
  session makes of a fault**;
* `LineMachine.Session.runProgram_status_iff`, `LineMachine.Session.runCases_status_iff` — when a
  session crashes for a numeral.
-/

import LineMachine.Proofs.ProgramRuns

set_option relaxedAutoImplicit false
set_option autoImplicit false

namespace LineMachine.Session

variable {files : Files} {arguments : List String} {o : Options} {fuel : Nat} {input : List Char}

/-! ### The two kinds of session -/

theorem run_of_cases {path : String} (hargs : Options.ofArguments arguments = .ok (some o))
    (hcases : casesFile? o = some path) :
    run files arguments fuel input = runCases files o path (Text.unifyNewlines input) := by
  simp only [run, hargs, hcases]

theorem run_of_program (hargs : Options.ofArguments arguments = .ok (some o))
    (hcases : casesFile? o = none) :
    run files arguments fuel input = runProgram files o fuel (Text.unifyNewlines input) := by
  simp only [run, hargs, hcases]

/-! ### Refusals -/

/-- A session that complains before any output has been refused. -/
theorem transcribe_complain (trace : Bool) (message : String) :
    transcribe trace (endEarly (complain message)) = refuse message := rfl

theorem refuseListing_status_iff {f : Listing.Fault} {digits : Nat} (trace : Bool) :
    (transcribe trace (endEarly (refuseListing f))).status = .crashed (.tooLong digits) ↔
      f = .tooLong digits := by
  cases f with
  | tooLong digits' =>
      have hstatus : (transcribe trace (endEarly (refuseListing (.tooLong digits')))).status =
          .crashed (.tooLong digits') := rfl
      simp [hstatus]
  | notANumber file line excerpt => simp [refuseListing, transcribe_complain, refuse]
  | unopened path => simp [refuseListing, transcribe_complain, refuse]

theorem refuseCases_status_iff {f : Case.FileFault} {digits : Nat} (trace : Bool) :
    (transcribe trace (endEarly (refuseCases f))).status = .crashed (.tooLong digits) ↔
      ∃ f', f = .faulty f' ∧ f'.defect = .tooLong digits := by
  cases f with
  | unopened path failure => simp [refuseCases, transcribe_complain, refuse]
  | faulty f =>
      obtain ⟨file, line, defect⟩ := f
      cases defect with
      | tooLong digits' =>
          have hstatus : (transcribe trace (endEarly (refuseCases
              (.faulty ⟨file, line, .tooLong digits'⟩)))).status =
                .crashed (.tooLong digits') := rfl
          simp [hstatus]
      | _ => simp [refuseCases, transcribe_complain, refuse]

theorem refuseListing_of_ne_tooLong {f : Listing.Fault} (h : ∀ digits, f ≠ .tooLong digits) :
    refuseListing f = complain f.message := by
  cases f with
  | tooLong digits => exact absurd rfl (h digits)
  | notANumber file line excerpt => rfl
  | unopened path => rfl

theorem refuseCases_of_ne_tooLong {f : Case.Fault} (h : ∀ digits, f.defect ≠ .tooLong digits) :
    refuseCases (.faulty f) = complain f.message := by
  obtain ⟨file, line, defect⟩ := f
  cases defect with
  | tooLong digits => exact absurd rfl (h digits)
  | _ => rfl

/-- A program that has been loaded does not end with a numeral that is too long. -/
theorem endStatus_ne_tooLong (r : Run) (digits : Nat) :
    endStatus o r ≠ .crashed (.tooLong digits) := by
  obtain ⟨m, n, ending⟩ := r
  cases ending with
  | arrived => simp [endStatus]
  | outOfSteps =>
      unfold endStatus
      cases o.maxSteps with
      | none => simp
      | some limit => simp
  | halted f => cases f <;> simp [endStatus]

/-- **Cases with their log** come to the report of their plain results. -/
theorem observes_runSuiteTraced (s : Suite) (cases : List Case) (input : List Char) :
    (runSuiteTraced s cases input).Observes (reported (s.runAll cases ⟨input, .emptyBytes⟩)) :=
  (s.observes_runAllTraced cases ⟨input, .emptyBytes⟩).bind (.pure _)

theorem transcribe_runSuiteTraced_status (trace : Bool) (s : Suite) (cases : List Case) :
    (transcribe trace (runSuiteTraced s cases input)).status =
      (reported (s.runAll cases ⟨input, .emptyBytes⟩)).1 :=
  congrArg Prod.fst ((observes_runSuiteTraced s cases input).fst_run (.fresh trace))

theorem reported_ne_tooLong (found : Except NoResult (List CaseResult × Streams)) (digits : Nat) :
    (reported found).1 ≠ .crashed (.tooLong digits) := by
  cases found with
  | error e => cases e <;> simp [reported, NoResult.crash]
  | ok found => simp [reported]

/-! ### Sessions with a fault -/

/-- A session that runs a program ends before any output if its file is at fault. -/
theorem runProgram_of_fault {f : Listing.Fault}
    (hpushes : ∃ pushes, o.pushes.mapM Amount.number? = some pushes)
    (hf : Listing.ofFile files o.file = .error f) :
    runProgram files o fuel input = transcribe o.trace (endEarly (refuseListing f)) := by
  obtain ⟨pushes, hpushes⟩ := hpushes
  have hload (m : Machine) : m.loadFileTraced files o.file = return .error f := by
    unfold Machine.loadFileTraced Machine.loadFile
    rw [hf]
    rfl
  unfold runProgram runProgramTraced launch start
  simp only [hpushes, hload]
  rfl

/-- **A fault of the program** ends the session, whether it runs the program or cases. -/
theorem run_of_listing_fault {f : Listing.Fault}
    (hargs : Options.ofArguments arguments = .ok (some o))
    (hpushes : casesFile? o = none → ∃ pushes, o.pushes.mapM Amount.number? = some pushes)
    (hf : Listing.ofFile files o.file = .error f) :
    run files arguments fuel input = transcribe o.trace (endEarly (refuseListing f)) := by
  cases hcases : casesFile? o with
  | some path => rw [run_of_cases hargs hcases, runCases, runCasesTraced, hf]
  | none => rw [run_of_program hargs hcases, runProgram_of_fault (hpushes hcases) hf]

/-- **A fault of the cases** ends the session. -/
theorem run_of_cases_fault {path : String} {program : Listing} {f : Case.FileFault}
    (hargs : Options.ofArguments arguments = .ok (some o)) (hcases : casesFile? o = some path)
    (hprogram : Listing.ofFile files o.file = .ok program)
    (hf : Case.ofFile files path = .error f) :
    run files arguments fuel input = transcribe o.trace (endEarly (refuseCases f)) := by
  rw [run_of_cases hargs hcases]
  simp only [runCases, runCasesTraced, hprogram, hf]

/-- A session that has loaded its program does not end with a numeral that is too long. -/
theorem runProgram_ne_tooLong {program : Listing}
    (hpushes : ∃ pushes, o.pushes.mapM Amount.number? = some pushes)
    (hfile : Listing.ofFile files o.file = .ok program) (digits : Nat) :
    (runProgram files o fuel input).status ≠ .crashed (.tooLong digits) := by
  obtain ⟨pushes, hpushes⟩ := hpushes
  cases hneed : need? o with
  | some n =>
      have hblank : (runProgram files o fuel input).status = .crashed (.blank n) := by
        unfold runProgram runProgramTraced launch
        simp only [hpushes, start_of_ofFile hfile, hneed]
        rfl
      simp [hblank]
  | none =>
      rw [(runProgram_of_launches (launches_of_need hfile hpushes hneed input) fuel).1]
      exact endStatus_ne_tooLong _ digits

/-- A session that runs a program crashes for a numeral only where the program is read. -/
theorem runProgram_status_iff {digits : Nat}
    (hpushes : ∃ pushes, o.pushes.mapM Amount.number? = some pushes) :
    (runProgram files o fuel input).status = .crashed (.tooLong digits) ↔
      Listing.ofFile files o.file = .error (.tooLong digits) := by
  cases hfile : Listing.ofFile files o.file with
  | error f =>
      rw [runProgram_of_fault hpushes hfile, refuseListing_status_iff, Except.error.injEq]
  | ok listing => simp [runProgram_ne_tooLong hpushes hfile digits]

/-- A session that runs cases crashes for a numeral only where the program or the cases are read. -/
theorem runCases_status_iff {path : String} {digits : Nat} :
    (runCases files o path input).status = .crashed (.tooLong digits) ↔
      Listing.ofFile files o.file = .error (.tooLong digits) ∨
        (∃ program, Listing.ofFile files o.file = .ok program) ∧
          ∃ f, Case.ofFile files path = .error (.faulty f) ∧ f.defect = .tooLong digits := by
  unfold runCases runCasesTraced
  cases Listing.ofFile files o.file with
  | error f => simp [refuseListing_status_iff]
  | ok program =>
      cases Case.ofFile files path with
      | error f => simp [refuseCases_status_iff]
      | ok cases =>
          cases hlimit : caseLimit? o cases with
          | none =>
              have hblank : (transcribe o.trace
                  (return (.crashed (.blank .caseLimit), #[]))).status =
                    .crashed (.blank .caseLimit) := rfl
              simp [hlimit, hblank]
          | some limit =>
              simp [hlimit, transcribe_runSuiteTraced_status, reported_ne_tooLong]

end LineMachine.Session
