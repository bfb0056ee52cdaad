/-
**Tracing: a log observes a session and has no part in it.**

With the option to trace, a session writes a log beside its output.  The option does not change what
is computed, only how important a record must be to be written.  So it is enough that no part of a
session depends on its journal.  A step only logs, whatever it does, and so do a run and several
cases; the beginning and the end of a session also complain.  Put together from them, a session that
is not traced comes to the same as one that is, and what it writes beside the output differs by the
lines of the log only.

Main definitions:

* `LineMachine.Options.traced`, `LineMachine.Transcript.silent` — options that trace or do not, and
  a transcript without its log.

Main results:

* `LineMachine.Options.ofArguments_trace` — the option to trace, in front of any arguments;
* `LineMachine.Session.transcribe_silent` — **a session that does not depend on its log** is the
  same without it;
* `LineMachine.Session.indifferent_runProgramTraced`,
  `LineMachine.Session.indifferent_runCasesTraced` — both kinds of session are such;
* `LineMachine.Session.trace_observes` — **tracing only observes**.
-/

import LineMachine.Proofs.Erasure
import LineMachine.Proofs.Refusals

set_option relaxedAutoImplicit false
set_option autoImplicit false

namespace LineMachine

/-! ### The option to trace -/

/-- The same options with the log asked for, or not. -/
def Options.traced (o : Options) (trace : Bool) : Options := { o with trace := trace }

namespace Options

/-- What has been read of the arguments, with the log asked for. -/
def Draft.traced (d : Draft) : Draft := { d with settings.trace := true }

theorem Draft.set_traced (d : Draft) (s : Setting) (text : String) :
    d.traced.set s text = (d.set s text).map Draft.traced := by
  cases s with
  | test => rfl
  | start | push | maxSteps =>
      simp only [set]
      cases amount _ text with
      | error p => rfl
      | ok a => rfl

/-- What is read of other arguments has no part in whether the log is asked for. -/
theorem read_traced (d : Draft) (arguments : List Argument) :
    read d.traced arguments = (read d arguments).map (Option.map Draft.traced) := by
  have hfile (d : Draft) : d.traced.file = d.file := rfl
  fun_induction read d arguments with
  | case1 | case3 | case4 | case8 => rfl
  | case2 d text rest ih => exact ih
  | case5 d behind rest v hv | case6 d behind rest hv =>
      simp only [read, hv]
      rfl
  | case7 d rest ih => exact ih
  | case9 d s v rest p hset | case11 d s v rest p hset =>
      simp only [read, Draft.set_traced, hset]
      rfl
  | case10 d s v rest d' hset ih | case12 d s v rest d' hset ih =>
      simp only [read, Draft.set_traced, hset]
      exact ih
  | case13 =>
      simp only [read]
      rfl
  | case14 d text rest hnone ih | case18 d text rest hnone ih =>
      simp only [read, hfile, hnone]
      exact ih
  | case15 d text rest other hsome ih | case19 d text rest other hsome ih =>
      simp only [read, hfile, hsome]
      exact ih
  | case16 d text rest _ hnone ih =>
      simp only [read, hfile, hnone]
      exact ih
  | case17 d text rest _ other hsome ih =>
      simp only [read, hfile, hsome]
      exact ih
  | case20 d rest _ ih =>
      simp only [read]
      exact ih

theorem ofDraft_traced (d : Draft) : ofDraft d.traced = (ofDraft d).map (·.traced true) := by
  obtain ⟨settings, file, extras⟩ := d
  cases file with
  | none => rfl
  | some file => cases extras <;> rfl

/-- **The option to trace, in front of any arguments**, asks for the log and for nothing else. -/
theorem ofArguments_trace (arguments : List String) :
    ofArguments ("--trace" :: arguments) =
      (ofArguments arguments).map (Option.map (·.traced true)) := by
  have hstrings : Argument.ofStrings ("--trace" :: arguments) =
      (Argument.ofStrings arguments).map (.flag .trace none :: ·) := by
    have hflag : Argument.ofString "--trace" = .ok (.flag .trace none) := rfl
    simp only [Argument.ofStrings, hflag]
    cases Argument.ofStrings arguments <;> rfl
  unfold ofArguments
  rw [hstrings]
  cases Argument.ofStrings arguments with
  | error p => rfl
  | ok arguments =>
      have hread := read_traced ⟨.default, none, []⟩ arguments
      have hflag : read ⟨.default, none, []⟩ (.flag .trace none :: arguments) =
          (read ⟨.default, none, []⟩ arguments).map (Option.map Draft.traced) := hread
      simp only [Except.map, bind, Except.bind, hflag]
      cases read ⟨.default, none, []⟩ arguments with
      | error p => rfl
      | ok found =>
          cases found with
          | none => rfl
          | some d =>
              simp only [Option.map_some, ofDraft_traced]
              cases ofDraft d <;> rfl

end Options

/-! ### Transcripts without their log -/

/-- A transcript with the lines of the log taken out. -/
def Transcript.silent (t : Transcript) : Transcript :=
  { t with notices := t.notices.filter fun n => !n.isRecord }

namespace Transcript

theorem isRecord_of_mem_silent (t : Transcript) {n : Notice} (h : n ∈ t.silent.notices) :
    n.isRecord = false := by
  simpa using (List.mem_filter.1 h).2

/-- There is nothing more to be taken out. -/
theorem silent_silent (t : Transcript) : t.silent.silent = t.silent := by
  simp [silent]

end Transcript

namespace Session

open Logging

variable {files : Files} {o : Options} {fuel : Nat} {input : List Char}

/-- **A session that does not depend on its log** comes to the same without it. -/
theorem transcribe_silent {session : Logging (Status × Array UInt8)} (h : session.Indifferent)
    (trace : Bool) : (transcribe trace session).silent = transcribe false session := by
  have htraced : transcribe false session = (transcribe true session).silent := by
    unfold transcribe
    rw [Journal.fresh_false, h]
    obtain ⟨⟨status, stdout⟩, j⟩ := session.run (.fresh true)
    simp [Journal.silent, Transcript.silent]
  cases trace with
  | false => rw [htraced, Transcript.silent_silent]
  | true => exact htraced.symm

/-! ### Sessions do not depend on their log -/

theorem indifferent_complain (message : String) : (complain message).Indifferent :=
  (Indifferent.say _).bind fun _ => .pure _

theorem indifferent_endEarly {status : Logging Status} (h : status.Indifferent) :
    (endEarly status).Indifferent :=
  h.bind fun _ => .pure _

theorem indifferent_refuseListing (f : Listing.Fault) : (refuseListing f).Indifferent := by
  cases f with
  | tooLong digits => exact .pure _
  | notANumber file line excerpt => exact indifferent_complain _
  | unopened path => exact indifferent_complain _

theorem indifferent_refuseCases (f : Case.FileFault) : (refuseCases f).Indifferent := by
  cases f with
  | unopened path failure => exact indifferent_complain _
  | faulty f =>
      obtain ⟨file, line, defect⟩ := f
      cases defect with
      | tooLong digits => exact .pure _
      | _ => exact indifferent_complain _

/-- To begin a program does not depend on the log. -/
theorem indifferent_launch : (launch files o input).Indifferent := by
  unfold launch
  cases o.pushes.mapM Amount.number? with
  | none => exact .pure _
  | some pushes =>
      refine (Machine.observes_loadFileTraced _ files o.file).indifferent.bind fun loaded => ?_
      cases loaded with
      | error f => exact (indifferent_refuseListing f).bind fun _ => .pure _
      | ok loaded =>
          dsimp only
          cases need? o with
          | none => exact .pure _
          | some n => exact .pure _

/-- To end a program does not depend on the log. -/
theorem indifferent_conclude (r : Run) : (conclude o r).Indifferent := by
  obtain ⟨m, n, ending⟩ := r
  cases ending with
  | arrived => exact .pure _
  | outOfSteps =>
      unfold conclude
      dsimp only
      cases o.maxSteps with
      | none => exact .pure _
      | some limit => exact (Observes.log_bind _ (.pure _)).indifferent
  | halted f =>
      cases f with
      | exit status => exact .pure _
      | missingCell => exact .pure _
      | underflow d | divisionByZero d => exact indifferent_complain _

/-- The steps of a program do not depend on the log. -/
theorem indifferent_playTraced (m : Machine) : (playTraced o fuel m).Indifferent :=
  (Machine.observes_runUntilTraced never _ m).indifferent.bind fun r =>
    (indifferent_conclude r).bind fun _ => .pure _

/-- **A session that runs a program does not depend on its log.** -/
theorem indifferent_runProgramTraced : (runProgramTraced files o fuel input).Indifferent := by
  refine indifferent_launch.bind fun launched => ?_
  cases launched with
  | error status => exact .pure _
  | ok launched => exact indifferent_playTraced launched.2

/-- **A session that runs cases does not depend on its log.** -/
theorem indifferent_runCasesTraced (path : String) :
    (runCasesTraced files o path input).Indifferent := by
  unfold runCasesTraced
  cases Listing.ofFile files o.file with
  | error f => exact indifferent_endEarly (indifferent_refuseListing f)
  | ok program =>
      dsimp only
      cases Case.ofFile files path with
      | error f => exact indifferent_endEarly (indifferent_refuseCases f)
      | ok cases =>
          dsimp only
          cases caseLimit? o cases with
          | none => exact .pure _
          | some limit => exact (observes_runSuiteTraced _ cases input).indifferent

/-! ### Tracing only observes -/

/-- **A program that is run without a log** comes to the same with its log taken out. -/
theorem runProgram_untraced :
    runProgram files (o.traced false) fuel input = (runProgram files o fuel input).silent :=
  (transcribe_silent indifferent_runProgramTraced o.trace).symm

/-- **Cases that are run without a log** come to the same with their log taken out. -/
theorem runCases_untraced (path : String) :
    runCases files (o.traced false) path input = (runCases files o path input).silent :=
  (transcribe_silent (indifferent_runCasesTraced path) o.trace).symm

/-- **A session without a log** comes to the same as the session with its log taken out. -/
theorem run_untraced {arguments arguments' : List String}
    (h : Options.ofArguments arguments = .ok (some (o.traced false)))
    (h' : Options.ofArguments arguments' = .ok (some o)) :
    run files arguments fuel input = (run files arguments' fuel input).silent := by
  have hcases : casesFile? (o.traced false) = casesFile? o := rfl
  cases hpath : casesFile? o with
  | some path =>
      rw [run_of_cases h (hcases.trans hpath), run_of_cases h' hpath, runCases_untraced]
  | none =>
      rw [run_of_program h (hcases.trans hpath), run_of_program h' hpath, runProgram_untraced]

/-- Arguments that trace already, or that ask for nothing to be run, come to the same with the
option to trace in front of them. -/
theorem run_trace_of_traced {arguments : List String}
    (h : ∀ o, Options.ofArguments arguments = .ok (some o) → o.trace = true) :
    run files ("--trace" :: arguments) fuel input = run files arguments fuel input := by
  have hargs : Options.ofArguments ("--trace" :: arguments) = Options.ofArguments arguments := by
    rw [Options.ofArguments_trace]
    match hread : Options.ofArguments arguments with
    | .error p | .ok none => rfl
    | .ok (some o) =>
        have htrace : o.traced true = o := by
          rw [Options.traced, ← h o hread]
        simp only [Except.map, Option.map_some, htrace]
  unfold run
  rw [hargs]

/-- **Arguments that do not trace** come to the same as with the option to trace in front of them,
with its log taken out. -/
theorem run_of_not_traced {arguments : List String}
    (h : Options.ofArguments arguments = .ok (some o)) (htrace : o.trace = false) :
    run files arguments fuel input = (run files ("--trace" :: arguments) fuel input).silent := by
  have h' : Options.ofArguments ("--trace" :: arguments) = .ok (some (o.traced true)) := by
    rw [Options.ofArguments_trace, h]
    rfl
  have hback : (o.traced true).traced false = o := by
    rw [Options.traced, Options.traced, ← htrace]
  exact run_untraced (hback.symm ▸ h) h'

/-- **Tracing only observes.**  With the option to trace in front of its arguments a session comes
to the same status and writes the same bytes to the standard output, and beside it the same text
once the lines of the log are taken out.  Without the option there are none, and with arguments that
already trace or ask for nothing to be run the option makes no difference at all. -/
theorem trace_observes (files : Files) (arguments : List String) (fuel : Nat)
    (input : List Char) :
    let t := run files arguments fuel input
    let t' := run files ("--trace" :: arguments) fuel input
    t'.status = t.status ∧ t'.stdout = t.stdout ∧ t'.silent.stderr = t.silent.stderr ∧
    (∀ o, Options.ofArguments arguments = .ok (some o) → o.trace = false →
      t.stderr = t'.silent.stderr ∧ ∀ n ∈ t.notices, n.isRecord = false) ∧
    ((∀ o, Options.ofArguments arguments = .ok (some o) → o.trace = true) → t' = t) := by
  intro t t'
  by_cases hsame : ∀ o, Options.ofArguments arguments = .ok (some o) → o.trace = true
  · have heq : t' = t := run_trace_of_traced hsame
    refine ⟨by rw [heq], by rw [heq], by rw [heq], ?_, fun _ => heq⟩
    intro o ho hfalse
    rw [hsame o ho] at hfalse
    cases hfalse
  · obtain ⟨o, hargs, hfalse⟩ :
        ∃ o, Options.ofArguments arguments = .ok (some o) ∧ o.trace = false := by
      simpa using hsame
    have heq : t = t'.silent := run_of_not_traced hargs hfalse
    refine ⟨by rw [heq]; rfl, by rw [heq]; rfl, by rw [heq, t'.silent_silent], ?_, ?_⟩
    · intro _ _ _
      exact ⟨by rw [heq], heq ▸ fun n hn => t'.isRecord_of_mem_silent hn⟩
    · intro htrue
      exact absurd htrue hsame

/-- The log of a program that calls a line, which stops it, and a request for help. -/
theorem trace_observes_call_and_exit :
    let files : Files := fun _ => .ok (List.replicate 20 '\n' ++ "1 22 42\n16 42".toList)
    (run files ["p"] 9 []).stderr = (run files ["--trace", "p"] 9 []).silent.stderr ∧
      (run files ["--trace", "p"] 9 []).status = .code 1 ∧
      (run files ["--trace", "p"] 9 []).notices.length = 3 ∧
      run files ["--trace", "-h"] 9 [] = run files ["-h"] 9 [] := by
  intro files
  have hargs : Options.ofArguments ["p"] = .ok (some { Settings.default with file := "p" }) := rfl
  have hhelp : Options.ofArguments ["-h"] = .ok none := rfl
  refine ⟨((trace_observes files ["p"] 9 []).2.2.2.1 _ hargs rfl).1, by decide +kernel,
    by decide +kernel, (trace_observes files ["-h"] 9 []).2.2.2.2 ?_⟩
  intro o ho
  rw [hhelp] at ho
  cases ho

end Session

end LineMachine
