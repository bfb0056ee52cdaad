/-
**Drivers: the command line and the runner of cases drive the machine alike.**

The command line starts a program on an empty return stack and takes steps until a fault; the
runner of cases puts the sentinel below and takes steps until it is found.  The two machines go in
lock step, the second on top of the sentinel, because nothing but a return looks at the return
stack.  Where the first one fails for want of a return address, the second one returns to the
sentinel; any other fault is the same for both.  So what a case comes to can be told from where
the command line stops, and the other way round.

Main definitions:

* `LineMachine.Suite.Told` — what a case comes to, told from where the command line stops.

Main results:

* `LineMachine.Machine.Rooted.halt_onto` — **a fault on top of the sentinel**;
* `LineMachine.Suite.trial_of_stops`, `LineMachine.Suite.stops_of_ended` — from one loop to the
  other;
* `LineMachine.Suite.drivers_agree` — **the two drivers agree**.
-/

import LineMachine.Proofs.ProgramRuns
import LineMachine.Proofs.Sentinel
import LineMachine.Proofs.StackFrame

set_option relaxedAutoImplicit false
set_option autoImplicit false

namespace LineMachine

/-! ### On top of the sentinel -/

namespace Machine

variable {m m' : Machine} {f : Fault}

/-- **A fault on top of the sentinel.**  Without a return address on the return stack, a fault is
one of executing a cell, and on top of the sentinel it is the same; or it is the return that finds
no address, and on top of the sentinel that is the return to it. -/
theorem Rooted.halt_onto {mem : Memory} (h : m.Rooted mem none) (hstep : m.step = .halt f m') :
    (m.OperandFault f ∧ (m.onto [] [0, 0]).step = .halt f (m'.onto [] [0, 0])) ∨
      (f = m.returnUnderflow ∧ m' = m ∧ (m.onto [] [0, 0]).LeavesTo sentinel) := by
  have hcontrol := m.control_step
  rw [hstep] at hcontrol
  cases hcontrol with
  | @stay c _ hf ho =>
      left
      have hsame : (m.onto [] [0, 0]).memory.fetch (m.onto [] [0, 0]).ip = .cell c := hf
      have hexecute := execute_onto_nil m.advance c.toInt [0, 0]
      simp only [Machine.step, hf] at hstep
      rw [hstep] at hexecute
      refine ⟨(ho.fault f rfl).of_diagnose rfl, ?_⟩
      simp only [Machine.step, hsame]
      exact hexecute
  | strand hf hdepth =>
      right
      obtain ⟨-, hempty⟩ := h.of_strand hdepth
      refine ⟨rfl, by rw [← hempty], hf, ?_⟩
      simp only [onto_nil_eq, hempty]
      decide
  | missing hf => exact absurd hf (Memory.fetch_ne_missing h.col_nonneg)

end Machine

/-! ### From one loop to the other -/

namespace Suite

open Machine

variable {s : Suite} {c : Case} {line : Int} {io : Streams} {n : Nat} {f : Fault} {m' : Machine}

/-- A case finds the machine of the command line, on top of the sentinel. -/
theorem machine_eq_onto (s : Suite) (hstart : c.start = some line) (io : Streams) :
    s.machine c io = (Session.machine s.program s.file line c.inputs io).onto [] [0, 0] := by
  rw [machine_eq, Session.machine_eq, onto_nil_eq, hstart]
  rfl

/-- On the machine of the command line there is never a return address but those of calls. -/
theorem rooted_after (hs : s.program.Fits) (line : Int) (pushes : List Int) (io : Streams)
    (n : Nat) :
    ((Session.machine s.program s.file line pushes io).after n).Rooted
      (Memory.empty.load s.program) none := by
  have hbuilt : (Memory.empty.load s.program).Built := .load .empty s.program
  have hfits := Memory.fits_load hs
  refine after_induction (P := (·.Rooted (Memory.empty.load s.program) none)) ?_ ?_ n
  · rw [Session.machine_eq]
    exact Rooted.start (m := { Machine.fresh io.input io.output with
      data := .ofList (pushes.map Cell.wrap), memory := Memory.empty.load s.program,
      file := s.file }) rfl rfl line
  · intro m h
    rcases h.step hbuilt hfits with ⟨hstep, -⟩ | ⟨p, hp, -⟩
    · exact hstep
    · cases hp

/-- No step changes the name of the file. -/
theorem file_after (m : Machine) (n : Nat) : (m.after n).file = m.file := by
  refine after_induction (P := fun m' => m'.file = m.file) rfl ?_ n
  intro m' h
  have hcontrol := m'.control_step
  generalize m'.step = o at hcontrol ⊢
  cases hcontrol with
  | stay hf ho => exact ho.file.trans h
  | wrap | call | comeBack | strand | missing => exact h

/-- Steps of the command line that complete are steps of the case, away from the sentinel. -/
theorem meets_onto (hs : s.Admits c) (hstart : c.start = some line) {m : Machine}
    (h : steps n (Session.machine s.program s.file line c.inputs io) = .next m) :
    s.Meets c io n (m.onto [] [0, 0]) ∧ (m.onto [] [0, 0]).isAt sentinel = false := by
  have hsame : steps n (s.machine c io) = .next (m.onto [] [0, 0]) := by
    rw [machine_eq_onto s hstart]
    exact steps_onto h [] [0, 0]
  have hmeets := meets_of_steps hs hsame
  refine ⟨hmeets, Bool.eq_false_iff.2 fun hstop => ?_⟩
  -- at the sentinel nothing would be left on the return stack
  obtain ⟨-, -, -, -, -, -, hempty⟩ := hmeets.left hs (isAt_iff.1 hstop)
  simp [onto, Stack.onto, Stack.empty] at hempty

/-- **The loop of a case, told from where the command line stops.**  It finds the sentinel where
the command line fails for want of a return address, and ends in the same fault otherwise. -/
theorem trial_of_stops (hs : s.Admits c) (hstart : c.start = some line)
    (hstops : (Session.machine s.program s.file line c.inputs io).Stops n f m')
    (hlimit : (n : Int) < s.maxSteps) :
    ((∃ m : Machine, m.OperandFault f) ∧
        s.trial c io = ⟨m'.onto [] [0, 0], n, .halted f⟩) ∨
      (f = .underflow ⟨"return stack underflow", s.file, some m'.ip.line⟩ ∧
        s.trial c io = ⟨{ m' with ret := .empty, ip := sentinel }, n + 1, .arrived⟩) := by
  obtain ⟨m, hsteps, hstep⟩ := stops_iff.1 hstops
  obtain ⟨hmeets, hstop⟩ := meets_onto hs hstart hsteps
  have hrooted : m.Rooted (Memory.empty.load s.program) none := by
    rw [← after_of_steps hsteps]
    exact rooted_after hs.program line c.inputs io n
  rcases hrooted.halt_onto hstep with ⟨hfault, hhalt⟩ | ⟨hf, hm, hleave⟩
  · left
    exact ⟨⟨m, hfault⟩, runUntil_eq_iff.2 (.halted hmeets (by omega) hstop hhalt)⟩
  · right
    subst hm
    have hfile : m'.file = s.file := by
      rw [← after_of_steps hsteps, file_after, Session.machine_eq]
    have hreturn : s.Meets c io (n + 1) { m' with ret := .empty, ip := sentinel } := by
      refine hmeets.step hstop ?_
      rw [hleave.step, onto_nil_eq]
    refine ⟨?_, runUntil_eq_iff.2 (.arrived hreturn (by omega) (isAt_iff.2 rfl))⟩
    rw [hf, returnUnderflow, diagnose, hfile]

/-- If the loop of a case ends within its limit, the command line stops within it. -/
theorem stops_of_ended (hs : s.Admits c) (hstart : c.start = some line)
    (hended : (s.trial c io).ending ≠ .outOfSteps) :
    ∃ n f m', (Session.machine s.program s.file line c.inputs io).Stops n f m' ∧
      (n : Int) < s.maxSteps := by
  have htrial := s.runsTo_trial c io
  generalize s.trial c io = trial at htrial hended
  cases htrial with
  | outOfSteps => exact absurd rfl hended
  | @arrived n m hmeets hlimit hstop =>
      rcases steps_or_stops n (Session.machine s.program s.file line c.inputs io) with
        ⟨m₁, hsteps⟩ | ⟨k, hk, f, m₁, hstops⟩
      · -- the case would not be at the sentinel after as many steps
        obtain ⟨hsame, haway⟩ := meets_onto hs hstart hsteps
        have heq := hsame.steps.symm.trans (Visits.steps hmeets)
        cases heq
        rw [haway] at hstop
        cases hstop
      · exact ⟨k, f, m₁, hstops, by omega⟩
  | @halted n m₁ m₂ f hmeets hlimit hstop hstep =>
      rcases steps_or_stops (n + 1) (Session.machine s.program s.file line c.inputs io) with
        ⟨m₃, hsteps⟩ | ⟨k, hk, f, m₃, hstops⟩
      · -- the case would complete the step that the fault interrupts
        have hsame := (meets_onto hs hstart hsteps).1.steps
        rw [steps_add (Visits.steps hmeets), steps_succ_halt hstep] at hsame
        cases hsame
      · exact ⟨k, f, m₃, hstops, by omega⟩

/-- The result of a case with what it leaves of the streams, and the machine that the command line
leaves: the same data stack, output and unread input. -/
def Matches (r : CaseResult) (io : Streams) (m : Machine) : Prop :=
  r.stack = m.data.toList ∧ io = ⟨m.input, m.output⟩

/-- **What a case comes to**, told from where the command line stops. -/
inductive Told (s : Suite) (m : Machine) (r : CaseResult) (io : Streams) : Prop where
  | returned {n : Nat} {m' : Machine}
      (hstops : m.Stops n (.underflow ⟨"return stack underflow", s.file, some m'.ip.line⟩) m')
      (hverdict : r.verdict = .passed ∨ r.verdict = .unexpected) (hsteps : r.steps = n + 1)
      (hmatches : Matches r io m')
  | failed {f : Fault} {d : Diagnosis} {m' : Machine} (hstops : m.Stops r.steps f m')
      (hf : f = .underflow d ∨ f = .divisionByZero d) (hwhat : d.what ≠ "return stack underflow")
      (hverdict : r.verdict = .failed d) (hmatches : Matches r io m')
  | exited {status : Cell} {m' : Machine} (hstops : m.Stops r.steps (.exit status) m')
      (hverdict : r.verdict = .exited status) (hmatches : Matches r io m')
  | noReturn (hnever : ∀ n f m', m.Stops n f m' → s.maxSteps ≤ n)
      (hverdict : r.verdict = .noReturn)

theorem what_ne_of_operandFault {m : Machine} {d : Diagnosis} (h : m.OperandFault f)
    (hd : f = .underflow d ∨ f = .divisionByZero d) : d.what ≠ "return stack underflow" := by
  intro hwhat
  have hmem : d.what ∈ operandTexts := by
    refine OperandFault.what_mem (m := m) ?_
    rcases hd with rfl | rfl
    · exact .inl h
    · exact .inr h
  rw [hwhat] at hmem
  exact absurd hmem (by decide)

theorem told_of_stops (hs : s.Admits c) (hstart : c.start = some line)
    (hstops : (Session.machine s.program s.file line c.inputs io).Stops n f m')
    (hlimit : (n : Int) < s.maxSteps) :
    ∃ r : CaseResult, s.run c io = r.stated ∧ r.case = c ∧
      s.Told (Session.machine s.program s.file line c.inputs io) r (s.streamsAfter c io) := by
  unfold run streamsAfter
  rcases trial_of_stops hs hstart hstops hlimit with ⟨⟨m, hfault⟩, htrial⟩ | ⟨hf, htrial⟩
  · rw [htrial, onto_nil_eq]
    cases f with
    | missingCell => cases hfault
    | underflow d =>
        have hwhat := what_ne_of_operandFault hfault (.inl rfl)
        exact ⟨⟨c, .failed d, m'.data.toList, n⟩, rfl, rfl,
          .failed hstops (.inl rfl) hwhat rfl ⟨rfl, rfl⟩⟩
    | divisionByZero d =>
        have hwhat := what_ne_of_operandFault hfault (.inr rfl)
        exact ⟨⟨c, .failed d, m'.data.toList, n⟩, rfl, rfl,
          .failed hstops (.inr rfl) hwhat rfl ⟨rfl, rfl⟩⟩
    | exit status =>
        exact ⟨⟨c, .exited status, m'.data.toList, n⟩, rfl, rfl,
          .exited hstops rfl ⟨rfl, rfl⟩⟩
  · subst hf
    rw [htrial]
    refine ⟨_, rfl, rfl, .returned hstops ?_ rfl ⟨rfl, rfl⟩⟩
    dsimp only
    split
    · exact .inl rfl
    · exact .inr rfl

theorem exists_told (hs : s.Admits c) (hstart : c.start = some line) (io : Streams) :
    ∃ r : CaseResult, s.run c io = r.stated ∧ r.case = c ∧
      s.Told (Session.machine s.program s.file line c.inputs io) r (s.streamsAfter c io) := by
  by_cases hended : (s.trial c io).ending = .outOfSteps
  · have hrun : s.run c io = CaseResult.stated
        ⟨c, .noReturn, (s.trial c io).machine.data.toList, (s.trial c io).steps⟩ := by
      simp only [run, CaseResult.ofRun, hended]
      rfl
    refine ⟨_, hrun, rfl, .noReturn (fun n f m' hstops => ?_) rfl⟩
    refine Int.not_lt.1 fun hlimit => ?_
    rcases trial_of_stops hs hstart hstops hlimit with ⟨-, htrial⟩ | ⟨-, htrial⟩
    · rw [htrial] at hended
      cases hended
    · rw [htrial] at hended
      cases hended
  · obtain ⟨n, f, m', hstops, hlimit⟩ := stops_of_ended hs hstart hended
    exact told_of_stops hs hstart hstops hlimit

namespace Told

variable {m : Machine} {r : CaseResult} {k : Nat}

/-- The case returns after so many steps exactly if the command line fails one step before, for
want of a return address. -/
theorem returned_iff (h : s.Told m r io) (hlimit : r.verdict = .noReturn → (k : Int) < s.maxSteps) :
    (r.verdict = .passed ∨ r.verdict = .unexpected) ∧ r.steps = k ↔
      ∃ n m', k = n + 1 ∧
        m.Stops n (.underflow ⟨"return stack underflow", s.file, some m'.ip.line⟩) m' := by
  constructor
  · rintro ⟨hreturned, rfl⟩
    cases h with
    | returned hstops _ hsteps _ => exact ⟨_, _, hsteps, hstops⟩
    | failed _ _ _ hverdict _ | exited _ hverdict _ | noReturn _ hverdict =>
        simp [hverdict] at hreturned
  · rintro ⟨n, m', rfl, hstops'⟩
    cases h with
    | returned hstops hverdict hsteps _ =>
        obtain ⟨rfl, -, -⟩ := hstops.unique hstops'
        exact ⟨hverdict, hsteps⟩
    | failed hstops hf hwhat _ _ =>
        obtain ⟨-, rfl, -⟩ := hstops.unique hstops'
        rcases hf with hf | hf
        · cases hf
          exact absurd rfl hwhat
        · cases hf
    | exited hstops _ _ =>
        obtain ⟨-, hf, -⟩ := hstops.unique hstops'
        cases hf
    | noReturn hnever hverdict =>
        have hle := hnever _ _ _ hstops'
        have hlt := hlimit hverdict
        omega

/-- The case fails with a message exactly if the command line stops with it, unless that is for want
of a return address. -/
theorem failed_iff (h : s.Told m r io) (hlimit : r.verdict = .noReturn → (k : Int) < s.maxSteps)
    (message : String) :
    (∃ d, r.verdict = .failed d ∧ r.reason = message ∧ r.steps = k) ↔
      ∃ f d m', m.Stops k f m' ∧ (f = .underflow d ∨ f = .divisionByZero d) ∧
        f.message = message ∧ d.what ≠ "return stack underflow" := by
  constructor
  · rintro ⟨d, hfailed, rfl, rfl⟩
    cases h with
    | @failed f d' m' hstops hf hwhat hverdict _ =>
        obtain rfl : d' = d := by simpa [hverdict] using hfailed
        refine ⟨f, d', m', hstops, hf, ?_, hwhat⟩
        rcases hf with rfl | rfl
        · simp [CaseResult.reason, hverdict, Fault.message]
        · simp [CaseResult.reason, hverdict, Fault.message]
    | returned _ hverdict _ _ =>
        rcases hverdict with hverdict | hverdict
        · simp [hverdict] at hfailed
        · simp [hverdict] at hfailed
    | exited _ hverdict _ | noReturn _ hverdict => simp [hverdict] at hfailed
  · rintro ⟨f, d, m', hstops', hd, rfl, hne⟩
    cases h with
    | returned hstops _ _ _ =>
        obtain ⟨-, rfl, -⟩ := hstops.unique hstops'
        rcases hd with hd | hd
        · cases hd
          exact absurd rfl hne
        · cases hd
    | @failed f' d' m₁ hstops hf hwhat hverdict _ =>
        obtain ⟨hk, rfl, -⟩ := hstops.unique hstops'
        refine ⟨d', hverdict, ?_, hk⟩
        rcases hf with rfl | rfl
        · simp [CaseResult.reason, hverdict, Fault.message]
        · simp [CaseResult.reason, hverdict, Fault.message]
    | exited hstops _ _ =>
        obtain ⟨-, rfl, -⟩ := hstops.unique hstops'
        rcases hd with hd | hd
        · cases hd
        · cases hd
    | noReturn hnever hverdict =>
        have hle := hnever _ _ _ hstops'
        have hlt := hlimit hverdict
        omega

/-- The case tells of an exit exactly if the command line exits. -/
theorem exited_iff (h : s.Told m r io) (hlimit : r.verdict = .noReturn → (k : Int) < s.maxSteps)
    (status : Cell) :
    r.verdict = .exited status ∧ r.steps = k ↔ ∃ m', m.Stops k (.exit status) m' := by
  constructor
  · rintro ⟨hexited, rfl⟩
    cases h with
    | @exited status' m' hstops hverdict _ =>
        obtain rfl : status' = status := by simpa [hverdict] using hexited
        exact ⟨m', hstops⟩
    | returned _ hverdict _ _ =>
        rcases hverdict with hverdict | hverdict
        · simp [hverdict] at hexited
        · simp [hverdict] at hexited
    | failed _ _ _ hverdict _ | noReturn _ hverdict => simp [hverdict] at hexited
  · rintro ⟨m', hstops'⟩
    cases h with
    | returned hstops _ _ _ =>
        obtain ⟨-, hf, -⟩ := hstops.unique hstops'
        cases hf
    | failed hstops hf _ _ _ =>
        obtain ⟨-, rfl, -⟩ := hstops.unique hstops'
        rcases hf with hf | hf
        · cases hf
        · cases hf
    | exited hstops hverdict _ =>
        obtain ⟨hk, hf, -⟩ := hstops.unique hstops'
        cases hf
        exact ⟨hverdict, hk⟩
    | noReturn hnever hverdict =>
        have hle := hnever _ _ _ hstops'
        have hlt := hlimit hverdict
        omega

/-- What both leave is the same. -/
theorem matches_of_stops (h : s.Told m r io) (hended : r.verdict ≠ .noReturn)
    (hstops' : m.Stops n f m') : Matches r io m' := by
  cases h with
  | returned hstops _ _ hmatches | failed hstops _ _ _ hmatches | exited hstops _ hmatches =>
      obtain ⟨-, -, rfl⟩ := hstops.unique hstops'
      exact hmatches
  | noReturn _ hverdict => exact absurd hverdict hended

end Told

/-- What is said of want of a return address. -/
theorem message_returnUnderflow (file : String) (line : Int) :
    (Fault.underflow ⟨"return stack underflow", file, some line⟩).message =
      file ++ "(" ++ toString line ++ "): return stack underflow" := by
  have htexts : "): " ++ "return stack underflow" = "): return stack underflow" := by decide
  change file ++ "(" ++ toString line ++ "): " ++ "return stack underflow" =
    file ++ "(" ++ toString line ++ "): return stack underflow"
  rw [String.append_assoc, htexts]

/-- **The two drivers agree.**  The command line launches the program at a line, with numbers pushed
and no step limit; a case calls the same line with the same inputs, under a limit that is not
reached, or not before the number of steps that is looked at.  The case returns where the command
line fails for want of a return address, one step later; it fails with the same message, or exits
with the same status, after as many steps otherwise.  Both leave the same data stack, output and
unread input.  The case states what it has come to if it can write what it expected. -/
theorem drivers_agree {s : Suite} {c : Case} {line : Int} (hprogram : s.program.Fits)
    (hstart : c.start = some line) (hline : firstLine ≤ line) (io : Streams) :
    (∀ (files : Files) (o : Options), o.file = s.file →
      Listing.ofFile files o.file = .ok s.program → o.start = .number line →
      o.pushes = c.inputs.map .number → o.maxSteps = none →
      ∀ j, (Session.launch files o io.input).run j =
        (.ok (s.program, Session.machine s.program s.file line c.inputs ⟨io.input, .emptyBytes⟩),
          j.log (.loaded s.file s.program.length))) ∧
    ∃ r : CaseResult, s.run c io = r.stated ∧ (c.IsWritable → s.run c io = .ok r) ∧
      ∀ k : Nat, (r.verdict = .noReturn → (k : Int) < s.maxSteps) →
        let m := Session.machine s.program s.file line c.inputs io
        ((r.verdict = .passed ∨ r.verdict = .unexpected) ∧ r.steps = k ↔
          ∃ n f m', k = n + 1 ∧ m.Stops n f m' ∧
            f = .underflow ⟨"return stack underflow", s.file, some m'.ip.line⟩ ∧
            f.message = s.file ++ "(" ++ toString m'.ip.line ++ "): return stack underflow") ∧
        (∀ message, (∃ d, r.verdict = .failed d ∧ r.reason = message ∧ r.steps = k) ↔
          ∃ f d m', m.Stops k f m' ∧ (f = .underflow d ∨ f = .divisionByZero d) ∧
            f.message = message ∧ d.what ≠ "return stack underflow") ∧
        (∀ status, r.verdict = .exited status ∧ r.steps = k ↔ ∃ m', m.Stops k (.exit status) m') ∧
        (r.verdict ≠ .noReturn → ∀ n f m', m.Stops n f m' →
          r.stack = m'.data.toList ∧ s.streamsAfter c io = ⟨m'.input, m'.output⟩) := by
  constructor
  · intro files o hfile hload hnumber hpushes hlimit j
    rw [Session.launches_machine hload hnumber hpushes (by simp [hlimit]) io.input j, hfile]
  · have hs : s.Admits c := by
      refine ⟨hprogram, fun line' hline' => ?_⟩
      rw [hstart] at hline'
      cases hline'
      exact hline
    obtain ⟨r, hrun, hcase, htold⟩ := exists_told hs hstart io
    refine ⟨r, hrun, fun hwritable => ?_, fun k hlimit => ⟨?_, ?_, ?_, ?_⟩⟩
    · exact hrun.trans (CaseResult.stated_of_isWritable (hcase ▸ hwritable))
    · rw [htold.returned_iff hlimit]
      constructor
      · rintro ⟨n, m', hk, hstops⟩
        exact ⟨n, _, m', hk, hstops, rfl, message_returnUnderflow s.file m'.ip.line⟩
      · rintro ⟨n, f, m', hk, hstops, rfl, -⟩
        exact ⟨n, m', hk, hstops⟩
    · intro message
      exact htold.failed_iff hlimit message
    · intro status
      exact htold.exited_iff hlimit status
    · intro hended n f m' hstops
      exact htold.matches_of_stops hended hstops

/-- A line that writes the first character it reads: as a case it returns after five steps, and the
command line fails after four. -/
theorem drivers_agree_on_echo :
    ∃ (s : Suite) (c : Case) (r : CaseResult) (m' : Machine), s.program = [⟨22, [15, 42, 14, 42]⟩] ∧
      c.start = some 22 ∧ c.inputs = [7] ∧ s.run c ⟨['A', 'B'], .emptyText⟩ = .ok r ∧ r.passed ∧
      r.steps = 5 ∧
      (Session.machine s.program s.file 22 c.inputs ⟨['A', 'B'], .emptyText⟩).Stops 4
        (.underflow ⟨"return stack underflow", s.file, some m'.ip.line⟩) m' ∧
      m'.data.toList = [7] ∧ m'.input = ['B'] ∧ m'.output = .text "A" := by
  let s : Suite := ⟨[⟨22, [15, 42, 14, 42]⟩], "p", 6⟩
  let c : Case := ⟨"echo", some 22, [7], [7]⟩
  let io : Streams := ⟨['A', 'B'], .emptyText⟩
  have hprogram : s.program.Fits := ⟨by decide, by decide, by decide⟩
  have htrial : s.trial c io = ⟨(s.trial c io).machine, 5, .arrived⟩ := by decide +kernel
  have hstack : (s.trial c io).machine.data.toList = [7] := by decide +kernel
  have hafter : s.streamsAfter c io = ⟨['B'], .text "A"⟩ := by decide +kernel
  have hresult : s.run c io = .ok ⟨c, .passed, [7], 5⟩ := by
    rw [run, htrial, ← hstack]
    simp only [CaseResult.ofRun, hstack]
    rfl
  have hstart : c.start = some 22 := rfl
  obtain ⟨-, r, -, hrun, hagree⟩ := drivers_agree hprogram hstart (by decide) io
  obtain rfl : r = ⟨c, .passed, [7], 5⟩ := by
    rw [hresult] at hrun
    exact (Except.ok.inj (hrun (by decide +kernel))).symm
  obtain ⟨hreturned, -, -, hsame⟩ := hagree 5 (by simp)
  obtain ⟨n, -, m', hn, hstops, rfl, -⟩ := hreturned.1 ⟨.inl rfl, rfl⟩
  obtain rfl : n = 4 := by omega
  obtain ⟨hdata, hstreams⟩ := hsame (by simp) _ _ _ hstops
  rw [hafter, Streams.mk.injEq] at hstreams
  obtain ⟨hinput, houtput⟩ := hstreams
  exact ⟨s, c, _, m', rfl, rfl, rfl, hresult, rfl, rfl, hstops, hdata.symm, hinput.symm,
    houtput.symm⟩

end Suite

end LineMachine
