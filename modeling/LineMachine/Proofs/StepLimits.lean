/-
**Step limits: a limit only cuts a run short.**

Without a limit a run ends at its condition or at a fault, or it goes on for ever.  A limit makes a
difference only if it is reached before that.  The condition is looked at before the limit and the
limit before each step, so a run that arrives needs a limit of as many steps as it takes, and a run
that a fault interrupts needs one step more.  This is the same for a test case and for a program on
the command line, and with a larger limit there is only more output behind the same output.

Main definitions:

* `LineMachine.Machine.Ends` — **how a run ends without a limit**;
* `LineMachine.Suite.limited`, `LineMachine.Options.limited` — cases and options with another limit;
* `LineMachine.Suite.GivesUp` — a case that reaches its limit.

Main results:

* `LineMachine.Machine.ends_or_goesOn`, `LineMachine.Machine.Ends.runUntil_eq` — runs with and
  without a limit;
* `LineMachine.Machine.exists_output_prefix` — **a larger limit adds to the output**;
* `LineMachine.Machine.runFromTraced_of_le` — the log of a run that ends before its limit;
* `LineMachine.Session.runProgram_of_stops` — a program that stops before its limit;
* `LineMachine.limits_truncate` — **a limit only cuts a run short**.
-/

import LineMachine.Proofs.EmittedOutput
import LineMachine.Proofs.ProgramRuns

set_option relaxedAutoImplicit false
set_option autoImplicit false

namespace LineMachine

/-! ### Runs with and without a limit -/

namespace Machine

variable {m m' : Machine} {stop : Machine → Bool} {limit limit' : Nat} {r : Run}

/-- **How a run ends without a limit**: at its condition, or at a fault. -/
inductive Ends (stop : Machine → Bool) (m : Machine) : Run → Prop where
  | arrived {n : Nat} {m' : Machine} (h : Visits stop m n m') (hstop : stop m' = true) :
      Ends stop m ⟨m', n, .arrived⟩
  | halted {n : Nat} {m₁ m₂ : Machine} {f : Fault} (h : Visits stop m n m₁)
      (hstop : stop m₁ = false) (hstep : m₁.step = .halt f m₂) : Ends stop m ⟨m₂, n, .halted f⟩

theorem isAt_eq_false_iff {p : Place} : m.isAt p = false ↔ m.ip ≠ p := by
  rw [← Bool.not_eq_true, isAt_iff]

/-- At every state that was visited before, the run went on. -/
theorem Visits.goesOn {n i : Nat} (h : Visits stop m n m') (hi : i < n) :
    ∃ m₁, Visits stop m i m₁ ∧ stop m₁ = false := by
  induction h with
  | start => omega
  | @step n m₁ m₂ h hstop _ ih =>
      rcases Nat.lt_or_eq_of_le (Nat.le_of_lt_succ hi) with hlt | rfl
      · exact ih hlt
      · exact ⟨m₁, h, hstop⟩

/-- A run ends, or it goes on after so many steps. -/
theorem ends_or_goesOn (stop : Machine → Bool) (m : Machine) (n : Nat) :
    (∃ r, Ends stop m r) ∨ ∃ m₁, Visits stop m n m₁ ∧ stop m₁ = false := by
  have hruns := runsTo_runUntil stop n m
  generalize m.runUntil stop n = r at hruns
  cases hruns with
  | arrived h hlimit hstop => exact .inl ⟨_, .arrived h hstop⟩
  | outOfSteps h hstop => exact .inr ⟨_, h, hstop⟩
  | halted h hlimit hstop hstep => exact .inl ⟨_, .halted h hstop hstep⟩

/-- **A run that goes on** for as many steps as its limit is cut short there. -/
theorem runUntil_of_goesOn (h : Visits stop m limit m') (hstop : stop m' = false) :
    m.runUntil stop limit = ⟨m', limit, .outOfSteps⟩ :=
  runUntil_eq_iff.2 (.outOfSteps h hstop)

/-- **A run that ends before its limit** is the run without a limit, and so is one that arrives
there. -/
theorem Ends.runUntil_eq (h : Ends stop m r) (hle : r.steps ≤ limit)
    (hlt : r.ending ≠ .arrived → r.steps < limit) : m.runUntil stop limit = r := by
  refine runUntil_eq_iff.2 ?_
  cases h with
  | arrived h hstop => exact .arrived h hle hstop
  | halted h hstop hstep => exact .halted h (hlt (by simp)) hstop hstep

/-- A run that does not end at its limit ends in the same way under a larger one. -/
theorem runUntil_of_le (hle : limit ≤ limit')
    (hended : (m.runUntil stop limit).ending ≠ .outOfSteps) :
    m.runUntil stop limit' = m.runUntil stop limit := by
  have hruns := runsTo_runUntil stop limit m
  generalize m.runUntil stop limit = r at hruns hended
  refine runUntil_eq_iff.2 ?_
  cases hruns with
  | arrived h hlimit hstop => exact .arrived h (Nat.le_trans hlimit hle) hstop
  | outOfSteps h hstop => exact absurd rfl hended
  | halted h hlimit hstop hstep => exact .halted h (Nat.lt_of_lt_of_le hlimit hle) hstop hstep

/-- **A larger limit adds to the output.** -/
theorem exists_output_prefix (stop : Machine → Bool) (m : Machine) (hle : limit ≤ limit') :
    ∃ codes codes', codes <+: codes' ∧
      (m.runUntil stop limit).machine.output = m.output.putAll codes ∧
      (m.runUntil stop limit').machine.output = m.output.putAll codes' := by
  obtain ⟨codes, hcodes⟩ := exists_output_runFrom stop limit 0 m
  by_cases hended : (m.runUntil stop limit).ending = .outOfSteps
  · -- the run goes on from where it was cut short
    have hruns := runsTo_runUntil stop limit m
    have hout : (m.runUntil stop limit).machine.output = m.output.putAll codes := hcodes
    generalize m.runUntil stop limit = r at hruns hended hout
    cases hruns with
    | arrived h hlimit hstop => cases hended
    | halted h hlimit hstop hstep => cases hended
    | @outOfSteps m' h hstop =>
        obtain ⟨rest, rfl⟩ := Nat.exists_eq_add_of_le hle
        obtain ⟨more, hmore⟩ := exists_output_runFrom stop rest limit m'
        refine ⟨codes, codes ++ more, List.prefix_append codes more, hout, ?_⟩
        rw [runUntil, h.runFrom_eq, hmore, hout, Sink.putAll_append]
  · rw [runUntil_of_le hle hended]
    exact ⟨codes, codes, List.prefix_refl codes, hcodes, hcodes⟩

/-- A run that does not end at its limit logs the same under a larger one. -/
theorem runFromTraced_of_le {done : Nat} (hle : limit ≤ limit')
    (hended : (runFrom stop limit done m).ending ≠ .outOfSteps) :
    runFromTraced stop limit' done m = runFromTraced stop limit done m := by
  induction limit generalizing limit' done m with
  | zero =>
      cases hstop : stop m with
      | true =>
          unfold runFromTraced
          rw [if_pos hstop, if_pos hstop]
      | false =>
          rw [runFrom_zero hstop] at hended
          exact absurd rfl hended
  | succ limit ih =>
      obtain ⟨limit', rfl⟩ : ∃ k, limit' = k + 1 := ⟨limit' - 1, by omega⟩
      unfold runFromTraced
      cases hstop : stop m with
      | true => rfl
      | false =>
          simp only [Bool.false_eq_true, if_false]
          refine (observes_stepTraced m).bind_congr ?_
          cases hstep : m.step with
          | halt f m' => rfl
          | next m' =>
              rw [runFrom_succ hstop hstep] at hended
              exact ih (Nat.le_of_succ_le_succ hle) hended

end Machine

/-! ### Test cases -/

namespace Suite

open Machine

variable {s : Suite} {c : Case} {io : Streams} {limit : Int} {k : Nat} {m m₁ m₂ : Machine}

/-- The same cases with another step limit. -/
def limited (s : Suite) (limit : Int) : Suite := { s with maxSteps := limit }

/-- **A case that reaches its limit** after so many steps: it has not passed, and its result tells
of them and of the data stack that they left. -/
def GivesUp (s : Suite) (c : Case) (io : Streams) (n : Nat) : Prop :=
  ∃ m r, steps n (s.machine c io) = .next m ∧ s.run c io = .ok r ∧ r.passed = false ∧
    r.steps = n ∧ r.stack = m.data.toList ∧ r.reason = s!"no return after {n} steps"

/-- A case that goes on for as many steps as its limit gives up. -/
theorem givesUp_of_goesOn (h : s.Meets c io limit.toNat m) (hip : m.ip ≠ sentinel) :
    (s.limited limit).GivesUp c io limit.toNat := by
  have hrun : (s.limited limit).run c io =
      .ok ⟨c, .noReturn, m.data.toList, limit.toNat⟩ :=
    run_eq_of_runsTo (s := s.limited limit) (.outOfSteps h (isAt_eq_false_iff.2 hip))
  exact ⟨m, _, Visits.steps h, hrun, rfl, rfl, rfl, rfl⟩

/-- A case gives up at every limit before a state that its loop meets. -/
theorem givesUp_of_lt (h : s.Meets c io k m) (hlt : limit.toNat < k) :
    (s.limited limit).GivesUp c io limit.toNat := by
  obtain ⟨m₁, hmeets, hstop⟩ := Visits.goesOn h hlt
  exact givesUp_of_goesOn hmeets (isAt_eq_false_iff.1 hstop)

/-- A case does not begin at the sentinel. -/
theorem pos_of_meets (hstart : ∀ line, c.start = some line → firstLine ≤ line)
    (h : s.Meets c io k m) (hip : m.ip = sentinel) : 0 < k := by
  refine Nat.pos_of_ne_zero ?_
  rintro rfl
  cases h with
  | start =>
      rw [machine_eq] at hip
      have hline : c.start.getD firstLine = 0 := congrArg Place.line hip
      cases hc : c.start with
      | none =>
          rw [hc] at hline
          cases hline
      | some line =>
          rw [hc, Option.getD_some] at hline
          have hfirst := hstart line hc
          unfold firstLine at hfirst
          omega

/-- **A case that returns** does so under every limit of at least as many steps, and gives up under
any other. -/
theorem limited_of_returned (hstart : ∀ line, c.start = some line → firstLine ≤ line)
    (h : s.Meets c io k m) (hip : m.ip = sentinel) (limit : Int) :
    (k ≤ limit → (s.limited limit).run c io = CaseResult.stated
      ⟨c, if m.data.numbers = c.outputs then .passed else .unexpected, m.data.toList, k⟩) ∧
    (limit < k → (s.limited limit).GivesUp c io limit.toNat) := by
  constructor
  · intro hle
    have hends : Ends (·.isAt sentinel) (s.machine c io) ⟨m, k, .arrived⟩ :=
      .arrived h (isAt_iff.2 hip)
    have htrial : (s.limited limit).trial c io = ⟨m, k, .arrived⟩ :=
      hends.runUntil_eq (show k ≤ limit.toNat by omega) (fun hne => absurd rfl hne)
    rw [run, htrial]
    rfl
  · intro hlt
    have hpos := pos_of_meets hstart h hip
    exact givesUp_of_lt h (by omega)

/-- A fault that is a verdict on the case makes it fail. -/
theorem exists_ofRun_halted {f : Fault} (hf : f ≠ .missingCell) (m : Machine) (k : Nat) :
    ∃ r, CaseResult.ofRun c ⟨m, k, .halted f⟩ = .ok r ∧ r.passed = false ∧ r.steps = k ∧
      r.stack = m.data.toList := by
  cases f with
  | missingCell => exact absurd rfl hf
  | underflow d | divisionByZero d | exit status => exact ⟨_, rfl, rfl, rfl, rfl⟩

/-- **A case that a fault interrupts** is told so under every limit that allows the step, and gives
up under any other. -/
theorem limited_of_raised {f : Fault} (h : s.Meets c io k m₁) (hip : m₁.ip ≠ sentinel)
    (hstep : m₁.step = .halt f m₂) (limit : Int) :
    (k < limit → (s.limited limit).run c io = CaseResult.ofRun c ⟨m₂, k, .halted f⟩) ∧
    (limit ≤ k → (s.limited limit).GivesUp c io limit.toNat) := by
  constructor
  · intro hlt
    have hends : Ends (·.isAt sentinel) (s.machine c io) ⟨m₂, k, .halted f⟩ :=
      .halted h (isAt_eq_false_iff.2 hip) hstep
    have htrial : (s.limited limit).trial c io = ⟨m₂, k, .halted f⟩ :=
      hends.runUntil_eq (show k ≤ limit.toNat by omega) (fun _ => show k < limit.toNat by omega)
    rw [run, htrial]
  · intro hle
    rcases Nat.lt_or_ge limit.toNat k with hlt | hge
    · exact givesUp_of_lt h hlt
    · obtain rfl : limit.toNat = k := by omega
      exact givesUp_of_goesOn h hip

/-- **A case returns, is interrupted or goes on for ever.** -/
theorem returns_or_raises_or_goesOn (s : Suite) (c : Case) (io : Streams) :
    (∃ k m, s.Meets c io k m ∧ m.ip = sentinel) ∨
    (∃ k m₁ f m₂, s.Meets c io k m₁ ∧ m₁.ip ≠ sentinel ∧ m₁.step = .halt f m₂) ∨
    ∀ k, ∃ m, s.Meets c io k m ∧ m.ip ≠ sentinel := by
  by_cases hends : ∃ r, Ends (·.isAt sentinel) (s.machine c io) r
  · obtain ⟨r, hr⟩ := hends
    cases hr with
    | arrived h hstop => exact .inl ⟨_, _, h, isAt_iff.1 hstop⟩
    | halted h hstop hstep =>
        exact .inr (.inl ⟨_, _, _, _, h, isAt_eq_false_iff.1 hstop, hstep⟩)
  · refine .inr (.inr fun k => ?_)
    rcases ends_or_goesOn (·.isAt sentinel) (s.machine c io) k with hr | ⟨m, hmeets, hstop⟩
    · exact absurd hr hends
    · exact ⟨m, hmeets, isAt_eq_false_iff.1 hstop⟩

end Suite

/-! ### Programs on the command line -/

/-- The same options with another step limit, or without one. -/
def Options.limited (o : Options) (limit : Option Int) : Options :=
  { o with maxSteps := limit.map .number }

namespace Session

open Machine

variable {files : Files} {o : Options} {program : Listing} {line : Int} {pushes : List Int}
variable {input : List Char} {m m' : Machine} {f : Fault} {k n : Nat}

theorem runUntil_of_steps (h : steps n m = .next m') :
    m.runUntil never n = ⟨m', n, .outOfSteps⟩ :=
  runUntil_of_goesOn (visits_iff.2 ⟨h, fun _ _ => rfl⟩) rfl

theorem runUntil_of_stops (h : m.Stops k f m') (hlt : k < n) :
    m.runUntil never n = ⟨m', k, .halted f⟩ := by
  obtain ⟨m₁, hsteps, hstep⟩ := stops_iff.1 h
  have hvisits : Visits never m k m₁ := visits_iff.2 ⟨hsteps, fun _ _ => rfl⟩
  exact runUntil_eq_iff.2 (.halted hvisits hlt rfl hstep)

/-- **A program reaches its limit** if all the steps up to it complete. -/
theorem ending_eq_outOfSteps_iff :
    (m.runUntil never n).ending = .outOfSteps ↔ ∃ m', steps n m = .next m' := by
  rcases steps_or_stops n m with ⟨m', hsteps⟩ | ⟨k, hk, f, m', hstops⟩
  · rw [runUntil_of_steps hsteps]
    exact iff_of_true rfl ⟨m', hsteps⟩
  · rw [runUntil_of_stops hstops hk]
    refine iff_of_false (by simp) ?_
    rintro ⟨m₂, hsteps⟩
    have hle := hstops.le_of_steps hsteps
    omega

/-- A program that stops logs nothing behind that. -/
theorem runUntilTraced_of_stops (h : m.Stops k f m') (hlt : k < n) :
    m.runUntilTraced never n = m.runUntilTraced never (k + 1) := by
  have hended : (runFrom never (k + 1) 0 m).ending ≠ .outOfSteps := by
    have hrun := runUntil_of_stops h (Nat.lt_succ_self k)
    rw [runUntil] at hrun
    simp [hrun]
  exact runFromTraced_of_le hlt hended

/-- The command line starts the same machine under every limit, and without one. -/
theorem launches_limited (hfile : Listing.ofFile files o.file = .ok program)
    (hstart : o.start = .number line) (hpushes : o.pushes = pushes.map .number)
    (limit : Option Int) :
    Launches files (o.limited limit) input program
      (machine program o.file line pushes ⟨input, .emptyBytes⟩) := by
  refine launches_machine (o := o.limited limit) hfile hstart hpushes ?_ input
  cases limit with
  | none => simp [Options.limited]
  | some limit => simp [Options.limited]

/-- **A program that stops before its limit** comes to the same whatever the limit is. -/
theorem runProgram_of_stops {limit limit' : Option Int} {fuel fuel' : Nat}
    (h : ∀ limit, Launches files (o.limited limit) input program m)
    (hstops : m.Stops k f m') (hlt : k < stepLimit (o.limited limit) fuel)
    (hlt' : k < stepLimit (o.limited limit') fuel') :
    runProgram files (o.limited limit) fuel input =
      runProgram files (o.limited limit') fuel' input := by
  have hconclude (limit : Option Int) :
      conclude (o.limited limit) ⟨m', k, .halted f⟩ = conclude o ⟨m', k, .halted f⟩ := by
    cases f <;> rfl
  have hruns := observes_runUntilTraced never (k + 1) m
  rw [runUntil_of_stops hstops (Nat.lt_succ_self k)] at hruns
  have hplay : playTraced (o.limited limit) fuel m = playTraced (o.limited limit') fuel' m := by
    unfold playTraced
    rw [runUntilTraced_of_stops hstops hlt, runUntilTraced_of_stops hstops hlt']
    refine hruns.bind_congr ?_
    rw [hconclude limit, hconclude limit']
  rw [runProgram_eq (h limit), runProgram_eq (h limit'), hplay]
  rfl

/-- **A program that reaches its limit** says so in its status. -/
theorem runProgram_of_steps {limit : Int}
    (h : Launches files (o.limited (some limit)) input program m)
    (hsteps : steps limit.toNat m = .next m') (fuel : Nat) :
    (runProgram files (o.limited (some limit)) fuel input).status = .code stepLimitCode ∧
      (runProgram files (o.limited (some limit)) fuel input).stdout = delivered m'.output := by
  have hrun : m.runUntil never (stepLimit (o.limited (some limit)) fuel) =
      ⟨m', limit.toNat, .outOfSteps⟩ := runUntil_of_steps hsteps
  have hplay := runProgram_of_launches h fuel
  rwa [hrun] at hplay

/-- **The status of a step limit** is that of a program that reaches it, or that exits with the same
status before. -/
theorem status_eq_stepLimitCode_iff {limit : Int}
    (h : Launches files (o.limited (some limit)) input program m) (fuel : Nat) :
    (runProgram files (o.limited (some limit)) fuel input).status = .code stepLimitCode ↔
      (∃ m', steps limit.toNat m = .next m') ∨
        ∃ k m', k < limit.toNat ∧ m.Stops k (.exit 2) m' := by
  rcases steps_or_stops limit.toNat m with ⟨m', hsteps⟩ | ⟨k, hk, f, m', hstops⟩
  · exact iff_of_true (runProgram_of_steps h hsteps fuel).1 (.inl ⟨m', hsteps⟩)
  · have hrun : m.runUntil never (stepLimit (o.limited (some limit)) fuel) = ⟨m', k, .halted f⟩ :=
      runUntil_of_stops hstops hk
    have hstatus : endStatus (o.limited (some limit)) ⟨m', k, .halted f⟩ = .code stepLimitCode ↔
        f = .exit 2 := by
      cases f with
      | underflow d | divisionByZero d => simp [endStatus, failureCode, stepLimitCode]
      | missingCell => simp [endStatus]
      | exit status =>
          have htwo : status.toInt = 2 ↔ status = 2 := by
            rw [← Int32.toInt_inj]
            rfl
          simp [endStatus, stepLimitCode, htwo]
    rw [(runProgram_of_launches h fuel).1, hrun, hstatus]
    constructor
    · rintro rfl
      exact .inr ⟨k, m', hk, hstops⟩
    · rintro (⟨m₂, hsteps⟩ | ⟨k₂, m₂, -, hstops₂⟩)
      · have hle := hstops.le_of_steps hsteps
        omega
      · exact (hstops.unique hstops₂).2.1

/-- **A larger limit adds to the standard output.** -/
theorem stdout_prefix (hm : m.output = .emptyBytes)
    (h : ∀ limit, Launches files (o.limited limit) input program m) {limit limit' : Int}
    (hle : limit ≤ limit') (fuel fuel' : Nat) :
    (runProgram files (o.limited (some limit)) fuel input).stdout.toList <+:
      (runProgram files (o.limited (some limit')) fuel' input).stdout.toList := by
  have hnat : limit.toNat ≤ limit'.toNat := by omega
  obtain ⟨codes, codes', hprefix, hcodes, hcodes'⟩ := exists_output_prefix never m hnat
  rw [hm] at hcodes hcodes'
  have hstdout : (runProgram files (o.limited (some limit)) fuel input).stdout = codes.toArray := by
    rw [(runProgram_of_launches (h (some limit)) fuel).2, ← delivered_putAll, ← hcodes]
    rfl
  have hstdout' : (runProgram files (o.limited (some limit')) fuel' input).stdout =
      codes'.toArray := by
    rw [(runProgram_of_launches (h (some limit')) fuel').2, ← delivered_putAll, ← hcodes']
    rfl
  rw [hstdout, hstdout']
  exact hprefix

end Session

/-! ### Limits only cut runs short -/

/-- **A limit only cuts a run short.**  A test case returns, a fault interrupts it or it goes on for
ever.  If it returns after so many steps, it does so under every limit of at least as many; if a
fault interrupts the step behind them, it does so under every larger limit; and under any other
limit the case gives up.  A program on the command line reaches its limit if all its steps complete,
and else comes to the same as without a limit.  In both, a larger limit adds to the output. -/
theorem limits_truncate (s : Suite) (c : Case) (io : Streams)
    (hline : ∀ line, c.start = some line → firstLine ≤ line)
    {files : Files} {o : Options} {program : Listing} {line : Int} {pushes : List Int}
    (hfile : Listing.ofFile files o.file = .ok program) (hstart : o.start = .number line)
    (hpushes : o.pushes = pushes.map .number) (input : List Char) (fuel : Nat) :
    (((∃ k m, s.Meets c io k m ∧ m.ip = sentinel) ∨
        (∃ k m₁ f m₂, s.Meets c io k m₁ ∧ m₁.ip ≠ sentinel ∧ m₁.step = .halt f m₂) ∨
        ∀ k, ∃ m, s.Meets c io k m ∧ m.ip ≠ sentinel) ∧
      (∀ k m, s.Meets c io k m → m.ip = sentinel → ∀ limit : Int,
        (k ≤ limit → (s.limited limit).run c io = CaseResult.stated
          ⟨c, if m.data.numbers = c.outputs then .passed else .unexpected, m.data.toList, k⟩) ∧
        (k ≤ limit → m.data.numbers = c.outputs ∨ c.IsWritable → (s.limited limit).run c io =
          .ok ⟨c, if m.data.numbers = c.outputs then .passed else .unexpected,
            m.data.toList, k⟩) ∧
        (limit < k → (s.limited limit).GivesUp c io limit.toNat)) ∧
      (∀ k m₁ f m₂, s.Meets c io k m₁ → m₁.ip ≠ sentinel → m₁.step = .halt f m₂ →
        (f ≠ .missingCell → ∃ r, CaseResult.ofRun c ⟨m₂, k, .halted f⟩ = .ok r ∧
          r.passed = false ∧ r.steps = k ∧ r.stack = m₂.data.toList) ∧
        ∀ limit : Int,
          (k < limit → (s.limited limit).run c io = CaseResult.ofRun c ⟨m₂, k, .halted f⟩) ∧
          (limit ≤ k → (s.limited limit).GivesUp c io limit.toNat)) ∧
      ((∀ k, ∃ m, s.Meets c io k m ∧ m.ip ≠ sentinel) →
        ∀ limit : Int, (s.limited limit).GivesUp c io limit.toNat) ∧
      (∀ limit limit' : Int, limit ≤ limit' → ∃ codes codes', codes <+: codes' ∧
        ((s.limited limit).streamsAfter c io).output = io.output.putAll codes ∧
        ((s.limited limit').streamsAfter c io).output = io.output.putAll codes')) ∧
    let m := Session.machine program o.file line pushes ⟨input, .emptyBytes⟩
    ∀ limit : Int,
      let t := Session.runProgram files (o.limited (some limit)) fuel input
      ((m.runUntil Session.never limit.toNat).ending = .outOfSteps ↔
        ∃ m', Machine.steps limit.toNat m = .next m') ∧
      (t.status = .code Session.stepLimitCode ↔
        (∃ m', Machine.steps limit.toNat m = .next m') ∨
          ∃ k m', k < limit.toNat ∧ m.Stops k (.exit 2) m') ∧
      ((¬ ∃ m', Machine.steps limit.toNat m = .next m') →
        ∃ k f m', k < limit.toNat ∧ m.Stops k f m' ∧
          m.runUntil Session.never limit.toNat = ⟨m', k, .halted f⟩ ∧
          ∀ fuel', k < fuel' → t = Session.runProgram files (o.limited none) fuel' input) ∧
      ∀ limit', limit ≤ limit' →
        t.stdout.toList <+:
          (Session.runProgram files (o.limited (some limit')) fuel input).stdout.toList := by
  refine ⟨⟨s.returns_or_raises_or_goesOn c io, ?_, ?_, ?_, ?_⟩, ?_⟩
  · intro k m hmeets hip limit
    obtain ⟨hreturns, hgivesUp⟩ := Suite.limited_of_returned hline hmeets hip limit
    refine ⟨hreturns, fun hle hwritable => ?_, hgivesUp⟩
    exact (hreturns hle).trans (CaseResult.stated_returned hwritable)
  · intro k m₁ f m₂ hmeets hip hstep
    exact ⟨fun hf => Suite.exists_ofRun_halted hf m₂ k,
      fun limit => Suite.limited_of_raised hmeets hip hstep limit⟩
  · intro hgoesOn limit
    obtain ⟨m, hmeets, hip⟩ := hgoesOn limit.toNat
    exact Suite.givesUp_of_goesOn hmeets hip
  · intro limit limit' hle
    have hnat : limit.toNat ≤ limit'.toNat := by omega
    have hout : (s.machine c io).output = io.output := by rw [Suite.machine_eq]
    rw [← hout]
    exact Machine.exists_output_prefix (·.isAt sentinel) (s.machine c io) hnat
  · intro m limit t
    have hlaunch : ∀ limit, Session.Launches files (o.limited limit) input program m :=
      Session.launches_limited hfile hstart hpushes
    have hout : m.output = .emptyBytes := by
      have heq := Session.machine_eq program o.file line pushes ⟨input, .emptyBytes⟩
      exact congrArg Machine.output heq
    refine ⟨Session.ending_eq_outOfSteps_iff,
      Session.status_eq_stepLimitCode_iff (hlaunch (some limit)) fuel, ?_, ?_⟩
    · intro hnot
      rcases Machine.steps_or_stops limit.toNat m with hsteps | ⟨k, hk, f, m', hstops⟩
      · exact absurd hsteps hnot
      · refine ⟨k, f, m', hk, hstops, Session.runUntil_of_stops hstops hk, ?_⟩
        intro fuel' hfuel'
        exact Session.runProgram_of_stops hlaunch hstops hk hfuel'
    · intro limit' hle
      exact Session.stdout_prefix hout hlaunch hle fuel fuel

/-- Around the return of a program that echoes a character: as a case it needs its fifth step, and
on the command line that step fails. -/
theorem limits_truncate_around_return :
    ∃ (s : Suite) (c : Case) (files : Files) (o : Options),
      s.program = [⟨21, [15, 42, 14, 42]⟩] ∧ c.start = some 21 ∧
      Listing.ofFile files o.file = .ok s.program ∧
      (s.limited 5).run c ⟨['A'], .emptyText⟩ = .ok ⟨c, .passed, [], 5⟩ ∧
      (s.limited 4).GivesUp c ⟨['A'], .emptyText⟩ 4 ∧
      (s.limited (-1)).GivesUp c ⟨['A'], .emptyText⟩ 0 ∧
      (Session.runProgram files (o.limited (some 4)) 0 ['A']).status =
        .code Session.stepLimitCode ∧
      Session.runProgram files (o.limited (some 5)) 0 ['A'] =
        Session.runProgram files (o.limited none) 5 ['A'] := by
  let s : Suite := ⟨[⟨21, [15, 42, 14, 42]⟩], "p", 5⟩
  let c : Case := ⟨"echo", some 21, [], []⟩
  let io : Streams := ⟨['A'], .emptyText⟩
  let files : Files := fun _ => .ok (List.replicate 20 '\n' ++ "15 42 14 42".toList)
  let o : Options := ⟨.default, "p"⟩
  let m := Session.machine s.program o.file firstLine [] ⟨['A'], .emptyBytes⟩
  have hline : ∀ line, c.start = some line → firstLine ≤ line := by
    intro line hstart
    cases hstart
    decide
  have hfile : Listing.ofFile files o.file = .ok s.program := rfl
  have hstart : o.start = .number firstLine := rfl
  have hpushes : o.pushes = [].map .number := rfl
  obtain ⟨⟨-, hreturned, -⟩, hprogram⟩ :=
    limits_truncate s c io hline hfile hstart hpushes ['A'] 0
  -- as a case, the program returns with its fifth step
  have htrial : s.trial c io = ⟨(s.trial c io).machine, 5, .arrived⟩ := by decide +kernel
  have hdata : (s.trial c io).machine.data = .empty := by decide +kernel
  obtain ⟨m₁, hmeets, hip, hempty⟩ : ∃ m₁, s.Meets c io 5 m₁ ∧ m₁.ip = sentinel ∧
      m₁.data = .empty := by
    have hruns := s.runsTo_trial c io
    rw [htrial] at hruns
    generalize (s.trial c io).machine = m₁ at hruns hdata
    cases hruns with
    | arrived hmeets _ hstop => exact ⟨m₁, hmeets, Machine.isAt_iff.1 hstop, hdata⟩
  have hlimit := hreturned 5 m₁ hmeets hip
  rw [hempty] at hlimit
  -- on the command line four steps complete, and the fifth fails
  have hfour : Machine.steps 4 m = .next (m.after 4) := by decide +kernel
  have hfive : ¬ ∃ m', Machine.steps 5 m = .next m' := by
    have hfault : (Machine.steps 5 m).fault?.isSome := by decide +kernel
    rintro ⟨m', hsteps⟩
    rw [hsteps] at hfault
    cases hfault
  obtain ⟨k, -, -, hk, -, -, hsame⟩ := (hprogram 5).2.2.1 hfive
  exact ⟨s, c, files, o, rfl, rfl, hfile, (hlimit 5).2.1 (by decide) (.inl rfl),
    (hlimit 4).2.2 (by decide), (hlimit (-1)).2.2 (by decide),
    (hprogram 4).2.1.2 (.inl ⟨_, hfour⟩), hsame 5 hk⟩

end LineMachine
