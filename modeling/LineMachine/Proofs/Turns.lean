/-
**Turns: the cases of a suite, one after the other.**

The cases of a suite share nothing but the streams.  The output has no part in what a case comes to,
so a case comes to what it would come to alone, on the input that the cases before it left; and what
it adds to the output is what it would write alone.  If no case reads, then no case changes the
input, and the order of the cases makes no difference to their results.

Main definitions:

* `LineMachine.Suite.inputAfter`, `LineMachine.Suite.emitted` — what a case leaves of the input, and
  what it writes;
* `LineMachine.Suite.turns`, `LineMachine.Suite.unread` — **each case with its input**, and what all
  of them leave of it;
* `LineMachine.Machine.reads`, `LineMachine.Suite.NeverReads` — steps that read, and cases without
  any.

Main results:

* `LineMachine.Suite.run_output`, `LineMachine.Suite.streamsAfter_eq` — **a case alone**, whatever
  the output;
* `LineMachine.Suite.runAll_eq` — **several cases come to what they come to alone**;
* `LineMachine.Suite.inputAfter_of_neverReads` — a case that never reads leaves the input alone;
* `LineMachine.Suite.exists_runAll_perm` — the order of cases that never read.
-/

import LineMachine.Proofs.Branches
import LineMachine.Proofs.OutputFrame
import LineMachine.Proofs.Readings
import LineMachine.Proofs.Sentinel

set_option relaxedAutoImplicit false
set_option autoImplicit false

namespace LineMachine

namespace Suite

open Machine

variable {s : Suite} {c : Case} {cs cs' : List Case} {rs : List CaseResult} {input : List Char}
variable {io io' : Streams}

/-! ### A case alone -/

/-- **What a case leaves of the input.** -/
def inputAfter (s : Suite) (c : Case) (input : List Char) : List Char :=
  (s.trial c ⟨input, .emptyText⟩).machine.input

/-- **What a case writes**, as the codes that it emits. -/
def emitted (s : Suite) (c : Case) (input : List Char) : List UInt8 :=
  emissions (·.isAt sentinel) s.maxSteps.toNat (s.machine c ⟨input, .emptyText⟩)

/-- **A trial with another output** adds to it what the case writes, and is the same otherwise. -/
theorem trial_writingTo (s : Suite) (c : Case) (input : List Char) (out : Sink) :
    s.trial c ⟨input, out⟩ =
      (s.trial c ⟨input, .emptyText⟩).writingTo (out.putAll (s.emitted c input)) := by
  have hmachine : s.machine c ⟨input, out⟩ = (s.machine c ⟨input, .emptyText⟩).writingTo out := by
    rw [machine_eq, machine_eq]
    rfl
  unfold trial
  rw [hmachine]
  exact runUntil_writingTo (fun _ _ => rfl) _ _ out

/-- The output has no part in what a case comes to. -/
theorem run_output (s : Suite) (c : Case) (input : List Char) (out : Sink) :
    s.run c ⟨input, out⟩ = s.run c ⟨input, .emptyText⟩ := by
  unfold run
  rw [trial_writingTo]
  rfl

/-- **What a case leaves of the streams**: a part of the input, and the output with what it writes
behind it. -/
theorem streamsAfter_eq (s : Suite) (c : Case) (input : List Char) (out : Sink) :
    s.streamsAfter c ⟨input, out⟩ = ⟨s.inputAfter c input, out.putAll (s.emitted c input)⟩ := by
  unfold streamsAfter
  rw [trial_writingTo]
  rfl

/-! ### One case after the other -/

/-- **Each case with its input**: what the cases before it left. -/
def turns (s : Suite) : List Case → List Char → List (Case × List Char)
  | [], _ => []
  | c :: cs, input => (c, input) :: turns s cs (s.inputAfter c input)

/-- **What several cases leave of the input.** -/
def unread (s : Suite) (cs : List Case) (input : List Char) : List Char :=
  cs.foldl (fun input c => s.inputAfter c input) input

/-- What a case comes to in its turn. -/
def runTurn (s : Suite) (turn : Case × List Char) : Except NoResult CaseResult :=
  s.run turn.1 ⟨turn.2, .emptyText⟩

/-- What several cases write, one behind the other. -/
def emittedInTurn (s : Suite) (cs : List Case) (input : List Char) : List UInt8 :=
  (s.turns cs input).flatMap fun turn => s.emitted turn.1 turn.2

/-- The input of a case is what the cases before it left. -/
theorem getElem?_turns (s : Suite) (cs : List Case) (input : List Char) (i : Nat) :
    (s.turns cs input)[i]? = cs[i]?.map fun c => (c, s.unread (cs.take i) input) := by
  induction cs generalizing input i with
  | nil => simp [turns]
  | cons c cs ih =>
      cases i with
      | zero => rfl
      | succ i =>
          rw [turns, List.getElem?_cons_succ, ih]
          rfl

/-- **Several cases come to what they come to alone**, each in its turn. -/
theorem runAll_eq (s : Suite) (cs : List Case) (io : Streams) :
    s.runAll cs io = ((s.turns cs io.input).mapM s.runTurn).map fun rs =>
      (rs, ⟨s.unread cs io.input, io.output.putAll (s.emittedInTurn cs io.input)⟩) := by
  induction cs generalizing io with
  | nil => rfl
  | cons c cs ih =>
      obtain ⟨input, out⟩ := io
      rw [runAll_cons, streamsAfter_eq, run_output, ih]
      cases hrun : s.run c ⟨input, .emptyText⟩ with
      | error f =>
          have hturn : s.runTurn (c, input) = .error f := hrun
          simp only [turns, mapM_cons_of_error hturn]
          rfl
      | ok r =>
          have hturn : s.runTurn (c, input) = .ok r := hrun
          have hcodes : s.emittedInTurn (c :: cs) input =
              s.emitted c input ++ s.emittedInTurn cs (s.inputAfter c input) := rfl
          simp only [turns, mapM_cons_of_ok hturn, hcodes, Sink.putAll_append]
          cases (s.turns cs (s.inputAfter c input)).mapM s.runTurn with
          | error f => rfl
          | ok rs => rfl

theorem length_turns (s : Suite) (cs : List Case) (input : List Char) :
    (s.turns cs input).length = cs.length := by
  induction cs generalizing input with
  | nil => rfl
  | cons c cs ih => rw [turns, List.length_cons, List.length_cons, ih]

/-- Several cases come to results if each of them does in its turn. -/
theorem runAll_eq_ok_iff_mapM :
    s.runAll cs io = .ok (rs, io') ↔
      (s.turns cs io.input).mapM s.runTurn = .ok rs ∧
        io' = ⟨s.unread cs io.input, io.output.putAll (s.emittedInTurn cs io.input)⟩ := by
  rw [runAll_eq]
  cases (s.turns cs io.input).mapM s.runTurn with
  | error f => simp [Except.map]
  | ok rs' => simp [Except.map, eq_comm]

/-- **What several cases come to**: as many results, each of them that of the case alone, and the
input that is left with all that was written. -/
theorem runAll_eq_ok_iff :
    s.runAll cs io = .ok (rs, io') ↔
      rs.length = cs.length ∧
      (∀ i c r, cs[i]? = some c → rs[i]? = some r →
        ∀ out, s.run c ⟨s.unread (cs.take i) io.input, out⟩ = .ok r) ∧
      io' = ⟨s.unread cs io.input, io.output.putAll (s.emittedInTurn cs io.input)⟩ := by
  have hturn (i : Nat) (t : Case × List Char) : (s.turns cs io.input)[i]? = some t ↔
      cs[i]? = some t.1 ∧ t.2 = s.unread (cs.take i) io.input := by
    rw [getElem?_turns]
    cases cs[i]? with
    | none => simp
    | some c => simp [Prod.ext_iff, eq_comm]
  rw [runAll_eq_ok_iff_mapM, mapM_eq_ok_iff, forall₂_iff_getElem?, length_turns, and_assoc]
  refine and_congr eq_comm (and_congr_left fun _ => ?_)
  constructor
  · intro h i c r hc hr out
    rw [run_output]
    exact h i (c, s.unread (cs.take i) io.input) r ((hturn i _).2 ⟨hc, rfl⟩) hr
  · rintro h i ⟨c, input⟩ r ht hr
    obtain ⟨hc, rfl⟩ := (hturn i _).1 ht
    exact h i c r hc hr .emptyText

/-! ### Programs that fit -/

theorem mem_of_mem_turns {turn : Case × List Char} (h : turn ∈ s.turns cs input) :
    turn.1 ∈ cs := by
  obtain ⟨i, hi⟩ := List.mem_iff_getElem?.1 h
  rw [getElem?_turns] at hi
  obtain ⟨c, hc, rfl⟩ := Option.map_eq_some_iff.1 hi
  exact List.mem_of_getElem? hc

/-- **Cases of a program that fits** come to results if they can write what they expect. -/
theorem exists_runAll_of_fits (hs : s.program.Fits) (hcs : ∀ c ∈ cs, c.IsWritable) (io : Streams) :
    ∃ rs io', s.runAll cs io = .ok (rs, io') := by
  rw [runAll_eq]
  obtain ⟨rs, hrs⟩ := exists_mapM_eq_ok (f := s.runTurn) (l := s.turns cs io.input) fun turn ht =>
    exists_run_of_isWritable hs (hcs turn.1 (mem_of_mem_turns ht)) ⟨turn.2, .emptyText⟩
  exact ⟨rs, _, by rw [hrs]; rfl⟩

end Suite

/-! ### Steps that read -/

namespace Machine

variable {m : Machine}

/-- **Whether the next step reads**: it executes the call cell, and the opcode below it leads to
reading, by itself or through branches. -/
def reads (m : Machine) : Bool :=
  match m.memory.fetch m.ip, m.data.topFirst with
  | .cell c, opcode :: cells =>
      c.toInt == callCell && (resolve opcode.toInt cells).map (·.1) == some (.act .read)
  | _, _ => false

/-- An action that is not to read leaves the input alone. -/
theorem input_perform {a : Action} (ha : a ≠ .read) (m : Machine) :
    (m.perform a).machine.input = m.input := by
  unfold perform
  split
  case h_1 o right left rest hdata => cases o.apply left right <;> rfl
  case h_9 c rest hdata => split <;> rfl
  case h_12 => exact absurd rfl ha
  all_goals rfl

theorem input_dispatch {opcode : Int}
    (h : ∀ rest, resolve opcode m.data.topFirst ≠ some (.act .read, rest)) :
    (m.dispatch opcode).machine.input = m.input := by
  unfold dispatch
  match hleaf : resolve opcode m.data.topFirst with
  | none | some (.nothing, _) | some (.call _, _) => rfl
  | some (.act a, rest) =>
      have ha : a ≠ .read := by
        rintro rfl
        exact h rest hleaf
      exact input_perform ha { m with data := ⟨rest⟩ }

theorem input_comeBack (m : Machine) : m.comeBack.machine.input = m.input := by
  unfold comeBack popReturn?
  rcases m.ret with ⟨_ | ⟨col, _ | ⟨line, rest⟩⟩⟩
  · rfl
  · rfl
  · rfl

/-- **A step that does not read** leaves the input alone. -/
theorem input_step (h : m.reads = false) : m.step.machine.input = m.input := by
  cases hf : m.memory.fetch m.ip with
  | outside | missing =>
      simp only [step, hf]
      rfl
  | lineEnd =>
      simp only [step, hf]
      exact input_comeBack m
  | cell c =>
      by_cases hc : c.toInt = callCell
      · cases hdata : m.data.topFirst with
        | nil =>
            rw [step_of_callCell_nil hf hc hdata]
            rfl
        | cons opcode cells =>
            rw [step_of_callCell hf hc hdata]
            refine input_dispatch fun rest hleaf => ?_
            have hreads : m.reads = true := by simp [reads, hf, hdata, hc, hleaf]
            rw [h] at hreads
            cases hreads
      · rw [step_of_ne_callCell hf hc]
        rfl

end Machine

namespace Suite

open Machine

variable {s : Suite} {c : Case} {cs cs' : List Case} {rs : List CaseResult} {input : List Char}
variable {io io' : Streams}

/-- **A case that never reads**: no step that it takes does. -/
def NeverReads (s : Suite) (c : Case) (input : List Char) : Prop :=
  ∀ n m, s.Meets c ⟨input, .emptyText⟩ n m → n < s.maxSteps.toNat → m.ip ≠ sentinel →
    m.reads = false

/-- It is enough that none of so many steps reads, whatever comes of them. -/
theorem neverReads_of_after
    (h : ∀ n < s.maxSteps.toNat, ((s.machine c ⟨input, .emptyText⟩).after n).reads = false) :
    s.NeverReads c input := by
  intro n m hmeets hlt _
  rw [← after_of_steps hmeets.steps]
  exact h n hlt

theorem NeverReads.input_of_meets (h : s.NeverReads c input) {n : Nat} {m : Machine}
    (hmeets : s.Meets c ⟨input, .emptyText⟩ n m) (hle : n ≤ s.maxSteps.toNat) :
    m.input = input := by
  induction hmeets with
  | start => rw [machine_eq]
  | @step n m₁ m₂ hmeets hstop hstep ih =>
      have hip : m₁.ip ≠ sentinel := fun heq => by simp [isAt, heq] at hstop
      have hinput := input_step (h n m₁ hmeets hle hip)
      rw [hstep] at hinput
      exact hinput.trans (ih (Nat.le_of_succ_le hle))

/-- **A case that never reads** leaves the input alone. -/
theorem inputAfter_of_neverReads (h : s.NeverReads c input) : s.inputAfter c input = input := by
  have htrial := s.runsTo_trial c ⟨input, .emptyText⟩
  unfold inputAfter
  generalize s.trial c ⟨input, .emptyText⟩ = trial at htrial
  cases htrial with
  | arrived hmeets hlimit _ => exact h.input_of_meets hmeets hlimit
  | outOfSteps hmeets _ => exact h.input_of_meets hmeets (Nat.le_refl _)
  | @halted n m₁ m₂ f hmeets hlimit hstop hstep =>
      have hip : m₁.ip ≠ sentinel := fun heq => by simp [isAt, heq] at hstop
      have hinput := input_step (h n m₁ hmeets hlimit hip)
      rw [hstep] at hinput
      exact hinput.trans (h.input_of_meets hmeets (Nat.le_of_lt hlimit))

/-- If every case leaves the input alone, each of them finds it as it was. -/
theorem turns_of_inputAfter (h : ∀ c ∈ cs, s.inputAfter c input = input) :
    s.turns cs input = cs.map (·, input) := by
  induction cs with
  | nil => rfl
  | cons c cs ih =>
      rw [List.forall_mem_cons] at h
      rw [turns, h.1, ih h.2, List.map_cons]

/-- **The order of cases that leave the input alone** makes no difference to their results. -/
theorem exists_runAll_perm (h : ∀ c ∈ cs, s.inputAfter c io.input = io.input)
    (hrun : s.runAll cs io = .ok (rs, io')) (hperm : cs'.Perm cs) :
    ∃ rs' io'', s.runAll cs' io = .ok (rs', io'') ∧ (cs'.zip rs').Perm (cs.zip rs) := by
  have h' : ∀ c ∈ cs', s.inputAfter c io.input = io.input := fun c hc =>
    h c (hperm.mem_iff.1 hc)
  have hread := (runAll_eq_ok_iff_mapM.1 hrun).1
  rw [turns_of_inputAfter h, mapM_eq_ok_iff, List.forall₂_map_left_iff] at hread
  obtain ⟨rs', hread', hzip⟩ := exists_forall₂_perm hperm hread
  refine ⟨rs', _, runAll_eq_ok_iff_mapM.2 ⟨?_, rfl⟩, hzip⟩
  rwa [turns_of_inputAfter h', mapM_eq_ok_iff, List.forall₂_map_left_iff]

end Suite

end LineMachine
