/-
**Emitted output: what steps and runs add to the output.**

A step adds at most one code to the output: if it comes to emitting a cell that is a byte, then that
one.  What it adds is read off the state before it.  So the output of a run is the output at its
start with the codes that were emitted behind it, whatever the stream, and a run that goes on only
adds to them.

Main definitions:

* `LineMachine.Sink.putAll` — several codes written one after the other;
* `LineMachine.Machine.emission` — **what the next step emits**.

Main results:

* `LineMachine.Machine.output_step` — **a step adds what it emits** and nothing else;
* `LineMachine.Machine.exists_output_runFrom` — a run adds to the output;
* `LineMachine.Session.delivered_putAll` — what arrives at the standard output.
-/

import LineMachine.CommandLine.Session
import LineMachine.Proofs.Control
import LineMachine.Proofs.Runs

set_option relaxedAutoImplicit false
set_option autoImplicit false

namespace LineMachine

/-! ### Several codes -/

namespace Sink

/-- **Writes several codes**, one after the other. -/
def putAll (s : Sink) (codes : List UInt8) : Sink := codes.foldl put s

theorem putAll_append (s : Sink) (codes codes' : List UInt8) :
    s.putAll (codes ++ codes') = (s.putAll codes).putAll codes' := List.foldl_append

theorem putAll_bytes (delivered : Array UInt8) (codes : List UInt8) :
    (bytes delivered "").putAll codes = bytes (delivered ++ codes.toArray) "" := by
  induction codes generalizing delivered with
  | nil => simp [putAll]
  | cons code codes ih =>
      have hput : (bytes delivered "").put code = bytes (delivered.push code) "" := by
        simp [put]
      have hcons : (bytes delivered "").putAll (code :: codes) =
          ((bytes delivered "").put code).putAll codes := rfl
      rw [hcons, hput, ih]
      simp

end Sink

/-- **What arrives** at the standard output of a program are the codes that it wrote. -/
theorem Session.delivered_putAll (codes : List UInt8) :
    Session.delivered (Sink.emptyBytes.putAll codes) = codes.toArray := by
  rw [Sink.emptyBytes, Sink.putAll_bytes]
  simp [delivered, Sink.flush]

/-! ### What an operation emits -/

namespace Machine

/-- The codes that emitting a cell adds to the output: the cell itself, if it is a byte other than
255. -/
def codesOf (c : Cell) : List UInt8 := if 0 ≤ c ∧ c < 255 then [c.toInt.toNat.toUInt8] else []

theorem emitted_eq (output : Sink) (c : Cell) : emitted output c = output.putAll (codesOf c) := by
  unfold emitted codesOf
  split
  · rfl
  · rfl

/-- The codes that an action adds to the output, given the data stack with its top first. -/
def actionCodes : Action → List Cell → List UInt8
  | .emit, c :: _ => codesOf c
  | _, _ => []

/-- The codes that running an opcode adds to the output. -/
def dispatchCodes (opcode : Int) (cells : List Cell) : List UInt8 :=
  match resolve opcode cells with
  | some (.act a, rest) => actionCodes a rest
  | _ => []

/-- **What the next step emits.** -/
def emission (m : Machine) : List UInt8 :=
  match m.memory.fetch m.ip, m.data.topFirst with
  | .cell c, opcode :: cells => if c.toInt = callCell then dispatchCodes opcode.toInt cells else []
  | _, _ => []

/-- An action that is not to emit leaves the output alone. -/
theorem output_perform_of_ne {a : Action} (ha : a ≠ .emit) (m : Machine) :
    (m.perform a).machine.output = m.output := by
  unfold perform
  split
  case h_1 o right left rest hdata =>
    cases o.apply left right with
    | some c => rfl
    | none => rfl
  case h_9 c rest hdata =>
    split
    · rfl
    · rfl
  case h_11 => exact absurd rfl ha
  case h_12 =>
    cases m.input with
    | nil => rfl
    | cons c input => rfl
  all_goals rfl

theorem output_perform (m : Machine) (a : Action) :
    (m.perform a).machine.output = m.output.putAll (actionCodes a m.data.topFirst) := by
  by_cases ha : a = .emit
  · subst ha
    rcases hdata : m.data.topFirst with _ | ⟨c, rest⟩
    · simp only [perform, hdata]
      rfl
    · simp only [perform, hdata]
      exact emitted_eq m.output c
  · have hcodes : actionCodes a m.data.topFirst = [] := by
      unfold actionCodes
      split
      · exact absurd rfl ha
      · rfl
    rw [output_perform_of_ne ha, hcodes]
    rfl

theorem output_dispatch (m : Machine) (opcode : Int) :
    (m.dispatch opcode).machine.output =
      m.output.putAll (dispatchCodes opcode m.data.topFirst) := by
  unfold dispatch dispatchCodes
  cases resolve opcode m.data.topFirst with
  | none => rfl
  | some found =>
      obtain ⟨leaf, rest⟩ := found
      cases leaf with
      | nothing => rfl
      | call line => rfl
      | act a => exact output_perform { m with data := ⟨rest⟩ } a

theorem output_comeBack (m : Machine) : m.comeBack.machine.output = m.output := by
  unfold comeBack popReturn?
  rcases m.ret with ⟨_ | ⟨col, _ | ⟨line, rest⟩⟩⟩
  · rfl
  · rfl
  · rfl

theorem output_execute (m : Machine) (v : Int) :
    (m.execute v).machine.output = m.output.putAll
      (match m.data.topFirst with
        | [] => []
        | opcode :: cells => if v = callCell then dispatchCodes opcode.toInt cells else []) := by
  unfold execute pop?
  rcases hdata : m.data with ⟨_ | ⟨opcode, cells⟩⟩
  · split
    · rfl
    · rfl
  · split
    · exact output_dispatch { m with data := ⟨cells⟩ } opcode.toInt
    · rfl

/-- **A step adds what it emits** to the output, and nothing else. -/
theorem output_step (m : Machine) : m.step.machine.output = m.output.putAll m.emission := by
  unfold step emission
  cases m.memory.fetch m.ip with
  | outside => rfl
  | missing => rfl
  | lineEnd => exact output_comeBack m
  | cell c =>
      have hexecute := output_execute m.advance c.toInt
      simp only [advance] at hexecute ⊢
      rw [hexecute]
      cases m.data.topFirst with
      | nil => rfl
      | cons opcode cells => rfl

/-! ### What a run emits -/

/-- **A run adds to the output** what its steps emit. -/
theorem exists_output_runFrom (stop : Machine → Bool) (limit done : Nat) (m : Machine) :
    ∃ codes, (runFrom stop limit done m).machine.output = m.output.putAll codes := by
  induction limit generalizing done m with
  | zero =>
      refine ⟨[], ?_⟩
      unfold runFrom
      split
      · rfl
      · rfl
  | succ limit ih =>
      cases hstop : stop m with
      | true =>
          rw [runFrom_of_stop hstop]
          exact ⟨[], rfl⟩
      | false =>
          have hstepout := m.output_step
          cases hstep : m.step with
          | next m' =>
              rw [hstep] at hstepout
              obtain ⟨codes, hcodes⟩ := ih (done + 1) m'
              rw [runFrom_succ hstop hstep]
              refine ⟨m.emission ++ codes, ?_⟩
              rw [hcodes, Sink.putAll_append, ← hstepout]
              rfl
          | halt f m' =>
              rw [hstep] at hstepout
              rw [runFrom_succ_halt hstop hstep]
              exact ⟨m.emission, hstepout⟩

end Machine

end LineMachine
