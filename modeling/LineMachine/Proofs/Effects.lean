/-
**Effects: what a cell does, wherever it stands.**

What executing a cell does is found on the data stack and in the input.  Program memory, the
instruction pointer and the return stack have no part in it; they only say where the machine goes on.
So the same cell has the same effect in another place, in another program and on another return
stack.

Main definitions:

* `LineMachine.Effect`, `LineMachine.Effect.on` — **what a cell can do** to a machine;
* `LineMachine.Machine.placed` — a machine in another place;
* `LineMachine.Machine.HasEffect` — an operation has the same effect in every place;
* `LineMachine.Machine.Restarts` — the next step restarts its line.

Main results:

* `LineMachine.Machine.hasEffect_perform`, `LineMachine.Machine.hasEffect_dispatch`,
  `LineMachine.Machine.hasEffect_execute` — **what executing a cell does depends on the data stack
  and the input alone**;
* `LineMachine.Machine.exists_effect_of_step` — the effect of a step.
-/

import LineMachine.Proofs.Control

set_option relaxedAutoImplicit false
set_option autoImplicit false

namespace LineMachine

/-- **What a cell can do** to a machine. -/
inductive Effect where
  /-- Go on behind the cell, with other data and other streams. -/
  | goOn (data : Stack Cell) (input : List Char) (output : Sink)
  /-- Restart the line. -/
  | restart (data : Stack Cell)
  /-- Call a line. -/
  | call (line : Int) (data : Stack Cell)

/-- The machine after an effect. -/
def Effect.on (m : Machine) : Effect → Machine
  | goOn data input output => { m with data := data, input := input, output := output }
  | restart data => { m with data := data }.jump m.ip.line
  | call line data => { m with data := data }.call line

namespace Machine

variable {m m' : Machine}

/-- The machine in another place: in another program, at another address and on another return
stack. -/
def placed (m : Machine) (memory : Memory) (ip : Place) (ret : Stack Cell) : Machine :=
  { m with memory := memory, ip := ip, ret := ret }

/-- An operation has an effect in every place. -/
def Has (m : Machine) (op : Machine → Outcome) (e : Effect) : Prop :=
  ∀ memory ip ret, op (m.placed memory ip ret) = .next (e.on (m.placed memory ip ret))

theorem Has.self {op : Machine → Outcome} {e : Effect} (h : m.Has op e) : op m = .next (e.on m) :=
  h m.memory m.ip m.ret

/-- An operation has an effect in every place, and restarts the line only as a loop does. -/
def HasEffect (m : Machine) (op : Machine → Outcome) (restarts : Prop) : Prop :=
  ∃ e, m.Has op e ∧ ∀ data, e = .restart data → restarts

theorem hasEffect_of_goOn {op : Machine → Outcome} {restarts : Prop} (data : Stack Cell)
    (input : List Char) (output : Sink) (h : m.Has op (.goOn data input output)) :
    m.HasEffect op restarts :=
  ⟨.goOn data input output, h, by simp⟩

/-- **What an action does** depends on the data stack and the input alone. -/
theorem hasEffect_perform {a : Action} (h : m.perform a = .next m') :
    m.HasEffect (·.perform a)
      (a = .loop ∧ ∃ top rest, m.data.topFirst = top :: rest ∧ top ≠ 0) := by
  cases a with
  | operator o =>
      rcases hdata : m.data.topFirst with _ | ⟨right, _ | ⟨left, rest⟩⟩
      · simp [perform, hdata] at h
      · simp [perform, hdata] at h
      · cases happly : o.apply left right with
        | none => simp [perform, hdata, happly] at h
        | some c =>
            refine hasEffect_of_goOn ⟨c :: rest⟩ m.input m.output fun _ _ _ => ?_
            simp only [perform, placed, hdata, happly]
            rfl
  | not =>
      rcases hdata : m.data.topFirst with _ | ⟨c, rest⟩
      · simp [perform, hdata] at h
      · refine hasEffect_of_goOn ⟨Cell.ofBool (c == 0) :: rest⟩ m.input m.output fun _ _ _ => ?_
        simp only [perform, placed, hdata]
        rfl
  | swap =>
      rcases hdata : m.data.topFirst with _ | ⟨b, _ | ⟨a, rest⟩⟩
      · simp [perform, hdata] at h
      · simp [perform, hdata] at h
      · refine hasEffect_of_goOn ⟨a :: b :: rest⟩ m.input m.output fun _ _ _ => ?_
        simp only [perform, placed, hdata]
        rfl
  | dup =>
      rcases hdata : m.data.topFirst with _ | ⟨c, rest⟩
      · simp [perform, hdata] at h
      · refine hasEffect_of_goOn ⟨c :: c :: rest⟩ m.input m.output fun _ _ _ => ?_
        simp only [perform, placed, hdata]
        rfl
  | drop =>
      rcases hdata : m.data.topFirst with _ | ⟨c, rest⟩
      · simp [perform, hdata] at h
      · refine hasEffect_of_goOn ⟨rest⟩ m.input m.output fun _ _ _ => ?_
        simp only [perform, placed, hdata]
        rfl
  | loop =>
      rcases hdata : m.data.topFirst with _ | ⟨c, rest⟩
      · simp [perform, hdata] at h
      · by_cases hc : c = 0
        · refine hasEffect_of_goOn ⟨rest⟩ m.input m.output fun _ _ _ => ?_
          simp only [perform, placed, hdata, if_pos hc]
          rfl
        · refine ⟨.restart m.data, fun _ _ _ => ?_, fun _ _ => ⟨rfl, c, rest, rfl, hc⟩⟩
          simp only [perform, placed, hdata, if_neg hc]
          rfl
  | emit =>
      rcases hdata : m.data.topFirst with _ | ⟨c, rest⟩
      · simp [perform, hdata] at h
      · refine hasEffect_of_goOn ⟨rest⟩ m.input (emitted m.output c) fun _ _ _ => ?_
        simp only [perform, placed, hdata]
        rfl
  | read =>
      cases hinput : m.input with
      | nil =>
          refine hasEffect_of_goOn ⟨-1 :: m.data.topFirst⟩ [] m.output fun _ _ _ => ?_
          simp only [perform, placed, hinput]
          rfl
      | cons c input =>
          refine hasEffect_of_goOn ⟨Cell.wrap c.toNat :: m.data.topFirst⟩ input m.output
            fun _ _ _ => ?_
          simp only [perform, placed, hinput]
          rfl
  | exit =>
      rcases hdata : m.data.topFirst with _ | ⟨c, rest⟩
      · simp [perform, hdata] at h
      · simp [perform, hdata] at h

/-- Whether an opcode on top of cells leads to a loop that restarts the line. -/
def LeadsBack (opcode : Int) (cells : List Cell) : Prop :=
  ∃ top rest, resolve opcode cells = some (.act .loop, top :: rest) ∧ top ≠ 0

/-- **What running an opcode does** depends on the data stack and the input alone. -/
theorem hasEffect_dispatch {opcode : Int} (h : m.dispatch opcode = .next m') :
    m.HasEffect (·.dispatch opcode) (LeadsBack opcode m.data.topFirst) := by
  unfold dispatch at h
  cases hleaf : resolve opcode m.data.topFirst with
  | none => simp [hleaf] at h
  | some found =>
      obtain ⟨leaf, rest⟩ := found
      rw [hleaf] at h
      -- what the branches leave has the same effect in every place
      have hplaced (memory : Memory) (ip : Place) (ret : Stack Cell) :
          resolve opcode (m.placed memory ip ret).data.topFirst = some (leaf, rest) := hleaf
      cases leaf with
      | nothing =>
          refine hasEffect_of_goOn ⟨rest⟩ m.input m.output fun memory ip ret => ?_
          simp only [dispatch, hplaced]
          rfl
      | act a =>
          obtain ⟨e, he, hrestart⟩ := hasEffect_perform (m := { m with data := ⟨rest⟩ }) h
          refine ⟨e, fun memory ip ret => ?_, fun data hdata => ?_⟩
          · simp only [dispatch, hplaced]
            refine (he memory ip ret).trans ?_
            cases e <;> rfl
          · obtain ⟨rfl, top, below, hrest, htop⟩ := hrestart data hdata
            exact ⟨top, below, by rw [hleaf, ← hrest], htop⟩
      | call line =>
          refine ⟨.call line ⟨rest⟩, fun memory ip ret => ?_, by simp⟩
          simp only [dispatch, hplaced]
          rfl

/-- **What executing a cell does** depends on the data stack and the input alone. -/
theorem hasEffect_execute {v : Int} (h : m.execute v = .next m') :
    m.HasEffect (·.execute v) (v = callCell ∧
      ∃ opcode cells, m.data.topFirst = opcode :: cells ∧ LeadsBack opcode.toInt cells) := by
  unfold execute at h
  by_cases hv : v = callCell
  · rw [if_pos hv] at h
    rcases hdata : m.data.topFirst with _ | ⟨opcode, cells⟩
    · simp [pop?, Stack.pop?, hdata] at h
    · have hpop (memory : Memory) (ip : Place) (ret : Stack Cell) :
          (m.placed memory ip ret).pop? =
            some (opcode, ({ m with data := ⟨cells⟩ } : Machine).placed memory ip ret) := by
        simp [pop?, Stack.pop?, placed, hdata]
      have hself : m.pop? = some (opcode, { m with data := ⟨cells⟩ }) := hpop _ _ _
      rw [hself] at h
      obtain ⟨e, he, hrestart⟩ := hasEffect_dispatch h
      refine ⟨e, fun memory ip ret => ?_, fun data hdata => ?_⟩
      · simp only [execute, if_pos hv, hpop]
        refine (he memory ip ret).trans ?_
        cases e <;> rfl
      · exact ⟨hv, opcode, cells, rfl, hrestart data hdata⟩
  · refine hasEffect_of_goOn (m.data.push (Cell.wrap v)) m.input m.output fun memory ip ret => ?_
    simp only [execute, if_neg hv]
    rfl

/-! ### One step -/

/-- **The next step restarts its line**: it executes the call cell, and the opcode below it leads,
by itself or through branches, to a loop with something else than zero on top. -/
def Restarts (m : Machine) : Prop :=
  ∃ c opcode cells, m.memory.fetch m.ip = .cell c ∧ c.toInt = callCell ∧
    m.data.topFirst = opcode :: cells ∧ LeadsBack opcode.toInt cells

/-- A cell at an address has an effect. -/
def Performs (m : Machine) (c : Cell) (e : Effect) : Prop :=
  ∀ memory ip ret, memory.fetch ip = .cell c →
    (m.placed memory ip ret).step = .next (e.on (m.placed memory ip ret).advance)

/-- **The effect of a step at a cell** is the effect of that cell in every place. -/
theorem exists_effect_of_step {c : Cell} (hf : m.memory.fetch m.ip = .cell c)
    (h : m.step = .next m') :
    ∃ e, m.Performs c e ∧ m' = e.on m.advance ∧ ∀ data, e = .restart data → m.Restarts := by
  have hexecute : m.advance.execute c.toInt = .next m' := by
    simpa only [step, hf] using h
  obtain ⟨e, he, hrestart⟩ := hasEffect_execute hexecute
  have hself := he.self
  rw [hexecute] at hself
  refine ⟨e, fun memory ip ret hfetch => ?_, Outcome.next.inj hself, fun data hdata => ?_⟩
  · have hplaced : (m.placed memory ip ret).memory.fetch (m.placed memory ip ret).ip = .cell c :=
      hfetch
    simp only [step, hplaced]
    exact he memory ⟨ip.line, ip.col + 1⟩ ret
  · obtain ⟨hc, opcode, cells, htop, hback⟩ := hrestart data hdata
    exact ⟨c, opcode, cells, hf, hc, htop, hback⟩

end Machine

end LineMachine
