/-
**Program memory as a log of what was compiled.**

A machine may be used from outside in any order: cells are pushed and popped, opcodes are run, steps
are taken, lines and listings are compiled, and a request that fails is followed by others.  Only
what is compiled changes program memory.  Each compiled line holds the cells of the values that were
compiled onto it, in the order in which that was asked for, and memory reaches as far as the last of
these lines.  So it makes no difference in which order different lines are compiled.

Main definitions:

* `LineMachine.Memory.compileAll`, `LineMachine.Listing.entries` — values compiled one after the
  other, each on its line, and those of a listing;
* `LineMachine.Request`, `LineMachine.Request.run` — **what a machine can be asked for**;
* `LineMachine.Machine.serve` — requests one after the other, whatever comes of them.

Main results:

* `LineMachine.Memory.line_compileAll`, `LineMachine.Memory.size_compileAll_le_iff` — **what memory
  holds**;
* `LineMachine.Machine.memory_serve` — only what is compiled changes memory;
* `LineMachine.Machine.compile_comm`, `LineMachine.Machine.load_perm` — orders that make no
  difference;
* `LineMachine.Machine.serve_logs` — **memory is a log**.
-/

import LineMachine.Proofs.Control
import LineMachine.Proofs.ProgramMemory
import LineMachine.Proofs.Trials

set_option relaxedAutoImplicit false
set_option autoImplicit false

namespace LineMachine

/-! ### Values compiled one after the other -/

/-- The values of a listing, each with the number of its line, in order. -/
def Listing.entries (listing : Listing) : List (Int × Int) :=
  listing.flatMap fun row => row.values.map (Prod.mk row.number)

namespace Memory

variable {m m' : Memory} {entries : List (Int × Int)} {k : Int}

/-- **Compiles values one after the other**, each on its line. -/
def compileAll (m : Memory) (entries : List (Int × Int)) : Memory :=
  entries.foldl (fun m entry => m.compile entry.1 entry.2) m

/-- Loading a listing compiles its values. -/
theorem load_eq (m : Memory) (listing : Listing) :
    m.load listing = m.compileAll listing.entries := by
  simp only [load, compileAll, Listing.entries, List.foldl_flatMap, List.foldl_map]
  rfl

/-- The cells that values become on a line. -/
def cellsOn (entries : List (Int × Int)) (k : Int) : List Cell :=
  if IsCompiled k then (entries.filter (·.1 = k)).map fun entry => Cell.wrap entry.2 else []

/-- **What a line holds**: behind its cells come those of the values that were compiled onto it. -/
theorem line_compileAll (m : Memory) (entries : List (Int × Int)) (k : Int) :
    (m.compileAll entries).line k = m.line k ++ cellsOn entries k := by
  induction entries generalizing m with
  | nil => simp [compileAll, cellsOn]
  | cons entry entries ih =>
      have hcons : m.compileAll (entry :: entries) =
          (m.compile entry.1 entry.2).compileAll entries := rfl
      rw [hcons, ih, line_compile]
      by_cases hk : IsCompiled k
      · by_cases hentry : entry.1 = k
        · simp [cellsOn, hk, hentry]
        · have hne : ¬ k = entry.1 := fun h => hentry h.symm
          simp [cellsOn, hk, hentry, hne]
      · have hreserved : ¬ (k = entry.1 ∧ IsCompiled entry.1) := by
          rintro ⟨rfl, h⟩
          exact hk h
        rw [if_neg hreserved, cellsOn, if_neg hk, cellsOn, if_neg hk]

/-- **How far memory reaches**: as far as it did, and as far as the last line that was compiled. -/
theorem size_compileAll_le_iff (m : Memory) (entries : List (Int × Int)) (n : Nat) :
    (m.compileAll entries).size ≤ n ↔
      m.size ≤ n ∧ ∀ entry ∈ entries, IsCompiled entry.1 → entry.1 < n := by
  induction entries generalizing m with
  | nil => simp [compileAll]
  | cons entry entries ih =>
      have hcons : m.compileAll (entry :: entries) =
          (m.compile entry.1 entry.2).compileAll entries := rfl
      rw [hcons, ih, size_compile, List.forall_mem_cons]
      by_cases hline : IsCompiled entry.1
      · have hfirst := hline.1
        unfold firstLine at hfirst
        have hmax : max m.size (entry.1.toNat + 1) ≤ n ↔ m.size ≤ n ∧ entry.1 < n := by omega
        rw [if_pos hline, hmax]
        simp only [hline, forall_const, and_assoc]
      · rw [if_neg hline]
        simp [hline]

/-- Without a value for a compiled line, memory that was empty has no lines. -/
theorem size_eq_zero (h : ∀ entry ∈ entries, ¬ IsCompiled entry.1) :
    (empty.compileAll entries).size = 0 := by
  have hle := (size_compileAll_le_iff empty entries 0).2
  rw [size_empty] at hle
  have hsize := hle ⟨Nat.le_refl 0, fun entry hentry hline => absurd hline (h entry hentry)⟩
  omega

/-- **The last line of memory** that was empty is the last one that was compiled. -/
theorem exists_last (h : ∃ entry ∈ entries, IsCompiled entry.1) :
    ∃ last ∈ entries, IsCompiled last.1 ∧
      (∀ entry ∈ entries, IsCompiled entry.1 → entry.1 ≤ last.1) ∧
      ((empty.compileAll entries).size : Int) = 1 + last.1 := by
  have hle := size_compileAll_le_iff empty entries
  generalize (empty.compileAll entries).size = size at hle ⊢
  have hlt := ((hle size).1 (Nat.le_refl size)).2
  have hpos : 0 < size := by
    obtain ⟨entry, hentry, hline⟩ := h
    have hfirst := hline.1
    have hsmall := hlt entry hentry hline
    unfold firstLine at hfirst
    omega
  -- memory one line shorter would not hold all of them
  have hshorter : ¬ size ≤ size - 1 := by omega
  rw [hle] at hshorter
  obtain ⟨last, hmem, hline, hlast⟩ :
      ∃ last ∈ entries, IsCompiled last.1 ∧ ¬ last.1 < (size - 1 : Nat) := by
    simpa using hshorter
  have hfirst := hline.1
  have hlast' := hlt last hmem hline
  unfold firstLine at hfirst
  refine ⟨last, hmem, hline, ?_, by omega⟩
  intro entry hentry hcompiled
  have hsmall := hlt entry hentry hcompiled
  omega

/-- Memory is given by its size and its lines. -/
theorem eq_of_line_eq (hsize : m.size = m'.size) (hline : ∀ k, m.line k = m'.line k) : m = m' := by
  obtain ⟨lines⟩ := m
  obtain ⟨lines'⟩ := m'
  have hlines : lines = lines' := by
    refine Array.ext hsize fun i hi hi' => ?_
    have hnonneg : ¬ (i : Int) < 0 := by omega
    simpa [line, row, hnonneg, Array.getElem?_eq_getElem hi, Array.getElem?_eq_getElem hi']
      using hline i
  rw [hlines]

/-! ### Orders that make no difference -/

/-- **Compiling onto different lines** can be done in either order. -/
theorem compile_comm {k' : Int} (m : Memory) (v v' : Int) (hne : k ≠ k') :
    (m.compile k v).compile k' v' = (m.compile k' v').compile k v := by
  refine eq_of_line_eq ?_ fun number => ?_
  · simp only [size_compile]
    by_cases hk : IsCompiled k
    · by_cases hk' : IsCompiled k'
      · simp only [if_pos hk, if_pos hk']
        omega
      · simp only [if_pos hk, if_neg hk']
    · by_cases hk' : IsCompiled k'
      · simp only [if_neg hk, if_pos hk']
      · simp only [if_neg hk, if_neg hk']
  · simp only [line_compile]
    by_cases hnumber : number = k
    · have hother : number ≠ k' := fun h => hne (hnumber.symm.trans h)
      simp [hnumber, hne]
    · simp [hnumber]

/-- **A listing that lists each line once** can be loaded in any order. -/
theorem load_perm (m : Memory) {D D' : Listing} (hnodup : (D.map Row.number).Nodup)
    (hperm : D'.Perm D) : m.load D' = m.load D := by
  have hnodup' : (D'.map Row.number).Nodup := (hperm.map Row.number).nodup_iff.2 hnodup
  refine eq_of_line_eq ?_ fun k => ?_
  · -- memory reaches as far with the same values
    have hmem : ∀ entry, entry ∈ D'.entries ↔ entry ∈ D.entries := by
      intro entry
      exact (hperm.flatMap_right _).mem_iff
    have hle : ∀ n, (m.load D').size ≤ n ↔ (m.load D).size ≤ n := by
      intro n
      simp only [load_eq, size_compileAll_le_iff, hmem]
    have h := (hle (m.load D).size).2 (Nat.le_refl _)
    have h' := (hle (m.load D').size).1 (Nat.le_refl _)
    omega
  · by_cases hlisted : ∃ row ∈ D, row.number = k
    · obtain ⟨row, hrow, rfl⟩ := hlisted
      rw [line_load, line_load, Listing.filter_number_eq hnodup hrow,
        Listing.filter_number_eq hnodup' (hperm.mem_iff.2 hrow)]
    · have hother : ∀ row ∈ D, row.number ≠ k := fun row hrow heq => hlisted ⟨row, hrow, heq⟩
      have hother' : ∀ row ∈ D', row.number ≠ k :=
        fun row hrow => hother row (hperm.mem_iff.1 hrow)
      rw [line_load_of_not_mem m hother, line_load_of_not_mem m hother']

end Memory

/-! ### Requests -/

/-- **What a machine can be asked for** from outside. -/
inductive Request where
  /-- Append a value to a line of program memory. -/
  | compile (line value : Int)
  /-- Append a listing to program memory. -/
  | load (listing : Listing)
  /-- Execute a number as a cell. -/
  | execute (value : Int)
  /-- Push a number on the data stack, as data. -/
  | push (value : Int)
  /-- Take the cell on top of the data stack. -/
  | pop
  /-- Push a number on the return stack. -/
  | pushReturn (value : Int)
  /-- Take the cell on top of the return stack. -/
  | popReturn
  /-- Run an opcode. -/
  | dispatch (opcode : Int)
  /-- Go to the beginning of a line. -/
  | jump (line : Int)
  /-- Name the file that the program came from. -/
  | setFile (name : String)
  /-- Take a step. -/
  | step

namespace Request

/-- **What a request comes to.** -/
def run (m : Machine) : Request → Outcome
  | compile line value => .next (m.compile line value)
  | load listing => .next (m.load listing)
  | execute value => m.execute value
  | push value => .next (m.push value)
  | pop =>
      match m.pop? with
      | some (_, m') => .next m'
      | none => .halt m.dataUnderflow m
  | pushReturn value => .next (m.pushReturn value)
  | popReturn =>
      match m.popReturn? with
      | some (_, m') => .next m'
      | none => .halt m.returnUnderflow m
  | dispatch opcode => m.dispatch opcode
  | jump line => .next (m.jump line)
  | setFile name => .next { m with file := name }
  | step => m.step

/-- The values that a request compiles, each with its line, in order. -/
def compiled : Request → List (Int × Int)
  | compile line value => [(line, value)]
  | load listing => listing.entries
  | _ => []

end Request

namespace Machine

variable {m : Machine}

/-- **Requests one after the other**, whatever comes of them. -/
def serve (m : Machine) (requests : List Request) : Machine :=
  requests.foldl (fun m request => (request.run m).machine) m

/-- Running an opcode leaves program memory alone. -/
theorem memory_dispatch (m : Machine) (opcode : Int) :
    (m.dispatch opcode).machine.memory = m.memory := by
  rcases m.dispatch_staysIn_or_call opcode with h | ⟨line, data, -, h⟩
  · exact h.memory
  · rw [h]
    rfl

/-- Executing a cell leaves program memory alone. -/
theorem memory_execute (m : Machine) (v : Int) : (m.execute v).machine.memory = m.memory := by
  rcases m.execute_staysIn_or_call v with h | ⟨-, line, data, -, h⟩
  · exact h.memory
  · rw [h]
    rfl

/-- **A request changes program memory** by what it compiles. -/
theorem memory_run (m : Machine) (request : Request) :
    (request.run m).machine.memory = m.memory.compileAll request.compiled := by
  cases request with
  | compile line value => rfl
  | load listing => exact Memory.load_eq m.memory listing
  | execute value => exact memory_execute m value
  | dispatch opcode => exact memory_dispatch m opcode
  | step => exact memory_step m
  | push | pushReturn | jump | setFile => rfl
  | pop =>
      simp only [Request.run, pop?]
      cases m.data.pop? with
      | none => rfl
      | some top => rfl
  | popReturn =>
      simp only [Request.run, popReturn?]
      cases m.ret.pop? with
      | none => rfl
      | some top => rfl

/-- **Only what is compiled** changes program memory. -/
theorem memory_serve (m : Machine) (requests : List Request) :
    (m.serve requests).memory = m.memory.compileAll (requests.flatMap Request.compiled) := by
  induction requests generalizing m with
  | nil => rfl
  | cons request requests ih =>
      have hcons : m.serve (request :: requests) = (request.run m).machine.serve requests := rfl
      rw [hcons, ih, memory_run, List.flatMap_cons]
      simp only [Memory.compileAll, List.foldl_append]

/-- **Memory is a log.**  Whatever a fresh machine was asked for, each compiled line holds the cells
of the values that were compiled onto it, in order, and no other line holds any.  Memory reaches as
far as the last of these lines, and every number that can be seen is in range.  Compiling onto
different lines can be done in either order, and so can loading the lines of a listing. -/
theorem serve_logs (input : List Char) (output : Sink) (requests : List Request) :
    let m := (fresh input output).serve requests
    let log := requests.flatMap Request.compiled
    (∀ k, (m.memory.line k).map Int32.toInt =
      if IsCompiled k then
        (log.filter (·.1 = k)).map fun entry => (Cell.wrap entry.2).toInt
      else []) ∧
    (∀ k, m.memory.lineSize k = (m.memory.line k).length) ∧
    ((∀ entry ∈ log, ¬ IsCompiled entry.1) → m.memory.size = 0) ∧
    ((∃ entry ∈ log, IsCompiled entry.1) → ∃ last ∈ log, IsCompiled last.1 ∧
      (∀ entry ∈ log, IsCompiled entry.1 → entry.1 ≤ last.1) ∧
      (m.memory.size : Int) = 1 + last.1) ∧
    (∀ v, v ∈ m.data.numbers ∨ v ∈ m.ret.numbers ∨
      (∃ k, v ∈ (m.memory.line k).map Int32.toInt) → Cell.InRange v) ∧
    (∀ k k' v v', k ≠ k' → (m.compile k v).compile k' v' = (m.compile k' v').compile k v) ∧
    ∀ D D' : Listing, (D.map Row.number).Nodup → D'.Perm D → m.load D' = m.load D := by
  intro m log
  have hmemory : m.memory = Memory.empty.compileAll log :=
    memory_serve (fresh input output) requests
  refine ⟨?_, ?_, ?_, ?_, ?_, ?_, ?_⟩
  · intro k
    rw [hmemory, Memory.line_compileAll, Memory.line_empty, List.nil_append, Memory.cellsOn]
    split
    · rw [List.map_map]
      rfl
    · rfl
  · intro k
    exact (Memory.length_line m.memory k).symm
  · intro h
    rw [hmemory]
    exact Memory.size_eq_zero h
  · intro h
    rw [hmemory]
    exact Memory.exists_last h
  · rintro v (h | h | ⟨k, h⟩)
    · exact Stack.inRange_of_mem_numbers h
    · exact Stack.inRange_of_mem_numbers h
    · obtain ⟨c, -, rfl⟩ := List.mem_map.1 h
      exact Cell.inRange_toInt c
  · intro k k' v v' hne
    exact congrArg (fun memory => { m with memory := memory }) (m.memory.compile_comm v v' hne)
  · intro D D' hnodup hperm
    exact congrArg (fun memory => { m with memory := memory }) (m.memory.load_perm hnodup hperm)

/-- Requests that fail stand between those that compile; one value wraps, and two are refused. -/
theorem serve_logs_between_failures :
    let m := (fresh [] .emptyText).serve [.popReturn, .compile 21 4294967303, .dispatch 0,
      .load [⟨44, [1, 2]⟩, ⟨21, [5]⟩], .compile 42 5, .execute 42, .compile 20 5, .step]
    (m.memory.line 21).map Int32.toInt = [7, 5] ∧ (m.memory.size : Int) = 1 + 44 ∧
      (m.compile 21 1).compile 44 2 = (m.compile 44 2).compile 21 1 ∧
      m.load [⟨44, [1]⟩, ⟨21, [2]⟩] = m.load [⟨21, [2]⟩, ⟨44, [1]⟩] := by
  obtain ⟨hline, -, -, hlast, -, hcompile, hload⟩ := serve_logs [] .emptyText
    [.popReturn, .compile 21 4294967303, .dispatch 0,
      .load [⟨44, [1, 2]⟩, ⟨21, [5]⟩], .compile 42 5, .execute 42, .compile 20 5, .step]
  refine ⟨(hline 21).trans (by decide), ?_, hcompile 21 44 1 2 (by decide), ?_⟩
  · obtain ⟨last, hmem, -, hmax, hsize⟩ := hlast (by decide)
    have hle : 44 ≤ last.1 := hmax (44, 1) (by decide) (by decide)
    have hlog : ∀ entry ∈ [(21, 4294967303), (44, 1), (44, 2), (21, 5), (42, 5), (20, 5)],
        (entry : Int × Int).1 ≤ 44 := by decide
    have hge : last.1 ≤ 44 := hlog last hmem
    omega
  · exact hload [⟨21, [2]⟩, ⟨44, [1]⟩] _ (by decide) (by decide)

end Machine

end LineMachine
