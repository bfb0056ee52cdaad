/-
**Program memory.**

Program memory is a list of lines, each a list of cells.  A line is addressed by its number, which
may be any whole number: outside memory a line holds nothing.  Memory only ever grows, by one cell
at the end of one line.

Main definitions:

* `LineMachine.Memory` — program memory;
* `LineMachine.Memory.compile` — append a cell to a line;
* `LineMachine.Memory.line`, `LineMachine.Memory.size` — what it holds;
* `LineMachine.Place`, `LineMachine.Memory.fetch` — an address, and what the machine finds there.

Main results:

* `LineMachine.Memory.line_compile` — a cell is appended to its own line and to no other;
* `LineMachine.Memory.size_compile` — memory grows just enough to hold the line.
-/

import LineMachine.Cell

set_option relaxedAutoImplicit false
set_option autoImplicit false

namespace LineMachine

/-- **Program memory**: the lines from number zero on. -/
structure Memory where
  lines : Array (Array Cell)
  deriving DecidableEq, Repr

namespace Memory

/-- Memory without lines. -/
def empty : Memory := ⟨#[]⟩

/-- The number of lines, with those that are empty or reserved. -/
def size (m : Memory) : Nat := m.lines.size

/-- The cells of a line as they are stored. -/
def row (m : Memory) (number : Int) : Array Cell :=
  if number < 0 then #[] else m.lines[number.toNat]?.getD #[]

/-- **The cells of a line.**  A line outside memory has none. -/
def line (m : Memory) (number : Int) : List Cell := (m.row number).toList

/-- The number of cells of a line. -/
def lineSize (m : Memory) (number : Int) : Nat := (m.row number).size

/-- **Appends a value to a line**, growing memory as far as that line.  Nothing can be put on a
reserved line. -/
def compile (m : Memory) (number value : Int) : Memory :=
  if IsCompiled number then
    ⟨(m.lines.rightpad (number.toNat + 1) #[]).modify number.toNat (·.push (Cell.wrap value))⟩
  else m

/-! ### The view -/

@[simp] theorem size_empty : empty.size = 0 := rfl

@[simp] theorem line_empty (number : Int) : empty.line number = [] := by
  simp [line, row, empty]

@[simp] theorem length_line (m : Memory) (number : Int) :
    (m.line number).length = m.lineSize number := by
  simp [line, lineSize]

/-- Memory grows just enough to hold the line. -/
theorem size_compile (m : Memory) (number value : Int) :
    (m.compile number value).size =
      if IsCompiled number then max m.size (number.toNat + 1) else m.size := by
  by_cases h : IsCompiled number
  · simp only [compile, if_pos h, size, Array.size_modify, Array.rightpad, Array.size_append,
      Array.size_replicate]
    omega
  · simp [compile, h]

private theorem getD_rightpad (a : Array (Array Cell)) (n i : Nat) :
    (a.rightpad n #[])[i]?.getD #[] = a[i]?.getD #[] := by
  simp only [Array.rightpad, Array.getElem?_append]
  split
  · rfl
  · rename_i h
    rw [Array.getElem?_eq_none (by omega : a.size ≤ i), Array.getElem?_replicate]
    split <;> rfl

/-- **A cell is appended to its own line and to no other.** -/
theorem line_compile (m : Memory) (number value k : Int) :
    (m.compile number value).line k =
      if k = number ∧ IsCompiled number then m.line k ++ [Cell.wrap value] else m.line k := by
  by_cases h : IsCompiled number
  · have hpos : 0 ≤ number := by have := h.1; unfold firstLine at this; omega
    have hlt : number.toNat < (m.lines.rightpad (number.toNat + 1) #[]).size := by
      simp only [Array.rightpad, Array.size_append, Array.size_replicate]
      omega
    by_cases hk : k < 0
    · have hne : k ≠ number := by omega
      simp [line, row, hk, hne]
    · simp only [compile, if_pos h, line, row, if_neg hk, Array.getElem?_modify]
      by_cases hkn : k = number
      · subst hkn
        have hpad := getD_rightpad m.lines (k.toNat + 1) k.toNat
        obtain ⟨r, hr⟩ : ∃ r, (m.lines.rightpad (k.toNat + 1) #[])[k.toNat]? = some r :=
          ⟨_, Array.getElem?_eq_getElem hlt⟩
        simp only [hr, Option.getD_some] at hpad
        rw [if_pos rfl, hr, if_pos ⟨rfl, h⟩, ← hpad]
        simp
      · have hne : number.toNat ≠ k.toNat := by omega
        rw [if_neg hne, getD_rightpad, if_neg (by simp [hkn])]
  · simp [compile, h]

end Memory

/-! ### Addresses -/

/-- **An address in program memory**: a line and a column.  Either may lie outside memory. -/
structure Place where
  line : Int
  col : Int
  deriving DecidableEq, Repr

/-- The text of an address. -/
def Place.render (p : Place) : String := s!"({p.line}, {p.col})"

/-- The beginning of a line. -/
def Place.start (line : Int) : Place := ⟨line, 0⟩

/-- What stands at an address. -/
inductive Fetched where
  /-- The line lies outside memory. -/
  | outside
  /-- A cell of the line. -/
  | cell (c : Cell)
  /-- The column lies behind the last cell of the line. -/
  | lineEnd
  /-- A negative column that reaches back before the first cell of the line. -/
  | missing
  deriving DecidableEq, Repr

/-- **What stands at an address.**  A negative column counts from the end of the line. -/
def Memory.fetch (m : Memory) (p : Place) : Fetched :=
  if p.line < 0 ∨ m.size ≤ p.line then .outside
  else
    let row := m.row p.line
    if row.size ≤ p.col then .lineEnd
    else
      let i := if p.col < 0 then p.col + row.size else p.col
      if i < 0 then .missing
      else
        match row[i.toNat]? with
        | some c => .cell c
        | none => .missing

end LineMachine
