/-
**Cells: the only values of the machine.**

A cell is a signed 32-bit number.  It is data, an opcode and a line address alike, so everything
that the machine stores is one.  Whole numbers come in from outside (source text, test cases, the
command line) and are wrapped to a cell when they are stored.

Main definitions:

* `LineMachine.Cell`, `LineMachine.Cell.wrap` — cells, and the cell that a whole number wraps to;
* `LineMachine.Cell.InRange` — the whole numbers that a cell can hold;
* `LineMachine.callCell` — the value that calls what lies below it;
* `LineMachine.firstLine`, `LineMachine.IsCompiled` — the lines that a program may define.

Main results:

* `LineMachine.Cell.toInt_wrap_of_inRange` — wrapping keeps every number in range;
* `LineMachine.Cell.inRange_toInt` — every cell is in range.
-/

set_option relaxedAutoImplicit false
set_option autoImplicit false

namespace LineMachine

/-! ### Values -/

/-- **A cell**: a signed 32-bit number, whose arithmetic wraps around. -/
abbrev Cell := Int32

namespace Cell

/-- How many cells there are: two to the power of 32. -/
def count : Nat := 4294967296

/-- The first whole number beyond the cells: two to the power of 31. -/
def bound : Int := 2147483648

/-- The cell that a whole number wraps to: the one congruent to it modulo `count`. -/
def wrap (v : Int) : Cell := Int32.ofInt v

/-- The whole numbers that a cell holds without wrapping. -/
def InRange (v : Int) : Prop := -bound ≤ v ∧ v < bound

instance (v : Int) : Decidable (InRange v) := inferInstanceAs (Decidable (_ ∧ _))

theorem toInt_wrap (v : Int) : (wrap v).toInt = v.bmod count := Int32.toInt_ofInt

@[simp] theorem wrap_toInt (c : Cell) : wrap c.toInt = c := Int32.ofInt_toInt c

/-- Every cell is in range. -/
theorem inRange_toInt (c : Cell) : InRange c.toInt :=
  ⟨Int32.le_toInt c, Int32.toInt_lt c⟩

/-- Wrapping keeps a number that is in range. -/
theorem toInt_wrap_of_inRange {v : Int} (h : InRange v) : (wrap v).toInt = v := by
  obtain ⟨hlo, hhi⟩ := h
  rw [toInt_wrap]
  simp only [bound] at hlo hhi
  exact Int.bmod_eq_of_le (by simp only [count]; omega) (by simp only [count]; omega)

/-- The numbers of the cells of numbers in range are those numbers. -/
theorem map_toInt_map_wrap {vs : List Int} (h : ∀ v ∈ vs, InRange v) :
    (vs.map wrap).map Int32.toInt = vs := by
  have hkeep : vs.map (Int32.toInt ∘ wrap) = vs.map id :=
    List.map_congr_left fun v hv => toInt_wrap_of_inRange (h v hv)
  rw [List.map_map, hkeep, List.map_id]

/-- Truth as a cell: `1` or `0`. -/
def ofBool (b : Bool) : Cell := if b then 1 else 0

end Cell

/-! ### Reserved numbers -/

/-- The value that calls: when it is pushed, the cell below it is taken and run. -/
def callCell : Int := 42

/-- The first line that a program may define.  Opcodes below it are intrinsics. -/
def firstLine : Int := 21

/-- The lines that hold program cells.  Lines below `firstLine` are headers, and no line can be
called by the number that calls. -/
def IsCompiled (line : Int) : Prop := firstLine ≤ line ∧ line ≠ callCell

instance (line : Int) : Decidable (IsCompiled line) := inferInstanceAs (Decidable (_ ∧ _))

end LineMachine
