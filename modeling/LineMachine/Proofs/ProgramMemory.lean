/-
**Program memory: what stands at an address, and what loading puts there.**

`LineMachine.Memory.fetch` tells lines outside memory, cells, line ends and columns before the
beginning of a line apart.  For the addresses that a run meets, whose column is not negative, it
is a plain look-up in the line.  Memory that is filled from empty holds cells on compiled lines
only, and the size of a listing bounds the size of the memory that it is loaded into.

Main definitions:

* `LineMachine.Memory.Fits` — every address behind a cell can be saved as two cells;
* `LineMachine.Memory.Built` — memory that was filled from empty;
* `LineMachine.Listing.Fits` — a listing whose memory fits.

Main results:

* `LineMachine.Memory.fetch_of_nonneg`, `LineMachine.Memory.fetch_eq_cell`,
  `LineMachine.Memory.fetch_eq_lineEnd` — looking up a column that is not negative;
* `LineMachine.Memory.Built.isCompiled` — only compiled lines hold cells;
* `LineMachine.Memory.line_load`, `LineMachine.Memory.size_load_le` — **what a listing becomes**;
* `LineMachine.Memory.line_load_of_mem`, `LineMachine.Memory.line_load_of_not_mem` — the same of a
  line that is listed once, and of one that is not;
* `LineMachine.Memory.fits_load` — a listing that fits is loaded into memory that fits.
-/

import LineMachine.Source.Listing

set_option relaxedAutoImplicit false
set_option autoImplicit false

namespace LineMachine

namespace Memory

/-! ### Looking up an address -/

theorem fetch_of_outside {m : Memory} {p : Place} (h : p.line < 0 ∨ m.size ≤ p.line) :
    m.fetch p = .outside := by
  simp only [fetch, if_pos h]

/-- **A column that is not negative** is looked up in its line; behind the last cell the line
ends. -/
theorem fetch_of_nonneg {m : Memory} {p : Place} (hline : 0 ≤ p.line) (hlt : p.line < m.size)
    (hcol : 0 ≤ p.col) :
    m.fetch p = match (m.line p.line)[p.col.toNat]? with
      | some c => .cell c
      | none => .lineEnd := by
  have hin : ¬ (p.line < 0 ∨ m.size ≤ p.line) := by omega
  have hnonneg : ¬ p.col < 0 := by omega
  simp only [fetch, if_neg hin, if_neg hnonneg, line, Array.getElem?_toList]
  by_cases hend : (m.row p.line).size ≤ p.col
  · rw [if_pos hend, Array.getElem?_eq_none (by omega)]
  · rw [if_neg hend, Array.getElem?_eq_getElem (by omega)]

/-- Where a cell stands at an address, the address lies in memory, and its column within the size
of its line, forwards or backwards. -/
theorem bounds_of_fetch_eq_cell {m : Memory} {p : Place} {c : Cell} (h : m.fetch p = .cell c) :
    0 ≤ p.line ∧ p.line < m.size ∧ -(m.lineSize p.line : Int) ≤ p.col ∧
      p.col < m.lineSize p.line := by
  by_cases hout : p.line < 0 ∨ m.size ≤ p.line
  · rw [fetch_of_outside hout] at h
    cases h
  · simp only [fetch, if_neg hout] at h
    by_cases hend : (m.row p.line).size ≤ p.col
    · rw [if_pos hend] at h
      cases h
    · rw [if_neg hend] at h
      refine ⟨by omega, by omega, ?_, by unfold lineSize; omega⟩
      -- a column that reaches back before the first cell would be missing
      by_cases hlo : p.col < -(m.lineSize p.line : Int)
      · have hneg : p.col < 0 := by omega
        have hmissing : p.col + (m.row p.line).size < 0 := by unfold lineSize at hlo; omega
        rw [if_pos hneg, if_pos hmissing] at h
        cases h
      · omega

/-- Where a cell stands at a column that is not negative, the line holds it there. -/
theorem getElem?_of_fetch_eq_cell {m : Memory} {p : Place} {c : Cell} (h : m.fetch p = .cell c)
    (hcol : 0 ≤ p.col) : (m.line p.line)[p.col.toNat]? = some c := by
  obtain ⟨hline, hlt, -, -⟩ := bounds_of_fetch_eq_cell h
  rw [fetch_of_nonneg hline hlt hcol] at h
  split at h
  · rename_i hc
    rw [hc]
    simpa using h
  · cases h

/-- Where a line ends, the address lies in memory. -/
theorem bounds_of_fetch_eq_lineEnd {m : Memory} {p : Place} (h : m.fetch p = .lineEnd) :
    0 ≤ p.line ∧ p.line < m.size := by
  by_cases hout : p.line < 0 ∨ m.size ≤ p.line
  · rw [fetch_of_outside hout] at h
    cases h
  · omega

/-- No column is missing unless it is negative. -/
theorem fetch_ne_missing {m : Memory} {p : Place} (hcol : 0 ≤ p.col) : m.fetch p ≠ .missing := by
  by_cases hout : p.line < 0 ∨ m.size ≤ p.line
  · rw [fetch_of_outside hout]
    simp
  · rw [fetch_of_nonneg (by omega) (by omega) hcol]
    split <;> simp

/-- The beginning of an empty line in memory is its end. -/
theorem fetch_start_of_line_eq_nil {m : Memory} {number : Int} (hline : 0 ≤ number)
    (hlt : number < m.size) (h : m.line number = []) : m.fetch (.start number) = .lineEnd := by
  rw [fetch_of_nonneg hline hlt (Int.le_refl 0)]
  simp [Place.start, h]

/-! ### Lines that hold cells -/

/-- What stands at an address depends on its line and on the size of memory alone. -/
theorem fetch_congr {m m' : Memory} {p : Place} (hsize : m'.size = m.size)
    (hline : m'.line p.line = m.line p.line) : m'.fetch p = m.fetch p := by
  have hrow : m'.row p.line = m.row p.line := Array.toList_inj.1 hline
  unfold fetch
  rw [hsize, hrow]

theorem lineSize_eq_zero_of_neg {m : Memory} {number : Int} (h : number < 0) :
    m.lineSize number = 0 := by
  simp [lineSize, row, h]

/-- A line that holds cells lies in memory. -/
theorem lt_size_of_line_ne_nil {m : Memory} {number : Int} (h : m.line number ≠ []) :
    number < m.size := by
  refine Int.not_le.1 fun hle => h ?_
  have hnonneg : ¬ number < 0 := by omega
  have hout : m.lines.size ≤ number.toNat := by
    unfold size at hle
    omega
  simp [line, row, hnonneg, Array.getElem?_eq_none hout]

/-- Its number is not negative either. -/
theorem bounds_of_line_ne_nil {m : Memory} {number : Int} (h : m.line number ≠ []) :
    0 ≤ number ∧ number < m.size := by
  refine ⟨Int.not_lt.1 fun hneg => h ?_, lt_size_of_line_ne_nil h⟩
  rw [← List.length_eq_zero_iff, length_line]
  exact lineSize_eq_zero_of_neg hneg

/-- **A cell stands behind those in front of it.** -/
theorem fetch_eq_cell {m : Memory} {number : Int} {front rest : List Cell} {c : Cell}
    (h : m.line number = front ++ c :: rest) : m.fetch ⟨number, front.length⟩ = .cell c := by
  have hne : m.line number ≠ [] := by simp [h]
  obtain ⟨hline, hlt⟩ := bounds_of_line_ne_nil hne
  rw [fetch_of_nonneg hline hlt (Int.natCast_nonneg _), h]
  simp

/-- Behind its last cell a line ends. -/
theorem fetch_eq_lineEnd {m : Memory} {number : Int} (h : m.line number ≠ []) :
    m.fetch ⟨number, (m.line number).length⟩ = .lineEnd := by
  obtain ⟨hline, hlt⟩ := bounds_of_line_ne_nil h
  rw [fetch_of_nonneg hline hlt (Int.natCast_nonneg _)]
  simp

/-! ### Memory whose addresses fit into cells -/

/-- **Memory that fits**: the number of every line, and the column behind each of its cells, can
be saved as a cell. -/
def Fits (m : Memory) : Prop :=
  (m.size : Int) ≤ Cell.bound ∧ ∀ row ∈ m.lines, (row.size : Int) < Cell.bound

instance (m : Memory) : Decidable m.Fits := inferInstanceAs (Decidable (_ ∧ _))

theorem Fits.lineSize_lt {m : Memory} (h : m.Fits) (number : Int) :
    (m.lineSize number : Int) < Cell.bound := by
  have hpos : (0 : Int) < Cell.bound := by decide
  by_cases hneg : number < 0
  · rw [lineSize_eq_zero_of_neg hneg]
    exact hpos
  · simp only [lineSize, row, if_neg hneg]
    cases hrow : m.lines[number.toNat]? with
    | none => exact hpos
    | some row => exact h.2 row (Array.mem_of_getElem? hrow)

/-- The lines of memory fit if each of them, looked up by its number, does. -/
theorem fits_of_lineSize_lt {m : Memory} (hsize : (m.size : Int) ≤ Cell.bound)
    (h : ∀ number, (m.lineSize number : Int) < Cell.bound) : m.Fits := by
  refine ⟨hsize, fun row hrow => ?_⟩
  obtain ⟨i, hi⟩ := Array.getElem?_of_mem hrow
  have hnumber := h i
  simpa [lineSize, Memory.row, hi, show ¬ (i : Int) < 0 by omega] using hnumber

/-- The address of a cell in memory that fits, and the address behind it, can be saved. -/
theorem Fits.inRange {m : Memory} (h : m.Fits) {p : Place} {c : Cell}
    (hp : m.fetch p = .cell c) : Cell.InRange p.line ∧ Cell.InRange (p.col + 1) := by
  obtain ⟨hline, hlt, hlo, hhi⟩ := bounds_of_fetch_eq_cell hp
  have hsize := h.1
  have hcols := h.lineSize_lt p.line
  simp only [Cell.InRange, Cell.bound] at hsize hcols ⊢
  omega

/-! ### Filling memory -/

/-- **Memory that was filled from empty**, one value after the other. -/
inductive Built : Memory → Prop where
  | empty : Built .empty
  | compile {m : Memory} (h : Built m) (number value : Int) : Built (m.compile number value)

theorem Built.line_eq_nil {m : Memory} (h : m.Built) {number : Int} (hn : ¬ IsCompiled number) :
    m.line number = [] := by
  induction h with
  | empty => exact line_empty number
  | compile _ k value ih =>
      rw [line_compile, if_neg]
      · exact ih
      · rintro ⟨rfl, hk⟩
        exact hn hk

/-- **Only compiled lines hold cells.** -/
theorem Built.isCompiled {m : Memory} (h : m.Built) {number : Int} {i : Nat} {c : Cell}
    (hc : (m.line number)[i]? = some c) : IsCompiled number := by
  by_cases hn : IsCompiled number
  · exact hn
  · rw [h.line_eq_nil hn] at hc
    simp at hc

theorem Built.loadRow {m : Memory} (h : m.Built) (row : Row) : (m.loadRow row).Built := by
  unfold Memory.loadRow
  generalize row.values = values
  induction values generalizing m with
  | nil => exact h
  | cons v values ih => exact ih (h.compile row.number v)

/-- Loading a listing is filling memory. -/
theorem Built.load {m : Memory} (h : m.Built) (listing : Listing) : (m.load listing).Built := by
  induction listing generalizing m with
  | nil => exact h
  | cons row listing ih => exact ih (h.loadRow row)

theorem line_loadRow (m : Memory) (row : Row) (k : Int) :
    (m.loadRow row).line k =
      if k = row.number ∧ IsCompiled k then m.line k ++ row.values.map Cell.wrap else m.line k := by
  unfold loadRow
  generalize row.values = values
  induction values generalizing m with
  | nil => simp
  | cons v values ih =>
      rw [List.foldl_cons, ih, line_compile]
      by_cases hk : k = row.number ∧ IsCompiled k
      · obtain ⟨rfl, hk⟩ := hk
        simp [hk]
      · have hk' : ¬ (k = row.number ∧ IsCompiled row.number) := by
          rintro ⟨rfl, h⟩
          exact hk ⟨rfl, h⟩
        rw [if_neg hk, if_neg hk', if_neg hk]

/-- **What a listing becomes**: behind what a compiled line holds already come the values that the
listing gives for it. -/
theorem line_load (m : Memory) (listing : Listing) (k : Int) :
    (m.load listing).line k =
      if IsCompiled k then
        m.line k ++ (listing.filter (·.number = k)).flatMap (·.values.map Cell.wrap)
      else m.line k := by
  induction listing generalizing m with
  | nil => simp [load]
  | cons row listing ih =>
      -- a row adds its values to its own line and to no other
      have hcons : m.load (row :: listing) = (m.loadRow row).load listing := rfl
      rw [hcons, ih, line_loadRow]
      by_cases hk : IsCompiled k
      · by_cases hrow : row.number = k
        · simp [hk, hrow]
        · have hrow' : ¬ k = row.number := fun h => hrow h.symm
          simp [hk, hrow, hrow']
      · simp [hk]

theorem size_compile_le {m : Memory} {number b : Int} (value : Int) (hm : (m.size : Int) ≤ b)
    (hn : number < b) : ((m.compile number value).size : Int) ≤ b := by
  rw [size_compile]
  split
  · rename_i h
    have hfirst := h.1
    unfold firstLine at hfirst
    omega
  · exact hm

theorem size_loadRow_le {m : Memory} {row : Row} {b : Int} (hm : (m.size : Int) ≤ b)
    (hn : row.number < b) : ((m.loadRow row).size : Int) ≤ b := by
  unfold loadRow
  generalize row.values = values
  induction values generalizing m with
  | nil => exact hm
  | cons v values ih => exact ih (size_compile_le v hm hn)

/-- The lines of a listing bound the size of the memory that it is loaded into. -/
theorem size_load_le {m : Memory} {listing : Listing} {b : Int} (hm : (m.size : Int) ≤ b)
    (hn : ∀ row ∈ listing, row.number < b) : ((m.load listing).size : Int) ≤ b := by
  induction listing generalizing m with
  | nil => exact hm
  | cons row listing ih =>
      refine ih (size_loadRow_le hm (hn row (List.mem_cons_self ..))) fun r hr => ?_
      exact hn r (List.mem_cons_of_mem _ hr)

end Memory

/-! ### Listings whose memory fits -/

/-- **A listing that fits**: it lists each line once, and both the numbers of its lines and their
sizes are below the bound of the cells. -/
structure Listing.Fits (listing : Listing) : Prop where
  nodup : (listing.map Row.number).Nodup
  number_lt : ∀ row ∈ listing, row.number < Cell.bound
  length_lt : ∀ row ∈ listing, (row.values.length : Int) < Cell.bound

/-- A line that is listed once is found once. -/
theorem Listing.filter_number_eq {listing : Listing} (h : (listing.map Row.number).Nodup)
    {row : Row} (hrow : row ∈ listing) :
    listing.filter (·.number = row.number) = [row] := by
  induction listing with
  | nil => simp at hrow
  | cons r listing ih =>
      rw [List.map_cons, List.nodup_cons] at h
      rcases List.mem_cons.1 hrow with rfl | hrow
      · have hnone : listing.filter (·.number = row.number) = [] := by
          refine List.filter_eq_nil_iff.2 fun r hr => ?_
          simpa using fun heq : r.number = row.number => h.1 (heq ▸ List.mem_map_of_mem hr)
        simp [hnone]
      · have hne : r.number ≠ row.number := fun heq => h.1 (heq ▸ List.mem_map_of_mem hrow)
        simp [hne, ih h.2 hrow]

/-- **What a line becomes that is listed once**: behind what it holds already come the values. -/
theorem Memory.line_load_of_mem (m : Memory) {listing : Listing}
    (hnodup : (listing.map Row.number).Nodup) {row : Row} (hrow : row ∈ listing)
    (hline : IsCompiled row.number) :
    (m.load listing).line row.number = m.line row.number ++ row.values.map Cell.wrap := by
  rw [line_load, if_pos hline, Listing.filter_number_eq hnodup hrow, List.flatMap_singleton]

/-- A line that is not listed stays as it is. -/
theorem Memory.line_load_of_not_mem (m : Memory) {listing : Listing} {k : Int}
    (h : ∀ row ∈ listing, row.number ≠ k) : (m.load listing).line k = m.line k := by
  have hnone : listing.filter (·.number = k) = [] := by
    refine List.filter_eq_nil_iff.2 fun row hrow => ?_
    simpa using h row hrow
  rw [line_load, hnone, List.flatMap_nil, List.append_nil, ite_self]

/-- **A listing that fits is loaded into memory that fits.** -/
theorem Memory.fits_load {listing : Listing} (h : listing.Fits) :
    (Memory.empty.load listing).Fits := by
  refine fits_of_lineSize_lt (size_load_le (by decide) h.number_lt) fun k => ?_
  rw [← length_line]
  by_cases hlisted : ∃ row ∈ listing, row.number = k
  · obtain ⟨row, hrow, rfl⟩ := hlisted
    by_cases hline : IsCompiled row.number
    · rw [line_load_of_mem _ h.nodup hrow hline, line_empty]
      simpa using h.length_lt row hrow
    · rw [line_load, if_neg hline, line_empty]
      decide
  · rw [line_load_of_not_mem _ fun row hrow heq => hlisted ⟨row, hrow, heq⟩, line_empty]
    decide

end LineMachine
