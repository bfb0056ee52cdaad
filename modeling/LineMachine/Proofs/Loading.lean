/-
**Loading: a file is loaded as a whole or not at all.**

Loading a file takes many steps.  The file is opened, its lines are read one after the other, then
the values on them are compiled one after the other, and in the end the machine takes the name of
the file.  Any of the lines can be at fault, and whatever has changed until then would stay.  But a
file is refused only while it is read, and the machine changes only behind that.  So a machine that
refuses a file, with a program or without one, is as it was, and a machine that loads it has on each
line what it had there and behind that what the file gives for the line.

Main definitions:

* `LineMachine.Loader`, `LineMachine.Loader.step` — **a file that is being loaded**, and the next
  thing to do;
* `LineMachine.Loader.Follows` — what has happened to the machine so far;
* `LineMachine.Machine.Gains` — what a machine has gained from a text.

Main results:

* `LineMachine.Loader.follows_step`, `LineMachine.Loader.follows_after` — what each step keeps;
* `LineMachine.Loader.exists_ended_after` — loading comes to an end;
* `LineMachine.Machine.gains_of_loadFile` — what is gained from a file that is loaded;
* `LineMachine.Loader.loads_or_keeps` — **all or nothing**.
-/

import LineMachine.Proofs.CompileLog
import LineMachine.Proofs.FirstFault
import LineMachine.Proofs.Malformed

set_option relaxedAutoImplicit false
set_option autoImplicit false

namespace LineMachine

/-! ### Loading step by step -/

/-- **How far loading a file has come.** -/
inductive Loader.Phase where
  /-- The file is to be opened. -/
  | opening
  /-- These lines are left to be read, and those before them were read as rows. -/
  | reading (left : List (List Char × Nat)) (rows : Listing)
  /-- The whole listing has been read, and these of its values are left to be compiled. -/
  | compiling (left : List (Int × Int)) (listing : Listing)
  /-- The listing has been loaded. -/
  | loaded (listing : Listing)
  /-- The file has been refused. -/
  | refused (f : Listing.Fault)
  deriving DecidableEq, Repr

/-- **A file that is being loaded** into a machine. -/
structure Loader where
  machine : Machine
  phase : Loader.Phase
  deriving DecidableEq, Repr

namespace Loader

/-- Loading is over. -/
def Phase.Ended : Phase → Prop
  | loaded _ | refused _ => True
  | _ => False

/-- A machine into which a file is to be loaded. -/
def start (m : Machine) : Loader := ⟨m, .opening⟩

/-- **The next thing to do**: open the file, read a line or pass over it, compile a value, or take
the name of the file. -/
def step (files : Files) (path : String) (l : Loader) : Loader :=
  match l.phase with
  | .opening =>
      match files path with
      | .error _ => { l with phase := .refused (.unopened path) }
      | .ok text => { l with phase := .reading (Source.numbered (Source.lines text)) [] }
  | .reading [] rows => { l with phase := .compiling rows.entries rows }
  | .reading (entry :: left) rows =>
      if Listing.isProgramLine entry then
        match Listing.readRow path entry with
        | .error f => { l with phase := .refused f }
        | .ok row => { l with phase := .reading left (rows ++ [row]) }
      else { l with phase := .reading left rows }
  | .compiling [] listing => ⟨{ l.machine with file := path }, .loaded listing⟩
  | .compiling (entry :: left) listing =>
      ⟨l.machine.compile entry.1 entry.2, .compiling left listing⟩
  | .loaded _ | .refused _ => l

/-- A file that is being loaded, so many steps later. -/
def after (files : Files) (path : String) (l : Loader) : Nat → Loader
  | 0 => l
  | n + 1 => (l.after files path n).step files path

variable {files : Files} {path : String} {m : Machine} {l : Loader}

/-! ### What each step keeps -/

/-- The program lines among these have been read as these rows. -/
def RowsOf (path : String) (lines : List (List Char × Nat)) (rows : Listing) : Prop :=
  List.Forall₂ (fun entry row => Listing.readRow path entry = .ok row)
    (lines.filter Listing.isProgramLine) rows

/-- One more program line is read behind them. -/
theorem RowsOf.read {lines : List (List Char × Nat)} {rows : Listing} (h : RowsOf path lines rows)
    {entry : List Char × Nat} {row : Row} (hline : Listing.isProgramLine entry)
    (hread : Listing.readRow path entry = .ok row) :
    RowsOf path (lines ++ [entry]) (rows ++ [row]) := by
  unfold RowsOf
  rw [List.filter_append, List.filter_cons_of_pos hline, List.filter_nil]
  exact List.rel_append h (.cons hread .nil)

/-- One more line is passed over. -/
theorem RowsOf.pass {lines : List (List Char × Nat)} {rows : Listing} (h : RowsOf path lines rows)
    {entry : List Char × Nat} (hline : ¬ Listing.isProgramLine entry) :
    RowsOf path (lines ++ [entry]) rows := by
  unfold RowsOf
  rw [List.filter_append, List.filter_cons_of_neg hline, List.filter_nil, List.append_nil]
  exact h

/-- **What has happened to a machine** into which a file is being loaded: nothing, until the whole
file has been read. -/
inductive Follows (m : Machine) (files : Files) (path : String) : Loader → Prop where
  | opening : Follows m files path ⟨m, .opening⟩
  | reading {text : List Char} {before left : List (List Char × Nat)} {rows : Listing}
      (hfile : files path = .ok text)
      (hlines : Source.numbered (Source.lines text) = before ++ left)
      (hrows : RowsOf path before rows) :
      Follows m files path ⟨m, .reading left rows⟩
  | compiling {listing : Listing} {before left : List (Int × Int)}
      (hread : Listing.ofFile files path = .ok listing)
      (hentries : listing.entries = before ++ left) :
      Follows m files path
        ⟨{ m with memory := m.memory.compileAll before }, .compiling left listing⟩
  | loaded {listing : Listing} (hread : Listing.ofFile files path = .ok listing) :
      Follows m files path
        ⟨{ m with memory := m.memory.load listing, file := path }, .loaded listing⟩
  | refused {f : Listing.Fault} (hfault : Listing.ofFile files path = .error f) :
      Follows m files path ⟨m, .refused f⟩

theorem ofFile_of_opened {text : List Char} (hfile : files path = .ok text) :
    Listing.ofFile files path = (Listing.programLines text).mapM (Listing.readRow path) := by
  rw [Listing.ofFile, hfile]
  exact Listing.ofText_eq path text

/-- A file is refused for the first line that is not read. -/
theorem ofFile_eq_error {text : List Char} {before left : List (List Char × Nat)}
    {entry : List Char × Nat} {rows : Listing} {f : Listing.Fault} (hfile : files path = .ok text)
    (hlines : Source.numbered (Source.lines text) = before ++ entry :: left)
    (hrows : RowsOf path before rows)
    (hline : Listing.isProgramLine entry) (hread : Listing.readRow path entry = .error f) :
    Listing.ofFile files path = .error f := by
  rw [ofFile_of_opened hfile, mapM_eq_error_iff]
  refine ⟨before.filter Listing.isProgramLine, entry, left.filter Listing.isProgramLine, ?_, ?_,
    hread⟩
  · rw [Listing.programLines, hlines, List.filter_append, List.filter_cons_of_pos hline]
  · intro e he
    obtain ⟨row, -, hrow⟩ := exists_mem_right hrows he
    exact ⟨row, hrow⟩

/-- What reading a line keeps. -/
theorem follows_step_line {text : List Char} {before left : List (List Char × Nat)}
    {entry : List Char × Nat} {rows : Listing} (hfile : files path = .ok text)
    (hlines : Source.numbered (Source.lines text) = before ++ entry :: left)
    (hrows : RowsOf path before rows) :
    Follows m files path (step files path ⟨m, .reading (entry :: left) rows⟩) := by
  have hlines' : Source.numbered (Source.lines text) = (before ++ [entry]) ++ left := by
    rw [hlines, List.append_assoc]
    rfl
  by_cases hline : Listing.isProgramLine entry
  · cases hread : Listing.readRow path entry with
    | error f =>
        simp only [step, if_pos hline, hread]
        exact .refused (ofFile_eq_error hfile hlines hrows hline hread)
    | ok row =>
        simp only [step, if_pos hline, hread]
        exact .reading hfile hlines' (hrows.read hline hread)
  · -- a line that does not belong to the program is passed over
    simp only [step, if_neg hline]
    exact .reading hfile hlines' (hrows.pass hline)

/-- **What each step keeps.** -/
theorem follows_step (h : Follows m files path l) : Follows m files path (l.step files path) := by
  cases h with
  | opening =>
      cases hfile : files path with
      | error failure =>
          simp only [step, hfile]
          refine .refused ?_
          rw [Listing.ofFile, hfile]
      | ok text =>
          simp only [step, hfile]
          have hlines : Source.numbered (Source.lines text) =
              [] ++ Source.numbered (Source.lines text) := rfl
          exact .reading hfile hlines .nil
  | @reading text before left rows hfile hlines hrows =>
      cases left with
      | nil =>
          have hread : Listing.ofFile files path = .ok rows := by
            rw [ofFile_of_opened hfile, mapM_eq_ok_iff, Listing.programLines, hlines,
              List.append_nil]
            exact hrows
          have hentries : rows.entries = [] ++ rows.entries := rfl
          -- nothing has been compiled yet, so the machine is still as it was
          have hnext : Follows m files path
              ⟨{ m with memory := m.memory.compileAll [] }, .compiling rows.entries rows⟩ :=
            .compiling hread hentries
          exact hnext
      | cons entry left => exact follows_step_line hfile hlines hrows
  | @compiling listing before left hread hentries =>
      cases left with
      | nil =>
          have hload : m.memory.compileAll before = m.memory.load listing := by
            rw [Memory.load_eq, hentries, List.append_nil]
          simp only [step, hload]
          exact .loaded hread
      | cons entry left =>
          have hnext : (m.memory.compileAll before).compile entry.1 entry.2 =
              m.memory.compileAll (before ++ [entry]) := by
            simp only [Memory.compileAll, List.foldl_append, List.foldl_cons, List.foldl_nil]
          simp only [step, Machine.compile, hnext]
          refine .compiling hread ?_
          rw [hentries, List.append_assoc]
          rfl
  | loaded hread => exact .loaded hread
  | refused hfault => exact .refused hfault

/-- **What has happened so many steps later.** -/
theorem follows_after (m : Machine) (files : Files) (path : String) (n : Nat) :
    Follows m files path ((start m).after files path n) := by
  induction n with
  | zero => exact .opening
  | succ n ih => exact follows_step ih

/-! ### Loading comes to an end -/

theorem after_add (l : Loader) (n k : Nat) :
    l.after files path (n + k) = (l.after files path n).after files path k := by
  induction k with
  | zero => rfl
  | succ k ih => exact congrArg (step files path) ih

/-- It is enough that loading ends after the next step. -/
theorem exists_ended_of_step (h : ∃ n, ((l.step files path).after files path n).phase.Ended) :
    ∃ n, (l.after files path n).phase.Ended := by
  obtain ⟨n, hn⟩ := h
  refine ⟨1 + n, ?_⟩
  rw [after_add]
  exact hn

theorem exists_ended_of_compiling (m : Machine) (left : List (Int × Int)) (listing : Listing) :
    ∃ n, (after files path ⟨m, .compiling left listing⟩ n).phase.Ended := by
  induction left generalizing m with
  | nil => exact exists_ended_of_step ⟨0, trivial⟩
  | cons entry left ih => exact exists_ended_of_step (ih _)

theorem exists_ended_of_reading (m : Machine) (left : List (List Char × Nat)) (rows : Listing) :
    ∃ n, (after files path ⟨m, .reading left rows⟩ n).phase.Ended := by
  induction left generalizing rows with
  | nil => exact exists_ended_of_step (exists_ended_of_compiling m rows.entries rows)
  | cons entry left ih =>
      refine exists_ended_of_step ?_
      by_cases hline : Listing.isProgramLine entry
      · cases hread : Listing.readRow path entry with
        | error f =>
            simp only [step, if_pos hline, hread]
            exact ⟨0, trivial⟩
        | ok row =>
            simp only [step, if_pos hline, hread]
            exact ih (rows ++ [row])
      · simp only [step, if_neg hline]
        exact ih rows

/-- **Loading comes to an end.** -/
theorem exists_ended_after (m : Machine) (files : Files) (path : String) :
    ∃ n, ((start m).after files path n).phase.Ended := by
  refine exists_ended_of_step ?_
  cases hfile : files path with
  | error failure =>
      simp only [start, step, hfile]
      exact ⟨0, trivial⟩
  | ok text =>
      simp only [start, step, hfile]
      exact exists_ended_of_reading m _ []

end Loader

/-! ### What is refused, and what is gained -/

namespace Listing

variable {files : Files} {path : String} {text : List Char} {listing : Listing}

/-- **A line that can be read**: numbers in range are written on it, and nothing else. -/
def Readable (line : List Char) : Prop :=
  ∃ vs, Source.Holds line vs ∧ ∀ v ∈ vs, Cell.InRange v

/-- A text is refused just for a program line that cannot be read. -/
theorem exists_ofText_error_iff_not_readable (file : String) (text : List Char) :
    (∃ f, ofText file text = .error f) ↔ ∃ i line, ProgramLine text i line ∧ ¬ Readable line := by
  constructor
  · rintro ⟨f, hf⟩
    rw [ofText_eq, mapM_eq_error_iff] at hf
    obtain ⟨before, ⟨line, i⟩, after, hlines, -, hf⟩ := hf
    have hmem : (line, i) ∈ programLines text := by simp [hlines]
    refine ⟨i, line, mem_programLines_iff.1 hmem, fun hreadable => ?_⟩
    obtain ⟨row, hrow⟩ : ∃ row, readRow file (line, i) = .ok row := exists_readRow_iff.2 hreadable
    rw [hrow] at hf
    cases hf
  · rintro ⟨i, line, hline, hunreadable⟩
    cases hread : ofText file text with
    | error f => exact ⟨f, rfl⟩
    | ok listing =>
        rw [ofText_eq, mapM_eq_ok_iff] at hread
        obtain ⟨row, -, hrow⟩ := exists_mem_right hread (mem_programLines_iff.2 hline)
        exact absurd (exists_readRow_iff.1 ⟨row, hrow⟩) hunreadable

/-- A file is refused if it cannot be opened, and else for a line that cannot be read. -/
theorem exists_ofFile_error_iff_not_readable (files : Files) (path : String) :
    (∃ f, ofFile files path = .error f) ↔
      ∀ text, files path = .ok text → ∃ i line, ProgramLine text i line ∧ ¬ Readable line := by
  unfold ofFile
  cases files path with
  | error failure => simp
  | ok text =>
      simp only [Except.ok.injEq, forall_eq']
      exact exists_ofText_error_iff_not_readable path text

/-- The rows of a listing of a text are on lines that are compiled. -/
theorem Lists.isCompiled (h : listing.Lists text) {row : Row} (hrow : row ∈ listing) :
    IsCompiled row.number := by
  obtain ⟨i, line, hline, hnumber, -⟩ := h.sound row hrow
  rw [hnumber]
  exact hline.2.1

/-- The values of a listing of a text reach as far as its rows: there is one on each of them. -/
theorem Lists.entries_lt_iff (h : listing.Lists text) (n : Nat) :
    (∀ entry ∈ listing.entries, IsCompiled entry.1 → entry.1 < n) ↔
      ∀ row ∈ listing, row.number < n := by
  constructor
  · intro hentries row hrow
    obtain ⟨-, -, -, -, -, hne, -⟩ := h.sound row hrow
    obtain ⟨v, hv⟩ := List.exists_mem_of_ne_nil _ hne
    have hmem : (row.number, v) ∈ listing.entries :=
      List.mem_flatMap.2 ⟨row, hrow, List.mem_map_of_mem hv⟩
    exact hentries _ hmem (h.isCompiled hrow)
  · intro hrows entry hentry _
    obtain ⟨row, hrow, hvalue⟩ := List.mem_flatMap.1 hentry
    obtain ⟨v, -, rfl⟩ := List.mem_map.1 hvalue
    exact hrows row hrow

end Listing

namespace Machine

variable {files : Files} {path : String} {m m' : Machine} {listing : Listing} {f : Listing.Fault}

theorem loadFile_eq_ok_iff :
    m.loadFile files path = .ok (listing, m') ↔ Listing.ofFile files path = .ok listing ∧
      m' = { m with memory := m.memory.load listing, file := path } := by
  unfold loadFile
  cases Listing.ofFile files path with
  | error f => simp [Except.map]
  | ok l =>
      simp only [Except.map, Except.ok.injEq, Prod.mk.injEq]
      constructor
      · rintro ⟨rfl, rfl⟩
        exact ⟨rfl, rfl⟩
      · rintro ⟨rfl, rfl⟩
        exact ⟨rfl, rfl⟩

theorem loadFile_eq_error_iff :
    m.loadFile files path = .error f ↔ Listing.ofFile files path = .error f := by
  unfold loadFile
  cases Listing.ofFile files path with
  | error f' => simp [Except.map]
  | ok l => simp [Except.map]

/-- **What a machine has gained from a text**: its name, and the listing of the text, each row of it
behind what was on that line. -/
structure Gains (m m' : Machine) (path : String) (text : List Char) (listing : Listing) : Prop where
  lists : listing.Lists text
  file : m'.file = path
  data : m'.data = m.data
  ret : m'.ret = m.ret
  ip : m'.ip = m.ip
  input : m'.input = m.input
  output : m'.output = m.output
  line_of_mem : ∀ row ∈ listing, m'.memory.line row.number =
    m.memory.line row.number ++ row.values.map Cell.wrap
  line_of_not_mem : ∀ k, (∀ row ∈ listing, row.number ≠ k) → m'.memory.line k = m.memory.line k
  size_le_iff : ∀ n : Nat, m'.memory.size ≤ n ↔
    m.memory.size ≤ n ∧ ∀ row ∈ listing, row.number < n

/-- **What is gained from a file that is loaded.** -/
theorem gains_of_loadFile (h : m.loadFile files path = .ok (listing, m')) :
    ∃ text, files path = .ok text ∧ m.Gains m' path text listing := by
  obtain ⟨hread, rfl⟩ := loadFile_eq_ok_iff.1 h
  unfold Listing.ofFile at hread
  cases hfile : files path with
  | error failure =>
      rw [hfile] at hread
      cases hread
  | ok text =>
      rw [hfile] at hread
      have hlists := Listing.lists_of_ofText hread
      have hnodup := Listing.nodup_of_ofText hread
      refine ⟨text, rfl, hlists, rfl, rfl, rfl, rfl, rfl, rfl, ?_, ?_, ?_⟩
      · intro row hrow
        exact Memory.line_load_of_mem _ hnodup hrow (hlists.isCompiled hrow)
      · intro k hk
        exact Memory.line_load_of_not_mem _ hk
      · intro n
        rw [Memory.load_eq, Memory.size_compileAll_le_iff, hlists.entries_lt_iff]

end Machine

/-! ### All or nothing -/

namespace Loader

variable {files : Files} {path : String} {m m' : Machine} {l : Loader}

/-- A file is refused with its fault, and the machine is as it was. -/
theorem Follows.of_refused {f : Listing.Fault} (h : Follows m files path ⟨m', .refused f⟩) :
    m' = m ∧ m.loadFile files path = .error f := by
  cases h with
  | refused hfault => exact ⟨rfl, Machine.loadFile_eq_error_iff.2 hfault⟩

theorem Follows.of_loaded {listing : Listing} (h : Follows m files path ⟨m', .loaded listing⟩) :
    m.loadFile files path = .ok (listing, m') := by
  cases h with
  | loaded hread => exact Machine.loadFile_eq_ok_iff.2 ⟨hread, rfl⟩

/-- A file that is at fault changes nothing, however far loading it has come. -/
theorem Follows.machine_eq {f : Listing.Fault} (h : Follows m files path l)
    (hfault : Listing.ofFile files path = .error f) : l.machine = m := by
  cases h with
  | opening | reading | refused => rfl
  | compiling hread | loaded hread =>
      rw [hfault] at hread
      cases hread

/-- **Loading ends with what `LineMachine.Machine.loadFile` says.** -/
theorem exists_after_eq (m : Machine) (files : Files) (path : String) :
    ∃ n, match m.loadFile files path with
      | .ok (listing, m') => (start m).after files path n = ⟨m', .loaded listing⟩
      | .error f => (start m).after files path n = ⟨m, .refused f⟩ := by
  obtain ⟨n, hn⟩ := exists_ended_after m files path
  refine ⟨n, ?_⟩
  have hfollows := follows_after m files path n
  generalize (start m).after files path n = l at hn hfollows
  obtain ⟨m', phase⟩ := l
  cases phase with
  | opening | reading | compiling => cases hn
  | loaded listing => rw [hfollows.of_loaded]
  | refused f =>
      obtain ⟨rfl, hfault⟩ := hfollows.of_refused
      rw [hfault]

/-- **All or nothing.**

A file is refused if it cannot be opened or if some line of the program, wherever in the file,
cannot be read.  Then loading it ends with its fault, and at no time is the machine other than it
was.  Otherwise loading ends with the listing of its text and a machine that has gained it: the name
of the file, and on each line what was there and behind that what the listing gives for the line.
There is no other end, and `LineMachine.Machine.loadFile` says which of the two it is. -/
theorem loads_or_keeps (m : Machine) (files : Files) (path : String) :
    ((∃ f, m.loadFile files path = .error f) ↔
      ∀ text, files path = .ok text →
        ∃ i line, Listing.ProgramLine text i line ∧ ¬ Listing.Readable line) ∧
    (∀ f, m.loadFile files path = .error f →
      (∃ n, (start m).after files path n = ⟨m, .refused f⟩) ∧
        ∀ n, ((start m).after files path n).machine = m) ∧
    (∀ listing m', m.loadFile files path = .ok (listing, m') →
      (∃ n, (start m).after files path n = ⟨m', .loaded listing⟩) ∧
        ∃ text, files path = .ok text ∧ m.Gains m' path text listing) ∧
    (∀ n f, ((start m).after files path n).phase = .refused f →
      m.loadFile files path = .error f) ∧
    (∀ n listing, ((start m).after files path n).phase = .loaded listing →
      m.loadFile files path = .ok (listing, ((start m).after files path n).machine)) := by
  have hfollows := follows_after m files path
  obtain ⟨n, hn⟩ := exists_after_eq m files path
  refine ⟨?_, ?_, ?_, ?_, ?_⟩
  · simp only [Machine.loadFile_eq_error_iff]
    exact Listing.exists_ofFile_error_iff_not_readable files path
  · intro f hfault
    rw [hfault] at hn
    refine ⟨⟨n, hn⟩, fun k => ?_⟩
    exact (hfollows k).machine_eq (Machine.loadFile_eq_error_iff.1 hfault)
  · intro listing m' hload
    rw [hload] at hn
    exact ⟨⟨n, hn⟩, Machine.gains_of_loadFile hload⟩
  · intro k f hphase
    have hk := hfollows k
    generalize (start m).after files path k = l at hk hphase
    obtain ⟨m', phase⟩ := l
    obtain rfl : phase = .refused f := hphase
    exact hk.of_refused.2
  · intro k listing hphase
    have hk := hfollows k
    generalize (start m).after files path k = l at hk hphase ⊢
    obtain ⟨m', phase⟩ := l
    obtain rfl : phase = .loaded listing := hphase
    exact hk.of_loaded

/-- A machine that holds a program already. -/
def holding : Machine :=
  { (Machine.fresh [] .emptyText).compile 21 7 with data := ⟨[3]⟩, file := "first" }

/-- A file with more for the first line, and one with a number out of range at its end. -/
def shelf : Files := fun path =>
  .ok (List.replicate 20 '\n' ++
    (if path = "second" then "8 -1\n# none\n9".toList else "1\n2\n3 2147483648".toList))

/-- The first file is appended to the program; the other one is refused for its last line. -/
theorem loads_or_keeps_second_file :
    (∃ m', holding.loadFile shelf "second" = .ok ([⟨21, [8, -1]⟩, ⟨23, [9]⟩], m') ∧
      m'.memory.line 21 = [7, 8, -1] ∧ m'.memory.line 22 = [] ∧ m'.data = ⟨[3]⟩) ∧
    ∀ n, ((start holding).after shelf "third" n).machine = holding := by
  have hsecond : Listing.ofFile shelf "second" = .ok [⟨21, [8, -1]⟩, ⟨23, [9]⟩] := by
    decide +kernel
  have hthird : Listing.ofFile shelf "third" = .error (.notANumber "third" 23 "2147483648") := by
    decide +kernel
  have hload := Machine.loadFile_eq_ok_iff (m := holding).2 ⟨hsecond, rfl⟩
  obtain ⟨-, -, hloads, -, -⟩ := loads_or_keeps holding shelf "second"
  obtain ⟨-, hkeeps, -, -, -⟩ := loads_or_keeps holding shelf "third"
  obtain ⟨-, text, -, hgains⟩ := hloads _ _ hload
  refine ⟨⟨_, hload, ?_, ?_, hgains.data⟩, ?_⟩
  · exact hgains.line_of_mem ⟨21, [8, -1]⟩ (by simp)
  · exact hgains.line_of_not_mem 22 (by decide)
  · exact (hkeeps _ (Machine.loadFile_eq_error_iff.2 hthird)).2

end Loader

end LineMachine
