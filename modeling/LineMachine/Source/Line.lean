/-
**Lines of text.**

Source text and case files are read line by line.  A line feed ends a line, and behind the last
line it may be missing; one carriage return before it belongs to the line end.  No other character
ends a line, so the lines of a text are numbered as its editor numbers them.

Main definitions:

* `LineMachine.Source.lines` — the lines of a text, without their ends;
* `LineMachine.Source.numbered` — the same with their numbers, from one on;
* `LineMachine.Source.isComment` — lines without content.

Main results:

* `LineMachine.Source.pieces_line_append` — what the first line of a text is.
-/

import LineMachine.Text.Blank

set_option relaxedAutoImplicit false
set_option autoImplicit false

namespace LineMachine.Source

/-- Puts a character in front of the pieces behind it: a line feed ends a piece. -/
def addToPieces (c : Char) (rest : List (List Char)) : List (List Char) :=
  if c = '\n' then [] :: rest
  else
    match rest with
    | [] => [[c]]
    | l :: ls => (c :: l) :: ls

/-- The pieces of a text that end in a line feed, and the rest behind the last one if there is
any. -/
def pieces (text : List Char) : List (List Char) := text.foldr addToPieces []

/-- A line without the carriage return at its end, if it has one. -/
def dropReturn (line : List Char) : List Char :=
  if line.getLast? = some '\r' then line.dropLast else line

/-- **The lines of a text**, without their ends. -/
def lines (text : List Char) : List (List Char) := (pieces text).map dropReturn

/-- Lines with their numbers, from one on. -/
def numbered (ls : List (List Char)) : List (List Char × Nat) := ls.zipIdx 1

/-- **Whether a line has no content**: it is blank, or a number sign is its first character that is
not blank. -/
def isComment (line : List Char) : Bool :=
  match line.dropWhile Text.isBlank with
  | [] => true
  | c :: _ => c == '#'

@[simp] theorem pieces_nil : pieces [] = [] := rfl

@[simp] theorem pieces_cons (c : Char) (text : List Char) :
    pieces (c :: text) = addToPieces c (pieces text) := rfl

/-- The first line of a text reaches up to its first line feed. -/
theorem pieces_line_append {line : List Char} (h : '\n' ∉ line) (text : List Char) :
    pieces (line ++ '\n' :: text) = line :: pieces text := by
  induction line with
  | nil => simp [addToPieces]
  | cons c cs ih =>
      have hc : c ≠ '\n' := fun e => h (e ▸ List.mem_cons_self ..)
      have hcs : '\n' ∉ cs := fun e => h (List.mem_cons_of_mem _ e)
      rw [List.cons_append, pieces_cons, ih hcs]
      simp [addToPieces, hc]

end LineMachine.Source
