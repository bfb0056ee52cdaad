/-
**Words: the cells of a line as they are written.**

The cells of a line stand between separators.  A line is cut into words, its longest runs without
separators, and each word has to be a numeral.  Where a word is not, the line is ungrammatical
from the end of the longest numeral that this word begins with.

Main definitions:

* `LineMachine.Source.Word`, `LineMachine.Source.words` — the words of a line with their positions;
* `LineMachine.Source.scan` — the words of a grammatical line, or where the grammar ends;
* `LineMachine.Source.readNumbers` — the numbers on a line.

Main results:

* `LineMachine.Source.scan_eq_ok_iff` — a line is grammatical when all its words are numerals.
-/

import LineMachine.Numeral

set_option relaxedAutoImplicit false
set_option autoImplicit false

namespace LineMachine.Source

open Text (isSeparator)

/-! ### Words -/

/-- **A word**: a run of characters without separators, and the position of the first of them. -/
structure Word where
  start : Nat
  text : List Char
  deriving DecidableEq, Repr

/-- Puts a character with its position in front of the words behind it.  The flag says whether the
next character belongs to a word. -/
def addToWords (entry : Char × Nat) (rest : Bool × List Word) : Bool × List Word :=
  if isSeparator entry.1 then (false, rest.2)
  else
    match rest with
    | (true, w :: ws) => (true, ⟨entry.2, entry.1 :: w.text⟩ :: ws)
    | (_, ws) => (true, ⟨entry.2, [entry.1]⟩ :: ws)

/-- **The words of a line.** -/
def words (line : List Char) : List Word := (line.zipIdx.foldr addToWords (false, [])).2

/-! ### Grammatical lines -/

/-- **The words of a grammatical line**, or the position up to which the grammar could follow an
ungrammatical one. -/
def scan (line : List Char) : Except Nat (List Word) :=
  match (words line).find? (fun w => !Numeral.isNumeral w.text) with
  | none => .ok (words line)
  | some w => .error (w.start + Numeral.prefixLength w.text)

/-- A line is grammatical when all its words are numerals. -/
theorem scan_eq_ok_iff {line : List Char} {ws : List Word} :
    scan line = .ok ws ↔ ws = words line ∧ ∀ w ∈ words line, Numeral.isNumeral w.text := by
  unfold scan
  cases h : (words line).find? (fun w => !Numeral.isNumeral w.text) with
  | none =>
      have hall := List.find?_eq_none.1 h
      simp only [Bool.not_eq_true', Bool.not_eq_false] at hall
      simp only [Except.ok.injEq]
      exact ⟨fun e => ⟨e.symm, hall⟩, fun e => e.1.symm⟩
  | some w =>
      have hmem := List.mem_of_find?_eq_some h
      have hbad := List.find?_some h
      simp only [Bool.not_eq_true', reduceCtorEq, false_iff, not_and] at hbad ⊢
      intro _ hall
      simp [hall w hmem] at hbad

/-! ### Numbers -/

/-- Why the numbers on a line cannot be read. -/
inductive Unreadable where
  /-- The grammar could follow the line only up to this position. -/
  | ungrammatical (position : Nat)
  /-- A numeral has too many digits. -/
  | tooLong (digits : Nat)
  deriving DecidableEq, Repr

/-- What is said of a line whose numbers cannot be read. -/
def Unreadable.message (line : List Char) : Unreadable → String
  | ungrammatical position =>
      let excerpt := String.ofList ((line.drop position).take 20)
      s!"Rule 'line' matched in its entirety, but it didn't consume all the text. " ++
        s!"The non-matching portion of the text begins with '{excerpt}' " ++
        s!"(line 1, column {position + 1})."
  | tooLong digits => Numeral.tooLongMessage digits

/-- The value of a word. -/
def Word.value (w : Word) : Except Unreadable Int :=
  (Numeral.value w.text).mapError .tooLong

/-- **The numbers on a line**, of any size. -/
def readNumbers (line : List Char) : Except Unreadable (List Int) :=
  match scan line with
  | .error position => .error (.ungrammatical position)
  | .ok ws => ws.mapM Word.value

end LineMachine.Source
