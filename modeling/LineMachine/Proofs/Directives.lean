/-
**Directives: what is read off a case file.**

A case file is read line by line, and each line changes the cases that those before it came to.  So
the first line that is at fault stops the reading, and the fault is told with the number of that
line.  Only a directive with numbers can meet a numeral that is too long to be converted.

Main results:

* `LineMachine.Case.ofLines_eq_ok_iff` — the cases that a file declares;
* `LineMachine.Case.ofLines_eq_error_iff` — **the line that is at fault**;
* `LineMachine.Case.readLine_eq_tooLong_iff` — when a numeral is too long.
-/

import LineMachine.Case.Basic
import LineMachine.Proofs.ProgramLines

set_option relaxedAutoImplicit false
set_option autoImplicit false

namespace LineMachine.Case

variable {file : String} {lines : List (List Char)} {line : List Char} {number : Nat}
variable {cases cases' : List Case} {entries : List (List Char × Nat)} {d : Defect} {f : Fault}

/-! ### One line -/

section Lines

variable {leader space : Char} {param : List Char}

theorem readLine_of_isComment (h : Source.isComment (dropLineEnds line)) :
    readLine cases line = .ok cases := if_pos h

theorem readLine_of_length_lt (hc : Source.isComment (dropLineEnds line) = false)
    (h : (dropLineEnds line).length < 2) : readLine cases line = .error .missingLeader := by
  simp only [readLine, hc, Bool.false_eq_true, if_false]
  generalize dropLineEnds line = line at h
  rcases line with _ | ⟨leader, _ | ⟨space, param⟩⟩
  · rfl
  · rfl
  · simp only [List.length_cons] at h
    omega

theorem readLine_of_ne_space (hc : Source.isComment (dropLineEnds line) = false)
    (h : dropLineEnds line = leader :: space :: param) (hspace : space ≠ ' ') :
    readLine cases line = .error .missingSpace := by
  rw [h] at hc
  simp only [readLine, h, hc, Bool.false_eq_true, if_false, if_neg hspace]

/-- A line with a leader, a space and a parameter is a directive. -/
theorem readLine_of_directive (hc : Source.isComment (dropLineEnds line) = false)
    (h : dropLineEnds line = leader :: ' ' :: param) :
    readLine cases line = direct cases leader param := by
  rw [h] at hc
  simp only [readLine, h, hc, Bool.false_eq_true, if_false, if_true]

end Lines

/-! ### One line after the other -/

theorem read_cons_of_ok (h : readLine cases line = .ok cases') :
    read file cases ((line, number) :: entries) = read file cases' entries := by
  have hplaced : (readLine cases line).mapError (Fault.mk file number) = .ok cases' := by
    rw [h]
    rfl
  exact foldlM_cons_of_ok hplaced

theorem read_cons_of_error (h : readLine cases line = .error d) :
    read file cases ((line, number) :: entries) = .error ⟨file, number, d⟩ := by
  have hplaced : (readLine cases line).mapError (Fault.mk file number) =
      .error ⟨file, number, d⟩ := by
    rw [h]
    rfl
  exact foldlM_cons_of_error hplaced

/-- The numbers of the lines have no part in the cases. -/
theorem read_zipIdx_eq_ok_iff :
    read file cases (lines.zipIdx number) = .ok cases' ↔
      lines.foldlM readLine cases = .ok cases' := by
  induction lines generalizing cases number with
  | nil => simp [read, pure, Except.pure]
  | cons line lines ih =>
      rw [List.zipIdx_cons]
      cases hline : readLine cases line with
      | error d =>
          rw [read_cons_of_error hline, foldlM_cons_of_error hline]
          simp
      | ok cases₁ =>
          rw [read_cons_of_ok hline, foldlM_cons_of_ok hline]
          exact ih

theorem read_zipIdx_eq_error_iff :
    read file cases (lines.zipIdx number) = .error f ↔
      f.file = file ∧ ∃ before line after cases', lines = before ++ line :: after ∧
        before.foldlM readLine cases = .ok cases' ∧ readLine cases' line = .error f.defect ∧
        f.line = number + before.length := by
  constructor
  · intro h
    obtain ⟨before', ⟨line, k⟩, after', cases', hsplit, hbefore, hline⟩ := foldlM_eq_error_iff.1 h
    obtain ⟨before, rest, rfl, rfl, hrest⟩ := List.zipIdx_eq_append_iff.1 hsplit
    cases rest with
    | nil => cases hrest
    | cons line' after =>
        rw [List.zipIdx_cons] at hrest
        cases hrest
        cases hread : readLine cases' line with
        | ok cases₁ =>
            simp only [hread, Except.mapError] at hline
            cases hline
        | error d =>
            simp only [hread, Except.mapError] at hline
            cases hline
            have hbefore := read_zipIdx_eq_ok_iff.1 hbefore
            exact ⟨rfl, before, line, after, cases', rfl, hbefore, hread, rfl⟩
  · rintro ⟨rfl, before, line, after, cases', rfl, hbefore, hline, hnumber⟩
    have hread : read f.file cases (before.zipIdx number) = .ok cases' :=
      read_zipIdx_eq_ok_iff.2 hbefore
    rw [List.zipIdx_append, List.zipIdx_cons, read_append, hread, ← hnumber]
    exact read_cons_of_error hline

/-- **The cases that a file declares.** -/
theorem ofLines_eq_ok_iff :
    ofLines file lines = .ok cases ↔ lines.foldlM readLine [] = .ok cases.reverse := by
  have hread : read file [] (Source.numbered lines) = .ok cases.reverse ↔ _ :=
    read_zipIdx_eq_ok_iff
  rw [← hread, ofLines]
  cases read file [] (Source.numbered lines) with
  | error f => simp [Except.map]
  | ok cases' =>
      simp only [Except.map, Except.ok.injEq]
      exact List.reverse_eq_iff

/-- **The line that is at fault** is the first one that cannot be read behind those before it. -/
theorem ofLines_eq_error_iff :
    ofLines file lines = .error f ↔
      f.file = file ∧ ∃ before line after cases, lines = before ++ line :: after ∧
        before.foldlM readLine [] = .ok cases ∧ readLine cases line = .error f.defect ∧
        f.line = before.length + 1 := by
  have hread : read file [] (Source.numbered lines) = .error f ↔ _ := read_zipIdx_eq_error_iff
  simp only [Nat.add_comm _ 1]
  rw [← hread, ofLines]
  cases read file [] (Source.numbered lines) with
  | error f' => simp [Except.map]
  | ok cases' => simp [Except.map]

/-! ### Numerals that are too long -/

variable {digits : Nat} {param : List Char}

theorem numbers_eq_tooLong_iff (hd : ∀ digits, d ≠ .tooLong digits) :
    numbers param d = .error (.tooLong digits) ↔ Source.Overlong (fun _ => True) param digits := by
  rw [← Source.readNumbers_eq_tooLong_iff]
  unfold numbers
  cases Source.readNumbers param with
  | ok vs => simp
  | error e =>
      cases e with
      | ungrammatical position => simp [hd digits]
      | tooLong digits' => simp

theorem setStart_eq_tooLong_iff {c : Case} :
    c.setStart param = .error (.tooLong digits) ↔
      Source.Overlong (fun _ => True) param digits := by
  have hnumbers : numbers param .unreadableStart = .error (.tooLong digits) ↔ _ :=
    numbers_eq_tooLong_iff (by simp)
  rw [← hnumbers]
  unfold setStart
  cases numbers param .unreadableStart with
  | error d => simp
  | ok vs =>
      rcases vs with _ | ⟨v, _ | ⟨w, ws⟩⟩
      · simp
      · by_cases hv : v < firstLine
        · simp [hv]
        · simp [hv]
      · simp

theorem add_eq_tooLong_iff {add : List Int → Case} :
    (numbers param .unreadableNumber).map add = .error (.tooLong digits) ↔
      Source.Overlong (fun _ => True) param digits := by
  have hnumbers : numbers param .unreadableNumber = .error (.tooLong digits) ↔ _ :=
    numbers_eq_tooLong_iff (by simp)
  rw [← hnumbers]
  cases numbers param .unreadableNumber with
  | error d => simp [Except.map]
  | ok vs => simp [Except.map]

theorem addInputs_eq_tooLong_iff {c : Case} :
    c.addInputs param = .error (.tooLong digits) ↔
      Source.Overlong (fun _ => True) param digits := add_eq_tooLong_iff

theorem addOutputs_eq_tooLong_iff {c : Case} :
    c.addOutputs param = .error (.tooLong digits) ↔
      Source.Overlong (fun _ => True) param digits := add_eq_tooLong_iff

theorem changeLast_eq_tooLong_iff {change : Case → Except Defect Case} {P : Prop}
    (hchange : ∀ c, change c = .error (.tooLong digits) ↔ P) :
    changeLast change cases = .error (.tooLong digits) ↔ cases ≠ [] ∧ P := by
  cases cases with
  | nil => simp [changeLast]
  | cons c cs =>
      rw [← hchange c, changeLast]
      cases change c with
      | error d => simp [Except.map]
      | ok c' => simp [Except.map]

/-- The leaders of the directives that give numbers. -/
def givesNumbers (leader : Char) : Prop := leader = '@' ∨ leader = '^' ∨ leader = 'v'

theorem isComment_of_givesNumbers {leader : Char} {rest : List Char} (h : givesNumbers leader) :
    Source.isComment (leader :: rest) = false := by
  unfold Source.isComment
  rcases h with rfl | rfl | rfl
  · rw [List.dropWhile_cons_of_neg (by decide)]
    rfl
  · rw [List.dropWhile_cons_of_neg (by decide)]
    rfl
  · rw [List.dropWhile_cons_of_neg (by decide)]
    rfl

theorem direct_eq_tooLong_iff {leader : Char} :
    direct cases leader param = .error (.tooLong digits) ↔
      givesNumbers leader ∧ cases ≠ [] ∧ Source.Overlong (fun _ => True) param digits := by
  unfold direct
  split
  · simp [givesNumbers]
  · rw [changeLast_eq_tooLong_iff fun c => setStart_eq_tooLong_iff]
    simp [givesNumbers]
  · rw [changeLast_eq_tooLong_iff fun c => addInputs_eq_tooLong_iff]
    simp [givesNumbers]
  · rw [changeLast_eq_tooLong_iff fun c => addOutputs_eq_tooLong_iff]
    simp [givesNumbers]
  · rename_i hstart hinputs houtputs
    constructor
    · intro h
      cases h
    · rintro ⟨rfl | rfl | rfl, -⟩
      · exact (hstart rfl).elim
      · exact (hinputs rfl).elim
      · exact (houtputs rfl).elim

/-- **When a numeral is too long**: it stands in a directive with numbers that belongs to a case,
and what comes before it there can be converted. -/
theorem readLine_eq_tooLong_iff :
    readLine cases line = .error (.tooLong digits) ↔
      ∃ leader param, dropLineEnds line = leader :: ' ' :: param ∧ givesNumbers leader ∧
        cases ≠ [] ∧ Source.Overlong (fun _ => True) param digits := by
  constructor
  · intro h
    cases hcomment : Source.isComment (dropLineEnds line) with
    | true =>
        rw [readLine_of_isComment hcomment] at h
        cases h
    | false =>
        rcases hline : dropLineEnds line with _ | ⟨leader, _ | ⟨space, param⟩⟩
        · rw [readLine_of_length_lt hcomment (by simp [hline])] at h
          cases h
        · rw [readLine_of_length_lt hcomment (by simp [hline])] at h
          cases h
        · by_cases hspace : space = ' '
          · subst hspace
            rw [readLine_of_directive hcomment hline, direct_eq_tooLong_iff] at h
            exact ⟨leader, param, rfl, h⟩
          · rw [readLine_of_ne_space hcomment hline hspace] at h
            cases h
  · rintro ⟨leader, param, hline, hleader, hdirect⟩
    have hcomment : Source.isComment (dropLineEnds line) = false := by
      rw [hline]
      exact isComment_of_givesNumbers hleader
    rw [readLine_of_directive hcomment hline]
    exact direct_eq_tooLong_iff.2 ⟨hleader, hdirect⟩

end LineMachine.Case
