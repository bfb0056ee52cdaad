/-
**The first fault: which source texts are read, and what is reported of the others.**

A line of source text is at fault if it is outside the grammar or if a number on it is out of range.
The first reason goes before the second: where the grammar ends is reported even if a number
further left is out of range, and among those numbers it is the first one.  A source text is at
fault if one of its program lines is, and what is reported is the fault of the first of them.
Otherwise the numbers on each program line are listed under its number, and nothing else is.  All
this holds as long as no numeral is too long to be converted.

Main definitions:

* `LineMachine.Source.ShortRuns` — a line without a row of digits that is too long;
* `LineMachine.Listing.ProgramLine` — **a program line of a text**, by its place in the text;
* `LineMachine.Listing.Faulty`, `LineMachine.Listing.FaultAt` — **a line at fault, and where**.

Main results:

* `LineMachine.Listing.readLine_eq_error_iff` — the fault of a line;
* `LineMachine.Listing.mem_programLines_iff`, `LineMachine.Listing.programLines_congr` — program
  lines by their place, and that nothing else has a part in them;
* `LineMachine.Listing.ofText_decides` — **what is read, and what is reported**.
-/

import LineMachine.Proofs.Grammar
import LineMachine.Proofs.NumberedLines
import LineMachine.Proofs.ProgramLines

set_option relaxedAutoImplicit false
set_option autoImplicit false

namespace LineMachine

/-! ### Numerals that can be converted -/

namespace Source

variable {line : List Char}

/-- **A line without a row of digits that is too long.** -/
def ShortRuns (line : List Char) : Prop :=
  ∀ run, run <:+: line → (∀ c ∈ run, c.isDigit) → run.length ≤ Numeral.maxDigits

theorem ShortRuns.of_length_le (h : line.length ≤ Numeral.maxDigits) : ShortRuns line := by
  intro run hrun _
  exact Nat.le_trans hrun.length_le h

/-- Without such a row every numeral on the line writes some number. -/
theorem ShortRuns.exists_writes (h : ShortRuns line) {w : Word} (hw : w ∈ words line)
    (hnumeral : Numeral.isNumeral w.text) : ∃ v, Numeral.Writes w.text v := by
  obtain ⟨before, after, hwords⟩ := List.append_of_mem hw
  obtain ⟨front, rest, rfl, -⟩ := exists_around_word hwords
  obtain ⟨sign, -, htext⟩ := Numeral.exists_sign w.text
  have hrun : Numeral.unsigned w.text <:+: front ++ (w.text ++ rest) := by
    refine ⟨front ++ sign, rest, ?_⟩
    conv_rhs => rw [htext]
    simp only [List.append_assoc]
  have hshort := h _ hrun (Numeral.isNumeral_iff.1 hnumeral).2
  cases hvalue : Numeral.value w.text with
  | error digits =>
      obtain ⟨rfl, hlong⟩ := Numeral.value_eq_error_iff.1 hvalue
      omega
  | ok v => exact ⟨v, Numeral.writes_iff.2 ⟨hnumeral, hvalue⟩⟩

/-- Without such a row numbers are written on the line, if it is grammatical. -/
theorem ShortRuns.exists_holds (h : ShortRuns line) (hmem : line ∈ grammar) :
    ∃ vs, Holds line vs := by
  simp only [holds_iff]
  refine exists_forall₂ fun w hw => ?_
  exact h.exists_writes hw (mem_grammar_iff.1 hmem w hw)

/-- On a line with content there is a number, if only numbers are on it. -/
theorem Holds.ne_nil {vs : List Int} (h : Holds line vs) (hcontent : ¬ Remark line) : vs ≠ [] := by
  rintro rfl
  obtain ⟨ws, hspaced, hwrites⟩ := h
  cases hwrites
  cases hspaced with
  | gap hg => exact hcontent (.blank fun c hc => Text.isBlank_of_isSeparator (hg c hc))

end Source

namespace Listing

open Source (grammar words ShortRuns)

/-! ### Lines at fault -/

/-- **A line at fault**: it is outside the grammar, or a number on it is out of range. -/
def Faulty (line : List Char) : Prop :=
  line ∉ grammar ∨ ∃ vs, Source.Holds line vs ∧ ∃ v ∈ vs, ¬ Cell.InRange v

/-- **Where a line is at fault.** -/
inductive FaultAt (line : List Char) : Nat → Prop where
  /-- A line outside the grammar: behind the longest of its beginnings that belong to it. -/
  | ungrammatical {p : List Char} (hline : line ∉ grammar)
      (hp : Source.LongestPrefix grammar line p) : FaultAt line p.length
  /-- A grammatical line: at the first of its numbers that is out of range. -/
  | outOfRange {front w rest : List Char} {vs : List Int} {v : Int} (hmem : line ∈ grammar)
      (hline : line = front ++ (w ++ rest)) (hfront : Source.EndsGap front) (hw : Source.IsWord w)
      (hrest : Source.EndsWord rest) (hholds : Source.Holds front vs)
      (hvs : ∀ u ∈ vs, Cell.InRange u) (hv : Numeral.Writes w v) (hout : ¬ Cell.InRange v) :
      FaultAt line front.length

variable {file : String} {number : Int} {line : List Char}

/-- Where a line is at fault, it is. -/
theorem FaultAt.faulty {position : Nat} (h : FaultAt line position) (hruns : ShortRuns line) :
    Faulty line := by
  cases h with
  | ungrammatical hline hp => exact .inl hline
  | @outOfRange front w rest vs v hmem hline hfront hw hrest hholds hvs hv hout =>
      obtain ⟨us, hus⟩ := hruns.exists_holds hmem
      refine .inr ⟨us, hus, ?_⟩
      -- the word is one of those that write the numbers on the line
      have hword : ⟨front.length, w⟩ ∈ words line := by
        rw [hline, Source.words_around hfront hw hrest]
        simp
      obtain ⟨u, hu, hwrites⟩ := exists_mem_right (Source.holds_iff.1 hus) hword
      have hvalue := hwrites.value_eq
      rw [hv.value_eq] at hvalue
      cases hvalue
      exact ⟨v, hu, hout⟩

/-- The numbers that words are read as, if they are numerals. -/
theorem exists_writes_of_readWord {ws : List Source.Word}
    (hnumerals : ∀ w ∈ ws, Numeral.isNumeral w.text)
    (hread : ∀ w ∈ ws, ∃ v, readWord file number line w = .ok v) :
    ∃ vs, List.Forall₂ (fun w v => Numeral.Writes w.text v) ws vs ∧ ∀ v ∈ vs, Cell.InRange v := by
  have hwrites : ∀ w ∈ ws, ∃ v, Numeral.Writes w.text v ∧ Cell.InRange v := by
    intro w hw
    obtain ⟨v, hv⟩ := hread w hw
    obtain ⟨hvalue, hin⟩ := readWord_eq_ok_iff.1 hv
    exact ⟨v, Numeral.writes_iff.2 ⟨hnumerals w hw, hvalue⟩, hin⟩
  obtain ⟨vs, hvs⟩ := exists_forall₂ hwrites
  refine ⟨vs, hvs.imp fun _ _ h => h.1, ?_⟩
  intro v hv
  obtain ⟨w, -, -, hin⟩ := exists_mem_left hvs hv
  exact hin

/-- **The fault of a line**, if no numeral on it is too long. -/
theorem readLine_eq_error_iff (hruns : ShortRuns line) {f : Fault} :
    readLine file number line = .error f ↔
      ∃ position, FaultAt line position ∧ f = .notANumber file number (excerpt line position) := by
  constructor
  · intro h
    cases hscan : Source.scan line with
    | error position =>
        rw [readLine_of_scan_eq_error hscan] at h
        cases h
        obtain ⟨hline, p, hp, rfl⟩ := Source.scan_eq_error_iff.1 hscan
        exact ⟨p.length, .ungrammatical hline hp, rfl⟩
    | ok ws =>
        obtain ⟨hmem, rfl⟩ := Source.scan_eq_ok_iff_mem_grammar.1 hscan
        have hnumerals := Source.mem_grammar_iff.1 hmem
        rw [readLine_of_scan_eq_ok hscan, mapM_eq_error_iff] at h
        obtain ⟨before, w, after, hwords, hbefore, hw⟩ := h
        have hmemw : w ∈ words line := by simp [hwords]
        obtain ⟨v, hv⟩ := hruns.exists_writes hmemw (hnumerals w hmemw)
        obtain ⟨front, rest, hline, hstart, hfront, hword, hrest, hbeforewords⟩ :=
          Source.exists_around_word hwords
        have hnumeralsbefore : ∀ u ∈ before, Numeral.isNumeral u.text := by
          intro u hu
          exact hnumerals u (by simp [hwords, hu])
        obtain ⟨vs, hvs, hins⟩ := exists_writes_of_readWord hnumeralsbefore hbefore
        rw [← hbeforewords, ← Source.holds_iff] at hvs
        -- the word has a value, so it is out of range
        simp only [readWord, hv.value_eq] at hw
        split at hw
        · cases hw
        · rename_i hout
          cases hw
          rw [hstart]
          exact ⟨front.length, .outOfRange hmem hline hfront hword hrest hvs hins hv hout, rfl⟩
  · rintro ⟨position, hfault, rfl⟩
    cases hfault with
    | @ungrammatical p hline hp =>
        exact readLine_of_scan_eq_error (Source.scan_eq_error_iff.2 ⟨hline, p, hp, rfl⟩)
    | @outOfRange front w rest vs v hmem hline hfront hw hrest hholds hvs hv hout =>
        have hwords := Source.words_around hfront hw hrest
        rw [← hline] at hwords
        rw [readLine_of_scan_eq_ok (Source.scan_eq_ok_iff_mem_grammar.2 ⟨hmem, rfl⟩),
          mapM_eq_error_iff]
        refine ⟨words front, ⟨front.length, w⟩, _, hwords, ?_, ?_⟩
        · intro u hu
          obtain ⟨v', hv', hwrites⟩ := exists_mem_right (Source.holds_iff.1 hholds) hu
          exact ⟨v', readWord_eq_ok_iff.2 ⟨hwrites.value_eq, hvs v' hv'⟩⟩
        · simp only [readWord, hv.value_eq, if_neg hout]

/-- A line is read unless it is at fault. -/
theorem faulty_iff (file : String) (number : Int) (hruns : ShortRuns line) :
    Faulty line ↔ ∃ f, readLine file number line = .error f := by
  cases hread : readLine file number line with
  | ok vs =>
      obtain ⟨hholds, hvs⟩ := readLine_eq_ok_iff.1 hread
      simp only [reduceCtorEq, exists_false, iff_false]
      rintro (hline | ⟨us, hus, v, hv, hout⟩)
      · exact hline hholds.mem_grammar
      · obtain rfl := hus.unique hholds
        exact hout (hvs v hv)
  | error f =>
      obtain ⟨position, hfault, -⟩ := (readLine_eq_error_iff hruns).1 hread
      exact iff_of_true (hfault.faulty hruns) ⟨f, rfl⟩

/-! ### Program lines by their place -/

/-- **A program line of a text with its number**: a line with content whose number is that of a
compiled line. -/
def ProgramLine (text : List Char) (number : Nat) (line : List Char) : Prop :=
  Source.LineAt text number line ∧ IsCompiled number ∧ ¬ Source.Remark line

variable {text : List Char}

/-- **The program lines of a text by their place.** -/
theorem mem_programLines_iff {i : Nat} :
    (line, i) ∈ programLines text ↔ ProgramLine text i line := by
  rw [programLines, List.mem_filter, Source.mem_numbered_lines_iff, ProgramLine,
    ← Source.isComment_iff]
  simp [isProgramLine]

/-- Program lines come in the order of their numbers. -/
theorem ascending_programLines (text : List Char) :
    (programLines text).Pairwise fun entry entry' => entry.2 < entry'.2 := by
  refine List.Pairwise.filter _ ?_
  rw [← List.pairwise_map (R := (· < ·)), Source.numbered, List.zipIdx_map_snd]
  exact List.pairwise_lt_range'

/-- **Nothing else has a part in them**: texts with the same program lines are read alike. -/
theorem programLines_congr {text' : List Char}
    (h : ∀ i line, ProgramLine text' i line ↔ ProgramLine text i line) :
    programLines text' = programLines text := by
  have hmem : ∀ entry, entry ∈ programLines text' ↔ entry ∈ programLines text := by
    rintro ⟨line, i⟩
    rw [mem_programLines_iff, mem_programLines_iff, h]
  have hnodup (t : List Char) : (programLines t).Nodup := (nodup_programLines t).of_map _
  have hperm := (List.perm_ext_iff_of_nodup (hnodup text') (hnodup text)).2 hmem
  refine hperm.eq_of_pairwise ?_ (ascending_programLines text') (ascending_programLines text)
  intro entry entry' _ _ hlt hgt
  omega

/-! ### What is read, and what is reported -/

/-- **The first program line at fault**, and where on it the fault is. -/
structure FirstFault (text : List Char) (number : Nat) (line : List Char) (position : Nat) :
    Prop where
  programLine : ProgramLine text number line
  faultAt : FaultAt line position
  first : ∀ i line', ProgramLine text i line' → Faulty line' → number ≤ i

/-- **A listing of a text**: the program lines in order, each with the numbers that are written on
it.  There is at least one, and all of them are in range. -/
structure Lists (listing : Listing) (text : List Char) : Prop where
  ascending : (listing.map Row.number).Pairwise (· < ·)
  complete : ∀ i line, ProgramLine text i line → ∃ row ∈ listing, row.number = i
  sound : ∀ row ∈ listing, ∃ i line, ProgramLine text i line ∧ row.number = i ∧
    Source.Holds line row.values ∧ row.values ≠ [] ∧ ∀ v ∈ row.values, Cell.InRange v

variable (hruns : ∀ i line, ProgramLine text i line → ShortRuns line)

include hruns in
/-- **What is reported** is the fault of the first line at fault. -/
theorem ofText_eq_error_iff {f : Fault} :
    ofText file text = .error f ↔ ∃ i line position, FirstFault text i line position ∧
      f = .notANumber file i (excerpt line position) := by
  have hascending := ascending_programLines text
  rw [ofText_eq, mapM_eq_error_iff]
  constructor
  · rintro ⟨before, ⟨line, i⟩, after, hlines, hbefore, hf⟩
    have hline : ProgramLine text i line := mem_programLines_iff.1 (by simp [hlines])
    obtain ⟨position, hfault, rfl⟩ :=
      (readLine_eq_error_iff (hruns i line hline)).1 (readRow_eq_error_iff.1 hf)
    refine ⟨i, line, position, ⟨hline, hfault, ?_⟩, rfl⟩
    intro j line' hline' hfaulty
    have hmem := mem_programLines_iff.2 hline'
    rw [hlines] at hascending hmem
    rcases List.mem_append.1 hmem with hmem | hmem
    · -- the lines before it were read
      obtain ⟨f, hf⟩ := (faulty_iff file j (hruns j line' hline')).1 hfaulty
      obtain ⟨row, hrow⟩ := hbefore _ hmem
      rw [readRow_eq_error_iff.2 hf] at hrow
      cases hrow
    · rcases List.mem_cons.1 hmem with heq | hmem
      · cases heq
        exact Nat.le_refl _
      · have htail := (List.pairwise_append.1 hascending).2.1
        exact Nat.le_of_lt (List.rel_of_pairwise_cons htail hmem)
  · rintro ⟨i, line, position, ⟨hline, hfault, hfirst⟩, rfl⟩
    obtain ⟨before, after, hlines⟩ := List.append_of_mem (mem_programLines_iff.2 hline)
    refine ⟨before, (line, i), after, hlines, ?_, ?_⟩
    · rintro ⟨line', j⟩ hmem
      have hline' : ProgramLine text j line' := mem_programLines_iff.1 (by simp [hlines, hmem])
      cases hread : readRow file (line', j) with
      | ok row => exact ⟨row, rfl⟩
      | error f =>
          have hfaulty : Faulty line' :=
            (faulty_iff file j (hruns j line' hline')).2 ⟨f, readRow_eq_error_iff.1 hread⟩
          have hle : i ≤ j := hfirst j line' hline' hfaulty
          rw [hlines] at hascending
          have hlt : j < i :=
            (List.pairwise_append.1 hascending).2.2 _ hmem _ (List.mem_cons_self ..)
          omega
    · rw [readRow_eq_error_iff, readLine_eq_error_iff (hruns i line hline)]
      exact ⟨position, hfault, rfl⟩

/-- **What is read** are the numbers that are written on the program lines. -/
theorem lists_of_ofText {listing : Listing} (h : ofText file text = .ok listing) :
    listing.Lists text where
  ascending := by
    rw [ofText_eq] at h
    have hnumbers : listing.map Row.number = (programLines text).map fun entry => (entry.2 : Int) :=
      map_eq_of_mapM_eq_ok h fun entry row hrow => (readRow_eq_ok_iff.1 hrow).1
    rw [hnumbers, List.pairwise_map]
    exact (ascending_programLines text).imp Int.ofNat_lt.2
  complete := by
    intro i line hline
    obtain ⟨row, hmem, hrow⟩ := exists_mem_right (mapM_eq_ok_iff.1 h) (mem_programLines_iff.2 hline)
    exact ⟨row, hmem, (readRow_eq_ok_iff.1 hrow).1⟩
  sound := by
    intro row hmem
    obtain ⟨⟨line, i⟩, hentry, hrow⟩ := (mem_iff_of_mapM_eq_ok h).1 hmem
    obtain ⟨hnumber, hholds, hvs⟩ := readRow_eq_ok_iff.1 hrow
    have hline := mem_programLines_iff.1 hentry
    exact ⟨i, line, hline, hnumber, hholds, hholds.ne_nil hline.2.2, hvs⟩

include hruns in
/-- A text is read unless one of its program lines is at fault. -/
theorem exists_ofText_eq_error_iff :
    (∃ f, ofText file text = .error f) ↔ ∃ i line, ProgramLine text i line ∧ Faulty line := by
  constructor
  · rintro ⟨f, hf⟩
    obtain ⟨i, line, position, hfault, -⟩ := (ofText_eq_error_iff hruns).1 hf
    exact ⟨i, line, hfault.programLine, hfault.faultAt.faulty (hruns i line hfault.programLine)⟩
  · rintro ⟨i, line, hline, hfaulty⟩
    cases h : ofText file text with
    | error f => exact ⟨f, rfl⟩
    | ok listing =>
        obtain ⟨f, hf⟩ := (faulty_iff file i (hruns i line hline)).1 hfaulty
        rw [ofText_eq, mapM_eq_ok_iff] at h
        obtain ⟨row, -, hrow⟩ := exists_mem_right h (mem_programLines_iff.2 hline)
        rw [readRow_eq_error_iff.2 hf] at hrow
        cases hrow

/-- **A source text is read or its first fault is reported.**  It is refused just if one of its
program lines is at fault, and then the message names the first such line and quotes it from the
fault on.  Otherwise the listing has the numbers on its program lines, and nothing else in the text
makes a difference. -/
theorem ofText_decides (file : String) (text : List Char)
    (hruns : ∀ i line, ProgramLine text i line → ShortRuns line) :
    ((∃ f, ofText file text = .error f) ↔ ∃ i line, ProgramLine text i line ∧ Faulty line) ∧
      (∀ f, ofText file text = .error f → ∃ i line position quote,
        FirstFault text i line position ∧ quote = String.ofList ((line.drop position).take 10) ∧
          f = .notANumber file i quote ∧
          f.message = s!"{file}({i}): not a number at '{quote}'") ∧
      (∀ listing, ofText file text = .ok listing → listing.Lists text) ∧
      ∀ text', (∀ i line, ProgramLine text' i line ↔ ProgramLine text i line) →
        ofText file text' = ofText file text := by
  refine ⟨exists_ofText_eq_error_iff hruns, ?_, fun _ => lists_of_ofText, ?_⟩
  · intro f hf
    obtain ⟨i, line, position, hfault, rfl⟩ := (ofText_eq_error_iff hruns).1 hf
    exact ⟨i, line, position, _, hfault, rfl, rfl, rfl⟩
  · intro text' h
    rw [ofText_eq, ofText_eq, programLines_congr h]

/-- A number out of range is left of where the grammar ends, and the next line is at fault too. -/
theorem ofText_decides_out_of_range_before_ungrammatical :
    ∃ position, FirstFault (List.replicate 20 '\n' ++ "4294967296 12x # 3\n 0 4294967296".toList)
        21 "4294967296 12x # 3".toList position ∧
      String.ofList (("4294967296 12x # 3".toList.drop position).take 10) = "x # 3" := by
  have hlines : programLines (List.replicate 20 '\n' ++
      "4294967296 12x # 3\n 0 4294967296".toList) =
      [("4294967296 12x # 3".toList, 21), (" 0 4294967296".toList, 22)] := by decide +kernel
  have hread : ofText "p" (List.replicate 20 '\n' ++
      "4294967296 12x # 3\n 0 4294967296".toList) = .error (.notANumber "p" 21 "x # 3") := by
    decide +kernel
  have hmem : ∀ {i : Nat} {line : List Char}, ProgramLine (List.replicate 20 '\n' ++
      "4294967296 12x # 3\n 0 4294967296".toList) i line →
      (line, i) = ("4294967296 12x # 3".toList, 21) ∨ (line, i) = (" 0 4294967296".toList, 22) := by
    intro i line hline
    rw [← mem_programLines_iff, hlines] at hline
    simpa using hline
  have hruns : ∀ i line, ProgramLine (List.replicate 20 '\n' ++
      "4294967296 12x # 3\n 0 4294967296".toList) i line → ShortRuns line := by
    intro i line hline
    refine ShortRuns.of_length_le ?_
    rcases hmem hline with h | h
    · cases h
      decide
    · cases h
      decide
  obtain ⟨i, line, position, quote, hfault, hquote, hf, -⟩ :=
    (ofText_decides "p" _ hruns).2.1 _ hread
  rcases hmem hfault.programLine with h | h
  · cases h
    cases hf
    exact ⟨position, hfault, hquote.symm⟩
  · cases h
    cases hf

end Listing

end LineMachine
