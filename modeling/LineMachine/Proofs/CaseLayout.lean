/-
**Written cases: case files and the cases they write out.**

A case is written as a line with its name and a block of directives below it: its start line, if it
has one, and its inputs and outputs, which may be split over several directives.  The directives of
a block stand in any order, lines without content stand anywhere, and the lines end in either way.
However its cases are written, a case file is read as those cases.

Main definitions:

* `LineMachine.Case.WritesBlock`, `LineMachine.Case.WritesCases` — lines that write the block of a
  case, and **lines that write cases**;
* `LineMachine.Case.Writable` — a case that can be written.

Main results:

* `LineMachine.Case.ofText_eq_ok_iff` — how the lines of a case file end makes no difference;
* `LineMachine.Case.foldlM_of_writesBlock` — what a block does to its case;
* `LineMachine.Case.ofText_of_writesCases` — **cases that are written are read**.
-/

import LineMachine.Proofs.Directives
import LineMachine.Proofs.WrittenLines
import Mathlib.Data.List.DropRight

set_option relaxedAutoImplicit false
set_option autoImplicit false

namespace LineMachine

namespace Case

open Source (Holds Remark ReadsAs WritesLines)

variable {file : String} {text line param : List Char} {ls : List (List Char)}
variable {c : Case} {cs cases : List Case}

/-! ### The ends of lines -/

/-- What is dropped from a line are the carriage returns and line feeds at its end. -/
theorem exists_eq_dropLineEnds_append (line : List Char) :
    ∃ ends, line = dropLineEnds line ++ ends ∧ ∀ c ∈ ends, c = '\r' ∨ c = '\n' := by
  let isEnd (c : Char) : Bool := c == '\r' || c == '\n'
  refine ⟨(line.reverse.takeWhile isEnd).reverse, ?_, ?_⟩
  · have hsplit : line.reverse.takeWhile isEnd ++ line.reverse.dropWhile isEnd = line.reverse :=
      List.takeWhile_append_dropWhile
    have hreverse := congrArg List.reverse hsplit
    rw [List.reverse_append, List.reverse_reverse] at hreverse
    exact hreverse.symm
  · intro c hc
    have hend : isEnd c := List.all_eq_true.1 List.all_takeWhile c (List.mem_reverse.1 hc)
    simpa [isEnd] using hend

/-- A line that ends in neither loses nothing. -/
theorem dropLineEnds_of_getLast? (h : ∀ c ∈ line.getLast?, c ≠ '\r' ∧ c ≠ '\n') :
    dropLineEnds line = line := by
  have hself : List.rdropWhile (fun c => c == '\r' || c == '\n') line = line := by
    rw [List.rdropWhile_eq_self_iff]
    intro hne
    have hlast := h _ (List.getLast?_eq_some_getLast hne)
    simp [hlast]
  exact hself

theorem dropLineEnds_append_return (line : List Char) :
    dropLineEnds (line ++ ['\r']) = dropLineEnds line := by
  simp [dropLineEnds]

/-- A directive keeps its leader and the space behind it. -/
theorem dropLineEnds_directive (leader : Char) (param : List Char) :
    dropLineEnds (leader :: ' ' :: param) = leader :: ' ' :: dropLineEnds param := by
  unfold dropLineEnds
  rw [List.reverse_cons, List.reverse_cons, List.append_assoc, List.dropWhile_append]
  split
  · rename_i hnil
    rw [List.isEmpty_iff] at hnil
    rw [hnil]
    rfl
  · simp

theorem isComment_dropLineEnds (line : List Char) :
    Source.isComment (dropLineEnds line) = Source.isComment line := by
  obtain ⟨ends, hsplit, hends⟩ := exists_eq_dropLineEnds_append line
  have hblank : ∀ c ∈ ends, Text.isBlank c := by
    intro c hc
    rcases hends c hc with rfl | rfl <;> decide
  conv =>
    rhs
    rw [hsplit, Source.isComment_append_blanks _ hblank]

/-- What is written on a parameter is written on it without its line ends. -/
theorem holds_dropLineEnds {vs : List Int} (hfeed : '\n' ∉ param) :
    Holds (dropLineEnds param) vs ↔ Holds param vs := by
  obtain ⟨ends, hsplit, hends⟩ := exists_eq_dropLineEnds_append param
  have hgap : Source.IsGap ends := by
    intro c hc
    rcases hends c hc with rfl | rfl
    · rfl
    · exact absurd (hsplit ▸ List.mem_append_right _ hc) hfeed
  conv =>
    rhs
    rw [hsplit, Source.holds_append_gap _ hgap]

/-- How a line ends makes no difference to the cases after it. -/
theorem readLine_of_readsAs {read : List Char} (h : ReadsAs line read) :
    readLine cases read = readLine cases line := by
  rcases h with rfl | rfl
  · rfl
  · unfold readLine
    rw [dropLineEnds_append_return]

/-- **How the lines of a case file end** makes no difference to its cases. -/
theorem ofText_eq_ok_iff (h : WritesLines text ls) :
    ofText file text = .ok cs ↔ ls.foldlM readLine [] = .ok cs.reverse := by
  have hreads := h.readsAs
  clear h
  rw [ofText, ofLines_eq_ok_iff]
  generalize Source.lines text = rs at hreads
  have hfold (cases : List Case) : rs.foldlM readLine cases = ls.foldlM readLine cases := by
    induction hreads generalizing cases with
    | nil => rfl
    | cons hline _ ih =>
        rw [List.foldlM_cons, List.foldlM_cons, readLine_of_readsAs hline]
        exact bind_congr ih
  rw [hfold]

/-! ### Blocks -/

/-- **Lines that write a block of directives** below the name of a case, with the start lines, the
inputs and the outputs that they give, in order. -/
inductive WritesBlock : List (List Char) → List Int → List Int → List Int → Prop where
  | nil : WritesBlock [] [] [] []
  | remark {line : List Char} {ls : List (List Char)} {starts inputs outputs : List Int}
      (h : Remark line) (hrest : WritesBlock ls starts inputs outputs) :
      WritesBlock (line :: ls) starts inputs outputs
  | start {param : List Char} {ls : List (List Char)} {v : Int} {starts inputs outputs : List Int}
      (h : Holds param [v]) (hrest : WritesBlock ls starts inputs outputs) :
      WritesBlock (('@' :: ' ' :: param) :: ls) (v :: starts) inputs outputs
  | inputs {param : List Char} {ls : List (List Char)} {vs starts inputs outputs : List Int}
      (h : Holds param vs) (hrest : WritesBlock ls starts inputs outputs) :
      WritesBlock (('^' :: ' ' :: param) :: ls) starts (vs ++ inputs) outputs
  | outputs {param : List Char} {ls : List (List Char)} {vs starts inputs outputs : List Int}
      (h : Holds param vs) (hrest : WritesBlock ls starts inputs outputs) :
      WritesBlock (('v' :: ' ' :: param) :: ls) starts inputs (vs ++ outputs)

theorem readLine_of_remark (h : Remark line) : readLine cases line = .ok cases := by
  refine readLine_of_isComment ?_
  rw [isComment_dropLineEnds]
  exact Source.isComment_iff.2 h

/-- The numbers of a parameter are those that are written on it. -/
theorem numbers_of_holds {vs : List Int} {d : Defect} (hfeed : '\n' ∉ param) (h : Holds param vs) :
    numbers (dropLineEnds param) d = .ok vs := by
  have hread := Source.readNumbers_eq_ok_iff.2 ((holds_dropLineEnds hfeed).2 h)
  unfold numbers
  rw [hread]

/-- A line with a leader that gives numbers is the directive of that leader. -/
theorem readLine_of_givesNumbers {leader : Char} (h : givesNumbers leader) :
    readLine cases (leader :: ' ' :: param) = direct cases leader (dropLineEnds param) := by
  refine readLine_of_directive ?_ (dropLineEnds_directive leader param)
  rw [isComment_dropLineEnds]
  exact isComment_of_givesNumbers h

theorem readLine_start {v : Int} (hfeed : '\n' ∉ '@' :: ' ' :: param) (h : Holds param [v])
    (hv : firstLine ≤ v) (c : Case) (cs : List Case) :
    readLine (c :: cs) ('@' :: ' ' :: param) = .ok ({ c with start := some v } :: cs) := by
  have hparam := List.not_mem_of_not_mem_cons (List.not_mem_of_not_mem_cons hfeed)
  rw [readLine_of_givesNumbers (.inl rfl)]
  simp [direct, changeLast, setStart, numbers_of_holds hparam h, Int.not_lt.2 hv, Except.map]

theorem readLine_inputs {vs : List Int} (hfeed : '\n' ∉ '^' :: ' ' :: param) (h : Holds param vs)
    (c : Case) (cs : List Case) :
    readLine (c :: cs) ('^' :: ' ' :: param) = .ok ({ c with inputs := c.inputs ++ vs } :: cs) := by
  have hparam := List.not_mem_of_not_mem_cons (List.not_mem_of_not_mem_cons hfeed)
  rw [readLine_of_givesNumbers (.inr (.inl rfl))]
  simp [direct, changeLast, addInputs, numbers_of_holds hparam h, Except.map]

theorem readLine_outputs {vs : List Int} (hfeed : '\n' ∉ 'v' :: ' ' :: param) (h : Holds param vs)
    (c : Case) (cs : List Case) :
    readLine (c :: cs) ('v' :: ' ' :: param) =
      .ok ({ c with outputs := c.outputs ++ vs } :: cs) := by
  have hparam := List.not_mem_of_not_mem_cons (List.not_mem_of_not_mem_cons hfeed)
  rw [readLine_of_givesNumbers (.inr (.inr rfl))]
  simp [direct, changeLast, addOutputs, numbers_of_holds hparam h, Except.map]

/-- **What a block does to its case**: the last start line counts, and inputs and outputs add up. -/
theorem foldlM_of_writesBlock {starts inputs outputs : List Int}
    (h : WritesBlock ls starts inputs outputs) (hfeed : ∀ line ∈ ls, '\n' ∉ line)
    (hstarts : ∀ v ∈ starts, firstLine ≤ v) (c : Case) (cs : List Case) :
    ls.foldlM readLine (c :: cs) =
      .ok (⟨c.name, starts.getLast?.or c.start, c.inputs ++ inputs, c.outputs ++ outputs⟩ ::
        cs) := by
  induction h generalizing c with
  | nil => simp [pure, Except.pure]
  | remark h hrest ih =>
      rw [List.forall_mem_cons] at hfeed
      rw [foldlM_cons_of_ok (readLine_of_remark h)]
      exact ih hfeed.2 hstarts c
  | @start param ls v starts inputs outputs h hrest ih =>
      rw [List.forall_mem_cons] at hfeed hstarts
      rw [foldlM_cons_of_ok (readLine_start hfeed.1 h hstarts.1 c cs), ih hfeed.2 hstarts.2]
      -- a start line further down replaces this one
      have hlast : starts.getLast?.or (some v) = (v :: starts).getLast?.or c.start := by
        rw [List.getLast?_cons]
        cases starts.getLast? <;> rfl
      rw [hlast]
  | @inputs param ls vs starts inputs outputs h hrest ih =>
      rw [List.forall_mem_cons] at hfeed
      rw [foldlM_cons_of_ok (readLine_inputs hfeed.1 h c cs), ih hfeed.2 hstarts,
        List.append_assoc]
  | @outputs param ls vs starts inputs outputs h hrest ih =>
      rw [List.forall_mem_cons] at hfeed
      rw [foldlM_cons_of_ok (readLine_outputs hfeed.1 h c cs), ih hfeed.2 hstarts,
        List.append_assoc]

/-! ### Cases -/

/-- **A case that can be written**: its name stands on one line and does not end in a carriage
return, and its start line is no reserved line. -/
structure Writable (c : Case) : Prop where
  name_feed : '\n' ∉ c.name.toList
  name_return : c.name.toList.getLast? ≠ some '\r'
  start : ∀ v, c.start = some v → firstLine ≤ v

/-- **Lines that write cases**: for each of them a line with its name and its block, and remarks in
front of the first one. -/
inductive WritesCases : List (List Char) → List Case → Prop where
  | nil : WritesCases [] []
  | remark {line : List Char} {ls : List (List Char)} {cs : List Case} (h : Remark line)
      (hrest : WritesCases ls cs) : WritesCases (line :: ls) cs
  | case {c : Case} {block ls : List (List Char)} {cs : List Case}
      (h : WritesBlock block c.start.toList c.inputs c.outputs) (hrest : WritesCases ls cs) :
      WritesCases (('=' :: ' ' :: c.name.toList) :: (block ++ ls)) (c :: cs)

theorem readLine_name (h : c.Writable) (cases : List Case) :
    readLine cases ('=' :: ' ' :: c.name.toList) = .ok (named c.name :: cases) := by
  have hends : dropLineEnds ('=' :: ' ' :: c.name.toList) = '=' :: ' ' :: c.name.toList := by
    rw [dropLineEnds_directive, dropLineEnds_of_getLast?]
    intro d hd
    refine ⟨?_, ?_⟩
    · rintro rfl
      exact h.name_return hd
    · rintro rfl
      exact h.name_feed (List.mem_of_getLast? hd)
  have hcontent : Source.isComment (dropLineEnds ('=' :: ' ' :: c.name.toList)) = false := by
    rw [hends]
    exact Source.isComment_append (g := []) (by simp) (by decide) _
  rw [readLine_of_directive hcontent hends]
  simp [direct]

/-- What lines that write cases add to the cases before them. -/
theorem foldlM_of_writesCases (h : WritesCases ls cs) (hfeed : ∀ line ∈ ls, '\n' ∉ line)
    (hcs : ∀ c ∈ cs, c.Writable) (cases : List Case) :
    ls.foldlM readLine cases = .ok (cs.reverse ++ cases) := by
  induction h generalizing cases with
  | nil => rfl
  | remark h hrest ih =>
      rw [List.forall_mem_cons] at hfeed
      rw [foldlM_cons_of_ok (readLine_of_remark h)]
      exact ih hfeed.2 hcs cases
  | @case c block ls cs h hrest ih =>
      rw [List.forall_mem_cons, List.forall_mem_append] at hfeed
      rw [List.forall_mem_cons] at hcs
      have hstarts : ∀ v ∈ c.start.toList, firstLine ≤ v := by
        intro v hv
        exact hcs.1.start v (Option.mem_toList.1 hv)
      have hblock : block.foldlM readLine (named c.name :: cases) = .ok (c :: cases) := by
        rw [foldlM_of_writesBlock h hfeed.2.1 hstarts]
        cases c with
        | mk name start inputs outputs => cases start <;> rfl
      rw [foldlM_cons_of_ok (readLine_name hcs.1 cases), List.foldlM_append, hblock]
      refine (ih hfeed.2.2 hcs.2 (c :: cases)).trans ?_
      rw [List.reverse_cons, List.append_assoc]
      rfl

/-- **Cases that are written are read.**  However a file writes cases, it is read as those cases, in
order. -/
theorem ofText_of_writesCases (htext : WritesLines text ls) (hls : WritesCases ls cs)
    (hcs : ∀ c ∈ cs, c.Writable) (file : String) : ofText file text = .ok cs := by
  rw [ofText_eq_ok_iff htext, foldlM_of_writesCases hls htext.not_mem hcs, List.append_nil]

/-- A name that looks like a directive, one that is empty and one that looks like a remark; inputs
that are split, and remarks between them. -/
theorem ofText_of_writesCases_odd_names :
    ofText "t" ("# cases".toList ++ '\n' :: ("= @ 5".toList ++ '\r' :: '\n' ::
        ("^ 1 -2\r".toList ++ '\r' :: '\n' :: ("@ 22".toList ++ '\n' ::
          ("v +3".toList ++ '\n' :: ("\u00a0".toList ++ '\n' :: ("^ \t007".toList ++ '\n' ::
            ("= ".toList ++ '\n' :: ("^ ".toList ++ '\n' :: ("= # \r x".toList ++ '\r' :: '\n' ::
              "v 4 5".toList)))))))))) =
      .ok [⟨"@ 5", some 22, [1, -2, 7], [3]⟩, named "", ⟨"# \r x", none, [], [4, 5]⟩] := by
  let ls : List (List Char) := ["# cases".toList, "= @ 5".toList, "^ 1 -2\r".toList, "@ 22".toList,
    "v +3".toList, "\u00a0".toList, "^ \t007".toList, "= ".toList, "^ ".toList, "= # \r x".toList,
    "v 4 5".toList]
  have htext : WritesLines _ ls :=
    .feed (by decide) (.returnFeed (by decide) (.returnFeed (by decide) (.feed (by decide)
      (.feed (by decide) (.feed (by decide) (.feed (by decide) (.feed (by decide)
        (.feed (by decide) (.returnFeed (by decide) (.unended (by decide) (by decide)))))))))))
  have hsplit : WritesBlock ["^ 1 -2\r".toList, "@ 22".toList, "v +3".toList, "\u00a0".toList,
      "^ \t007".toList] [22] [1, -2, 7] [3] := by
    have hfirst : Holds "1 -2\r".toList [1, -2] := Source.readNumbers_eq_ok_iff.1 rfl
    have hstart : Holds "22".toList [22] := Source.readNumbers_eq_ok_iff.1 rfl
    have houtputs : Holds "+3".toList [3] := Source.readNumbers_eq_ok_iff.1 rfl
    have hsecond : Holds "\t007".toList [7] := Source.readNumbers_eq_ok_iff.1 rfl
    exact .inputs hfirst (.start hstart (.outputs houtputs
      (.remark (Source.isComment_iff.1 (by decide)) (.inputs hsecond .nil))))
  have hempty : WritesBlock ["^ ".toList] [] [] [] := by
    have hnone : Holds [] [] := Source.readNumbers_eq_ok_iff.1 rfl
    exact .inputs hnone .nil
  have hplain : WritesBlock ["v 4 5".toList] [] [] [4, 5] := by
    have hboth : Holds "4 5".toList [4, 5] := Source.readNumbers_eq_ok_iff.1 rfl
    exact .outputs hboth .nil
  have hls : WritesCases ls
      [⟨"@ 5", some 22, [1, -2, 7], [3]⟩, named "", ⟨"# \r x", none, [], [4, 5]⟩] :=
    .remark (Source.isComment_iff.1 (by decide)) (.case (c := ⟨"@ 5", some 22, [1, -2, 7], [3]⟩)
      hsplit (.case (c := named "") hempty
        (.case (c := ⟨"# \r x", none, [], [4, 5]⟩) hplain .nil)))
  refine ofText_of_writesCases htext hls ?_ "t"
  simp only [List.forall_mem_cons, List.not_mem_nil, false_implies, implies_true, and_true]
  exact ⟨⟨by decide, by decide, by decide⟩, ⟨by decide, by decide, by decide⟩,
    ⟨by decide, by decide, by decide⟩⟩

end Case

end LineMachine
