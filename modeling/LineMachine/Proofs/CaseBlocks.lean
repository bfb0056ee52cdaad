/-
**Blocks: what a case file is read as.**

Each line of a case file that declares a case starts a block.  It reaches up to the next such line,
and each block is read as a case of its own.  So a line changes the last case as it changes the last
block, and no other.  The first bad line of a file is at fault; a file without one is read as the
cases of its blocks, in order.

Main definitions:

* `LineMachine.Case.blocks` — the blocks of a file;
* `LineMachine.Case.OfBlock` — **the case that a block is read as**.

Main results:

* `LineMachine.Case.map_fst_blocks` — each line that declares a case starts a block with its name;
* `LineMachine.Case.OfBlock.unique` — a block is read as one case only;
* `LineMachine.Case.forall₂_ofBlock` — **what a line adds to the blocks is what it adds to the
  cases**;
* `LineMachine.Case.ofLines_blocks` — **the first bad line, and the cases of a file without one**.
-/

import LineMachine.Proofs.CaseDefects

set_option relaxedAutoImplicit false
set_option autoImplicit false

namespace LineMachine

namespace Case

open Source (Holds)

variable {line param : List Char} {ls lines : List (List Char)}
variable {c c' : Case} {cs cases cases' : List Case} {v : Int} {vs : List Int}

/-! ### Blocks -/

/-- The parameters of the lines with a leader. -/
def parameters (leader : Char) (ls : List (List Char)) : List (List Char) :=
  ls.filterMap (parameter? leader)

/-- **The blocks of a file**: the name on each line that declares a case, and the lines behind it up
to the next one. -/
def blocks : List (List Char) → List (String × List (List Char))
  | [] => []
  | line :: ls =>
      match parameter? '=' line with
      | some name =>
          (String.ofList name, ls.takeWhile fun l => (parameter? '=' l).isNone) :: blocks ls
      | none => blocks ls

/-- The number that the last line with a leader gives, if there is such a line. -/
def Last (leader : Char) (ls : List (List Char)) (v : Option Int) : Prop :=
  Option.Rel (fun param v => Holds param [v]) (parameters leader ls).getLast? v

/-- All numbers that lines with a leader give, in order. -/
def Collected (leader : Char) (ls : List (List Char)) (vs : List Int) : Prop :=
  ∃ vss, List.Forall₂ Holds (parameters leader ls) vss ∧ vs = vss.flatten

/-- **The case that a block is read as.**  The last start line counts, which is no reserved line;
inputs and outputs are those of all lines, in order. -/
structure OfBlock (block : String × List (List Char)) (c : Case) : Prop where
  name : c.name = block.1
  start : Last '@' block.2 c.start
  not_low : ∀ v ∈ c.start, firstLine ≤ v
  inputs : Collected '^' block.2 c.inputs
  outputs : Collected 'v' block.2 c.outputs

theorem blocks_cons_of_name {name : List Char} (h : parameter? '=' line = some name) :
    blocks (line :: ls) =
      (String.ofList name, ls.takeWhile fun l => (parameter? '=' l).isNone) :: blocks ls := by
  rw [blocks, h]

theorem blocks_cons_of_none (h : parameter? '=' line = none) :
    blocks (line :: ls) = blocks ls := by
  rw [blocks, h]

/-- Each line that declares a case starts a block with its name. -/
theorem map_fst_blocks (ls : List (List Char)) :
    (blocks ls).map Prod.fst = (parameters '=' ls).map String.ofList := by
  induction ls with
  | nil => rfl
  | cons line ls ih =>
      cases h : parameter? '=' line with
      | none =>
          rw [blocks_cons_of_none h, ih, parameters, parameters, List.filterMap_cons_none h]
      | some name =>
          rw [blocks_cons_of_name h, List.map_cons, ih, parameters, parameters,
            List.filterMap_cons_some h, List.map_cons]

theorem blocks_eq_nil_iff : blocks ls = [] ↔ ∀ line ∈ ls, parameter? '=' line = none := by
  have hnames : blocks ls = [] ↔ parameters '=' ls = [] := by
    rw [← List.map_eq_nil_iff (f := Prod.fst), map_fst_blocks, List.map_eq_nil_iff]
  rw [hnames, parameters, List.filterMap_eq_nil_iff]

theorem declared_iff : Declared ls ↔ blocks ls ≠ [] := by
  rw [Ne, blocks_eq_nil_iff]
  simp [Declared]

/-- Where a case has been declared, a block ends before the end of the lines. -/
theorem takeWhile_append_of_declared (h : Declared ls) (rest : List (List Char)) :
    (ls ++ rest).takeWhile (fun l => (parameter? '=' l).isNone) =
      ls.takeWhile fun l => (parameter? '=' l).isNone := by
  rw [List.takeWhile_append, if_neg]
  intro hlength
  obtain ⟨line, hline, hname⟩ := h
  have hall := (List.takeWhile_sublist _).eq_of_length hlength
  rw [List.takeWhile_eq_self_iff] at hall
  exact hname (Option.isNone_iff_eq_none.1 (hall line hline))

/-- A line that declares a case starts a block. -/
theorem blocks_append_name {name : List Char} (h : parameter? '=' line = some name) :
    blocks (ls ++ [line]) = blocks ls ++ [(String.ofList name, [])] := by
  induction ls with
  | nil => exact blocks_cons_of_name h
  | cons l ls ih =>
      cases hl : parameter? '=' l with
      | none => rw [List.cons_append, blocks_cons_of_none hl, blocks_cons_of_none hl, ih]
      | some name' =>
          have htake : (ls ++ [line]).takeWhile (fun l => (parameter? '=' l).isNone) =
              ls.takeWhile fun l => (parameter? '=' l).isNone := by
            rw [List.takeWhile_append]
            split
            · rename_i hlength
              have hall := (List.takeWhile_sublist _).eq_of_length hlength
              rw [List.takeWhile_cons_of_neg (by simp [h]), List.append_nil, hall]
            · rfl
          rw [List.cons_append, blocks_cons_of_name hl, blocks_cons_of_name hl, ih, htake,
            List.cons_append]

/-- Any other line belongs to the last block. -/
theorem blocks_append_none {name : String} {block : List (List Char)}
    {bs : List (String × List (List Char))} (h : parameter? '=' line = none)
    (hlast : blocks ls = bs ++ [(name, block)]) :
    blocks (ls ++ [line]) = bs ++ [(name, block ++ [line])] := by
  induction ls generalizing bs with
  | nil => simp [blocks] at hlast
  | cons l ls ih =>
      cases hl : parameter? '=' l with
      | none =>
          rw [blocks_cons_of_none hl] at hlast
          rw [List.cons_append, blocks_cons_of_none hl, ih hlast]
      | some name' =>
          rw [blocks_cons_of_name hl] at hlast
          rw [List.cons_append, blocks_cons_of_name hl]
          cases bs with
          | nil =>
              obtain ⟨hblock, hnil⟩ := List.cons.inj hlast
              cases hblock
              have hnone := blocks_eq_nil_iff.1 hnil
              have hall : ∀ l ∈ ls ++ [line], parameter? '=' l = none := by
                simpa [or_imp, forall_and, h] using hnone
              rw [blocks_eq_nil_iff.2 hall,
                List.takeWhile_eq_self_iff.2 fun l hl => by simp [hall l hl],
                List.takeWhile_eq_self_iff.2 fun l hl => by simp [hnone l hl]]
              rfl
          | cons b bs =>
              obtain ⟨rfl, hbs⟩ := List.cons.inj hlast
              have hdeclared : Declared ls := by
                rw [declared_iff, hbs]
                simp
              rw [ih hbs, takeWhile_append_of_declared hdeclared, List.cons_append]

/-! ### Lines and blocks -/

section Parameters

variable {leader leader' : Char}

theorem parameters_append_of_none (h : parameter? leader line = none) :
    parameters leader (ls ++ [line]) = parameters leader ls := by
  rw [parameters, List.filterMap_append, List.filterMap_cons_none h, List.filterMap_nil,
    List.append_nil, parameters]

theorem parameters_append_of_some (h : parameter? leader line = some param) :
    parameters leader (ls ++ [line]) = parameters leader ls ++ [param] := by
  rw [parameters, List.filterMap_append, List.filterMap_cons_some h, List.filterMap_nil,
    parameters]

/-- A line has one leader. -/
theorem parameter?_eq_none_of_ne (h : parameter? leader line = some param)
    (hne : leader ≠ leader') : parameter? leader' line = none := by
  rw [Option.eq_none_iff_forall_ne_some]
  intro param' h'
  rw [parameter?_eq_some_iff] at h h'
  rw [h] at h'
  cases h'
  exact hne rfl

/-- A line without content has none. -/
theorem parameter?_eq_none_of_isComment (h : Source.isComment (dropLineEnds line))
    (hblank : Text.isBlank leader = false) (hmark : leader ≠ '#') :
    parameter? leader line = none := by
  rw [Option.eq_none_iff_forall_ne_some]
  intro param hparam
  rw [parameter?_eq_some_iff] at hparam
  rw [hparam, Source.isComment, List.dropWhile_cons_of_neg (by simp [hblank])] at h
  simp [hmark] at h

theorem Last.append_of_none {v : Option Int} (h : Last leader ls v)
    (hline : parameter? leader line = none) : Last leader (ls ++ [line]) v := by
  rw [Last, parameters_append_of_none hline]
  exact h

theorem last_append_of_some (hline : parameter? leader line = some param)
    (hparam : Holds param [v]) : Last leader (ls ++ [line]) (some v) := by
  rw [Last, parameters_append_of_some hline, List.getLast?_concat]
  exact .some hparam

theorem Last.unique {v v' : Option Int} (h : Last leader ls v) (h' : Last leader ls v') :
    v = v' := by
  unfold Last at h h'
  generalize (parameters leader ls).getLast? = last at h h'
  cases h with
  | none =>
      cases h'
      rfl
  | some hv =>
      cases h' with
      | some hv' =>
          cases hv.unique hv'
          rfl

theorem Collected.append_of_none (h : Collected leader ls vs)
    (hline : parameter? leader line = none) : Collected leader (ls ++ [line]) vs := by
  rw [Collected, parameters_append_of_none hline]
  exact h

theorem Collected.append_of_some {vs' : List Int} (h : Collected leader ls vs)
    (hline : parameter? leader line = some param) (hparam : Holds param vs') :
    Collected leader (ls ++ [line]) (vs ++ vs') := by
  obtain ⟨vss, hvss, rfl⟩ := h
  refine ⟨vss ++ [vs'], ?_, by simp⟩
  rw [parameters_append_of_some hline]
  exact List.rel_append hvss (.cons hparam .nil)

theorem Collected.unique {vs' : List Int} (h : Collected leader ls vs)
    (h' : Collected leader ls vs') : vs = vs' := by
  obtain ⟨vss, hvss, rfl⟩ := h
  obtain ⟨vss', hvss', rfl⟩ := h'
  have hunique : Relator.RightUnique Holds := fun _ _ _ => Holds.unique
  rw [List.right_unique_forall₂' hunique hvss hvss']

end Parameters

namespace OfBlock

variable {name : String} {block : List (List Char)}

theorem named (name : List Char) :
    OfBlock (String.ofList name, []) (named (String.ofList name)) where
  name := rfl
  start := .none
  not_low := by simp [Case.named]
  inputs := ⟨[], .nil, rfl⟩
  outputs := ⟨[], .nil, rfl⟩

theorem append_remark (h : OfBlock (name, block) c)
    (hline : Source.isComment (dropLineEnds line)) : OfBlock (name, block ++ [line]) c where
  name := h.name
  start := h.start.append_of_none
    (parameter?_eq_none_of_isComment hline (by decide) (by decide))
  not_low := h.not_low
  inputs := h.inputs.append_of_none
    (parameter?_eq_none_of_isComment hline (by decide) (by decide))
  outputs := h.outputs.append_of_none
    (parameter?_eq_none_of_isComment hline (by decide) (by decide))

theorem append_start (h : OfBlock (name, block) c) (hline : parameter? '@' line = some param)
    (hparam : Holds param [v]) (hv : firstLine ≤ v) :
    OfBlock (name, block ++ [line]) { c with start := some v } where
  name := h.name
  start := last_append_of_some hline hparam
  not_low := by
    intro u hu
    cases hu
    exact hv
  inputs := h.inputs.append_of_none (parameter?_eq_none_of_ne hline (by decide))
  outputs := h.outputs.append_of_none (parameter?_eq_none_of_ne hline (by decide))

theorem append_inputs (h : OfBlock (name, block) c) (hline : parameter? '^' line = some param)
    (hparam : Holds param vs) :
    OfBlock (name, block ++ [line]) { c with inputs := c.inputs ++ vs } where
  name := h.name
  start := h.start.append_of_none (parameter?_eq_none_of_ne hline (by decide))
  not_low := h.not_low
  inputs := h.inputs.append_of_some hline hparam
  outputs := h.outputs.append_of_none (parameter?_eq_none_of_ne hline (by decide))

theorem append_outputs (h : OfBlock (name, block) c) (hline : parameter? 'v' line = some param)
    (hparam : Holds param vs) :
    OfBlock (name, block ++ [line]) { c with outputs := c.outputs ++ vs } where
  name := h.name
  start := h.start.append_of_none (parameter?_eq_none_of_ne hline (by decide))
  not_low := h.not_low
  inputs := h.inputs.append_of_none (parameter?_eq_none_of_ne hline (by decide))
  outputs := h.outputs.append_of_some hline hparam

/-- **A block is read as one case only.** -/
theorem unique {b : String × List (List Char)} (h : OfBlock b c) (h' : OfBlock b c') : c = c' := by
  obtain ⟨name, start, inputs, outputs⟩ := c
  obtain ⟨name', start', inputs', outputs'⟩ := c'
  simp only [Case.mk.injEq]
  exact ⟨h.name.trans h'.name.symm, h.start.unique h'.start, h.inputs.unique h'.inputs,
    h.outputs.unique h'.outputs⟩

end OfBlock

/-- A line that starts no block changes the last case as it changes the last block. -/
theorem forall₂_ofBlock_last (hline : parameter? '=' line = none)
    (hblocks : List.Forall₂ OfBlock (blocks ls).reverse (c :: cs))
    (hc : ∀ name block, OfBlock (name, block) c → OfBlock (name, block ++ [line]) c') :
    List.Forall₂ OfBlock (blocks (ls ++ [line])).reverse (c' :: cs) := by
  rcases List.eq_nil_or_concat (blocks ls) with hnil | ⟨bs, ⟨name, block⟩, hlast⟩
  · rw [hnil] at hblocks
    cases hblocks
  · rw [List.concat_eq_append] at hlast
    rw [hlast, List.reverse_concat, List.forall₂_cons] at hblocks
    rw [blocks_append_none hline hlast, List.reverse_concat]
    exact .cons (hc name block hblocks.1) hblocks.2

/-- **What a line adds to the blocks is what it adds to the cases.** -/
theorem forall₂_ofBlock (h : Extends line cases cases')
    (hblocks : List.Forall₂ OfBlock (blocks ls).reverse cases) :
    List.Forall₂ OfBlock (blocks (ls ++ [line])).reverse cases' := by
  cases h with
  | remark h =>
      have hline : parameter? '=' line = none :=
        parameter?_eq_none_of_isComment h (by decide) (by decide)
      cases cases with
      | nil =>
          rw [List.forall₂_nil_right_iff, List.reverse_eq_nil_iff, blocks_eq_nil_iff] at hblocks ⊢
          simpa [or_imp, forall_and, hline] using hblocks
      | cons c cs =>
          exact forall₂_ofBlock_last hline hblocks fun _ _ hc => hc.append_remark h
  | @name _ name h =>
      rw [blocks_append_name h, List.reverse_concat]
      exact .cons (.named name) hblocks
  | start h hparam hv =>
      exact forall₂_ofBlock_last (parameter?_eq_none_of_ne h (by decide)) hblocks
        fun _ _ hc => hc.append_start h hparam hv
  | inputs h hparam =>
      exact forall₂_ofBlock_last (parameter?_eq_none_of_ne h (by decide)) hblocks
        fun _ _ hc => hc.append_inputs h hparam
  | outputs h hparam =>
      exact forall₂_ofBlock_last (parameter?_eq_none_of_ne h (by decide)) hblocks
        fun _ _ hc => hc.append_outputs h hparam

/-! ### One line after the other -/

theorem declared_iff_of_forall₂ (h : List.Forall₂ OfBlock (blocks ls).reverse cases) :
    Declared ls ↔ cases ≠ [] := by
  have hlength := h.length_eq
  rw [List.length_reverse] at hlength
  rw [declared_iff, ← List.length_pos_iff, ← List.length_pos_iff, hlength]

theorem foldlM_append_singleton_eq_ok_iff :
    (ls ++ [line]).foldlM readLine cases = .ok cases' ↔
      ∃ cases₁, ls.foldlM readLine cases = .ok cases₁ ∧ readLine cases₁ line = .ok cases' := by
  rw [List.foldlM_append]
  cases ls.foldlM readLine cases with
  | error d => simp [bind, Except.bind]
  | ok cases₁ =>
      cases h : readLine cases₁ line <;>
        simp [bind, Except.bind, h, pure, Except.pure]

/-- **What is read has no bad line**, and the cases are those of its blocks. -/
theorem sound_and_forall₂_of_foldlM (hls : ∀ line ∈ ls, Convertible line)
    (h : ls.foldlM readLine [] = .ok cases) :
    Sound ls ∧ List.Forall₂ OfBlock (blocks ls).reverse cases := by
  induction ls using List.reverseRecOn generalizing cases with
  | nil =>
      cases h
      exact ⟨sound_nil, .nil⟩
  | append_singleton ls line ih =>
      obtain ⟨cases₁, hbefore, hline⟩ := foldlM_append_singleton_eq_ok_iff.1 h
      simp only [List.mem_append, List.mem_singleton, or_imp, forall_and, forall_eq] at hls
      obtain ⟨hsound, hblocks⟩ := ih hls.1 hbefore
      refine ⟨sound_append_singleton.2 ⟨hsound, ?_⟩, ?_⟩
      · rintro d ⟨hcontent, hreason⟩
        rw [declared_iff_of_forall₂ hblocks] at hreason
        rw [(readLine_eq_error_iff hls.2).2 ⟨hcontent, hreason⟩] at hline
        cases hline
      · exact forall₂_ofBlock (extends_of_readLine hline) hblocks

/-- **Lines of which none is bad are read.** -/
theorem exists_foldlM_of_sound (hls : ∀ line ∈ ls, Convertible line) (h : Sound ls) :
    ∃ cases, ls.foldlM readLine [] = .ok cases := by
  induction ls using List.reverseRecOn with
  | nil => exact ⟨[], rfl⟩
  | append_singleton ls line ih =>
      simp only [List.mem_append, List.mem_singleton, or_imp, forall_and, forall_eq] at hls
      obtain ⟨hsound, hline⟩ := sound_append_singleton.1 h
      obtain ⟨cases, hcases⟩ := ih hls.1 hsound
      obtain ⟨-, hblocks⟩ := sound_and_forall₂_of_foldlM hls.1 hcases
      cases hread : readLine cases line with
      | ok cases' => exact ⟨cases', foldlM_append_singleton_eq_ok_iff.2 ⟨cases, hcases, hread⟩⟩
      | error d =>
          obtain ⟨hcontent, hreason⟩ := (readLine_eq_error_iff hls.2).1 hread
          rw [← declared_iff_of_forall₂ hblocks] at hreason
          exact (hline d ⟨hcontent, hreason⟩).elim

/-- A bad line is told with its number and its defect. -/
theorem Reason.message {declared : Prop} {text : List Char} {f : Fault}
    (h : Reason declared text f.defect) :
    f.message = s!"{f.file}:{f.line}: Parse error ({f.defect.message})" := by
  obtain ⟨file, line, d⟩ := f
  cases h <;> rfl

/-- **The first bad line of a file is at fault**, and a file without one is read as the cases of its
blocks. -/
theorem ofLines_blocks (hlines : ∀ line ∈ lines, Convertible line) (file : String) :
    (∀ f, ofLines file lines = .error f ↔
      f.file = file ∧ ∃ before line after, lines = before ++ line :: after ∧ Sound before ∧
        Bad before line f.defect ∧ f.line = before.length + 1 ∧
        f.message = s!"{file}:{f.line}: Parse error ({f.defect.message})") ∧
    ((∃ f, ofLines file lines = .error f) ↔ ¬ Sound lines) ∧
    (∀ cs, ofLines file lines = .ok cs ↔ Sound lines ∧ List.Forall₂ OfBlock (blocks lines) cs) := by
  refine ⟨fun f => ?_, ?_, fun cs => ?_⟩
  · rw [ofLines_eq_error_iff]
    constructor
    · rintro ⟨rfl, before, line, after, cases, rfl, hbefore, hline, hnumber⟩
      rw [List.forall_mem_append, List.forall_mem_cons] at hlines
      obtain ⟨hsound, hblocks⟩ := sound_and_forall₂_of_foldlM hlines.1 hbefore
      obtain ⟨hcontent, hreason⟩ := (readLine_eq_error_iff hlines.2.1).1 hline
      rw [← declared_iff_of_forall₂ hblocks] at hreason
      exact ⟨rfl, before, line, after, rfl, hsound, ⟨hcontent, hreason⟩, hnumber, hreason.message⟩
    · rintro ⟨rfl, before, line, after, rfl, hsound, ⟨hcontent, hreason⟩, hnumber, -⟩
      rw [List.forall_mem_append, List.forall_mem_cons] at hlines
      obtain ⟨cases, hcases⟩ := exists_foldlM_of_sound hlines.1 hsound
      obtain ⟨-, hblocks⟩ := sound_and_forall₂_of_foldlM hlines.1 hcases
      rw [declared_iff_of_forall₂ hblocks] at hreason
      have hline := (readLine_eq_error_iff hlines.2.1).2 ⟨hcontent, hreason⟩
      exact ⟨rfl, before, line, after, cases, rfl, hcases, hline, hnumber⟩
  · constructor
    · rintro ⟨f, hf⟩ hsound
      obtain ⟨cases, hcases⟩ := exists_foldlM_of_sound hlines hsound
      rw [← List.reverse_reverse cases] at hcases
      rw [ofLines_eq_ok_iff.2 hcases] at hf
      cases hf
    · intro hbad
      cases hread : ofLines file lines with
      | error f => exact ⟨f, rfl⟩
      | ok cs =>
          have hsound := sound_and_forall₂_of_foldlM hlines (ofLines_eq_ok_iff.1 hread)
          exact absurd hsound.1 hbad
  · rw [ofLines_eq_ok_iff]
    constructor
    · intro h
      obtain ⟨hsound, hblocks⟩ := sound_and_forall₂_of_foldlM hlines h
      exact ⟨hsound, List.forall₂_reverse_iff.1 hblocks⟩
    · rintro ⟨hsound, hcs⟩
      obtain ⟨cases, hcases⟩ := exists_foldlM_of_sound hlines hsound
      obtain ⟨-, hblocks⟩ := sound_and_forall₂_of_foldlM hlines hcases
      have hunique : Relator.RightUnique OfBlock := fun _ _ _ => OfBlock.unique
      have hsame : cases = cs.reverse :=
        List.right_unique_forall₂' hunique hblocks (List.rel_reverse hcs)
      rw [hcases, hsame]

/-- A file with two cases. -/
def twoCases : List (List Char) :=
  ["= a\r".toList, "^ 1 -2".toList, "@ 21".toList, "# v".toList, "^ 3".toList, "@ 22".toList,
    "= b".toList, "v 4".toList]

/-- It is read as those cases; a reserved start line at its end is at fault. -/
theorem ofLines_blocks_two_cases :
    (∀ line ∈ twoCases ++ ["@ 20".toList], Convertible line) ∧
      ofLines "t" twoCases = .ok [⟨"a", some 22, [1, -2, 3], []⟩, ⟨"b", none, [], [4]⟩] ∧
      List.Forall₂ OfBlock (blocks twoCases)
        [⟨"a", some 22, [1, -2, 3], []⟩, ⟨"b", none, [], [4]⟩] ∧
      ofLines "t" (twoCases ++ ["@ 20".toList]) = .error ⟨"t", 9, .lowStart⟩ := by
  have hlines : ∀ line ∈ twoCases ++ ["@ 20".toList], Convertible line := by decide
  have hcases : ∀ line ∈ twoCases, Convertible line := fun line hline =>
    hlines line (List.mem_append_left _ hline)
  have hread : ofLines "t" twoCases = .ok [⟨"a", some 22, [1, -2, 3], []⟩, ⟨"b", none, [], [4]⟩] :=
    by decide
  obtain ⟨hsound, hblocks⟩ := ((ofLines_blocks hcases "t").2.2 _).1 hread
  refine ⟨hlines, hread, hblocks, ?_⟩
  have hstart : Holds "20".toList [20] := Source.readNumbers_eq_ok_iff.1 rfl
  have hreason : Reason (Declared twoCases) "@ 20".toList .lowStart :=
    .lowStart ⟨"= b".toList, by decide, by decide⟩ hstart (by decide)
  exact ((ofLines_blocks hlines "t").1 _).2
    ⟨rfl, twoCases, "@ 20".toList, [], rfl, hsound, ⟨by decide, hreason⟩, rfl, rfl⟩

end Case

end LineMachine
