/-
**Descents: how a chain of branches ends.**

A branch goes on with an opcode that it found on the data stack, and that opcode may be a branch
again: how deep the branches lie is written in the data, not in the program.  Each of them takes two
or three cells, so a chain of branches comes to its bottom after at most half as many levels as there
were cells.  There it runs out of cells, or a condition has failed and nothing is left to do, or an
opcode is run that is no branch, and that one does a single thing.

Main definitions:

* `LineMachine.IsBranch` — the opcodes that go on with another one;
* `LineMachine.Descends` — **the way down a chain of branches**, level by level, to its bottom;
* `LineMachine.Machine.conclude` — what is done at the bottom;
* `LineMachine.Machine.LandsOn` — everything that running an opcode is, told from the bottom.

Main results:

* `LineMachine.exists_descends`, `LineMachine.Descends.unique` — every chain of branches has one
  bottom;
* `LineMachine.Descends.exists_taken` — what the levels take;
* `LineMachine.Machine.dispatch_landsOn` — **running an opcode goes down to one bottom, and what is
  done there is all that is done**.
-/

import LineMachine.Proofs.Branches
import LineMachine.Proofs.Control

set_option relaxedAutoImplicit false
set_option autoImplicit false

namespace LineMachine

/-! ### The way down -/

/-- **A branch**: an intrinsic that is no action. -/
def IsBranch (opcode : Int) : Prop :=
  Opcode.IsIntrinsic opcode ∧ ∀ a, Opcode.ofSlot opcode.toNat ≠ .act a

/-- The bottom of a chain of branches. -/
inductive Bottom where
  /-- An opcode that is no branch. -/
  | leaf (opcode : Int)
  /-- A branch whose condition failed, with nothing to do instead. -/
  | skipped
  /-- A branch that does not have all its operands. -/
  | short
  deriving DecidableEq, Repr

/-- **The way down a chain of branches**: an opcode on some cells leads through so many levels to a
bottom, and to the cells that are left there.  Every level has taken its operands. -/
inductive Descends : Int → List Cell → Nat → Bottom → List Cell → Prop where
  /-- An opcode that is no branch is the bottom. -/
  | leaf {opcode : Int} {cells : List Cell} (hleaf : ¬ IsBranch opcode) :
      Descends opcode cells 0 (.leaf opcode) cells
  /-- So is a branch without all its operands. -/
  | short {opcode : Int} {cells : List Cell} (hbranch : IsBranch opcode)
      (hcells : cells.length < (Opcode.ofSlot opcode.toNat).arity) :
      Descends opcode cells 0 .short cells
  /-- Below a branch whose condition fails there is nothing. -/
  | skip {opcode : Int} {chosen : Cell} {cells : List Cell} (hop : Opcode.IsIntrinsic opcode)
      (hslot : Opcode.ofSlot opcode.toNat = .ifTrue) :
      Descends opcode (chosen :: 0 :: cells) 1 .skipped cells
  /-- Below any other branch lies its choice. -/
  | choose {opcode : Int} {cells rest left : List Cell} {chosen : Cell} {levels : Nat}
      {bottom : Bottom} (hop : Opcode.IsIntrinsic opcode)
      (hbranch : Chooses (Opcode.ofSlot opcode.toNat) cells chosen rest)
      (h : Descends chosen.toInt rest levels bottom left) :
      Descends opcode cells (levels + 1) bottom left

theorem not_chooses_of_not_isBranch {opcode : Int} {cells rest : List Cell} {chosen : Cell}
    (hop : Opcode.IsIntrinsic opcode) (hleaf : ¬ IsBranch opcode) :
    ¬ Chooses (Opcode.ofSlot opcode.toNat) cells chosen rest := by
  intro h
  refine hleaf ⟨hop, fun a ha => ?_⟩
  rw [ha] at h
  cases h

/-- A branch has two operands or three. -/
theorem Chooses.arity_bounds {o : Opcode} {cells rest : List Cell} {chosen : Cell}
    (h : Chooses o cells chosen rest) : 2 ≤ o.arity ∧ o.arity ≤ 3 := by
  cases h with
  | ifTrue _ | yes _ | no => decide

/-- A branch that makes a choice has all its operands. -/
theorem Chooses.arity_le {o : Opcode} {cells rest : List Cell} {chosen : Cell}
    (h : Chooses o cells chosen rest) : o.arity ≤ cells.length := by
  obtain ⟨operands, rfl, hlength, -⟩ := h.exists_append
  rw [← hlength, List.length_append]
  exact Nat.le_add_right _ _

/-- The condition decides what a branch goes on with. -/
theorem Chooses.unique {o : Opcode} {cells rest rest' : List Cell} {chosen chosen' : Cell}
    (h : Chooses o cells chosen rest) (h' : Chooses o cells chosen' rest') :
    chosen' = chosen ∧ rest' = rest := by
  cases h with
  | ifTrue _ =>
      cases h' with
      | ifTrue _ => exact ⟨rfl, rfl⟩
  | yes hcond =>
      cases h' with
      | yes _ => exact ⟨rfl, rfl⟩
      | no => exact absurd rfl hcond
  | no =>
      cases h' with
      | yes hcond => exact absurd rfl hcond
      | no => exact ⟨rfl, rfl⟩

/-- A branch whose condition fails makes no choice. -/
theorem not_chooses_of_skip {chosen chosen' : Cell} {cells rest : List Cell} :
    ¬ Chooses .ifTrue (chosen :: 0 :: cells) chosen' rest := by
  intro h
  cases h with
  | ifTrue hcond => exact absurd rfl hcond

/-- **Every chain of branches has a bottom.** -/
theorem exists_descends (opcode : Int) (cells : List Cell) :
    ∃ levels bottom left, Descends opcode cells levels bottom left := by
  -- A choice lies on fewer cells.
  induction hn : cells.length using Nat.strongRecOn generalizing opcode cells with
  | _ n ih =>
      subst hn
      by_cases hbranch : IsBranch opcode
      · rcases Nat.lt_or_ge cells.length (Opcode.ofSlot opcode.toNat).arity with hcells | hcells
        · exact ⟨0, .short, cells, .short hbranch hcells⟩
        · rcases chooses_or_skips hbranch.2 hcells with ⟨chosen, rest, h⟩ | ⟨hslot, chosen, rest, rfl⟩
          · obtain ⟨levels, bottom, left, hbelow⟩ := ih _ h.length_lt chosen.toInt rest rfl
            exact ⟨levels + 1, bottom, left, .choose hbranch.1 h hbelow⟩
          · exact ⟨1, .skipped, rest, .skip hbranch.1 hslot⟩
      · exact ⟨0, .leaf opcode, cells, .leaf hbranch⟩

namespace Descends

variable {opcode : Int} {cells left left' : List Cell} {levels levels' : Nat}
variable {bottom bottom' : Bottom}

/-- **A chain of branches has one bottom only.** -/
theorem unique (h : Descends opcode cells levels bottom left)
    (h' : Descends opcode cells levels' bottom' left') :
    levels' = levels ∧ bottom' = bottom ∧ left' = left := by
  induction h generalizing levels' with
  | leaf hleaf =>
      cases h' with
      | leaf _ => exact ⟨rfl, rfl, rfl⟩
      | short hbranch _ => exact absurd hbranch hleaf
      | skip hop hslot => exact absurd ⟨hop, by simp [hslot]⟩ hleaf
      | choose hop hbranch _ => exact absurd hbranch (not_chooses_of_not_isBranch hop hleaf)
  | short hbranch hcells =>
      cases h' with
      | leaf hleaf => exact absurd hbranch hleaf
      | short _ _ => exact ⟨rfl, rfl, rfl⟩
      | skip _ hslot =>
          rw [hslot] at hcells
          exact absurd hcells (Nat.not_lt.2 (Nat.le_add_left 2 _))
      | choose _ hchooses _ => exact absurd hcells (Nat.not_lt.2 hchooses.arity_le)
  | skip hop hslot =>
      cases h' with
      | leaf hleaf => exact absurd ⟨hop, by simp [hslot]⟩ hleaf
      | short _ hcells =>
          rw [hslot] at hcells
          exact absurd hcells (Nat.not_lt.2 (Nat.le_add_left 2 _))
      | skip _ _ => exact ⟨rfl, rfl, rfl⟩
      | choose _ hchooses _ =>
          rw [hslot] at hchooses
          exact absurd hchooses not_chooses_of_skip
  | choose hop hchooses _ ih =>
      cases h' with
      | leaf hleaf => exact absurd hchooses (not_chooses_of_not_isBranch hop hleaf)
      | short _ hcells => exact absurd hcells (Nat.not_lt.2 hchooses.arity_le)
      | skip _ hslot =>
          rw [hslot] at hchooses
          exact absurd hchooses not_chooses_of_skip
      | choose _ hchooses' hbelow =>
          obtain ⟨rfl, rfl⟩ := hchooses.unique hchooses'
          obtain ⟨rfl, rfl, rfl⟩ := ih hbelow
          exact ⟨rfl, rfl, rfl⟩

/-- The bottom is no branch, if it is an opcode. -/
theorem not_isBranch {o : Int} (h : Descends opcode cells levels (.leaf o) left) :
    ¬ IsBranch o := by
  generalize hbottom : Bottom.leaf o = bottom at h
  induction h with
  | leaf hleaf =>
      cases hbottom
      exact hleaf
  | short _ _ | skip _ _ => cases hbottom
  | choose _ _ _ ih => exact ih hbottom

/-- **What the levels take**: two or three cells each, off the top, and the opcode at the bottom is
one of those, unless there are no levels. -/
theorem exists_taken (h : Descends opcode cells levels bottom left) :
    ∃ taken, cells = taken ++ left ∧ 2 * levels ≤ taken.length ∧ taken.length ≤ 3 * levels ∧
      ∀ o, bottom = .leaf o → levels = 0 ∧ o = opcode ∨ ∃ c ∈ taken, o = c.toInt := by
  induction h with
  | leaf _ =>
      refine ⟨[], rfl, Nat.le_refl 0, Nat.le_refl 0, fun o ho => ?_⟩
      cases ho
      exact .inl ⟨rfl, rfl⟩
  | short _ _ => exact ⟨[], rfl, Nat.le_refl 0, Nat.le_refl 0, by simp⟩
  | @skip _ chosen _ _ _ => exact ⟨[chosen, 0], rfl, by simp, by simp, by simp⟩
  | @choose _ _ _ _ chosen levels _ _ hchooses _ ih =>
      obtain ⟨operands, rfl, hlength, hmem⟩ := hchooses.exists_append
      obtain ⟨hlo, hhi⟩ := hchooses.arity_bounds
      obtain ⟨taken, rfl, htwo, hthree, hleaf⟩ := ih
      refine ⟨operands ++ taken, by simp, ?_, ?_, fun o ho => .inr ?_⟩
      · rw [List.length_append]
        omega
      · rw [List.length_append]
        omega
      · rcases hleaf o ho with ⟨-, rfl⟩ | ⟨c, hc, rfl⟩
        · exact ⟨chosen, List.mem_append_left _ hmem, rfl⟩
        · exact ⟨c, List.mem_append_right _ hc, rfl⟩

end Descends

/-! ### At the bottom -/

namespace Machine

/-- **What is done at the bottom** of a chain of branches, on the cells that are left. -/
def conclude (m : Machine) : Bottom → Outcome
  | .leaf opcode => m.dispatch opcode
  | .skipped => .next m
  | .short => .halt m.dataUnderflow { m with data := .empty }

/-- Running an opcode comes to what is done at the bottom. -/
theorem dispatch_of_descends {m : Machine} {opcode : Int} {levels : Nat} {bottom : Bottom}
    {left : List Cell} (h : Descends opcode m.data.topFirst levels bottom left) :
    m.dispatch opcode = { m with data := ⟨left⟩ }.conclude bottom := by
  generalize hcells : m.data.topFirst = cells at h
  induction h generalizing m with
  | leaf _ =>
      subst hcells
      rfl
  | short hbranch hshort =>
      subst hcells
      unfold dispatch
      rw [resolve_of_short hbranch.1 hbranch.2 hshort]
      rfl
  | skip hop hslot =>
      unfold dispatch
      rw [hcells, resolve_of_skip hop hslot]
      rfl
  | choose hop hchooses _ ih =>
      subst hcells
      rw [dispatch_of_chooses hop hchooses]
      exact ih rfl

/-- **An opcode that is no branch does a single thing**: nothing, a call or an action. -/
theorem dispatch_of_not_isBranch {m : Machine} {opcode : Int} (h : ¬ IsBranch opcode) :
    (opcode < 0 ∧ m.dispatch opcode = .next m) ∨
      (firstLine ≤ opcode ∧ m.dispatch opcode = .next (m.call opcode)) ∨
      ∃ a, Opcode.IsIntrinsic opcode ∧ Opcode.ofSlot opcode.toNat = .act a ∧
        m.dispatch opcode = m.perform a := by
  have hcase := dispatched_dispatch m opcode
  generalize m.dispatch opcode = o at hcase ⊢
  cases hcase with
  | idle hop => exact .inl ⟨hop, rfl⟩
  | call hop => exact .inr (.inl ⟨hop, rfl⟩)
  | act hop ha => exact .inr (.inr ⟨_, hop, ha, rfl⟩)
  | choose hop hchooses => exact absurd hchooses (not_chooses_of_not_isBranch hop h)
  | skip hop hslot _ => exact absurd ⟨hop, by simp [hslot]⟩ h
  | short hop hact _ => exact absurd ⟨hop, hact⟩ h

/-- **What running an opcode is**, told from the bottom of its chain of branches. -/
structure LandsOn (m : Machine) (opcode : Int) (levels : Nat) (bottom : Bottom)
    (left : List Cell) : Prop where
  descends : Descends opcode m.data.topFirst levels bottom left
  /-- There is no other way down. -/
  unique : ∀ levels' bottom' left', Descends opcode m.data.topFirst levels' bottom' left' →
    levels' = levels ∧ bottom' = bottom ∧ left' = left
  /-- The levels take two or three cells each, and the opcode at the bottom is one of those, unless
  there are no levels. -/
  taken : ∃ taken, m.data.topFirst = taken ++ left ∧
    2 * levels ≤ taken.length ∧ taken.length ≤ 3 * levels ∧
    ∀ o, bottom = .leaf o → levels = 0 ∧ o = opcode ∨ ∃ c ∈ taken, o = c.toInt
  levels_le : levels ≤ m.data.depth / 2
  /-- What is done at the bottom, on what is left there, is all that is done. -/
  dispatch : m.dispatch opcode = { m with data := ⟨left⟩ }.conclude bottom
  /-- An opcode at the bottom is no branch, and does a single thing. -/
  leaf : ∀ o, bottom = .leaf o → ¬ IsBranch o ∧
    ((o < 0 ∧ m.dispatch opcode = .next { m with data := ⟨left⟩ }) ∨
      (firstLine ≤ o ∧ m.dispatch opcode = .next ({ m with data := ⟨left⟩ }.call o)) ∨
      ∃ a, Opcode.IsIntrinsic o ∧ Opcode.ofSlot o.toNat = .act a ∧
        m.dispatch opcode = { m with data := ⟨left⟩ }.perform a)
  /-- At most one address is saved. -/
  ret : (m.dispatch opcode).machine.ret = m.ret ∨
    (m.dispatch opcode).machine.ret =
      (m.ret.push (Cell.wrap m.ip.line)).push (Cell.wrap m.ip.col)

/-- **Running an opcode goes down to one bottom**, through at most half as many levels as there are
cells, and what is done there is all that is done: one call or one action at most. -/
theorem dispatch_landsOn (m : Machine) (opcode : Int) :
    ∃ levels bottom left, m.LandsOn opcode levels bottom left := by
  obtain ⟨levels, bottom, left, h⟩ := exists_descends opcode m.data.topFirst
  obtain ⟨taken, hcells, htwo, hthree, hmem⟩ := h.exists_taken
  have hdispatch := dispatch_of_descends h
  refine ⟨levels, bottom, left, h, fun _ _ _ h' => h.unique h', ⟨taken, hcells, htwo, hthree, hmem⟩,
    ?_, hdispatch, ?_, ?_⟩
  · have hdepth : m.data.depth = taken.length + left.length := by
      rw [Stack.depth, hcells, List.length_append]
    omega
  · rintro o rfl
    have hleaf := h.not_isBranch
    rw [hdispatch]
    exact ⟨hleaf, dispatch_of_not_isBranch hleaf⟩
  · rcases dispatch_staysIn_or_call m opcode with hstays | ⟨line, data, -, hcall⟩
    · exact .inl hstays.ret
    · rw [hcall]
      exact .inr rfl

end Machine

end LineMachine
