/-
**Underflow: what an opcode has taken when it finds too few cells.**

An opcode needs so many cells on the data stack.  Three of the intrinsics look whether they are
there before they touch the stack; the others take what there is, and find out then.  A branch
takes its own operands first, and the opcode that it goes on with can run short behind it, on the
cells below.

Main definitions:

* `LineMachine.Opcode.looksFirst` — the intrinsics that look before they take;
* `LineMachine.RunsShort` — **an opcode, or one that its branches lead to, runs short**.

Main results:

* `LineMachine.Machine.underflow_takes` — **an opcode underflows exactly if it runs short, nothing
  but the data stack has changed then, and that is as it was only if it was empty or the opcode
  looked first**.
-/

import LineMachine.Proofs.Branches

set_option relaxedAutoImplicit false
set_option autoImplicit false

namespace LineMachine

/-! ### Running short -/

/-- Whether an action looks at the stack before it takes its operands. -/
def Action.looksFirst : Action → Bool
  | .swap | .dup | .loop => true
  | .operator _ | .not | .drop | .emit | .read | .exit => false

/-- Whether an opcode looks at the stack before it takes its operands.  Branches do not. -/
def Opcode.looksFirst : Opcode → Bool
  | .act a => a.looksFirst
  | .ifTrue | .ifElse => false

/-- The cells that an opcode leaves of too few. -/
def Opcode.leftOver (o : Opcode) (cells : List Cell) : List Cell :=
  if o.looksFirst then cells else []

/-- **An opcode runs short** on some cells and leaves some of them: it needs more than there are,
or it is a branch and the opcode that it chooses runs short on the cells below. -/
inductive RunsShort : Int → List Cell → List Cell → Prop where
  | here {opcode : Int} {cells : List Cell} (hop : Opcode.IsIntrinsic opcode)
      (hcells : cells.length < (Opcode.ofSlot opcode.toNat).arity) :
      RunsShort opcode cells ((Opcode.ofSlot opcode.toNat).leftOver cells)
  | behind {opcode : Int} {cells rest left : List Cell} {chosen : Cell}
      (hop : Opcode.IsIntrinsic opcode)
      (hbranch : Chooses (Opcode.ofSlot opcode.toNat) cells chosen rest)
      (h : RunsShort chosen.toInt rest left) : RunsShort opcode cells left

namespace RunsShort

variable {opcode : Int} {cells left : List Cell}

/-- What is left are cells that were there. -/
theorem suffix (h : RunsShort opcode cells left) : left <:+ cells := by
  induction h with
  | here _ _ =>
      unfold Opcode.leftOver
      split
      · exact List.suffix_rfl
      · exact List.nil_suffix
  | behind _ hbranch _ ih =>
      obtain ⟨operands, hcells, _⟩ := hbranch.exists_append
      exact ih.trans ⟨operands, hcells.symm⟩

/-- Nothing has been taken only if nothing was there or the opcode itself looked first. -/
theorem eq_iff (h : RunsShort opcode cells left) :
    left = cells ↔ cells = [] ∨ (Opcode.ofSlot opcode.toNat).looksFirst := by
  cases h with
  | here hop hcells =>
      unfold Opcode.leftOver
      cases (Opcode.ofSlot opcode.toNat).looksFirst with
      | true => simp
      | false => simp [eq_comm]
  | behind hop hbranch h =>
      -- The branch has taken its operands, so what is left is shorter than what was there.
      have hlt : left.length < cells.length :=
        Nat.lt_of_le_of_lt h.suffix.length_le hbranch.length_lt
      constructor
      · intro heq
        subst heq
        exact absurd hlt (Nat.lt_irrefl _)
      · rintro (hnil | hlooks)
        · subst hnil
          exact absurd hlt (Nat.not_lt_zero _)
        · generalize Opcode.ofSlot opcode.toNat = o at hbranch hlooks
          cases hbranch with
          | ifTrue _ | yes _ | no => contradiction

end RunsShort

namespace Machine

variable {m m' : Machine} {d : Diagnosis}

/-! ### Actions -/

/-- Without all its operands an action underflows, and leaves the stack if it looked first. -/
theorem exists_perform_underflow {a : Action} (h : m.data.topFirst.length < a.arity) :
    ∃ d, m.perform a =
      .halt (.underflow d) { m with data := ⟨(Opcode.act a).leftOver m.data.topFirst⟩ } := by
  obtain ⟨⟨cells⟩, ret, memory, ip, file, input, output⟩ := m
  cases a with
  | operator o =>
      match cells, h with
      | [], _ | [_], _ => exact ⟨_, rfl⟩
  | swap =>
      match cells, h with
      | [], _ | [_], _ => exact ⟨_, rfl⟩
  | not | dup | drop | loop | emit | exit =>
      match cells, h with
      | [], _ => exact ⟨_, rfl⟩
  | read => exact absurd h (Nat.not_lt_zero _)

/-- With all its operands an action does not underflow. -/
theorem perform_ne_underflow {a : Action} (h : a.arity ≤ m.data.topFirst.length) :
    m.perform a ≠ .halt (.underflow d) m' := by
  obtain ⟨⟨cells⟩, ret, memory, ip, file, input, output⟩ := m
  cases a with
  | operator o =>
      match cells, h with
      | right :: left :: rest, _ =>
          intro hperform
          simp only [perform] at hperform
          split at hperform <;> simp at hperform
  | swap =>
      match cells, h with
      | b :: a :: rest, _ => simp [perform]
  | loop =>
      match cells, h with
      | c :: rest, _ =>
          intro hperform
          simp only [perform] at hperform
          split at hperform <;> simp at hperform
  | not | dup | drop | emit | exit =>
      match cells, h with
      | c :: rest, _ => simp [perform]
  | read =>
      intro hperform
      simp only [perform] at hperform
      split at hperform <;> simp at hperform

/-- An action underflows exactly if it does not have all its operands. -/
theorem perform_underflow_iff {a : Action} :
    (∃ d, m.perform a = .halt (.underflow d) m') ↔
      m.data.topFirst.length < a.arity ∧
        m' = { m with data := ⟨(Opcode.act a).leftOver m.data.topFirst⟩ } := by
  constructor
  · rintro ⟨d, hperform⟩
    have hlt : m.data.topFirst.length < a.arity :=
      Nat.lt_of_not_le fun hle => perform_ne_underflow hle hperform
    obtain ⟨d', hshort⟩ := exists_perform_underflow hlt
    rw [hshort] at hperform
    cases hperform
    exact ⟨hlt, rfl⟩
  · rintro ⟨hlt, rfl⟩
    exact exists_perform_underflow hlt

/-! ### Opcodes -/

/-- An opcode that underflows runs short, and only the data stack has changed. -/
theorem exists_runsShort {opcode : Int} (h : m.dispatch opcode = .halt (.underflow d) m') :
    ∃ left, RunsShort opcode m.data.topFirst left ∧ m' = { m with data := ⟨left⟩ } := by
  -- A branch goes on with fewer cells.
  induction hn : m.data.topFirst.length using Nat.strongRecOn generalizing m opcode with
  | _ n ih =>
      subst hn
      have hcase := dispatched_dispatch m opcode
      rw [h] at hcase
      generalize ho : Outcome.halt (.underflow d) m' = o at hcase
      cases hcase with
      | idle _ | call _ | skip _ _ _ => contradiction
      | act hop ha =>
          obtain ⟨hlt, rfl⟩ := perform_underflow_iff.1 ⟨d, ho.symm⟩
          rw [← ha]
          exact ⟨_, .here hop (ha ▸ hlt), rfl⟩
      | choose hop hbranch =>
          obtain ⟨left, hshort, hm'⟩ := ih _ hbranch.length_lt ho.symm rfl
          exact ⟨left, .behind hop hbranch hshort, hm'⟩
      | short hop hact hlt =>
          cases ho
          have hleft : [] = (Opcode.ofSlot opcode.toNat).leftOver m.data.topFirst := by
            cases hslot : Opcode.ofSlot opcode.toNat with
            | act a => exact absurd hslot (hact a)
            | ifTrue | ifElse => rfl
          exact ⟨_, hleft ▸ .here hop hlt, rfl⟩

/-- An opcode that runs short underflows. -/
theorem exists_underflow {opcode : Int} {left : List Cell}
    (h : RunsShort opcode m.data.topFirst left) :
    ∃ d, m.dispatch opcode = .halt (.underflow d) { m with data := ⟨left⟩ } := by
  generalize hcells : m.data.topFirst = cells at h
  induction h generalizing m with
  | @here opcode cells hop hlt =>
      subst hcells
      unfold dispatch
      cases hslot : Opcode.ofSlot opcode.toNat with
      | act a =>
          rw [hslot] at hlt
          rw [resolve_of_act hop hslot]
          exact exists_perform_underflow hlt
      | ifTrue | ifElse =>
          refine ⟨m.diagnose "data stack underflow", ?_⟩
          rw [resolve_of_short hop (by simp [hslot]) hlt]
          rfl
  | behind hop hbranch _ ih =>
      subst hcells
      rw [dispatch_of_chooses hop hbranch]
      exact ih rfl

/-- **An opcode underflows exactly if it runs short**, at whatever depth of branches.  Nothing but
the data stack has changed then, and the data stack is as it was only if it was empty or the
opcode looked first. -/
theorem underflow_takes (m : Machine) (opcode : Int) :
    (∀ m', (∃ d, m.dispatch opcode = .halt (.underflow d) m') ↔
      ∃ left, RunsShort opcode m.data.topFirst left ∧ m' = { m with data := ⟨left⟩ }) ∧
    ∀ d m', m.dispatch opcode = .halt (.underflow d) m' →
      (m'.data = m.data ↔
        m.data = .empty ∨ (Opcode.ofSlot opcode.toNat).looksFirst = true) := by
  constructor
  · intro m'
    constructor
    · rintro ⟨d, h⟩
      exact exists_runsShort h
    · rintro ⟨left, hshort, rfl⟩
      exact exists_underflow hshort
  · intro d m' h
    obtain ⟨left, hshort, rfl⟩ := exists_runsShort h
    obtain ⟨⟨cells⟩, ret, memory, ip, file, input, output⟩ := m
    rw [Stack.mk.injEq, hshort.eq_iff, Stack.empty, Stack.mk.injEq]

/-- A machine whose branches lead to an addition of one cell. -/
def shortBehindBranches : Machine :=
  { fresh [] .emptyBytes with data := ⟨[12, 7, 0, 0, 1, 5]⟩ }

theorem underflow_takes_behind_branches :
    ∃ d, shortBehindBranches.dispatch 13 =
        .halt (.underflow d) { shortBehindBranches with data := .empty } ∧
      Stack.empty ≠ shortBehindBranches.data := by
  have hshort : RunsShort 13 [12, 7, 0, 0, 1, 5] [] :=
    .behind (by decide) .no (.behind (by decide) (.ifTrue (by decide))
      (.here (by decide) (by decide)))
  obtain ⟨d, h⟩ := ((underflow_takes shortBehindBranches 13).1 _).2 ⟨[], hshort, rfl⟩
  refine ⟨d, h, fun hdata => ?_⟩
  have hleft := ((underflow_takes shortBehindBranches 13).2 d _ h).1 hdata
  exact absurd hleft (by decide)

/-- An underflow can change the data stack: an addition takes the only cell there is. -/
theorem underflow_takes_operand :
    ¬ ∀ (m m' : Machine) (opcode : Int) (d : Diagnosis), Opcode.IsIntrinsic opcode →
      m.dispatch opcode = .halt (.underflow d) m' → m'.data = m.data := by
  intro hkept
  have hdata := hkept { fresh [] .emptyBytes with data := ⟨[5]⟩ } _ 0 _ (by decide) rfl
  exact absurd hdata (by decide)

end Machine

end LineMachine
