/-
**Streams: what is read, and what is written.**

A machine is stepped by its host, which may also run opcodes itself, change the stacks and write
text beside the program.  Each of these exchanges performs at most one action.  So the reads of a
run take the characters of the input one after the other, and find its end from then on; nothing
else takes any.  The emits of a run write the cells that they take off the data stack, if these are
bytes other than 255, in the order in which they are performed.  On a stream of bytes the text that
the host has written waits, but it does not change its place: an emit sends it on first.

Main definitions:

* `LineMachine.Deed`, `LineMachine.Request.deed?` — an action with the machine that performs it, and
  **the deed that a request comes to**;
* `LineMachine.Exchange`, `LineMachine.Machine.attend` — what a host does with a machine, one thing
  after the other;
* `LineMachine.Machine.actors` — **the machines that perform an action** in the course of that;
* `LineMachine.Written`, `LineMachine.Machine.written` — what the program and the host write, in
  order.

Main results:

* `LineMachine.does_request` — a request performs its deed, or leaves the streams alone;
* `LineMachine.Machine.input_attend`, `LineMachine.Machine.input_of_getElem?_actors` — what is left
  of the input, and what each read finds there;
* `LineMachine.Machine.output_attend`, `LineMachine.Sink.exists_takeAll_bytes` — what is written,
  and what a stream of bytes makes of it;
* `LineMachine.Machine.attend_lossless` — **input and output are lossless and in order**.
-/

import LineMachine.Proofs.CompileLog
import LineMachine.Proofs.OutputFrame
import LineMachine.Proofs.Turns

set_option relaxedAutoImplicit false
set_option autoImplicit false

namespace LineMachine

/-! ### Deeds -/

/-- **A deed**: an action, and the machine that performs it.  Whatever led to the action has been
taken off its data stack. -/
structure Deed where
  action : Action
  actor : Machine

namespace Machine

/-- The deed that running an opcode comes to, unless it does nothing, calls a line or runs short. -/
def dispatched? (m : Machine) (opcode : Int) : Option Deed :=
  match resolve opcode m.data.topFirst with
  | some (.act a, rest) => some ⟨a, { m with data := ⟨rest⟩ }⟩
  | _ => none

/-- The deed that executing a number as a cell comes to. -/
def executed? (m : Machine) (v : Int) : Option Deed :=
  if v = callCell then m.pop?.bind fun (opcode, m) => m.dispatched? opcode.toInt else none

/-- The deed that the next step comes to. -/
def stepped? (m : Machine) : Option Deed :=
  match m.memory.fetch m.ip with
  | .cell c => m.advance.executed? c.toInt
  | _ => none

end Machine

/-- **The deed that a request comes to.** -/
def Request.deed? (m : Machine) : Request → Option Deed
  | execute value => m.executed? value
  | dispatch opcode => m.dispatched? opcode
  | step => m.stepped?
  | _ => none

/-- **What an operation does to the streams**: it performs a deed on them, or leaves them alone. -/
inductive Outcome.Does (m : Machine) : Outcome → Option Deed → Prop where
  | nothing {o : Outcome} (hinput : o.machine.input = m.input)
      (houtput : o.machine.output = m.output) : Does m o none
  | deed {o : Outcome} {d : Deed} (ho : o = d.actor.perform d.action)
      (hinput : d.actor.input = m.input) (houtput : d.actor.output = m.output) : Does m o (some d)

theorem Outcome.Does.of_streams {m m' : Machine} {o : Outcome} {deed : Option Deed}
    (h : o.Does m' deed) (hinput : m'.input = m.input) (houtput : m'.output = m.output) :
    o.Does m deed := by
  cases h with
  | nothing hin hout => exact .nothing (hin.trans hinput) (hout.trans houtput)
  | deed ho hin hout => exact .deed ho (hin.trans hinput) (hout.trans houtput)

theorem does_dispatch (m : Machine) (opcode : Int) :
    (m.dispatch opcode).Does m (m.dispatched? opcode) := by
  unfold Machine.dispatch Machine.dispatched?
  match resolve opcode m.data.topFirst with
  | none | some (.nothing, _) | some (.call _, _) => exact .nothing rfl rfl
  | some (.act a, rest) => exact .deed rfl rfl rfl

theorem does_execute (m : Machine) (v : Int) : (m.execute v).Does m (m.executed? v) := by
  unfold Machine.execute Machine.executed?
  by_cases hv : v = callCell
  · rw [if_pos hv, if_pos hv]
    cases hpop : m.pop? with
    | none => exact .nothing rfl rfl
    | some popped =>
        obtain ⟨⟨opcode, data⟩, -, rfl⟩ := Option.map_eq_some_iff.1 hpop
        exact (does_dispatch { m with data := data } opcode.toInt).of_streams rfl rfl
  · rw [if_neg hv, if_neg hv]
    exact .nothing rfl rfl

theorem does_step (m : Machine) : m.step.Does m m.stepped? := by
  unfold Machine.step Machine.stepped?
  cases m.memory.fetch m.ip with
  | outside | missing => exact .nothing rfl rfl
  | lineEnd => exact .nothing (Machine.input_comeBack m) (Machine.output_comeBack m)
  | cell c => exact (does_execute m.advance c.toInt).of_streams rfl rfl

/-- **A request performs its deed**, or leaves the streams alone. -/
theorem does_request (m : Machine) (request : Request) :
    (request.run m).Does m (request.deed? m) := by
  cases request with
  | execute value => exact does_execute m value
  | dispatch opcode => exact does_dispatch m opcode
  | step => exact does_step m
  | compile | load | push | pushReturn | jump | setFile => exact .nothing rfl rfl
  | pop =>
      simp only [Request.run, Request.deed?, Machine.pop?]
      cases m.data.pop? with
      | none => exact .nothing rfl rfl
      | some top => exact .nothing rfl rfl
  | popReturn =>
      simp only [Request.run, Request.deed?, Machine.popReturn?]
      cases m.ret.pop? with
      | none => exact .nothing rfl rfl
      | some top => exact .nothing rfl rfl

/-! ### What a deed does to the streams -/

/-- **The machine that performs an action**, if a deed is that action. -/
def Deed.actors (a : Action) : Option Deed → List Machine
  | some d => if d.action = a then [d.actor] else []
  | none => []

namespace Machine

/-- The cell that a read puts on the data stack: the code of the next character, or minus one at the
end of the input. -/
def readCell : Option Char → Cell
  | some c => Cell.wrap c.toNat
  | none => -1

/-- No character code wraps. -/
theorem toInt_readCell (next : Option Char) :
    (readCell next).toInt = next.elim (-1) fun c => (c.toNat : Int) := by
  cases next with
  | none => decide
  | some c =>
      have hvalid : c.toNat < 1114112 := by
        rcases c.valid with h | ⟨-, h⟩
        · exact Nat.lt_trans h (by decide)
        · exact h
      refine Cell.toInt_wrap_of_inRange ?_
      simp only [Cell.InRange, Cell.bound]
      omega

/-- **A read** takes the next character of the input, and puts its code on the data stack. -/
theorem perform_read (m : Machine) :
    m.perform .read =
      .next { m with data := m.data.push (readCell m.input.head?), input := m.input.drop 1 } := by
  obtain ⟨data, ret, memory, ip, file, input, output⟩ := m
  cases input with
  | nil => rfl
  | cons c input => rfl

/-- The codes that the machine writes if it emits. -/
def topCodes (m : Machine) : List UInt8 := actionCodes .emit m.data.topFirst

end Machine

namespace Outcome.Does

open Machine

variable {m : Machine} {o : Outcome} {deed : Option Deed}

/-- A deed is that action, or it is not. -/
theorem actors_eq (h : o.Does m deed) (a : Action) :
    Deed.actors a deed = [] ∨ ∃ r, Deed.actors a deed = [r] ∧
      o = r.perform a ∧ r.input = m.input ∧ r.output = m.output := by
  cases h with
  | nothing => exact .inl rfl
  | @deed d ho hinput houtput =>
      by_cases ha : d.action = a
      · subst ha
        exact .inr ⟨d.actor, if_pos rfl, ho, hinput, houtput⟩
      · exact .inl (if_neg ha)

/-- **Only reading takes from the input.** -/
theorem input (h : o.Does m deed) :
    o.machine.input = m.input.drop (Deed.actors .read deed).length := by
  cases h with
  | nothing hinput => exact hinput
  | @deed d ho hinput =>
      subst ho
      by_cases ha : d.action = .read
      · rw [Deed.actors, if_pos ha, ha, perform_read, ← hinput]
        rfl
      · rw [Deed.actors, if_neg ha, input_perform ha, hinput]
        rfl

/-- **Only emitting adds to the output.** -/
theorem output (h : o.Does m deed) :
    o.machine.output = m.output.putAll ((Deed.actors .emit deed).flatMap topCodes) := by
  cases h with
  | nothing _ houtput => exact houtput
  | @deed d ho _ houtput =>
      subst ho
      by_cases ha : d.action = .emit
      · rw [Deed.actors, if_pos ha, ha, output_perform, houtput]
        simp [topCodes]
      · rw [Deed.actors, if_neg ha, output_perform_of_ne ha, houtput]
        rfl

end Outcome.Does

/-! ### Exchanges -/

/-- **What a host does with a machine**: it asks for something, or writes text beside it. -/
inductive Exchange where
  | ask (request : Request)
  | write (text : String)

namespace Exchange

/-- What an exchange comes to. -/
def run (m : Machine) : Exchange → Outcome
  | ask request => request.run m
  | write text => .next { m with output := m.output.write text }

/-- The deed that an exchange comes to.  The text of a host is none. -/
def deed? (m : Machine) : Exchange → Option Deed
  | ask request => request.deed? m
  | write _ => none

/-- **The machine that performs an action** in an exchange, if one does. -/
def actors (m : Machine) (a : Action) (e : Exchange) : List Machine := Deed.actors a (e.deed? m)

end Exchange

namespace Machine

variable {m r : Machine} {a : Action} {e : Exchange} {es : List Exchange}

/-- **Exchanges one after the other**, whatever comes of them. -/
def attend (m : Machine) (es : List Exchange) : Machine :=
  es.foldl (fun m e => (e.run m).machine) m

theorem attend_cons (m : Machine) (e : Exchange) (es : List Exchange) :
    m.attend (e :: es) = (e.run m).machine.attend es := rfl

theorem attend_append (m : Machine) (es es' : List Exchange) :
    m.attend (es ++ es') = (m.attend es).attend es' := List.foldl_append

/-- **The machines that perform an action** in the course of several exchanges, in order. -/
def actors (m : Machine) (a : Action) : List Exchange → List Machine
  | [] => []
  | e :: es => e.actors m a ++ (e.run m).machine.actors a es

/-! ### Input -/

/-- An exchange performs an action once or not at all. -/
theorem actors_exchange (m : Machine) (a : Action) (e : Exchange) :
    e.actors m a = [] ∨ ∃ r, e.actors m a = [r] ∧
      e.run m = r.perform a ∧ r.input = m.input ∧ r.output = m.output := by
  cases e with
  | write text => exact .inl rfl
  | ask request => exact (does_request m request).actors_eq a

theorem run_of_mem_actors (hr : r ∈ e.actors m a) :
    e.run m = r.perform a ∧ r.input = m.input ∧ r.output = m.output := by
  rcases m.actors_exchange a e with hnone | ⟨r', hone, hrun⟩
  · rw [hnone] at hr
    cases hr
  · obtain rfl : r = r' := by simpa [hone] using hr
    exact hrun

/-- **An exchange takes from the input** what it reads. -/
theorem input_run (m : Machine) (e : Exchange) :
    (e.run m).machine.input = m.input.drop (e.actors m .read).length := by
  cases e with
  | write text => rfl
  | ask request => exact (does_request m request).input

/-- **What exchanges leave of the input**: all but one character for each read. -/
theorem input_attend (m : Machine) (es : List Exchange) :
    (m.attend es).input = m.input.drop (m.actors .read es).length := by
  induction es generalizing m with
  | nil => rfl
  | cons e es ih =>
      rw [attend_cons, ih, input_run, List.drop_drop, actors, List.length_append]

/-- **What a read finds**: the input without one character for each read before it. -/
theorem input_of_getElem?_actors {i : Nat} (h : (m.actors .read es)[i]? = some r) :
    r.input = m.input.drop i := by
  induction es generalizing m i with
  | nil => simp [actors] at h
  | cons e es ih =>
      have hrun := m.input_run e
      rw [actors] at h
      rcases m.actors_exchange .read e with hnone | ⟨first, hone, -, hinput, -⟩
      · rw [hnone] at h hrun
        rw [ih h, hrun]
        rfl
      · rw [hone] at h hrun
        cases i with
        | zero =>
            obtain rfl : first = r := by simpa using h
            exact hinput
        | succ i =>
            rw [ih (i := i) (by simpa using h), hrun, List.drop_drop, Nat.add_comm i]
            rfl

end Machine

/-! ### Output -/

/-- **What is written**: text of the host, or a code of the program. -/
inductive Written where
  | text (t : String)
  | code (b : UInt8)

namespace Written

/-- The bytes of what is written. -/
def bytes : Written → List UInt8
  | text t => t.toUTF8.data.toList
  | code b => [b]

end Written

namespace Sink

/-- What is written arrives. -/
def take (s : Sink) : Written → Sink
  | .text t => s.write t
  | .code b => s.put b

/-- Everything that is written arrives, one behind the other. -/
def takeAll (s : Sink) (ws : List Written) : Sink := ws.foldl take s

theorem takeAll_append (s : Sink) (ws ws' : List Written) :
    s.takeAll (ws ++ ws') = (s.takeAll ws).takeAll ws' := List.foldl_append

theorem takeAll_map_code (s : Sink) (codes : List UInt8) :
    s.takeAll (codes.map .code) = s.putAll codes := List.foldl_map

/-- **A stream of bytes keeps the order** in which it is written to, though text waits in front of
it. -/
theorem exists_takeAll_bytes (delivered : Array UInt8) (pending : String) (ws : List Written) :
    ∃ delivered' pending', (bytes delivered pending).takeAll ws = bytes delivered' pending' ∧
      delivered'.toList ++ pending'.toUTF8.data.toList =
        delivered.toList ++ pending.toUTF8.data.toList ++ ws.flatMap Written.bytes := by
  induction ws generalizing delivered pending with
  | nil => exact ⟨delivered, pending, rfl, by simp⟩
  | cons w ws ih =>
      cases w with
      | text t =>
          obtain ⟨delivered', pending', htake, hbytes⟩ := ih delivered (pending ++ t)
          refine ⟨delivered', pending', htake, ?_⟩
          rw [hbytes]
          simp [Written.bytes]
      | code b =>
          obtain ⟨delivered', pending', htake, hbytes⟩ :=
            ih ((delivered ++ pending.toUTF8.data).push b) ""
          refine ⟨delivered', pending', htake, ?_⟩
          rw [hbytes]
          simp [Written.bytes]

/-- Where no text waits, the codes that are written arrive as themselves. -/
theorem codes_putAll {s : Sink} (h : s.flush = s) (codes : List UInt8) :
    (s.putAll codes).codes = s.codes ++ codes.map UInt8.toNat := by
  induction codes generalizing s with
  | nil => simp [putAll]
  | cons code codes ih =>
      have hcons : s.putAll (code :: codes) = (s.put code).putAll codes := rfl
      rw [hcons, ih (flush_put s code), codes_put, h]
      simp

end Sink

/-- **What an exchange writes.** -/
def Exchange.written (m : Machine) : Exchange → List Written
  | ask request => (((ask request).actors m .emit).flatMap Machine.topCodes).map .code
  | write text => [.text text]

namespace Machine

variable {m r : Machine} {a : Action} {e : Exchange} {es : List Exchange}

/-- **What is written** in the course of several exchanges, in order. -/
def written (m : Machine) : List Exchange → List Written
  | [] => []
  | e :: es => e.written m ++ (e.run m).machine.written es

theorem output_run (m : Machine) (e : Exchange) :
    (e.run m).machine.output = m.output.takeAll (e.written m) := by
  cases e with
  | write text => rfl
  | ask request =>
      rw [Exchange.written, Sink.takeAll_map_code]
      exact (does_request m request).output

/-- **The output of several exchanges** is what they write, behind what was there. -/
theorem output_attend (m : Machine) (es : List Exchange) :
    (m.attend es).output = m.output.takeAll (m.written es) := by
  induction es generalizing m with
  | nil => rfl
  | cons e es ih => rw [attend_cons, ih, output_run, written, Sink.takeAll_append]

/-- Without text of the host, what is written are the codes that are emitted. -/
theorem written_map_ask (m : Machine) (requests : List Request) :
    m.written (requests.map .ask) =
      ((m.actors .emit (requests.map .ask)).flatMap topCodes).map .code := by
  induction requests generalizing m with
  | nil => rfl
  | cons request requests ih =>
      simp only [List.map_cons, written, actors, ih, List.flatMap_append, List.map_append,
        Exchange.written]

/-- **An emit** takes a cell off the data stack, and writes it if it is a byte other than 255. -/
theorem perform_emit {below : Stack Cell} {c : Cell} (hdata : m.data = below.push c) :
    m.perform .emit = .next
      { m with
        data := below
        output := if 0 ≤ c ∧ c < 255 then m.output.put c.toInt.toNat.toUInt8 else m.output } := by
  simp only [perform, hdata, Stack.push]
  rfl

/-- **The numbers that emits take off the data stack**, in order. -/
def popped (m : Machine) (es : List Exchange) : List Int :=
  (m.actors .emit es).filterMap fun r => r.data.top?.map Int32.toInt

/-- The codes of a cell are the cell itself, or there are none. -/
theorem map_toNat_codesOf (c : Cell) :
    (codesOf c).map (fun b => (b.toNat : Int)) =
      [c.toInt].filter fun v => 0 ≤ v ∧ v < 255 := by
  have hzero : (0 : Cell).toInt = 0 := by decide
  have hlast : (255 : Cell).toInt = 255 := by decide
  have hbyte : 0 ≤ c ∧ c < 255 ↔ 0 ≤ c.toInt ∧ c.toInt < 255 := by
    rw [Int32.le_iff_toInt_le, Int32.lt_iff_toInt_lt, hzero, hlast]
  by_cases h : 0 ≤ c.toInt ∧ c.toInt < 255
  · rw [codesOf, if_pos (hbyte.2 h), List.filter_cons_of_pos (by simpa using h)]
    simp only [List.map_cons, List.map_nil, List.filter_nil, List.cons.injEq, and_true]
    rw [Nat.toUInt8_eq, UInt8.toNat_ofNat']
    omega
  · rw [codesOf, if_neg fun hc => h (hbyte.1 hc), List.filter_cons_of_neg (by simpa using h)]
    rfl

/-- **The codes that are emitted** are the bytes among the numbers that emits take off. -/
theorem map_toNat_flatMap_topCodes (rs : List Machine) :
    (rs.flatMap topCodes).map (fun b => (b.toNat : Int)) =
      (rs.filterMap fun r => r.data.top?.map Int32.toInt).filter fun v => 0 ≤ v ∧ v < 255 := by
  induction rs with
  | nil => rfl
  | cons r rs ih =>
      rw [List.flatMap_cons, List.map_append, ih]
      obtain ⟨⟨cells⟩, ret, memory, ip, file, input, output⟩ := r
      cases cells with
      | nil => rfl
      | cons c rest =>
          have hcodes : topCodes ⟨⟨c :: rest⟩, ret, memory, ip, file, input, output⟩ =
              codesOf c := rfl
          rw [hcodes, map_toNat_codesOf, ← List.filter_append]
          rfl

/-! ### The same on another output -/

theorem dispatched?_writingTo (m : Machine) (opcode : Int) (out : Sink) :
    (m.writingTo out).dispatched? opcode =
      (m.dispatched? opcode).map fun d => ⟨d.action, d.actor.writingTo out⟩ := by
  have hdata : (m.writingTo out).data = m.data := rfl
  unfold dispatched?
  rw [hdata]
  match resolve opcode m.data.topFirst with
  | none | some (.nothing, _) | some (.call _, _) | some (.act _, _) => rfl

theorem executed?_writingTo (m : Machine) (v : Int) (out : Sink) :
    (m.writingTo out).executed? v =
      (m.executed? v).map fun d => ⟨d.action, d.actor.writingTo out⟩ := by
  obtain ⟨⟨cells⟩, ret, memory, ip, file, input, output⟩ := m
  unfold executed?
  by_cases hv : v = callCell
  · rw [if_pos hv, if_pos hv]
    cases cells with
    | nil => rfl
    | cons opcode rest =>
        exact dispatched?_writingTo ⟨⟨rest⟩, ret, memory, ip, file, input, output⟩ _ out
  · rw [if_neg hv, if_neg hv]
    rfl

theorem deed?_writingTo (m : Machine) (request : Request) (out : Sink) :
    request.deed? (m.writingTo out) =
      (request.deed? m).map fun d => ⟨d.action, d.actor.writingTo out⟩ := by
  cases request with
  | execute value => exact executed?_writingTo m value out
  | dispatch opcode => exact dispatched?_writingTo m opcode out
  | step =>
      simp only [Request.deed?, stepped?, writingTo]
      cases m.memory.fetch m.ip with
      | cell c => exact executed?_writingTo m.advance c.toInt out
      | outside | missing | lineEnd => rfl
  | compile | load | push | pop | pushReturn | popReturn | jump | setFile => rfl

theorem execute_writingTo (m : Machine) (v : Int) (out : Sink) :
    ∃ out', (m.writingTo out).execute v = (m.execute v).writingTo out' := by
  obtain ⟨⟨cells⟩, ret, memory, ip, file, input, output⟩ := m
  unfold execute
  by_cases hv : v = callCell
  · rw [if_pos hv, if_pos hv]
    cases cells with
    | nil => exact ⟨out, rfl⟩
    | cons opcode rest =>
        exact ⟨_, dispatch_writingTo ⟨⟨rest⟩, ret, memory, ip, file, input, output⟩ _ out⟩
  · rw [if_neg hv, if_neg hv]
    exact ⟨out, rfl⟩

/-- A request comes to the same whatever the output is, except for the output. -/
theorem run_writingTo (m : Machine) (request : Request) (out : Sink) :
    ∃ out', request.run (m.writingTo out) = (request.run m).writingTo out' := by
  cases request with
  | execute value => exact execute_writingTo m value out
  | dispatch opcode => exact ⟨_, dispatch_writingTo m opcode out⟩
  | step => exact ⟨_, step_writingTo m out⟩
  | compile | load | push | pushReturn | jump | setFile => exact ⟨out, rfl⟩
  | pop =>
      refine ⟨out, ?_⟩
      simp only [Request.run, pop?, writingTo]
      cases m.data.pop? with
      | none => rfl
      | some top => rfl
  | popReturn =>
      refine ⟨out, ?_⟩
      simp only [Request.run, popReturn?, writingTo]
      cases m.ret.pop? with
      | none => rfl
      | some top => rfl

/-- **The same actions** are performed on the same data, whatever the output is. -/
theorem actors_writingTo (m : Machine) (a : Action) (requests : List Request) (out : Sink) :
    ((m.writingTo out).actors a (requests.map .ask)).map Machine.data =
      (m.actors a (requests.map .ask)).map Machine.data := by
  induction requests generalizing m out with
  | nil => rfl
  | cons request requests ih =>
      obtain ⟨out', hrun⟩ := run_writingTo m request out
      have hmachine : (request.run (m.writingTo out)).machine =
          (request.run m).machine.writingTo out' := by
        rw [hrun]
        cases request.run m with
        | next m' => rfl
        | halt f m' => rfl
      have hhere : ((Exchange.ask request).actors (m.writingTo out) a).map Machine.data =
          ((Exchange.ask request).actors m a).map Machine.data := by
        simp only [Exchange.actors, Exchange.deed?, deed?_writingTo]
        cases request.deed? m with
        | none => rfl
        | some d =>
            simp only [Option.map_some, Deed.actors]
            split
            · rfl
            · rfl
      simp only [List.map_cons, actors, List.map_append, hhere, Exchange.run, hmachine, ih]

/-! ### Input and output of a run -/

/-- The codes that requests emit on a stream that nothing has reached. -/
theorem codes_attend_map_ask (m : Machine) (requests : List Request) {out : Sink}
    (hout : out = .emptyText ∨ out = .emptyBytes) :
    ((m.writingTo out).attend (requests.map .ask)).output.codes.map Int.ofNat =
      (m.popped (requests.map .ask)).filter fun v => 0 ≤ v ∧ v < 255 := by
  have hfresh : out.flush = out ∧ out.codes = [] := by
    rcases hout with rfl | rfl
    · exact ⟨rfl, rfl⟩
    · exact ⟨rfl, rfl⟩
  have hpopped : (m.writingTo out).popped (requests.map .ask) = m.popped (requests.map .ask) := by
    have htops := congrArg (List.filterMap fun s : Stack Cell => s.top?.map Int32.toInt)
      (actors_writingTo m .emit requests out)
    rwa [List.filterMap_map, List.filterMap_map] at htops
  have houtput : (m.writingTo out).output = out := rfl
  rw [output_attend, houtput, written_map_ask, Sink.takeAll_map_code, Sink.codes_putAll hfresh.1,
    hfresh.2, List.nil_append, List.map_map, ← hpopped]
  exact map_toNat_flatMap_topCodes _

/-- An emit that writes leaves no text waiting. -/
theorem output_of_emit {delivered : Array UInt8} {pending : String} {below : Stack Cell} {c : Cell}
    (hr : r ∈ e.actors m .emit) (houtput : m.output = .bytes delivered pending)
    (hdata : r.data = below.push c) (hlow : 0 ≤ c) (hhigh : c < 255) :
    ∃ delivered', (e.run m).machine.output = .bytes delivered' "" := by
  obtain ⟨hrun, -, hr'⟩ := run_of_mem_actors hr
  rw [hrun, perform_emit hdata, if_pos ⟨hlow, hhigh⟩, hr', houtput]
  exact ⟨_, rfl⟩

/-- **Input and output are lossless and in order**, whatever a host does with a machine.  The reads
find the characters of the input one after the other, and its end from then on; the codes are put on
the data stack as data, and nothing else takes from the input.  Each emit takes a number off the
data stack; those that are bytes other than 255 are written, in order, and alike on either kind of
stream, and nothing else writes but the host.  On a stream of bytes, what has arrived and the text
that waits are what has been written, in order; no text waits behind a byte that was emitted. -/
theorem attend_lossless (m : Machine) (es : List Exchange) :
    (∀ (a : Action) (e : Exchange) (r : Machine), r ∈ e.actors m a → e.run m = r.perform a) ∧
    (∀ (i : Nat) (r : Machine), (m.actors .read es)[i]? = some r → ∃ v : Cell,
      v.toInt = (m.input[i]?).elim (-1) (fun c => (c.toNat : Int)) ∧
      r.perform .read = .next { r with data := r.data.push v, input := m.input.drop (i + 1) }) ∧
    (m.attend es).input = m.input.drop (m.actors .read es).length ∧
    (∀ e : Exchange, e.actors m .read = [] → (e.run m).machine.input = m.input) ∧
    (∀ r ∈ m.actors .emit es, ∀ (below : Stack Cell) (c : Cell), r.data = below.push c →
      r.perform .emit = .next
        { r with
          data := below
          output := if 0 ≤ c ∧ c < 255 then r.output.put c.toInt.toNat.toUInt8 else r.output }) ∧
    (∀ request, (Exchange.ask request).actors m .emit = [] →
      (request.run m).machine.output = m.output) ∧
    (∀ requests : List Request, es = requests.map .ask →
      ∀ out, out = .emptyText ∨ out = .emptyBytes →
        ((m.writingTo out).attend es).output.codes.map Int.ofNat =
          (m.popped es).filter fun v => 0 ≤ v ∧ v < 255) ∧
    ∀ delivered pending, m.output = .bytes delivered pending →
      (∃ delivered' pending', (m.attend es).output = .bytes delivered' pending' ∧
        delivered'.toList ++ pending'.toUTF8.data.toList =
          delivered.toList ++ pending.toUTF8.data.toList ++ (m.written es).flatMap Written.bytes) ∧
      ∀ (e : Exchange) (r : Machine) (below : Stack Cell) (c : Cell),
        r ∈ e.actors (m.attend es) .emit → r.data = below.push c → 0 ≤ c → c < 255 →
          ∃ delivered', (m.attend (es ++ [e])).output = .bytes delivered' "" := by
  refine ⟨fun a e r hr => (run_of_mem_actors hr).1, ?_, input_attend m es, ?_,
    fun r _ below c => perform_emit, ?_, ?_, ?_⟩
  · intro i r hr
    refine ⟨readCell m.input[i]?, toInt_readCell _, ?_⟩
    rw [perform_read, input_of_getElem?_actors hr, List.head?_drop, List.drop_drop]
  · intro e hnone
    rw [input_run, hnone]
    rfl
  · intro request hnone
    have houtput := m.output_run (.ask request)
    rw [Exchange.written, hnone] at houtput
    exact houtput
  · rintro requests rfl out hout
    exact codes_attend_map_ask m requests hout
  · intro delivered pending hm
    obtain ⟨delivered', pending', htake, hbytes⟩ :=
      Sink.exists_takeAll_bytes delivered pending (m.written es)
    rw [← hm, ← output_attend] at htake
    refine ⟨⟨delivered', pending', htake, hbytes⟩, fun e r below c hr hdata hlow hhigh => ?_⟩
    rw [attend_append]
    exact output_of_emit hr htake hdata hlow hhigh

/-- A program that reads twice, finds one character, and emits in the opposite order; its host
writes between the two emits. -/
theorem attend_lossless_of_text_between_emits :
    let m := (fresh ['*'] .emptyBytes).load [⟨21, [15, 42, 15, 42, 14, 42, 14, 42]⟩]
    let es : List Exchange :=
      List.replicate 6 (.ask .step) ++ [.write "é"] ++ List.replicate 1 (.ask .step)
    (∃ r v, (m.actors .read es)[0]? = some r ∧ Int32.toInt v = 42 ∧
      r.perform .read = .next { r with data := r.data.push v, input := [] }) ∧
    (∃ r v, (m.actors .read es)[1]? = some r ∧ Int32.toInt v = -1 ∧
      r.perform .read = .next { r with data := r.data.push v, input := [] }) ∧
    ((m.writingTo .emptyText).attend (List.replicate 8 (.ask .step))).output.codes.map Int.ofNat =
      [-1, 42].filter (fun v => 0 ≤ v ∧ v < 255) ∧
    (∃ delivered pending, (m.attend es).output = .bytes delivered pending ∧
      delivered.toList ++ pending.toUTF8.data.toList = [195, 169]) ∧
    ∃ delivered, (m.attend (es ++ [.ask .step])).output = .bytes delivered "" := by
  intro m es
  obtain ⟨-, hread, -, -, -, -, -, hbytes⟩ := attend_lossless m es
  obtain ⟨-, -, -, -, -, -, hcodes, -⟩ := attend_lossless m (List.replicate 8 (.ask .step))
  have hlength : (m.actors .read es).length = 2 := by decide +kernel
  obtain ⟨⟨delivered, pending, houtput, horder⟩, hlast⟩ := hbytes #[] "" rfl
  refine ⟨?_, ?_, ?_, ⟨delivered, pending, houtput, ?_⟩, ?_⟩
  · have hfirst := List.getElem?_eq_getElem (show 0 < (m.actors .read es).length by omega)
    obtain ⟨v, hv, hperform⟩ := hread 0 _ hfirst
    exact ⟨_, v, hfirst, hv, hperform⟩
  · have hsecond := List.getElem?_eq_getElem (show 1 < (m.actors .read es).length by omega)
    obtain ⟨v, hv, hperform⟩ := hread 1 _ hsecond
    exact ⟨_, v, hsecond, hv, hperform⟩
  · have hpopped : m.popped (List.replicate 8 (.ask .step)) = [-1, 42] := by decide +kernel
    rw [← hpopped]
    exact hcodes (List.replicate 8 .step) rfl .emptyText (.inl rfl)
  · rw [horder]
    decide +kernel
  · have hactor := List.getElem?_eq_getElem
      (show 0 < ((Exchange.ask .step).actors (m.attend es) .emit).length by decide +kernel)
    have hdata : (((Exchange.ask .step).actors (m.attend es) .emit)[0]?.map Machine.data) =
        some (Stack.empty.push 42) := by
      decide +kernel
    rw [hactor] at hdata
    exact hlast (.ask .step) _ .empty 42 (List.mem_of_getElem? hactor) (Option.some.inj hdata)
      (by decide) (by decide)

end Machine

end LineMachine
