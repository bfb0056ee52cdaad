/-
**Where output goes.**

A program writes character codes, and its host may write text beside it.  Output goes either to a
stream of characters, where everything arrives at once, or to a stream of bytes behind a text
layer: written text waits in the layer as text, and arrives, encoded as UTF-8, before the next
byte that the program writes.

Main definitions:

* `LineMachine.Sink` — the two kinds of output with what has reached them;
* `LineMachine.Sink.put`, `LineMachine.Sink.write`, `LineMachine.Sink.flush` — its operations;
* `LineMachine.Sink.codes` — what has arrived, as character codes.

Main results:

* `LineMachine.Sink.codes_put` — a code arrives as itself, behind the text that waited.
-/

set_option relaxedAutoImplicit false
set_option autoImplicit false

namespace LineMachine

/-- **Where output goes**, with what has arrived there. -/
inductive Sink where
  /-- A stream of characters. -/
  | text (written : String)
  /-- A stream of bytes, and the text that waits before it. -/
  | bytes (delivered : Array UInt8) (pending : String)
  deriving DecidableEq, Repr

namespace Sink

/-- A stream of characters that nothing has reached. -/
def emptyText : Sink := text ""

/-- A stream of bytes that nothing has reached. -/
def emptyBytes : Sink := bytes #[] ""

/-- Sends waiting text on. -/
def flush : Sink → Sink
  | text written => text written
  | bytes delivered pending => bytes (delivered ++ pending.toUTF8.data) ""

/-- Writes text. -/
def write (s : Sink) (t : String) : Sink :=
  match s with
  | text written => text (written ++ t)
  | bytes delivered pending => bytes delivered (pending ++ t)

/-- **Writes one code**: the character with that code, or that byte behind all waiting text. -/
def put (s : Sink) (code : UInt8) : Sink :=
  match s with
  | text written => text (written.push (Char.ofNat code.toNat))
  | bytes delivered pending => bytes ((delivered ++ pending.toUTF8.data).push code) ""

/-- The codes that have arrived, in order. -/
def codes : Sink → List Nat
  | text written => written.toList.map Char.toNat
  | bytes delivered _ => delivered.toList.map UInt8.toNat

private theorem toNat_ofNat_code (code : UInt8) : (Char.ofNat code.toNat).toNat = code.toNat := by
  have h : code.toNat < 256 := code.toNat_lt
  have hvalid : code.toNat.isValidChar := Or.inl (by omega)
  rw [Char.ofNat, dif_pos hvalid]
  rfl

/-- **A code arrives as itself**, behind the text that waited. -/
theorem codes_put (s : Sink) (code : UInt8) :
    (s.put code).codes = s.flush.codes ++ [code.toNat] := by
  cases s with
  | text written => simp [put, flush, codes, toNat_ofNat_code]
  | bytes delivered pending => simp [put, flush, codes]

/-- Nothing waits once a code has been written. -/
theorem flush_put (s : Sink) (code : UInt8) : (s.put code).flush = s.put code := by
  cases s <;> simp [put, flush]

end Sink

end LineMachine
