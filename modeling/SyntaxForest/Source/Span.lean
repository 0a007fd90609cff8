/-
**Spans of source text.**

A span is the half-open range of bytes of the source that a node or a message belongs to.  The
empty span at the start of the source stands for "no position".  Offsets are 32-bit numbers, and a
range with a larger end is refused.

Main definitions:

* `Span`, `Span.none` — a range of byte offsets, and the span without a position;
* `Span.ofRange` — the span of a range of offsets that may be too large;
* `Span.length?`, `Span.merge`, `Span.slice?` — its length, the span of two together, its text;
* `Span.text` — a span as a message shows it.
-/

import SyntaxForest.Text.Bytes

set_option relaxedAutoImplicit false
set_option autoImplicit false

namespace SyntaxForest

/-- The largest 32-bit number. -/
def maxWord : Nat := 4294967295

/-- A half-open range of byte offsets. -/
structure Span where
  start : Nat
  /-- The offset after the last byte. -/
  stop : Nat
  deriving DecidableEq, Inhabited

namespace Span

/-- The span without a position. -/
protected def none : Span := ⟨0, 0⟩

/-- Why a range of offsets has no span. -/
inductive RangeError
  | startTooLarge (start : Nat)
  | stopTooLarge (stop : Nat)
  deriving DecidableEq

/-- A number in upper-case hexadecimal. -/
def upperHex (n : Nat) : String :=
  String.ofList ((Nat.toDigits 16 n).map Char.toUpper)

def RangeError.message : RangeError → String
  | .startTooLarge start => s!"span start {start} (0x{upperHex start}) exceeds u32::MAX"
  | .stopTooLarge stop => s!"span end {stop} (0x{upperHex stop}) exceeds u32::MAX"

def ofRange (start stop : Nat) : Except RangeError Span :=
  if maxWord < start then .error (.startTooLarge start)
  else if maxWord < stop then .error (.stopTooLarge stop)
  else .ok ⟨start, stop⟩

/-- The number of bytes, unless the span ends before it starts. -/
def length? (s : Span) : Option Nat :=
  if s.stop < s.start then Option.none else some (s.stop - s.start)

def isEmpty (s : Span) : Bool := s.start = s.stop

/-- The span without a position. -/
def isNone (s : Span) : Bool := s.start = 0 ∧ s.stop = 0

/-- The least span that covers two, where a span without a position covers nothing. -/
def merge (a b : Span) : Span :=
  if a.isNone then b
  else if b.isNone then a
  else ⟨min a.start b.start, max a.stop b.stop⟩

/-- The text under a span, if it lies in the source and on whole characters. -/
def slice? (s : Span) (source : String) : Option String :=
  (Text.slice? source.toList s.start s.stop).map String.ofList

def text (s : Span) : String := s!"{s.start}..{s.stop}"

instance : ToString Span := ⟨text⟩

end Span

end SyntaxForest
