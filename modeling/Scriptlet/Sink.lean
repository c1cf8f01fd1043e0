/-
**The sink of a program's output**: bytes, up to an optional limit.

* `Sink.write`: as many bytes as fit are kept; bytes that do not fit are refused.
* `Sink.write_unlimited`: nothing is refused without a limit.
-/

namespace Scriptlet

/-- How a sink refuses bytes beyond its limit. -/
inductive Refusal where
  /-- The sink reports that it is full. -/
  | full
  /-- The sink takes no more bytes. -/
  | stalled
  deriving DecidableEq

/-- A refusal in words. -/
def Refusal.message : Refusal → String
  | full => "sink full"
  | stalled => "failed to write whole buffer"

/-- **Written bytes and what else fits.** -/
structure Sink where
  /-- All bytes written so far. -/
  written : Array UInt8
  /-- The number of bytes that fit in total; `none` is no limit. -/
  limit : Option Nat
  /-- How bytes beyond the limit are refused. -/
  refusal : Refusal

namespace Sink

/-- An empty sink without a limit. -/
def unlimited : Sink := ⟨#[], none, .full⟩

/-- An empty sink for a number of bytes. -/
def limited (limit : Nat) (refusal : Refusal) : Sink := ⟨#[], some limit, refusal⟩

/-- How many of some bytes fit. -/
def room (sink : Sink) (size : Nat) : Nat :=
  match sink.limit with
  | none => size
  | some limit => min size (limit - sink.written.size)

/-- **Write some bytes**: those that fit are kept, and a refusal tells that some did not. -/
def write (sink : Sink) (bytes : Array UInt8) : Sink × Option Refusal :=
  let fitting := sink.room bytes.size
  ({ sink with written := sink.written ++ bytes.extract 0 fitting },
    if fitting = bytes.size then none else some sink.refusal)

/-- Write a text and a newline. -/
def writeLine (sink : Sink) (text : String) : Sink × Option Refusal :=
  sink.write (text ++ "\n").toUTF8.data

section Unlimited

variable {sink : Sink}

/-- A sink without a limit takes all bytes. -/
theorem write_unlimited {bytes : Array UInt8} (unlimited : sink.limit = none) :
    sink.write bytes = ({ sink with written := sink.written ++ bytes }, none) := by
  simp only [write, room, unlimited, Array.extract_size, if_true]

/-- A sink without a limit takes a whole line. -/
theorem writeLine_unlimited (unlimited : sink.limit = none) (text : String) :
    sink.writeLine text =
      ({ sink with written := sink.written ++ (text ++ "\n").toUTF8.data }, none) :=
  write_unlimited unlimited

end Unlimited

/-- The bytes from a position on, as text. -/
def textFrom (sink : Sink) (start : Nat) : String :=
  (String.fromUTF8? ⟨sink.written.extract start sink.written.size⟩).getD ""

/-- All written bytes, as text. -/
def text (sink : Sink) : String := sink.textFrom 0

end Sink

end Scriptlet
