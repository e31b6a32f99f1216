import FormulaStepper.Debugger.CallStack

/-!
# The execution trace

The trace lists every entry and every exit, in order, and is only ever added
to. An entry is the frame at the moment it was opened; an exit is the same
frame with its result.
-/

set_option autoImplicit false

namespace FormulaStepper

/-- The entries and exits so far. -/
structure Trace where
  entries : Array Frame
deriving Inhabited

namespace Trace

/-- Nothing has happened yet. -/
def empty : Trace := ⟨#[]⟩

/-- Adds the entry of a frame's node. -/
def recordEnter (trace : Trace) (frame : Frame) : Trace :=
  ⟨trace.entries.push { frame with result := none }⟩

/-- Adds the exit of a frame's node. The earlier entry stays as it is. -/
def recordResult (trace : Trace) (frame : Frame) (value : Value) : Trace :=
  ⟨trace.entries.push { frame with result := some value }⟩

/-- The number of entries and exits. -/
def size (trace : Trace) : Nat :=
  trace.entries.size

theorem toList_recordEnter (trace : Trace) (frame : Frame) :
    (trace.recordEnter frame).entries.toList =
      trace.entries.toList ++ [{ frame with result := none }] :=
  Array.toList_push

theorem toList_recordResult (trace : Trace) (frame : Frame) (value : Value) :
    (trace.recordResult frame value).entries.toList =
      trace.entries.toList ++ [{ frame with result := some value }] :=
  Array.toList_push

end Trace

end FormulaStepper
