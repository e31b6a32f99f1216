import FormulaStepper.Debugger.Trace
import FormulaStepper.Value.Text

/-!
# Stack and trace as text

One line for each frame or trace entry: its number, the label and the text of
its node, and the value once there is one. A line is indented by two blanks
for each level. On the stack the level is the place of the frame; in the trace
it is the level that the frame had when it was opened.
-/

set_option autoImplicit false

namespace FormulaStepper

/-- A frame in words. -/
def Frame.describe (frame : Frame) : String :=
  "#" ++ toString frame.counter ++ ": \"" ++ frame.name ++ "\": (" ++ frame.text ++ ")" ++
    match frame.result with
    | none => ""
    | some value => " = " ++ value.debugText

/-- A frame in words on a line of its own. -/
def Frame.line (level : Nat) (frame : Frame) : String :=
  String.ofList (List.replicate (2 * level) ' ') ++ frame.describe ++ "\n"

/-- The lines of frames at successive levels. -/
def Frame.linesFrom : Nat → List Frame → List String
  | _, [] => []
  | level, frame :: frames => frame.line level :: linesFrom (level + 1) frames

/-- The stack as text, the outermost frame first. -/
def CallStack.render (stack : CallStack) : String :=
  String.join (Frame.linesFrom 0 stack.outermostFirst)

/-- The trace as text. -/
def Trace.render (trace : Trace) : String :=
  String.join (trace.entries.toList.map fun entry => entry.line entry.level)

end FormulaStepper
