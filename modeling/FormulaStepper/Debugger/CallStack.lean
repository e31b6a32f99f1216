import FormulaStepper.Debugger.Error
import FormulaStepper.Formula.Node

/-!
# The call stack

A frame stands for a node that was entered. Frames are numbered in the order
in which they are opened, and a number is never used again. A frame with a
result stays on top until the next event.

The frames are held innermost first. `CallStack.outermostFirst` is the order
in which they are shown.
-/

set_option autoImplicit false

namespace FormulaStepper

open Formula

/-- A node that was entered, with its number and its nesting depth; the root
has depth zero. The result is there once the node has been evaluated. -/
structure Frame where
  counter : Nat
  level : Nat
  site : Site
  result : Option Value
deriving Inhabited

namespace Frame

/-- The label of the frame's node. -/
def name (frame : Frame) : String :=
  frame.site.node.name

/-- The text of the frame's node. -/
def text (frame : Frame) : String :=
  frame.site.node.text

/-- Whether the frame's node has its value. -/
def isEvaluated (frame : Frame) : Bool :=
  frame.result.isSome

end Frame

/-- The open frames, innermost first, and the last number given out. -/
structure CallStack where
  frames : List Frame
  counter : Nat
deriving Inhabited

namespace CallStack

/-- No frames. -/
def empty : CallStack := ⟨[], 0⟩

/-- The number of open frames. -/
def depth (stack : CallStack) : Nat :=
  stack.frames.length

/-- The innermost frame. -/
def top? (stack : CallStack) : Option Frame :=
  stack.frames.head?

/-- The frames as they are shown. -/
def outermostFirst (stack : CallStack) : List Frame :=
  stack.frames.reverse

/-- The number of frames whose node has no value yet. Only the innermost frame
can have one. -/
def liveDepth (stack : CallStack) : Nat :=
  match stack.frames with
  | [] => 0
  | top :: below => if top.isEvaluated then below.length else below.length + 1

/-- The frame that `push` opens for a node. -/
def opened (stack : CallStack) (site : Site) : Frame :=
  ⟨stack.counter + 1, stack.depth, site, none⟩

/-- The stack with a frame opened for a node. -/
def push (stack : CallStack) (site : Site) : CallStack :=
  ⟨stack.opened site :: stack.frames, stack.counter + 1⟩

/-- The innermost frame and the stack without it. -/
def pop (stack : CallStack) : Except DebugError (Frame × CallStack) :=
  match stack.frames with
  | [] => .error .stackUnderflow
  | top :: below => .ok (top, { stack with frames := below })

/-- The stack without an innermost frame that is evaluated. -/
def dropEvaluated (stack : CallStack) : CallStack :=
  match stack.frames with
  | [] => stack
  | top :: below => if top.isEvaluated then { stack with frames := below } else stack

/-- To drop an evaluated frame is to pop it, and popping it does not fail. -/
theorem pop_of_isEvaluated {stack : CallStack} {top : Frame} (innermost : stack.top? = some top)
    (evaluated : top.isEvaluated = true) : stack.pop = .ok (top, stack.dropEvaluated) := by
  obtain ⟨frames, counter⟩ := stack
  cases frames with
  | nil => cases innermost
  | cons first below =>
    cases innermost
    simp only [pop, dropEvaluated, if_pos evaluated]

end CallStack

end FormulaStepper
