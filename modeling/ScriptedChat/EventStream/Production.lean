import ScriptedChat.EventStream.Frame

/-!
# What the producer of a stream does

A producer writes frames, and on its way it computes numbers of 64 bits. It breaks off where it cannot
compute one: what has been written stays written, and nothing follows, neither another frame nor a failure
that the receiver could be told of.

* `Act`: one thing that a producer does.
* `written`: the frames that a producer writes.

This is what the simulator's `spawn_stream` is given to run.
-/

namespace ScriptedChat.EventStream

/-- One thing that a producer does. -/
inductive Act where
  | write (frame : Frame)
  /-- computes a number; there is none where 64 bits are not enough for it -/
  | compute (number : Option UInt64)
  deriving DecidableEq, Repr

/-- The frames that a producer writes. -/
def written : List Act → List Frame
  | [] => []
  | .write frame :: acts => frame :: written acts
  | .compute (some _) :: acts => written acts
  | .compute none :: _ => []

@[simp]
theorem written_write (frame : Frame) (acts : List Act) :
    written (.write frame :: acts) = frame :: written acts := rfl

@[simp]
theorem written_compute (number : UInt64) (acts : List Act) :
    written (.compute (some number) :: acts) = written acts := rfl

@[simp]
theorem written_broken (acts : List Act) : written (.compute none :: acts) = [] := rfl

end ScriptedChat.EventStream
