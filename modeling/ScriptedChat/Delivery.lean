import ScriptedChat.EventStream.Frame
import ScriptedChat.Failure
import ScriptedChat.Settings.Basic

/-!
# Delivery of a stream

A producer writes frames into a buffer, and a receiver takes them out. The buffer holds a limited number
of items, the receiver may leave at any moment, and a deadline may end the stream. A failure of the
producer becomes the last item.

* `Item`, `Producer`, `State`: what is delivered, how far the producer is, and the whole delivery.
* `Move`, `State.apply`: all that can happen, and when. Nothing here depends on time.
* `Schedule`, `Run.next?`: the order of moves for a receiver that takes items whenever some wait, on a
  clock that stands still while anything can be done.
* `deliver`: the delivery at its end.

The simulator's `spawn_stream` and its `ChannelWriter` are the moves of a `State`.
-/

namespace ScriptedChat.Delivery

/-! ## States -/

/-- What the receiver gets. -/
inductive Item where
  /-- the text of a frame -/
  | text (text : String)
  | failure (failure : Failure)
  deriving DecidableEq, Repr

/-- How far the producer is. -/
inductive Producer where
  | writing
  /-- it has failed, and the receiver has yet to be told -/
  | reporting (failure : Failure)
  | finished
  | failed (failure : Failure)
  /-- the deadline has ended it -/
  | cut
  deriving DecidableEq, Repr

/-- Whether the producer has nothing more to do. -/
def Producer.isDone : Producer → Bool
  | .writing => false
  | .reporting _ => false
  | _ => true

/-- A delivery. -/
structure State where
  /-- the frames still to be written -/
  pending : List Frame
  /-- how many frames have been written -/
  written : Nat
  buffer : List Item
  received : List Item
  /-- whether the receiver is still there -/
  listening : Bool
  producer : Producer
  deriving DecidableEq, Repr

/-- A delivery before its first move. -/
def State.start (frames : List Frame) : State :=
  { pending := frames, written := 0, buffer := [], received := [], listening := true,
    producer := .writing }

/-! ## Moves -/

/-- The conditions of a delivery. -/
structure Terms where
  /-- how many items the buffer holds -/
  capacity : Nat
  /-- the failure that follows the last frame -/
  fault : Option Failure
  /-- the failure that follows a refused frame -/
  refusal : Option Failure
  hasDeadline : Bool
  deriving Repr

/-- What can happen. -/
inductive Move where
  /-- the producer puts its next frame into the buffer -/
  | write
  /-- the producer finds that the receiver has left -/
  | refuse
  /-- the producer has no frame left -/
  | finish
  /-- the producer puts its failure into the buffer -/
  | report
  /-- the deadline passes, which ends a producer that has not returned yet -/
  | expire
  /-- the receiver takes the first item -/
  | receive
  /-- the receiver goes away, and what waits is lost -/
  | leave
  deriving DecidableEq, Repr

/-- How a producer goes on that has returned. That the receiver has left is no news for it. -/
def afterReturn : Option Failure → Producer
  | none => .finished
  | some .cancelled => .failed .cancelled
  | some failure => .reporting failure

/-- The producer after the deadline. It matters only to one that has not returned yet. -/
def Producer.afterDeadline : Producer → Producer
  | .writing => .cut
  | producer => producer

/-- The delivery after a move, if the move is possible. -/
def State.apply (terms : Terms) (state : State) : Move → Option State
  | .write =>
    match state.producer, state.pending with
    | .writing, frame :: pending =>
      if state.listening && state.buffer.length < terms.capacity then
        some { state with
          pending
          written := state.written + 1
          buffer := state.buffer ++ [.text frame.encode] }
      else none
    | _, _ => none
  | .refuse =>
    if state.producer = .writing && ! state.pending.isEmpty && ! state.listening then
      some { state with producer := afterReturn terms.refusal }
    else none
  | .finish =>
    if state.producer = .writing && state.pending.isEmpty then
      some { state with producer := afterReturn terms.fault }
    else none
  | .report =>
    match state.producer with
    | .reporting failure =>
      if ! state.listening then some { state with producer := .failed failure }
      else if state.buffer.length < terms.capacity then
        some { state with
          buffer := state.buffer ++ [.failure failure]
          producer := .failed failure }
      else none
    | _ => none
  | .expire =>
    if terms.hasDeadline then some { state with producer := state.producer.afterDeadline }
    else none
  | .receive =>
    match state.buffer with
    | item :: buffer =>
      if state.listening then some { state with buffer, received := state.received ++ [item] }
      else none
    | [] => none
  | .leave =>
    if state.listening then some { state with buffer := [], listening := false } else none

/-! ## A schedule -/

/-- When things happen, in milliseconds. -/
structure Schedule where
  /-- how many items the buffer holds; zero counts as one -/
  capacity : Nat
  fault : Option Failure
  /-- the pause before every frame but the first -/
  delay : Nat
  deadline : Option Nat
  /-- the number of items after which the receiver leaves -/
  limit : Option Nat
  deriving Repr

/-- The schedule of a stream that is read to its end. -/
def Schedule.ofSettings (settings : StreamSettings) : Schedule :=
  { capacity := settings.channelCapacity.toNat
    fault := none
    delay := settings.chunkDelay.toNat
    deadline := settings.timeout.map UInt64.toNat
    limit := none }

def Schedule.terms (schedule : Schedule) : Terms :=
  { capacity := max schedule.capacity 1
    fault := schedule.fault
    refusal := some .cancelled
    hasDeadline := schedule.deadline.isSome }

/-- Whose turn it is. -/
inductive Side where
  | producer
  | receiver
  deriving DecidableEq, Repr

/-- A delivery on the clock. -/
structure Run where
  state : State
  now : Nat
  /-- the time before which the producer writes no further frame -/
  wake : Nat
  turn : Side
  /-- how many more items the producer may write before the receiver has its turn -/
  allowance : Nat
  deriving DecidableEq, Repr

/-- How many items a producer may write in one turn. -/
def fullAllowance : Nat := 128

/-- The receiver is there first. -/
def Run.start (frames : List Frame) : Run :=
  { state := .start frames, now := 0, wake := 0, turn := .receiver, allowance := fullAllowance }

/-- Whether the deadline has been reached. -/
def Schedule.isOver (schedule : Schedule) (now : Nat) : Bool :=
  schedule.deadline.any (· ≤ now)

/-- Whether the receiver has all it wants. -/
def Schedule.isSated (schedule : Schedule) (state : State) : Bool :=
  schedule.limit.any (· ≤ state.received.length)

/-- The next time at which something can happen. -/
def Schedule.alarm (schedule : Schedule) (wake : Nat) : Nat :=
  schedule.deadline.elim wake (min wake)

/-- What the producer does in its turn. It pauses only before a frame, and the deadline ends it only
where it has to wait or has used up its turn. -/
def Run.producerMove? (schedule : Schedule) (run : Run) : Option Move :=
  let isFull := (max schedule.capacity 1) ≤ run.state.buffer.length
  match run.state.producer with
  | .writing =>
    if run.state.pending.isEmpty then some .finish
    else if ! run.state.listening then some .refuse
    else if run.now < run.wake || isFull || run.allowance = 0 then
      if schedule.isOver run.now then some .expire else none
    else some .write
  | .reporting _ => if run.allowance = 0 then none else some .report
  | _ => none

/-- The run after a move. After a frame the producer pauses. -/
def Run.after (schedule : Schedule) (run : Run) (move : Move) : Option Run :=
  (run.state.apply schedule.terms move).map fun state =>
    if move = .write then
      { run with state, wake := run.now + schedule.delay, allowance := run.allowance - 1 }
    else { run with state }

/-- The turn of the producer: it goes on as long as it can and may. -/
def Run.produce (schedule : Schedule) (run : Run) : Run :=
  ((run.producerMove? schedule).bind (run.after schedule)).getD
    { run with turn := .receiver, allowance := fullAllowance }

/-- The turn of the receiver: it takes what waits, until it has all it wants. Then the producer goes on,
at once or when the time has come. -/
def Run.consume (schedule : Schedule) (run : Run) : Option Run :=
  let move : Option Move :=
    if ! run.state.listening then none
    else if schedule.isSated run.state then some .leave
    else if run.state.buffer.isEmpty then none
    else some .receive
  match move with
  | some move => run.after schedule move
  | none =>
    if run.state.producer.isDone then none
    else if (run.producerMove? schedule).isSome then some { run with turn := .producer }
    else some { run with turn := .producer, now := max run.now (schedule.alarm run.wake) }

/-- The run after one more step; `none` at the end. -/
def Run.next? (schedule : Schedule) (run : Run) : Option Run :=
  match run.turn with
  | .producer => some (run.produce schedule)
  | .receiver => run.consume schedule

/-- The run after at most so many steps. -/
def Run.finish (schedule : Schedule) : Nat → Run → Run
  | 0, run => run
  | steps + 1, run =>
    match run.next? schedule with
    | some run => run.finish schedule steps
    | none => run

/-- A number of steps in which every run ends: a frame is written and received, the turn changes twice,
and time passes once; so it is at the beginning and at the end. -/
def stepsFor (frames : List Frame) : Nat := 6 * (frames.length + 4)

/-- The delivery of frames at its end. -/
def deliver (schedule : Schedule) (frames : List Frame) : State :=
  ((Run.start frames).finish schedule (stepsFor frames)).state

/-- The text that a receiver gets who reads to the end. -/
def deliveredText (settings : StreamSettings) (frames : List Frame) : String :=
  String.join ((deliver (.ofSettings settings) frames).received.map fun
    | .text text => text
    | .failure _ => "")

end ScriptedChat.Delivery
