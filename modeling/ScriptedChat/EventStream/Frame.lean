import ScriptedChat.Json.Printer
import ScriptedChat.Text.Blank
import ScriptedChat.Text.Search

/-!
# Event streams

An event stream is text that consists of frames. A frame is a block of lines with an empty line after it:
a line `event:` with a name, if it has one, and lines `data:` with its data.

* `Frame`: a name, perhaps, and data.
* `Frame.encode`: the text of a frame.
* `EventStream.blocks`, `EventStream.lines`: a text cut at empty lines, and a block cut at line ends.
* `EventStream.parse`: the frames in a text. Blocks without data are passed over.

The simulator's `SseFrame`, with its `encode`, and `parse_frames` are `Frame` and `EventStream.parse`.
-/

namespace ScriptedChat

/-- One frame of an event stream. -/
structure Frame where
  event : Option String
  data : String
  deriving DecidableEq, Repr, Inhabited

namespace Frame

/-- The frame that carries a value, with or without a name. -/
def ofJson (event : Option String) (payload : Json) : Frame :=
  { event, data := payload.compact }

/-- The frame that ends a stream of chat completion chunks. -/
def done : Frame := { event := none, data := "[DONE]" }

def isDone (frame : Frame) : Bool :=
  frame.event.isNone && frame.data == "[DONE]"

/-- The text of a frame, with the empty line that ends it. -/
def encode (frame : Frame) : String :=
  match frame.event with
  | some event => "event: " ++ event ++ "\ndata: " ++ frame.data ++ "\n\n"
  | none => "data: " ++ frame.data ++ "\n\n"

end Frame

namespace EventStream

/-- Puts a character in front of the first part of a text that is cut into parts. -/
def consPart (c : Char) : List (List Char) → List (List Char)
  | [] => [[c]]
  | part :: parts => (c :: part) :: parts

/-- A text cut at every two line feeds in a row. -/
def blocks : List Char → List (List Char)
  | [] => [[]]
  | '\n' :: '\n' :: text => [] :: blocks text
  | c :: text => consPart c (blocks text)

/-- A text cut at every line feed; one carriage return before a line feed belongs to the line end. -/
def lines : List Char → List (List Char)
  | [] => [[]]
  | '\n' :: text => [] :: lines text
  | '\r' :: '\n' :: text => [] :: lines text
  | c :: text => consPart c (lines text)

/-- What a block has said so far: the last name, and all data. -/
structure Content where
  event : Option (List Char)
  data : List (List Char)

/-- The data without the blank after the colon. -/
def dropSpace : List Char → List Char
  | ' ' :: data => data
  | data => data

/-- The content of a block after one more line. -/
def Content.addLine (content : Content) (line : List Char) : Content :=
  match Text.afterFront? "event:".toList line with
  | some name => { content with event := some (Text.trim name) }
  | none =>
    match Text.afterFront? "data:".toList line with
    | some data => { content with data := content.data ++ [dropSpace data] }
    | none => content

/-- The frame that a block stands for. -/
def frame? (block : List Char) : Option Frame :=
  let content := (lines block).foldl Content.addLine { event := none, data := [] }
  if content.data.isEmpty then none
  else some
    { event := content.event.map String.ofList
      data := String.ofList (List.intercalate ['\n'] content.data) }

/-- The frames in a text. -/
def parse (text : String) : List Frame :=
  (blocks text.toList).filterMap frame?

/-- The text of frames, one after the other. -/
def encode (frames : List Frame) : String :=
  String.join (frames.map Frame.encode)

end EventStream

end ScriptedChat
