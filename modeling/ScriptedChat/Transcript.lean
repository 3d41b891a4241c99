import ScriptedChat.Script.Block

/-!
# Transcripts

A transcript is the list of messages that a request carries. Nothing is remembered between requests: which
plan is due follows from the transcript alone. The newest message of the user with a script is the
anchor, and every message of the assistant after it has used up one plan.

* `hasRole`, `text?`: who wrote a message, and its text.
* `position?`: the anchor's script and how far it is used up.
* `latestUser?`: the newest message of the user.

The simulator's `has_role`, `message_text`, `id_scope`, `latest_user_message` and `ChainPosition.analyze`
are `hasRole`, `text?`, `scopeOf`, `latestUser?` and `position?`.
-/

namespace ScriptedChat.Transcript

/-! ## Messages -/

/-- Texts that differ at most in the case of letters between A and Z. -/
def sameName (a b : String) : Bool :=
  a.toList.map Char.toLower == b.toList.map Char.toLower

/-- Whether a message is written by the given role. -/
def hasRole (role : String) (message : Json) : Bool :=
  (message.getText? "role").any (sameName role)

/-- The text of a content block, if it is a block of text. A block that names no type is one. -/
def blockText? (block : Json) : Option String :=
  if (block.getText? "type").all fun kind => kind == "text" || kind == "input_text" then
    block.getText? "text"
  else none

/-- The text of a message: its content, or the text of its first block of text. -/
def text? (message : Json) : Option String :=
  match message.get? "content" with
  | some (.str text) => some text
  | some (.arr blocks) => blocks.findSome? blockText?
  | _ => none

/-! ## The newest script -/

/-- Where a conversation stands in its script. -/
structure Position where
  /-- the place of the message with the script -/
  anchor : Nat
  plans : List Plan
  /-- the messages of the assistant after the anchor -/
  cursor : Nat
  deriving BEq, Repr

/-- The plan that is due; there is none when the script is used up. -/
def Position.plan? (position : Position) : Option Plan :=
  position.plans[position.cursor]?

def Position.isExhausted (position : Position) : Bool :=
  position.plans.length ≤ position.cursor

/-- The scope of the identifiers in the script of a message. -/
def scopeOf (index : Nat) : String :=
  "message-" ++ Text.natText index

/-- The script of the message at a place of the transcript, if the user wrote one. -/
def script? (index : Nat) (message : Json) : Option (List Plan) :=
  if hasRole "user" message then
    (text? message).bind (Script.plans? (scopeOf index))
  else none

/-- The newest script and the place of its message. -/
def anchor? (messages : List Json) : Option (Nat × List Plan) :=
  messages.zipIdx.reverse.findSome? fun (message, index) =>
    (script? index message).map fun plans => (index, plans)

/-- Where the conversation stands in its newest script, if it has one. -/
def position? (messages : List Json) : Option Position :=
  (anchor? messages).map fun (anchor, plans) =>
    { anchor, plans, cursor := (messages.drop (anchor + 1)).countP (hasRole "assistant") }

/-- The newest message of the user with its place, if it has a text. -/
def latestUser? (messages : List Json) : Option (Nat × String) := do
  let (message, index) ← messages.zipIdx.reverse.find? fun (message, _) =>
    hasRole "user" message
  return (index, ← text? message)

end ScriptedChat.Transcript
