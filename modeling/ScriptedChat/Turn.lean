import ScriptedChat.Filler
import ScriptedChat.Settings.Basic
import ScriptedChat.Transcript

/-!
# Turns

The plan that answers a transcript, and where it comes from: the plan that is due in the newest script; a
closing turn when that script is used up; the single script that the user's newest message is as a whole;
or filler text, whose length depends on that message only.

* `Turn.Origin`: the four cases.
* `Turn.select`: the turn for a transcript.
* `Turn.select?`: the same turn, if its length can be computed.

The simulator's `select_plan` is `Turn.select?`.
-/

namespace ScriptedChat

/-- Where a plan comes from. -/
inductive Turn.Origin where
  | script
  | completion
  | single
  | filler
  deriving DecidableEq, Repr, Inhabited

/-- A plan that answers a transcript. -/
structure Turn where
  plan : Plan
  origin : Turn.Origin
  /-- how far the script is used up -/
  cursor : Option Nat
  deriving BEq, Repr, Inhabited

namespace Turn

/-- The turn of a conversation with a script. -/
def ofPosition (fallback : FallbackSettings) (position : Transcript.Position) : Turn :=
  match position.plan? with
  | some plan => { plan, origin := .script, cursor := some position.cursor }
  | none =>
    { plan := Plan.completion fallback.completionWords.toNat
      origin := .completion
      cursor := some position.cursor }

/-- Words of reasoning before filler text: some if the trigger is set, not empty, and in the text. -/
def reasoningFor (fallback : FallbackSettings) (text : String) : Option Nat :=
  match fallback.reasoningTrigger with
  | some trigger =>
    if trigger ≠ "" && Text.occurs trigger.toList text.toList then
      some fallback.reasoningWords.toNat
    else none
  | none => none

/-- The turn of a conversation whose newest message of the user has the given text and no script. -/
def ofText (fallback : FallbackSettings) (index : Nat) (text : String) : Turn :=
  match Script.single? (Transcript.scopeOf index) text with
  | some plan => { plan, origin := .single, cursor := none }
  | none =>
    let words := stableLength text fallback.minWords fallback.maxWords
    { plan := Plan.filler words.toNat (reasoningFor fallback text)
      origin := .filler
      cursor := none }

/-- The turn that answers a transcript. -/
def select (fallback : FallbackSettings) (messages : List Json) : Turn :=
  match Transcript.position? messages with
  | some position => ofPosition fallback position
  | none =>
    let (index, text) := (Transcript.latestUser? messages).getD (0, "")
    ofText fallback index text

/-- Whether the lengths of filler text between the two bounds can be counted in 64 bits. -/
def isCountable (fallback : FallbackSettings) : Bool :=
  fallback.maxWords ≤ fallback.minWords || (span? fallback.minWords fallback.maxWords).isSome

/-- The turn that answers a transcript, unless it is filler text of a length that cannot be computed. -/
def select? (fallback : FallbackSettings) (messages : List Json) : Option Turn :=
  let turn := select fallback messages
  if turn.origin = .filler && ! isCountable fallback then none else some turn

end Turn

end ScriptedChat
