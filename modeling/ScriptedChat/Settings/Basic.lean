import ScriptedChat.Text.Blank
import ScriptedChat.Text.Numeral
import ScriptedChat.Word

/-!
# Settings

The settings of a simulator, in six sections, with their built-in values. Numbers have the width that the
running program gives them.

* `Settings`: all sections.
* `Settings.problem?`: the first thing that makes settings unusable, as a text.
* `StreamSettings.argumentChunk`, `UsageSettings.totalTokens`: numbers that follow from settings, and with
  a question mark as they are computed in 64 bits.

The simulator's `SimConfig` and `validate` are `Settings` and `Settings.problem?`; its
`argument_chunk_chars` and `total_tokens` are `StreamSettings.argumentChunk?` and
`UsageSettings.totalTokens?`.
-/

namespace ScriptedChat

/-- Where and how the server listens. -/
structure ServerSettings where
  host : String := "127.0.0.1"
  port : UInt16 := 18081
  /-- the greatest number of bytes of a request's body -/
  maxBodySize : UInt64 := 10485760
  corsEnabled : Bool := true
  deriving DecidableEq, Repr, Inhabited

/-- How answers are streamed. -/
structure StreamSettings where
  /-- words in one fragment of text -/
  wordsPerChunk : UInt64 := 3
  /-- milliseconds between two frames -/
  chunkDelay : UInt64 := 0
  /-- frames that wait for the receiver -/
  channelCapacity : UInt64 := 16
  /-- milliseconds after which a stream ends -/
  timeout : Option UInt64 := none
  deriving DecidableEq, Repr, Inhabited

/-- The endpoint for chat completions. -/
structure CompletionSettings where
  /-- where the endpoint stands; without it, at the end of every path -/
  basePath : Option String := none
  /-- the model of a request that names none -/
  defaultModel : String := "gpt-4o-mini"
  deriving DecidableEq, Repr, Inhabited

/-- The endpoint for messages. -/
structure MessageSettings where
  /-- the model of a request that names none -/
  defaultModel : String := "claude-3-5-sonnet-20241022"
  deriving DecidableEq, Repr, Inhabited

/-- The numbers of tokens that every answer reports. -/
structure UsageSettings where
  inputTokens : UInt64 := 100
  outputTokens : UInt64 := 50
  cacheCreationInputTokens : UInt64 := 0
  cacheReadInputTokens : UInt64 := 0
  deriving DecidableEq, Repr, Inhabited

/-- What is answered where no script says so. -/
structure FallbackSettings where
  minWords : UInt64 := 8
  maxWords : UInt64 := 40
  /-- the length of the turn after the last plan of a script -/
  completionWords : UInt64 := 4
  /-- a text that makes the answer begin with reasoning -/
  reasoningTrigger : Option String := none
  reasoningWords : UInt64 := 12
  deriving DecidableEq, Repr, Inhabited

/-- The settings of a simulator. -/
structure Settings where
  server : ServerSettings := {}
  stream : StreamSettings := {}
  completion : CompletionSettings := {}
  message : MessageSettings := {}
  usage : UsageSettings := {}
  fallback : FallbackSettings := {}
  deriving DecidableEq, Repr, Inhabited

/-- The characters in one fragment of a tool call's arguments: four for every word of a fragment. -/
def StreamSettings.argumentChunk (stream : StreamSettings) : Nat :=
  4 * max stream.wordsPerChunk.toNat 1

theorem StreamSettings.argumentChunk_pos (stream : StreamSettings) : 0 < stream.argumentChunk := by
  unfold argumentChunk
  omega

/-- The characters in one fragment, if 64 bits are enough for their number. -/
def StreamSettings.argumentChunk? (stream : StreamSettings) : Option UInt64 :=
  product? (max stream.wordsPerChunk 1) 4

/-- All tokens that an answer reports. -/
def UsageSettings.totalTokens (usage : UsageSettings) : Nat :=
  usage.inputTokens.toNat + usage.outputTokens.toNat

/-- All tokens, if 64 bits are enough for their number. -/
def UsageSettings.totalTokens? (usage : UsageSettings) : Option UInt64 :=
  sum? usage.inputTokens usage.outputTokens

namespace Settings

/-- Whether a text has no character but blanks. -/
def isBlankText (text : String) : Bool :=
  (Text.trim text.toList).isEmpty

/-- The first thing that makes settings unusable. -/
def problem? (settings : Settings) : Option String :=
  let fallback := settings.fallback
  if settings.stream.wordsPerChunk = 0 then
    some "emitter.words_per_chunk must be at least 1"
  else if settings.stream.channelCapacity = 0 then
    some "emitter.channel_capacity must be at least 1"
  else if fallback.minWords = 0 || fallback.maxWords < fallback.minWords then
    some ("fallback word range " ++ Text.natText fallback.minWords.toNat ++ "..="
      ++ Text.natText fallback.maxWords.toNat ++ " is invalid")
  else if fallback.completionWords = 0 then
    some "fallback.completion_words must be at least 1"
  else if isBlankText settings.completion.defaultModel
      || isBlankText settings.message.defaultModel then
    some "default models cannot be empty"
  else none

end Settings

end ScriptedChat
