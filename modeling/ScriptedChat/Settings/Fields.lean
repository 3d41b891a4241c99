import ScriptedChat.Json.Basic
import ScriptedChat.Settings.Basic

/-!
# Settings by name

Files, the environment and printed settings name every setting by its section and its field. What a value
means for a field differs from source to source; which fields there are does not.

* `Settings.sections`: all settings with their names, in the order in which they are printed.
* `Settings.toJson`: the same, as one value.
* `SettingsSource`: how the values of a source are understood.
* `SettingsSource.settings?`: the settings that a value of a source stands for. A section or a field that
  is absent has its built-in value, and names that are no setting are ignored.
-/

namespace ScriptedChat

/-! ## Writing -/

namespace Settings

/-- A number of 64 bits. -/
def numberJson (n : UInt64) : Json := .nat n.toNat

/-- A text that may be absent. -/
def optionalText (text : Option String) : Json := .orNull (text.map .str)

/-- All settings with their names, section by section. -/
def sections (settings : Settings) : List (String × List (String × Json)) :=
  [("server",
      [("host", .str settings.server.host),
       ("port", .nat settings.server.port.toNat),
       ("max_body_size", numberJson settings.server.maxBodySize),
       ("cors_enabled", .bool settings.server.corsEnabled)]),
   ("emitter",
      [("words_per_chunk", numberJson settings.stream.wordsPerChunk),
       ("chunk_delay_ms", numberJson settings.stream.chunkDelay),
       ("channel_capacity", numberJson settings.stream.channelCapacity),
       ("stream_timeout_ms", .orNull (settings.stream.timeout.map numberJson))]),
   ("openai",
      [("base_path", optionalText settings.completion.basePath),
       ("default_model", .str settings.completion.defaultModel)]),
   ("anthropic",
      [("default_model", .str settings.message.defaultModel)]),
   ("usage",
      [("input_tokens", numberJson settings.usage.inputTokens),
       ("output_tokens", numberJson settings.usage.outputTokens),
       ("cache_creation_input_tokens", numberJson settings.usage.cacheCreationInputTokens),
       ("cache_read_input_tokens", numberJson settings.usage.cacheReadInputTokens)]),
   ("fallback",
      [("min_words", numberJson settings.fallback.minWords),
       ("max_words", numberJson settings.fallback.maxWords),
       ("completion_words", numberJson settings.fallback.completionWords),
       ("reasoning_trigger", optionalText settings.fallback.reasoningTrigger),
       ("reasoning_words", numberJson settings.fallback.reasoningWords)])]

/-- All settings as one value. -/
def toJson (settings : Settings) : Json :=
  .object (settings.sections.map fun (name, fields) => (name, .object fields))

end Settings

/-! ## Reading -/

/-- How the values of a source of settings are understood. -/
structure SettingsSource (σ : Type) where
  /-- the fields of a section that has the given names, in their order -/
  fields? : List String → σ → Option (String → Option σ)
  text? : σ → Option String
  flag? : σ → Option Bool
  number? : σ → Option Nat
  /-- whether the value leaves a setting without a value, if that can be said -/
  isAbsent? : σ → Option Bool

namespace SettingsSource

/-- Fields that are given by their place: as many values as there are names, or fewer. -/
def inOrder {σ : Type} (names : List String) (values : List σ) (name : String) : Option σ :=
  (names.zip values).lookup name

variable {σ : Type} (source : SettingsSource σ)

/-- A field that has its built-in value where it is absent. -/
def field {α : Type} (read : σ → Option α) (default : α) : Option σ → Option α
  | none => some default
  | some value => read value

/-- A field that may be without a value. -/
def optional {α : Type} (read : σ → Option α) (value : σ) : Option (Option α) := do
  if ← source.isAbsent? value then return none else return some (← read value)

/-- A number of 64 bits. -/
def word? (value : σ) : Option UInt64 :=
  ((source.number? value).filter (· < UInt64.size)).map UInt64.ofNat

/-- A number of 16 bits. -/
def port? (value : σ) : Option UInt16 :=
  ((source.number? value).filter (· < UInt16.size)).map UInt16.ofNat

def server? (value : σ) : Option ServerSettings := do
  let get ← source.fields? ["host", "port", "max_body_size", "cors_enabled"] value
  let d : ServerSettings := {}
  let host ← field source.text? d.host (get "host")
  let port ← field source.port? d.port (get "port")
  let maxBodySize ← field source.word? d.maxBodySize (get "max_body_size")
  let corsEnabled ← field source.flag? d.corsEnabled (get "cors_enabled")
  return { host, port, maxBodySize, corsEnabled }

def stream? (value : σ) : Option StreamSettings := do
  let get ← source.fields?
    ["words_per_chunk", "chunk_delay_ms", "channel_capacity", "stream_timeout_ms"] value
  let d : StreamSettings := {}
  let wordsPerChunk ← field source.word? d.wordsPerChunk (get "words_per_chunk")
  let chunkDelay ← field source.word? d.chunkDelay (get "chunk_delay_ms")
  let channelCapacity ← field source.word? d.channelCapacity (get "channel_capacity")
  let timeout ← field (source.optional source.word?) d.timeout (get "stream_timeout_ms")
  return { wordsPerChunk, chunkDelay, channelCapacity, timeout }

def completion? (value : σ) : Option CompletionSettings := do
  let get ← source.fields? ["base_path", "default_model"] value
  let d : CompletionSettings := {}
  let basePath ← field (source.optional source.text?) d.basePath (get "base_path")
  let defaultModel ← field source.text? d.defaultModel (get "default_model")
  return { basePath, defaultModel }

def message? (value : σ) : Option MessageSettings := do
  let get ← source.fields? ["default_model"] value
  let d : MessageSettings := {}
  let defaultModel ← field source.text? d.defaultModel (get "default_model")
  return { defaultModel }

def usage? (value : σ) : Option UsageSettings := do
  let get ← source.fields?
    ["input_tokens", "output_tokens", "cache_creation_input_tokens", "cache_read_input_tokens"] value
  let d : UsageSettings := {}
  let inputTokens ← field source.word? d.inputTokens (get "input_tokens")
  let outputTokens ← field source.word? d.outputTokens (get "output_tokens")
  let cacheCreationInputTokens ←
    field source.word? d.cacheCreationInputTokens (get "cache_creation_input_tokens")
  let cacheReadInputTokens ←
    field source.word? d.cacheReadInputTokens (get "cache_read_input_tokens")
  return { inputTokens, outputTokens, cacheCreationInputTokens, cacheReadInputTokens }

def fallback? (value : σ) : Option FallbackSettings := do
  let get ← source.fields?
    ["min_words", "max_words", "completion_words", "reasoning_trigger", "reasoning_words"] value
  let d : FallbackSettings := {}
  let minWords ← field source.word? d.minWords (get "min_words")
  let maxWords ← field source.word? d.maxWords (get "max_words")
  let completionWords ← field source.word? d.completionWords (get "completion_words")
  let reasoningTrigger ←
    field (source.optional source.text?) d.reasoningTrigger (get "reasoning_trigger")
  let reasoningWords ← field source.word? d.reasoningWords (get "reasoning_words")
  return { minWords, maxWords, completionWords, reasoningTrigger, reasoningWords }

/-- The settings that a value stands for. -/
def settings? (value : σ) : Option Settings := do
  let get ← source.fields? ["server", "emitter", "openai", "anthropic", "usage", "fallback"] value
  let server ← field source.server? {} (get "server")
  let stream ← field source.stream? {} (get "emitter")
  let completion ← field source.completion? {} (get "openai")
  let message ← field source.message? {} (get "anthropic")
  let usage ← field source.usage? {} (get "usage")
  let fallback ← field source.fallback? {} (get "fallback")
  return { server, stream, completion, message, usage, fallback }

end SettingsSource

/-! ## Settings as JSON -/

namespace Settings

/-- A natural number in JSON. -/
def jsonNumber? : Json → Option Nat
  | .num (.int (.ofNat n)) => some n
  | _ => none

/-- The fields of an object, or of an array that has no item too many. -/
def jsonFields? (names : List String) : Json → Option (String → Option Json)
  | .obj fields => some fun name => Json.lookup name fields
  | .arr items =>
    if items.length ≤ names.length then some (SettingsSource.inOrder names items) else none
  | _ => none

/-- Whether a value is null. -/
def isNull : Json → Bool
  | .null => true
  | _ => false

/-- In JSON every value is of the kind of its field, and null leaves a field without a value. -/
def jsonSource : SettingsSource Json where
  fields? := jsonFields?
  text? := Json.asText?
  flag? := Json.asBool?
  number? := jsonNumber?
  isAbsent? value := some (isNull value)

/-- The settings that a JSON value gives, in part or in full. -/
def ofJson? (value : Json) : Option Settings :=
  jsonSource.settings? value

end Settings

end ScriptedChat
