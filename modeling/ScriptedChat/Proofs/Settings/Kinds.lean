import ScriptedChat.Proofs.Settings.Layers
import ScriptedChat.Settings.Layers

/-!
# Settings, leaf by leaf

Every leaf of a tree of settings has a kind, and is read as a value of this kind.
A layer in which all values are of their kind therefore changes the settings in
the leaves that it names, and the settings in effect are found leaf by leaf.

* `Kind`, `leaves` — the leaves and their kinds;
* `Typed` — a tree in which all leaves are of their kind;
* `Effective` — settings that are, leaf by leaf, what is said or else built in;
* `settings?_of_reads` — a tree is read leaf by leaf;
* `eq_of_effective` — what is said determines the settings;
* `typed_single` — a tree with one leaf;
* `settings?_tree` — the settings that a file and the environment lead to.
-/

namespace ScriptedChat.Settings

/-! ## Kinds -/

/-- What the value of a leaf can be. -/
inductive Kind where
  | text
  | flag
  | word
  | port
  | optionalText
  | optionalWord
  deriving DecidableEq

/-- A value as one of a kind, written as in printed settings. -/
def Kind.read? : Kind → Json → Option Json
  | .text, value => (looseSource.text? value).map .str
  | .flag, value => (looseSource.flag? value).map .bool
  | .word, value => (looseSource.word? value).map numberJson
  | .port, value => (looseSource.port? value).map fun port => .nat port.toNat
  | .optionalText, value =>
    (looseSource.optional looseSource.text? value).map Settings.optionalText
  | .optionalWord, value =>
    (looseSource.optional looseSource.word? value).map fun word => .orNull (word.map numberJson)

/-- A leaf with its kind. -/
structure Leaf where
  table : String
  name : String
  kind : Kind

/-- All leaves. -/
def leaves : List Leaf :=
  [⟨"server", "host", .text⟩, ⟨"server", "port", .port⟩, ⟨"server", "max_body_size", .word⟩,
   ⟨"server", "cors_enabled", .flag⟩,
   ⟨"emitter", "words_per_chunk", .word⟩, ⟨"emitter", "chunk_delay_ms", .word⟩,
   ⟨"emitter", "channel_capacity", .word⟩, ⟨"emitter", "stream_timeout_ms", .optionalWord⟩,
   ⟨"openai", "base_path", .optionalText⟩, ⟨"openai", "default_model", .text⟩,
   ⟨"anthropic", "default_model", .text⟩,
   ⟨"usage", "input_tokens", .word⟩, ⟨"usage", "output_tokens", .word⟩,
   ⟨"usage", "cache_creation_input_tokens", .word⟩, ⟨"usage", "cache_read_input_tokens", .word⟩,
   ⟨"fallback", "min_words", .word⟩, ⟨"fallback", "max_words", .word⟩,
   ⟨"fallback", "completion_words", .word⟩, ⟨"fallback", "reasoning_trigger", .optionalText⟩,
   ⟨"fallback", "reasoning_words", .word⟩]

/-- The value of a leaf in a tree. -/
def Leaf.of? (leaf : Leaf) (tree : Json) : Option Json :=
  leaf? leaf.table leaf.name tree

/-- All values that a tree has for settings are of their kinds, and their tables are tables. -/
def Typed (tree : Json) : Prop :=
  ∀ leaf ∈ leaves,
    (∀ value, tree.get? leaf.table = some value → ∃ fields, value = .obj fields) ∧
      ∀ value, leaf.of? tree = some value → (leaf.kind.read? value).isSome

/-- Settings that are, leaf by leaf, what is said about a leaf, and built in where nothing is. -/
def Effective (said : Leaf → Option Json) (settings : Settings) : Prop :=
  ∀ leaf ∈ leaves,
    ((said leaf).or (leaf.of? ({} : Settings).toJson)).bind leaf.kind.read? =
      leaf.of? settings.toJson

theorem plain_of_read? {kind : Kind} {value : Json} (h : (kind.read? value).isSome) :
    Plain value := by
  constructor
  · rintro fields rfl
    cases kind <;> exact absurd h nofun
  · rintro items rfl
    cases kind <;> exact absurd h nofun

theorem Typed.clear {tree : Json} (h : Typed tree) {leaf : Leaf} (hmem : leaf ∈ leaves) :
    Clear leaf.table leaf.name tree where
  isTable := (h leaf hmem).1
  isPlain := fun value hvalue => plain_of_read? ((h leaf hmem).2 value hvalue)

/-! ## Reading -/

/-- The value that may be there is one of a kind, and it is read as `result`. -/
def Reads (kind : Kind) (value? : Option Json) (result : Json) : Prop :=
  value?.bind kind.read? = some result

theorem Reads.eq {kind : Kind} {value? : Option Json} {result : Json}
    (h : Reads kind value? result) : value?.bind kind.read? = some result := h

theorem field_of_reads {α : Type} (read : Json → Option α) (write : α → Json) {value? : Option Json}
    {result : Json} (h : (value?.bind fun value => (read value).map write) = some result) :
    ∃ x, (∀ default, SettingsSource.field read default value? = some x) ∧ result = write x := by
  obtain ⟨value, rfl, hvalue⟩ := Option.bind_eq_some_iff.1 h
  obtain ⟨x, hread, hwrite⟩ := Option.map_eq_some_iff.1 hvalue
  exact ⟨x, fun _ => hread, hwrite.symm⟩

section Tables

variable {content : List (String × Json)}

@[simp] theorem fields?_obj (names : List String) (content : List (String × Json)) :
    looseSource.fields? names (.obj content) = some fun name => Json.lookup name content := rfl

theorem server?_of_reads {host port size cors : Json}
    (hhost : Reads .text (Json.lookup "host" content) host)
    (hport : Reads .port (Json.lookup "port" content) port)
    (hsize : Reads .word (Json.lookup "max_body_size" content) size)
    (hcors : Reads .flag (Json.lookup "cors_enabled" content) cors) :
    ∃ server, looseSource.server? (.obj content) = some server ∧ host = .str server.host ∧
      port = .nat server.port.toNat ∧ size = numberJson server.maxBodySize ∧
      cors = .bool server.corsEnabled := by
  obtain ⟨host, hhost', rfl⟩ := field_of_reads looseSource.text? .str hhost
  obtain ⟨port, hport', rfl⟩ := field_of_reads looseSource.port? (fun port => .nat port.toNat) hport
  obtain ⟨size, hsize', rfl⟩ := field_of_reads looseSource.word? numberJson hsize
  obtain ⟨cors, hcors', rfl⟩ := field_of_reads looseSource.flag? .bool hcors
  refine ⟨⟨host, port, size, cors⟩, ?_, rfl, rfl, rfl, rfl⟩
  simp [SettingsSource.server?, hhost', hport', hsize', hcors']

theorem stream?_of_reads {words delay capacity timeout : Json}
    (hwords : Reads .word (Json.lookup "words_per_chunk" content) words)
    (hdelay : Reads .word (Json.lookup "chunk_delay_ms" content) delay)
    (hcapacity : Reads .word (Json.lookup "channel_capacity" content) capacity)
    (htimeout : Reads .optionalWord (Json.lookup "stream_timeout_ms" content) timeout) :
    ∃ stream, looseSource.stream? (.obj content) = some stream ∧
      words = numberJson stream.wordsPerChunk ∧ delay = numberJson stream.chunkDelay ∧
      capacity = numberJson stream.channelCapacity ∧
      timeout = .orNull (stream.timeout.map numberJson) := by
  obtain ⟨words, hwords', rfl⟩ := field_of_reads looseSource.word? numberJson hwords
  obtain ⟨delay, hdelay', rfl⟩ := field_of_reads looseSource.word? numberJson hdelay
  obtain ⟨capacity, hcapacity', rfl⟩ := field_of_reads looseSource.word? numberJson hcapacity
  obtain ⟨timeout, htimeout', rfl⟩ := field_of_reads (looseSource.optional looseSource.word?)
    (fun word => .orNull (word.map numberJson)) htimeout
  refine ⟨⟨words, delay, capacity, timeout⟩, ?_, rfl, rfl, rfl, rfl⟩
  simp [SettingsSource.stream?, hwords', hdelay', hcapacity', htimeout']

theorem completion?_of_reads {path model : Json}
    (hpath : Reads .optionalText (Json.lookup "base_path" content) path)
    (hmodel : Reads .text (Json.lookup "default_model" content) model) :
    ∃ completion, looseSource.completion? (.obj content) = some completion ∧
      path = optionalText completion.basePath ∧ model = .str completion.defaultModel := by
  obtain ⟨path, hpath', rfl⟩ := field_of_reads (looseSource.optional looseSource.text?)
    optionalText hpath
  obtain ⟨model, hmodel', rfl⟩ := field_of_reads looseSource.text? .str hmodel
  refine ⟨⟨path, model⟩, ?_, rfl, rfl⟩
  simp [SettingsSource.completion?, hpath', hmodel']

theorem message?_of_reads {model : Json}
    (hmodel : Reads .text (Json.lookup "default_model" content) model) :
    ∃ message, looseSource.message? (.obj content) = some message ∧
      model = .str message.defaultModel := by
  obtain ⟨model, hmodel', rfl⟩ := field_of_reads looseSource.text? .str hmodel
  refine ⟨⟨model⟩, ?_, rfl⟩
  simp [SettingsSource.message?, hmodel']

theorem usage?_of_reads {input output creation read : Json}
    (hinput : Reads .word (Json.lookup "input_tokens" content) input)
    (houtput : Reads .word (Json.lookup "output_tokens" content) output)
    (hcreation : Reads .word (Json.lookup "cache_creation_input_tokens" content) creation)
    (hread : Reads .word (Json.lookup "cache_read_input_tokens" content) read) :
    ∃ usage, looseSource.usage? (.obj content) = some usage ∧
      input = numberJson usage.inputTokens ∧ output = numberJson usage.outputTokens ∧
      creation = numberJson usage.cacheCreationInputTokens ∧
      read = numberJson usage.cacheReadInputTokens := by
  obtain ⟨input, hinput', rfl⟩ := field_of_reads looseSource.word? numberJson hinput
  obtain ⟨output, houtput', rfl⟩ := field_of_reads looseSource.word? numberJson houtput
  obtain ⟨creation, hcreation', rfl⟩ := field_of_reads looseSource.word? numberJson hcreation
  obtain ⟨read, hread', rfl⟩ := field_of_reads looseSource.word? numberJson hread
  refine ⟨⟨input, output, creation, read⟩, ?_, rfl, rfl, rfl, rfl⟩
  simp [SettingsSource.usage?, hinput', houtput', hcreation', hread']

theorem fallback?_of_reads {low high completion trigger reasoning : Json}
    (hlow : Reads .word (Json.lookup "min_words" content) low)
    (hhigh : Reads .word (Json.lookup "max_words" content) high)
    (hcompletion : Reads .word (Json.lookup "completion_words" content) completion)
    (htrigger : Reads .optionalText (Json.lookup "reasoning_trigger" content) trigger)
    (hreasoning : Reads .word (Json.lookup "reasoning_words" content) reasoning) :
    ∃ fallback, looseSource.fallback? (.obj content) = some fallback ∧
      low = numberJson fallback.minWords ∧ high = numberJson fallback.maxWords ∧
      completion = numberJson fallback.completionWords ∧
      trigger = optionalText fallback.reasoningTrigger ∧
      reasoning = numberJson fallback.reasoningWords := by
  obtain ⟨low, hlow', rfl⟩ := field_of_reads looseSource.word? numberJson hlow
  obtain ⟨high, hhigh', rfl⟩ := field_of_reads looseSource.word? numberJson hhigh
  obtain ⟨completion, hcompletion', rfl⟩ := field_of_reads looseSource.word? numberJson hcompletion
  obtain ⟨trigger, htrigger', rfl⟩ := field_of_reads (looseSource.optional looseSource.text?)
    optionalText htrigger
  obtain ⟨reasoning, hreasoning', rfl⟩ := field_of_reads looseSource.word? numberJson hreasoning
  refine ⟨⟨low, high, completion, trigger, reasoning⟩, ?_, rfl, rfl, rfl, rfl, rfl⟩
  simp [SettingsSource.fallback?, hlow', hhigh', hcompletion', htrigger', hreasoning']

end Tables

/-- The leaves of settings, in their order. -/
theorem map_of?_toJson (settings : Settings) :
    leaves.map (fun leaf => leaf.of? settings.toJson) =
      [some (.str settings.server.host), some (.nat settings.server.port.toNat),
       some (numberJson settings.server.maxBodySize), some (.bool settings.server.corsEnabled),
       some (numberJson settings.stream.wordsPerChunk), some (numberJson settings.stream.chunkDelay),
       some (numberJson settings.stream.channelCapacity),
       some (.orNull (settings.stream.timeout.map numberJson)),
       some (optionalText settings.completion.basePath),
       some (.str settings.completion.defaultModel), some (.str settings.message.defaultModel),
       some (numberJson settings.usage.inputTokens), some (numberJson settings.usage.outputTokens),
       some (numberJson settings.usage.cacheCreationInputTokens),
       some (numberJson settings.usage.cacheReadInputTokens),
       some (numberJson settings.fallback.minWords), some (numberJson settings.fallback.maxWords),
       some (numberJson settings.fallback.completionWords),
       some (optionalText settings.fallback.reasoningTrigger),
       some (numberJson settings.fallback.reasoningWords)] := by
  simp [leaves, Leaf.of?, leaf?, toJson, sections]

theorem get?_obj (name : String) (fields : List (String × Json)) :
    (Json.obj fields).get? name = Json.lookup name fields := rfl

theorem hasTable_of_leaf {leaf : Leaf} {tree value : Json} (h : leaf.of? tree = some value) :
    HasTable leaf.table tree := by
  obtain ⟨table, htable, hvalue⟩ := Option.bind_eq_some_iff.1 h
  cases table with
  | obj fields => exact ⟨fields, htable⟩
  | _ => cases hvalue

/-- **A tree that has all leaves is read leaf by leaf.** -/
theorem settings?_of_reads {tree : Json}
    (hreads : ∀ leaf ∈ leaves, ∃ result, Reads leaf.kind (leaf.of? tree) result) :
    ∃ settings, looseSource.settings? tree = some settings ∧
      ∀ leaf ∈ leaves, (leaf.of? tree).bind leaf.kind.read? = leaf.of? settings.toJson := by
  have htables : ∀ leaf ∈ leaves, HasTable leaf.table tree := by
    intro leaf hmem
    obtain ⟨result, hresult⟩ := hreads leaf hmem
    obtain ⟨value, hvalue, -⟩ := Option.bind_eq_some_iff.1 hresult
    exact hasTable_of_leaf hvalue
  simp only [leaves, List.forall_mem_cons, Leaf.of?, leaf?] at htables hreads
  obtain ⟨⟨server, hserver⟩, -, -, -, ⟨stream, hstream⟩, -, -, -, ⟨completion, hcompletion⟩, -,
    ⟨message, hmessage⟩, ⟨usage, husage⟩, -, -, -, ⟨fallback, hfallback⟩, -⟩ := htables
  simp only [hserver, hstream, hcompletion, hmessage, husage, hfallback, Option.bind_some,
    get?_obj] at hreads
  obtain ⟨⟨_, hhost⟩, ⟨_, hport⟩, ⟨_, hsize⟩, ⟨_, hcors⟩, ⟨_, hwords⟩, ⟨_, hdelay⟩, ⟨_, hcapacity⟩,
    ⟨_, htimeout⟩, ⟨_, hpath⟩, ⟨_, hcompletionModel⟩, ⟨_, hmessageModel⟩, ⟨_, hinput⟩, ⟨_, houtput⟩,
    ⟨_, hcreation⟩, ⟨_, hcached⟩, ⟨_, hlow⟩, ⟨_, hhigh⟩, ⟨_, hlast⟩, ⟨_, htrigger⟩,
    ⟨_, hreasoning⟩, -⟩ := hreads
  obtain ⟨serverSettings, hserver?, rfl, rfl, rfl, rfl⟩ := server?_of_reads hhost hport hsize hcors
  obtain ⟨streamSettings, hstream?, rfl, rfl, rfl, rfl⟩ :=
    stream?_of_reads hwords hdelay hcapacity htimeout
  obtain ⟨completionSettings, hcompletion?, rfl, rfl⟩ := completion?_of_reads hpath hcompletionModel
  obtain ⟨messageSettings, hmessage?, rfl⟩ := message?_of_reads hmessageModel
  obtain ⟨usageSettings, husage?, rfl, rfl, rfl, rfl⟩ :=
    usage?_of_reads hinput houtput hcreation hcached
  obtain ⟨fallbackSettings, hfallback?, rfl, rfl, rfl, rfl, rfl⟩ :=
    fallback?_of_reads hlow hhigh hlast htrigger hreasoning
  refine ⟨⟨serverSettings, streamSettings, completionSettings, messageSettings, usageSettings,
    fallbackSettings⟩, ?_, ?_⟩
  · cases tree with
    | obj fields =>
      simp only [get?_obj] at hserver hstream hcompletion hmessage husage hfallback
      simp [SettingsSource.settings?, SettingsSource.field, hserver, hstream, hcompletion, hmessage,
        husage, hfallback, hserver?, hstream?, hcompletion?, hmessage?, husage?, hfallback?]
    | _ => cases hserver
  · rw [← List.map_inj_left, map_of?_toJson]
    simp only [leaves, List.map_cons, List.map_nil, Leaf.of?, leaf?, hserver, hstream, hcompletion,
      hmessage, husage, hfallback, Option.bind_some, get?_obj, hhost.eq, hport.eq, hsize.eq,
      hcors.eq, hwords.eq, hdelay.eq, hcapacity.eq, htimeout.eq, hpath.eq, hcompletionModel.eq,
      hmessageModel.eq, hinput.eq, houtput.eq, hcreation.eq, hcached.eq, hlow.eq, hhigh.eq,
      hlast.eq, htrigger.eq, hreasoning.eq]

/-! ## Printed settings -/

@[simp] theorem word?_numberJson (n : UInt64) : looseSource.word? (numberJson n) = some n := by
  have hnumber : looseSource.number? (numberJson n) = some n.toNat := by
    show looseNumber? (.num (.int n.toNat)) = some n.toNat
    rw [looseNumber?, if_neg (by omega), Int.toNat_natCast]
  rw [SettingsSource.word?, hnumber, Option.filter_some, if_pos (decide_eq_true n.toNat_lt_size),
    Option.map_some, UInt64.ofNat_toNat]

@[simp] theorem port?_nat (n : UInt16) : looseSource.port? (.nat n.toNat) = some n := by
  have hnumber : looseSource.number? (.nat n.toNat) = some n.toNat := by
    show looseNumber? (.num (.int n.toNat)) = some n.toNat
    rw [looseNumber?, if_neg (by omega), Int.toNat_natCast]
  rw [SettingsSource.port?, hnumber, Option.filter_some, if_pos (decide_eq_true n.toNat_lt_size),
    Option.map_some, UInt16.ofNat_toNat]

@[simp] theorem text?_str (text : String) : looseSource.text? (.str text) = some text := rfl

@[simp] theorem flag?_bool (b : Bool) : looseSource.flag? (.bool b) = some b := rfl

theorem optional_orNull {α : Type} (read : Json → Option α) (write : α → Json)
    (h : ∀ x, read (write x) = some x) (hnull : ∀ x, write x ≠ .null) (value : Option α) :
    looseSource.optional read (.orNull (value.map write)) = some value := by
  cases value with
  | none => rfl
  | some x =>
    have hpresent : looseSource.isAbsent? (write x) = some false := by
      show some (isNull (write x)) = some false
      cases hwrite : write x with
      | null => exact absurd hwrite (hnull x)
      | _ => rfl
    rw [Option.map_some, Json.orNull, Option.getD_some, SettingsSource.optional, hpresent]
    simp [h]

theorem optional_text (text : Option String) :
    looseSource.optional looseSource.text? (optionalText text) = some text :=
  optional_orNull _ .str (fun _ => rfl) (fun _ => nofun) text

theorem optional_word (word : Option UInt64) :
    looseSource.optional looseSource.word? (.orNull (word.map numberJson)) = some word :=
  optional_orNull _ numberJson word?_numberJson (fun _ => nofun) word

/-- **Printed settings are read as they are.** -/
theorem read?_toJson (settings : Settings) :
    ∀ leaf ∈ leaves,
      (leaf.of? settings.toJson).bind leaf.kind.read? = leaf.of? settings.toJson := by
  have hleaves := map_of?_toJson settings
  simp only [leaves, List.map_cons, List.map_nil, List.cons.injEq, and_true] at hleaves
  simp [leaves, hleaves, Kind.read?, optional_text, optional_word]

theorem exists_of?_toJson (settings : Settings) :
    ∀ leaf ∈ leaves, ∃ value, leaf.of? settings.toJson = some value := by
  have hleaves := map_of?_toJson settings
  simp only [leaves, List.map_cons, List.map_nil, List.cons.injEq, and_true] at hleaves
  simp [leaves, hleaves]

theorem numberJson_inj {m n : UInt64} : numberJson m = numberJson n ↔ m = n := by
  refine ⟨fun h => ?_, congrArg numberJson⟩
  exact Option.some.inj ((word?_numberJson m).symm.trans ((congrArg _ h).trans (word?_numberJson n)))

theorem portJson_inj {m n : UInt16} : Json.nat m.toNat = Json.nat n.toNat ↔ m = n := by
  refine ⟨fun h => ?_, congrArg fun port : UInt16 => Json.nat port.toNat⟩
  exact Option.some.inj ((port?_nat m).symm.trans ((congrArg _ h).trans (port?_nat n)))

theorem orNull_inj {m n : Option UInt64} :
    Json.orNull (m.map numberJson) = Json.orNull (n.map numberJson) ↔ m = n := by
  refine ⟨fun h => ?_, congrArg fun word => Json.orNull (Option.map numberJson word)⟩
  exact Option.some.inj ((optional_word m).symm.trans ((congrArg _ h).trans (optional_word n)))

theorem optionalText_inj {s t : Option String} : optionalText s = optionalText t ↔ s = t := by
  refine ⟨fun h => ?_, congrArg optionalText⟩
  exact Option.some.inj ((optional_text s).symm.trans ((congrArg _ h).trans (optional_text t)))

/-- **Settings are determined by what is said about their leaves.** -/
theorem eq_of_effective {said : Leaf → Option Json} {a b : Settings} (ha : Effective said a)
    (hb : Effective said b) : a = b := by
  have hleaves : leaves.map (fun leaf => leaf.of? a.toJson) =
      leaves.map (fun leaf => leaf.of? b.toJson) :=
    List.map_congr_left fun leaf hmem => (ha leaf hmem).symm.trans (hb leaf hmem)
  obtain ⟨⟨_, _, _, _⟩, ⟨_, _, _, _⟩, ⟨_, _⟩, ⟨_⟩, ⟨_, _, _, _⟩, ⟨_, _, _, _, _⟩⟩ := a
  obtain ⟨⟨_, _, _, _⟩, ⟨_, _, _, _⟩, ⟨_, _⟩, ⟨_⟩, ⟨_, _, _, _⟩, ⟨_, _, _, _, _⟩⟩ := b
  simp only [map_of?_toJson, List.cons.injEq, Option.some.injEq, Json.str.injEq, Json.bool.injEq,
    numberJson_inj, portJson_inj, orNull_inj, optionalText_inj] at hleaves
  obtain ⟨rfl, rfl, rfl, rfl, rfl, rfl, rfl, rfl, rfl, rfl, rfl, rfl, rfl, rfl, rfl, rfl, rfl, rfl,
    rfl, rfl, -⟩ := hleaves
  rfl

/-! ## One leaf -/

/-- Leaves have their names for themselves. -/
theorem kind_of_names : ∀ leaf ∈ leaves, ∀ other ∈ leaves,
    leaf.table = other.table → leaf.name = other.name → leaf.kind = other.kind := by
  decide +kernel

/-- What a tree with one leaf says about leaves. -/
theorem of?_single (leaf other : Leaf) (value : Json) :
    other.of? (.obj [(leaf.table, .obj [(leaf.name, value)])]) =
      if leaf.table = other.table ∧ leaf.name = other.name then some value else none := by
  simp only [Leaf.of?, leaf?, get?_obj, Json.lookup_cons, Json.lookup_nil]
  by_cases htable : leaf.table = other.table
  · simp [htable, get?_obj]
  · simp [htable]

/-- **One leaf with a value of its kind.** -/
theorem typed_single {leaf : Leaf} (hmem : leaf ∈ leaves) {value : Json}
    (hread : (leaf.kind.read? value).isSome) :
    Typed (.obj [(leaf.table, .obj [(leaf.name, value)])]) := by
  intro other hother
  constructor
  · intro table htable
    rw [get?_obj, Json.lookup_cons, Json.lookup_nil] at htable
    split at htable
    · exact ⟨_, (Option.some.inj htable).symm⟩
    · cases htable
  · intro result hresult
    rw [of?_single] at hresult
    split at hresult
    · rename_i hnames
      cases hresult
      rwa [← kind_of_names leaf hmem other hother hnames.1 hnames.2]
    · cases hresult

/-! ## The settings in effect -/

/-- What a layer says about a leaf. -/
def Leaf.given (leaf : Leaf) (layer : List (String × Json)) : Option Json :=
  Settings.given leaf.table leaf.name layer

/-- What a layer says about a leaf is of its kind, if this is so for each of its entries. -/
theorem read?_given {layer : List (String × Json)} (h : ∀ entry ∈ layer, Typed (alone entry))
    {leaf : Leaf} (hmem : leaf ∈ leaves) {value : Json} (hvalue : leaf.given layer = some value) :
    (leaf.kind.read? value).isSome := by
  induction layer with
  | nil => cases hvalue
  | cons entry layer ih =>
    obtain ⟨hentry, hlayer⟩ := List.forall_mem_cons.1 h
    rcases Option.or_eq_some_iff.1 hvalue with hlater | ⟨-, hhere⟩
    · exact ih hlayer hlater
    · exact (hentry leaf hmem).2 value hhere

/-- **The settings that a file and the environment lead to**, if all their values are of their kinds:
what the environment says counts, then what the file says, and then what is built in. -/
theorem settings?_tree {file : List (String × Json)} {environment : List (String × String)}
    (hfile : ∀ entry ∈ file, Typed (alone entry))
    (henvironment : ∀ entry ∈ environmentLayer environment, Typed (alone entry)) :
    ∃ settings, looseSource.settings? (tree file environment) = some settings ∧
      Effective (fun leaf => (leaf.given (environmentLayer environment)).or (leaf.given file))
        settings := by
  have hleaf : ∀ leaf ∈ leaves, leaf.of? (tree file environment) =
      ((leaf.given (environmentLayer environment)).or (leaf.given file)).or
        (leaf.of? ({} : Settings).toJson) := by
    intro leaf hmem
    obtain ⟨builtIn, hbuiltIn⟩ := exists_of?_toJson {} leaf hmem
    obtain ⟨htable, hfileLeaf⟩ := leaf?_layOver (fun entry hentry => (hfile entry hentry).clear hmem)
      (hasTable_of_leaf hbuiltIn)
    obtain ⟨-, hgiven⟩ := leaf?_layOver
      (fun entry hentry => (henvironment entry hentry).clear hmem) htable
    rw [Option.or_assoc]
    exact hgiven.trans (congrArg _ hfileLeaf)
  have hreads : ∀ leaf ∈ leaves, ∃ result,
      Reads leaf.kind (leaf.of? (tree file environment)) result := by
    intro leaf hmem
    obtain ⟨builtIn, hbuiltIn⟩ := exists_of?_toJson {} leaf hmem
    rw [hleaf leaf hmem]
    unfold Reads
    cases henv : leaf.given (environmentLayer environment) with
    | some value =>
      exact Option.isSome_iff_exists.1 (read?_given henvironment hmem henv)
    | none =>
      cases hfileLeaf : leaf.given file with
      | some value => exact Option.isSome_iff_exists.1 (read?_given hfile hmem hfileLeaf)
      | none => exact ⟨builtIn, (read?_toJson {} leaf hmem).trans hbuiltIn⟩
  obtain ⟨settings, hsettings, hleaves⟩ := settings?_of_reads hreads
  refine ⟨settings, hsettings, fun leaf hmem => ?_⟩
  rw [← hleaf leaf hmem]
  exact hleaves leaf hmem

end ScriptedChat.Settings
