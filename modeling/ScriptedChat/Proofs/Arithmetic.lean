import Mathlib.Algebra.Order.Floor.Div
import ScriptedChat.Proofs.Completion.Quotation
import ScriptedChat.Proofs.Filler.Length
import ScriptedChat.Proofs.Production
import ScriptedChat.Proofs.Turn

/-!
# Numbers of 64 bits in an answer

Settings have numbers of 64 bits, and settings that can be used have them as
large as they like.  Two numbers that follow from them can be too great for 64
bits, the size of the fragments of arguments and the sum of all tokens.  Where one
of them is, it is not computed: a stream ends at the place where it is needed, and
a document is missing.  All other numbers of an answer are computed, and all that
are computed are what they should be.

What is proved here:

* `argumentChunk?_cases`, `totalTokens?_cases` — the size of the fragments and the
  sum of all tokens, and when there are none;
* `Completion.length_partsOf`, `Message.length_fragmentsOf` — how many fragments the
  arguments of a tool come in;
* `Numbers`, `numbers_of_settings` — all numbers of an answer, and
  `numbers_overflow` — settings for which two of them are missing.
-/

namespace ScriptedChat

/-! ## Numbers that follow from settings -/

/-- A fragment of a stream has a word at least. -/
theorem words_of_settings {settings : Settings} (h : settings.problem? = none) :
    0 < settings.stream.wordsPerChunk.toNat := by
  simp only [Settings.problem?] at h
  split at h
  · cases h
  · rename_i hwords
    exact UInt64.lt_iff_toNat_lt.1 (UInt64.pos_iff_ne_zero.2 hwords)

theorem argumentChunk_eq {stream : StreamSettings} (h : 0 < stream.wordsPerChunk.toNat) :
    stream.argumentChunk = 4 * stream.wordsPerChunk.toNat := by
  rw [StreamSettings.argumentChunk, Nat.max_eq_left h]

/-- A number that is computed exactly if it fits, and is right if it is computed. -/
theorem exact_of_cases {number : Option UInt64} {value : Nat}
    (h : (value < UInt64.size ∧ ∃ n, number = some n ∧ n.toNat = value) ∨
      (UInt64.size ≤ value ∧ number = none)) :
    (∀ n, number = some n → n.toNat = value) ∧ (number ≠ none ↔ value < UInt64.size) := by
  obtain ⟨hfits, n, rfl, hvalue⟩ | ⟨hgreat, rfl⟩ := h
  · refine ⟨?_, iff_of_true (Option.some_ne_none n) hfits⟩
    rintro _ ⟨⟩
    exact hvalue
  · exact ⟨nofun, iff_of_false (fun hnone => hnone rfl) (Nat.not_lt.2 hgreat)⟩

/-- **The size of the fragments is computed exactly if it fits**, and then it is right. -/
theorem argumentChunk?_cases (stream : StreamSettings) :
    (stream.argumentChunk < UInt64.size ∧
        ∃ n, stream.argumentChunk? = some n ∧ n.toNat = stream.argumentChunk) ∨
      (UInt64.size ≤ stream.argumentChunk ∧ stream.argumentChunk? = none) := by
  have hcases := product?_cases (max stream.wordsPerChunk 1) 4
  rw [UInt64.toNat_max, Nat.mul_comm] at hcases
  exact hcases

/-- **The sum of all tokens is computed exactly if it fits**, and then it is right. -/
theorem totalTokens?_cases (usage : UsageSettings) :
    (usage.totalTokens < UInt64.size ∧
        ∃ n, usage.totalTokens? = some n ∧ n.toNat = usage.totalTokens) ∨
      (UInt64.size ≤ usage.totalTokens ∧ usage.totalTokens? = none) :=
  sum?_cases usage.inputTokens usage.outputTokens

/-! ## How many fragments there are -/

/-- A call comes in one part with its name and as many fragments as its arguments need. -/
theorem Completion.length_partsOf {plan : Plan} {number : Nat} {call : ToolCall}
    (h : plan.calls[number]? = some call) (stream : StreamSettings) (stamp : Stamp) :
    (partsOf number ((chunks stream plan stamp).map (Chunk.toJson stamp))).length =
      call.arguments.length ⌈/⌉ stream.argumentChunk + 1 := by
  rw [partsOf_chunks h, wholeCall, List.length_cons, List.length_map, Text.length_charFragments,
    Nat.max_eq_left stream.argumentChunk_pos]

namespace Message

theorem deltas_of_arguments {block : Block} {arguments : String}
    (h : block.arguments? = some arguments) (stream : StreamSettings) :
    block.deltas stream = inputDeltas stream arguments := by
  cases block with
  | toolUse id name _ =>
    cases h
    rfl
  | serverToolUse use =>
    cases h
    rfl
  | _ => cases h

/-- Where there are no arguments, there is a fragment without text. -/
theorem length_fragmentsOf {plan : Plan} {number : Nat} {block : Block} {arguments : String}
    (h : (blocks plan)[number]? = some block) (harguments : block.arguments? = some arguments)
    (stream : StreamSettings) (stamp : Stamp) :
    (fragmentsOf number ((events stream plan).map (Event.payload plan stamp))).length =
      max (arguments.length ⌈/⌉ stream.argumentChunk) 1 := by
  obtain ⟨first, more, hdeltas, -, hlength⟩ := exists_inputDeltas stream arguments
  rw [fragmentsOf_events h ((deltas_of_arguments harguments stream).trans hdeltas), hlength]

end Message

/-! ## All numbers -/

open EventStream (written)

/-- What the numbers in the answers for a plan are. -/
structure Numbers (settings : Settings) (plan : Plan) (stamp : Stamp) : Prop where
  /-- a size of fragments that is computed is four characters a word, and it is computed exactly
  if 64 bits are enough for it -/
  room : ∀ n, settings.stream.argumentChunk? = some n →
    n.toNat = 4 * settings.stream.wordsPerChunk.toNat
  room_exact : settings.stream.argumentChunk? ≠ none ↔
    4 * settings.stream.wordsPerChunk.toNat < UInt64.size
  /-- a call in a stream of chunks: its name, and as many fragments as its arguments need -/
  parts : settings.stream.argumentChunk? ≠ none →
    (stamp.includeUsage = true → stamp.usage.totalTokens? ≠ none) →
    ∀ number call, plan.calls[number]? = some call → ∃ chunks,
      written (Completion.acts settings.stream plan stamp) =
          chunks.map (Frame.ofJson none) ++ [Frame.done] ∧
        (Completion.partsOf number chunks).length =
          call.arguments.length ⌈/⌉ (4 * settings.stream.wordsPerChunk.toNat) + 1
  /-- without a size of fragments a stream of chunks ends at the name of its first call -/
  parts_missing : settings.stream.argumentChunk? = none →
    ∀ call, plan.calls.head? = some call → ∃ chunks : List Json,
      written (Completion.acts settings.stream plan stamp) = chunks.map (Frame.ofJson none) ∧
        chunks.flatMap Completion.callParts = [Completion.firstPart 0 call]
  /-- a use of a tool in a stream of events: as many fragments, or one without text -/
  fragments : settings.stream.argumentChunk? ≠ none →
    ∀ number block arguments, (Message.blocks plan)[number]? = some block →
      block.arguments? = some arguments → ∃ events,
        written (Message.acts settings.stream plan stamp) =
            events.map (fun event => Frame.ofJson (event.getText? "type") event) ∧
          (Message.fragmentsOf number events).length =
            max (arguments.length ⌈/⌉ (4 * settings.stream.wordsPerChunk.toNat)) 1
  /-- without a size of fragments a stream of events ends where its first tool is used -/
  fragments_missing : settings.stream.argumentChunk? = none →
    ∀ block ∈ Message.blocks plan, block.arguments? ≠ none → ∃ events : List Json,
      written (Message.acts settings.stream plan stamp) =
          events.map (fun event => Frame.ofJson (event.getText? "type") event) ∧
        (∀ number, Message.fragmentsOf number events = []) ∧
        ∀ event ∈ events, event.getText? "type" ≠ some "message_stop"
  /-- a sum of all tokens that is computed is their sum, and it is computed exactly if 64 bits are
  enough for it -/
  total : ∀ n, stamp.usage.totalTokens? = some n →
    n.toNat = stamp.usage.inputTokens.toNat + stamp.usage.outputTokens.toNat
  total_exact : stamp.usage.totalTokens? ≠ none ↔
    stamp.usage.inputTokens.toNat + stamp.usage.outputTokens.toNat < UInt64.size
  /-- a document tells the sum -/
  document : stamp.usage.totalTokens? ≠ none → ∃ document usage,
    Completion.document? plan stamp = some document ∧ document.get? "usage" = some usage ∧
      usage.get? "total_tokens" =
        some (.nat (stamp.usage.inputTokens.toNat + stamp.usage.outputTokens.toNat))
  /-- without the sum there is no document, and a stream ends before the usage -/
  document_missing : stamp.usage.totalTokens? = none → Completion.document? plan stamp = none
  usage_missing : settings.stream.argumentChunk? ≠ none → stamp.includeUsage = true →
    stamp.usage.totalTokens? = none → ∃ usage,
      Completion.frames settings.stream plan stamp =
        written (Completion.acts settings.stream plan stamp) ++ [usage, Frame.done]
  span : ∃ n, span? settings.fallback.minWords settings.fallback.maxWords = some n ∧
    n.toNat = settings.fallback.maxWords.toNat - settings.fallback.minWords.toNat + 1
  length : ∀ text, ∃ n,
    checkedLength? text settings.fallback.minWords settings.fallback.maxWords = some n ∧
      n.toNat = settings.fallback.minWords.toNat + (bigEndian ((textDigest text).take 8)).toNat %
        (settings.fallback.maxWords.toNat - settings.fallback.minWords.toNat + 1)
  /-- so a turn is always computed -/
  turn : ∀ messages,
    Turn.select? settings.fallback messages = some (Turn.select settings.fallback messages)
  /-- every citation has its place in the content -/
  places : List.Forall₂ (Completion.Points (Completion.render plan).content)
    (Completion.quotations [] plan.steps)
    ((Completion.render plan).references.map Completion.Reference.toJson)

/-- **The numbers in an answer.**  With settings that can be used, the length of a turn without a
script and the places of citations are always computed, and exact.  The size of the fragments of
arguments and the sum of all tokens are exact if they are computed, and they are computed if and
only if 64 bits are enough for them; then the number of fragments is exact.  Otherwise a stream ends
where the number is needed, and a document is missing. -/
theorem numbers_of_settings {settings : Settings} (h : settings.problem? = none) (plan : Plan)
    (stamp : Stamp) : Numbers settings plan stamp := by
  have hchunk := argumentChunk_eq (words_of_settings h)
  obtain ⟨hroom, hroomExact⟩ := exact_of_cases (argumentChunk?_cases settings.stream)
  obtain ⟨htotal, htotalExact⟩ := exact_of_cases (totalTokens?_cases stamp.usage)
  obtain ⟨hmin, hrange⟩ := range_of_settings h
  have hwhole : ¬ IsWhole settings.fallback.minWords settings.fallback.maxWords := not_isWhole hmin
  rw [hchunk] at hroom hroomExact
  constructor
  · exact hroom
  · exact hroomExact
  · intro hsize hsum number call hcall
    refine ⟨_, (Completion.written_acts hsize hsum).trans (Completion.frames_eq _ _ _), ?_⟩
    rw [Completion.length_partsOf hcall, hchunk]
  · intro hnone call hcall
    exact Completion.written_acts_of_call hnone hcall
  · intro hsize number block arguments hblock harguments
    refine ⟨_, (Message.written_acts hsize).trans (Message.frames_eq _ _ _), ?_⟩
    rw [Message.length_fragmentsOf hblock harguments, hchunk]
  · intro hnone block hmem huse
    exact Message.written_acts_of_use hnone hmem huse
  · exact htotal
  · exact htotalExact
  · intro hsum
    obtain ⟨total, hsum⟩ := Option.ne_none_iff_exists'.1 hsum
    refine ⟨Completion.document plan stamp, Completion.usageJson stamp.usage, ?_, ?_, ?_⟩
    · rw [Completion.document?, hsum]
      rfl
    · simp [Completion.document]
    · simp [Completion.usageJson, UsageSettings.totalTokens]
  · intro hnone
    rw [Completion.document?, hnone]
    rfl
  · intro hsize hinclude hnone
    exact ⟨_, Completion.written_acts_of_usage hsize hinclude hnone⟩
  · exact ⟨_, span?_eq_some hrange hwhole, toNat_lengthSpan hmin hrange⟩
  · intro text
    exact ⟨_, checkedLength?_eq_some text hrange hwhole, toNat_stableLength text hmin hrange⟩
  · exact select?_of_settings h
  · exact Completion.points_segments [] plan.steps rfl

/-- A plan with one call. -/
def oneCall : Plan :=
  { label := "plan", reasoning := none
    steps := [.toolCalls [{ id := "call_1", name := "open", arguments := "abc" }]] }

theorem numbers_of_defaults :
    ({} : Settings).problem? = none ∧ Numbers {} oneCall default := by
  have hsettings : ({} : Settings).problem? = none := by decide +kernel
  exact ⟨hsettings, numbers_of_settings hsettings oneCall default⟩

/-- Settings with so many words in a fragment, and so many tokens, that four characters a word and
the sum of the tokens are too great. -/
def greatest : Settings :=
  { stream := { wordsPerChunk := 0x4000000000000000 }
    usage := { inputTokens := 0xFFFFFFFFFFFFFFFF, outputTokens := 1 } }

/-- Settings that can be used have no fragments of four characters a word: three characters would be
one, but a stream ends after the name, with its second frame.  Nor do they have the sum of all
tokens, or a document that tells it. -/
theorem numbers_overflow :
    greatest.problem? = none ∧
      greatest.stream.argumentChunk? = none ∧
      "abc".length ⌈/⌉ (4 * greatest.stream.wordsPerChunk.toNat) = 1 ∧
      (∀ stamp, written (Completion.acts greatest.stream oneCall stamp) =
        [(Completion.Chunk.delta .role).frame stamp,
          (Completion.Chunk.delta (.toolCall 0 "call_1" "open")).frame stamp]) ∧
      greatest.usage.totalTokens? = none ∧
      ∀ stamp, stamp.usage = greatest.usage → Completion.document? oneCall stamp = none := by
  refine ⟨by decide +kernel, by decide, by decide, fun _ => rfl, by decide, ?_⟩
  intro stamp husage
  rw [Completion.document?, husage]
  rfl

end ScriptedChat
