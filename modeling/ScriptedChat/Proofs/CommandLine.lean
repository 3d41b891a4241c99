import ScriptedChat.CommandLine
import ScriptedChat.Proofs.Settings.Kinds

/-!
# Settings on the command line

The program serves with settings from four layers: the command line, the
environment, a file and what is built in.  Each setting is what the first of them
that says something says.  But the settings below the command line have to be
usable on their own, so a value that the command line replaces can still keep the
program from serving.

* `Overrides.given`, `effective_apply` — the command line as a layer;
* `configLayer?` — the layer of a file;
* `run_serve` — when the program serves, and with which settings;
* `replaced_value_refused` — a value that is replaced and nevertheless refused.
-/

namespace ScriptedChat.CommandLine

open Settings

/-! ## The command line as a layer -/

/-- What the command line says about a leaf. -/
def Overrides.given (overrides : Overrides) (leaf : Leaf) : Option Json :=
  match leaf.table, leaf.name with
  | "server", "host" => overrides.host.map .str
  | "server", "port" => overrides.port.map fun port => .nat port.toNat
  | "emitter", "words_per_chunk" => overrides.wordsPerChunk.map numberJson
  | "emitter", "chunk_delay_ms" => overrides.chunkDelay.map numberJson
  | "openai", "default_model" => overrides.completionModel.map .str
  | "anthropic", "default_model" => overrides.messageModel.map .str
  | _, _ => none

theorem elim_map {α : Type} (write : α → Json) (read : Json → Option Json)
    (h : ∀ x, read (write x) = some (write x)) (value : Option α) (default : α) :
    (value.map write).elim (some (write default)) read = some (write (value.getD default)) := by
  cases value with
  | none => rfl
  | some x => exact h x

/-- A leaf after the command line: what that says, or else what it was before. -/
theorem of?_apply (overrides : Overrides) (settings : Settings) :
    ∀ leaf ∈ leaves, leaf.of? (overrides.apply settings).toJson =
      (overrides.given leaf).elim (leaf.of? settings.toJson) leaf.kind.read? := by
  have hbefore := map_of?_toJson settings
  have hafter := map_of?_toJson (overrides.apply settings)
  simp only [leaves, List.map_cons, List.map_nil, List.cons.injEq, and_true] at hbefore hafter
  have htext := elim_map Json.str Kind.text.read? fun _ => rfl
  have hport := elim_map (fun port : UInt16 => Json.nat port.toNat) Kind.port.read? fun port => by
    simp [Kind.read?]
  have hword := elim_map numberJson Kind.word.read? fun word => by simp [Kind.read?]
  simp only [leaves, List.forall_mem_cons, hbefore, hafter]
  simp [Overrides.given, Overrides.apply, htext, hport, hword]

/-- **The command line comes before all that is said otherwise.** -/
theorem effective_apply {said : Leaf → Option Json} {settings : Settings}
    (h : Effective said settings) (overrides : Overrides) :
    Effective (fun leaf => (overrides.given leaf).or (said leaf)) (overrides.apply settings) := by
  intro leaf hmem
  rw [of?_apply overrides settings leaf hmem]
  show (((overrides.given leaf).or (said leaf)).or _).bind _ = _
  cases overrides.given leaf with
  | none => exact h leaf hmem
  | some value => rfl

/-! ## Serving -/

/-- The layer of the file that the command line names, if any. -/
def configLayer? (fileText : String → Option String) : Option String → Option (List (String × Json))
  | none => some []
  | some path => (locate? fileText path).bind fun (text, format) => fileLayer? format text

theorem load_of_layer {fileText : String → Option String} {config : Option String}
    {file : List (String × Json)} (h : configLayer? fileText config = some file)
    (environment : List (String × String)) :
    load fileText config environment = layered file environment := by
  cases config with
  | none =>
    cases h
    rfl
  | some path =>
    rw [configLayer?] at h
    rw [load, h]

/-- **When the program serves, and with which settings.**  Let all values be of their kinds.  The
settings in effect are, leaf by leaf, what the command line says, else the environment, else the
file, else what is built in.  The program serves with exactly these settings if they are usable and
those without the command line are, too; otherwise it says what makes them unusable. -/
theorem run_serve {fileText : String → Option String} {config : Option String}
    {file : List (String × Json)} {environment : List (String × String)}
    (hconfig : configLayer? fileText config = some file)
    (hfile : ∀ entry ∈ file, Typed (alone entry))
    (henvironment : ∀ entry ∈ environmentLayer environment, Typed (alone entry))
    (overrides : Overrides) :
    ∃ below effective,
      Effective (fun leaf => (leaf.given (environmentLayer environment)).or (leaf.given file))
        below ∧
      Effective (fun leaf => (overrides.given leaf).or
        ((leaf.given (environmentLayer environment)).or (leaf.given file))) effective ∧
      (∀ settings,
        Command.run fileText environment (.serve config overrides) = .serve settings ↔
          below.problem? = none ∧ effective.problem? = none ∧ settings = effective) ∧
      (∀ problem, below.problem? = some problem →
        Command.run fileText environment (.serve config overrides) =
          .failure (.settings problem)) ∧
      (∀ problem, below.problem? = none → effective.problem? = some problem →
        Command.run fileText environment (.serve config overrides) =
          .failure (.settings problem)) := by
  obtain ⟨below, hbelow, hleaves⟩ := settings?_tree hfile henvironment
  refine ⟨below, overrides.apply below, hleaves, effective_apply hleaves overrides, ?_⟩
  have hload : load fileText config environment = check below := by
    rw [load_of_layer hconfig, layered, hbelow]
  rw [Command.run, hload, serveSettings]
  cases hproblem : below.problem? with
  | some problem => simp [check, hproblem, bind, Except.bind]
  | none =>
    cases hover : (overrides.apply below).problem? with
    | some problem => simp [check, hproblem, hover, bind, Except.bind]
    | none => simp [check, hproblem, hover, bind, Except.bind, eq_comm]

/-! ## A value that is replaced -/

/-- An environment that says how many words a fragment has. -/
def wordsVariable (words : String) : List (String × String) :=
  [("LLM_API_SIM_EMITTER__WORDS_PER_CHUNK", words)]

theorem alone_words (value : Json) (hvalue : ∀ fields, value ≠ .obj fields) :
    alone ("emitter.words_per_chunk", value) =
      .obj [("emitter", .obj [("words_per_chunk", value)])] :=
  alone_of_path (by decide +kernel) hvalue

theorem environmentLayer_words (words : String) :
    environmentLayer (wordsVariable words) = [("emitter.words_per_chunk", guess words)] := by
  have hkey : key? "LLM_API_SIM_EMITTER__WORDS_PER_CHUNK" = some "emitter.words_per_chunk" := by
    decide +kernel
  simp [environmentLayer, wordsVariable, hkey]

/-- A number of 64 bits is of the right kind. -/
theorem typed_words {words : String} {n : UInt64} (h : guess words = numberJson n) :
    ∀ entry ∈ environmentLayer (wordsVariable words), Typed (alone entry) := by
  rw [environmentLayer_words, h, List.forall_mem_singleton,
    alone_words (numberJson n) fun fields heq => Json.noConfusion heq]
  exact @typed_single ⟨"emitter", "words_per_chunk", .word⟩ (by simp [leaves]) (numberJson n)
    (by simp [Kind.read?])

theorem run_serve_words :
    Effective (fun leaf => (({ host := some "::1" } : Overrides).given leaf).or
        ((leaf.given (environmentLayer (wordsVariable "5"))).or (leaf.given [])))
      { server := { host := "::1" }, stream := { wordsPerChunk := 5 } } ∧
    Command.run (fun _ => none) (wordsVariable "5") (.serve none { host := some "::1" }) =
      .serve { server := { host := "::1" }, stream := { wordsPerChunk := 5 } } := by
  have htyped := @typed_words "5" 5 rfl
  have hserves : Command.run (fun _ => none) (wordsVariable "5") (.serve none { host := some "::1" }) =
      .serve { server := { host := "::1" }, stream := { wordsPerChunk := 5 } } := by decide +kernel
  obtain ⟨below, effective, -, heffective, hrun, -⟩ :=
    @run_serve (fun _ => none) none [] (wordsVariable "5") rfl nofun htyped { host := some "::1" }
  obtain ⟨-, -, rfl⟩ := (hrun _).1 hserves
  exact ⟨heffective, hserves⟩

/-- No words in a fragment are refused, although the command line says three, and the settings in
effect are the built-in ones. -/
theorem replaced_value_refused :
    (∀ entry ∈ environmentLayer (wordsVariable "0"), Typed (alone entry)) ∧
      Effective (fun leaf => (({ wordsPerChunk := some 3 } : Overrides).given leaf).or
        ((leaf.given (environmentLayer (wordsVariable "0"))).or (leaf.given []))) {} ∧
      ({} : Settings).problem? = none ∧
      Command.run (fun _ => none) (wordsVariable "0") (.serve none { wordsPerChunk := some 3 }) =
        .failure (.settings "emitter.words_per_chunk must be at least 1") := by
  have htyped := @typed_words "0" 0 rfl
  refine ⟨htyped, ?_, by decide +kernel, by decide +kernel⟩
  have hread : looseSource.settings? (tree [] (wordsVariable "0")) =
      some { stream := { wordsPerChunk := 0 } } := by decide +kernel
  obtain ⟨below, hbelow, hleaves⟩ := @settings?_tree [] (wordsVariable "0") nofun htyped
  obtain rfl := Option.some.inj (hread.symm.trans hbelow)
  exact effective_apply hleaves { wordsPerChunk := some 3 }

end ScriptedChat.CommandLine
