import ScriptedChat.Proofs.Binary64.Decimal
import ScriptedChat.Proofs.Settings.Kinds
import ScriptedChat.Proofs.Text.Blank
import ScriptedChat.Settings.File

/-!
# Texts in the environment

The environment does not know which settings are texts.  It takes every value for
a truth value or a number if it can be one, and a setting that is a text gets that
written out again.  So a text is kept as it is if it can be neither, or if it is
written as it would be written out; otherwise it comes back in another spelling.

* `Means`, `guess_eq_iff` — what a text is taken for;
* `Kept`, `kept_iff` — the texts that come back as they are;
* `kept_of_letter` — most names do;
* `TextSetting`, `SetsOnly` — a setting that is a text, and a text for it alone;
* `settings?_of_only`, `load_text` — what comes of such a text;
* `version_respelled` — a name that comes back in another spelling.
-/

namespace ScriptedChat.Settings

open Binary64 (DecimalText IsMark SignedDigits marks)

/-! ## What a text is taken for -/

/-- The word for a truth value. -/
def flagWord (b : Bool) : String :=
  if b then "true" else "false"

/-- A text that is the word for a truth value, in any case of letters. -/
def FlagText (text : String) (b : Bool) : Prop :=
  lowerCase text = flagWord b

/-- A text that denotes a whole number of 64 bits. -/
def WordText (text : String) (n : Int) : Prop :=
  SignedDigits text.toList n ∧ Text.minInt64 ≤ n ∧ n ≤ Text.maxInt64

/-- What a text is taken for: a truth value, or else a whole number of 64 bits, or else a
floating-point number, or else itself. -/
inductive Means (text : String) : Json → Prop where
  | flag {b : Bool} (word : FlagText text b) : Means text (.bool b)
  | whole {n : Int} (no_flag : ∀ b, ¬ FlagText text b) (number : WordText text n) :
    Means text (.int n)
  | decimal {x : Binary64} (no_flag : ∀ b, ¬ FlagText text b) (no_word : ∀ n, ¬ WordText text n)
    (decimal : DecimalText text.toList x) : Means text (.num (.real x))
  | text (no_flag : ∀ b, ¬ FlagText text b) (no_decimal : ∀ x, ¬ DecimalText text.toList x) :
    Means text (.str text)

theorem flagText_iff {text : String} {b : Bool} :
    FlagText text b ↔ text.toList.map Char.toLower = (flagWord b).toList := by
  rw [FlagText, lowerCase, ← String.toList_inj, String.toList_ofList]

theorem readInt64?_eq_some_iff {text : String} {n : Int} :
    Text.readInt64? text.toList = some n ↔ WordText text n := by
  rw [Text.readInt64?, Option.filter_eq_some_iff, Binary64.readInt?_eq_some_iff, WordText]
  simp

theorem readInt64?_eq_none_iff {text : String} :
    Text.readInt64? text.toList = none ↔ ∀ n, ¬ WordText text n := by
  simp only [Option.eq_none_iff_forall_ne_some, ne_eq, readInt64?_eq_some_iff]

theorem readDecimal?_eq_none_iff {text : List Char} :
    Binary64.readDecimal? text = none ↔ ∀ x, ¬ DecimalText text x := by
  simp only [Option.eq_none_iff_forall_ne_some, ne_eq, Binary64.readDecimal?_eq_some_iff]

theorem guess_of_flag {text : String} {b : Bool} (h : FlagText text b) : guess text = .bool b := by
  rw [flagText_iff] at h
  cases b with
  | true => exact if_pos h
  | false =>
    simp only [guess, h]
    rfl

/-- A text that is no word for a truth value is a number or itself. -/
theorem guess_of_no_flag {text : String} (h : ∀ b, ¬ FlagText text b) :
    guess text =
      match Text.readInt64? text.toList, Binary64.readDecimal? text.toList with
      | some n, _ => .int n
      | none, some x => .num (.real x)
      | none, none => .str text := by
  have htrue := mt flagText_iff.2 (h true)
  have hfalse := mt flagText_iff.2 (h false)
  exact (if_neg htrue).trans (if_neg hfalse)

theorem means_guess (text : String) : Means text (guess text) := by
  by_cases hflag : ∃ b, FlagText text b
  · obtain ⟨b, hb⟩ := hflag
    rw [guess_of_flag hb]
    exact .flag hb
  · rw [not_exists] at hflag
    rw [guess_of_no_flag hflag]
    split
    · rename_i hword
      exact .whole hflag (readInt64?_eq_some_iff.1 hword)
    · rename_i hword hdecimal
      exact .decimal hflag (readInt64?_eq_none_iff.1 hword)
        (Binary64.readDecimal?_eq_some_iff.1 hdecimal)
    · rename_i hdecimal
      exact .text hflag (readDecimal?_eq_none_iff.1 hdecimal)

/-- **What a text is taken for.** -/
theorem guess_eq_iff {text : String} {value : Json} : guess text = value ↔ Means text value := by
  refine ⟨fun h => h ▸ means_guess text, fun h => ?_⟩
  cases h with
  | flag hword => exact guess_of_flag hword
  | whole hflag hnumber => rw [guess_of_no_flag hflag, readInt64?_eq_some_iff.2 hnumber]
  | decimal hflag hword hdecimal =>
    rw [guess_of_no_flag hflag, readInt64?_eq_none_iff.2 hword,
      Binary64.readDecimal?_eq_some_iff.2 hdecimal]
  | text hflag hdecimal =>
    have hword : ∀ n, ¬ WordText text n := fun n hn =>
      (Binary64.exists_decimalText hn.1).elim hdecimal
    rw [guess_of_no_flag hflag, readInt64?_eq_none_iff.2 hword,
      readDecimal?_eq_none_iff.2 hdecimal]

/-! ## Texts that come back -/

/-- A text that comes back as it is. -/
inductive Kept (text : String) : Prop where
  /-- the word for a truth value, in lower case -/
  | flag (b : Bool) (word : text = flagWord b)
  /-- a whole number of 64 bits as such numbers are written -/
  | whole (n : Int) (number : WordText text n) (written : text.toList = Text.decimalInt n)
  /-- any other number as floating-point numbers are written -/
  | decimal (x : Binary64) (no_word : ∀ n, ¬ WordText text n) (decimal : DecimalText text.toList x)
    (written : text.toList = Binary64.render realLayout x)
  /-- neither a truth value nor a number -/
  | text (no_flag : ∀ b, ¬ FlagText text b) (no_decimal : ∀ x, ¬ DecimalText text.toList x)

theorem looseText?_bool (b : Bool) : looseText? (.bool b) = some (flagWord b) := by
  cases b with
  | true => rfl
  | false => rfl

theorem flagText_flagWord (b : Bool) : FlagText (flagWord b) b := by
  rw [flagText_iff]
  cases b with
  | true => decide +kernel
  | false => decide +kernel

/-- The words for truth values have letters that no number has. -/
theorem no_flag_of_marks {text : String} (h : ∀ c ∈ text.toList, IsMark c) (b : Bool) :
    ¬ FlagText text b := by
  intro hflag
  rw [flagText_iff] at hflag
  have hletter : ∃ letter ∈ (flagWord b).toList, Text.isDigit letter = false ∧ letter ∉ marks := by
    cases b with
    | true => exact ⟨'u', by decide +kernel⟩
    | false => exact ⟨'l', by decide +kernel⟩
  obtain ⟨letter, hmem, hdigit, hmark⟩ := hletter
  rw [← hflag] at hmem
  obtain ⟨c, hc, rfl⟩ := List.mem_map.1 hmem
  rcases h c hc with hc | hc
  · rw [Binary64.toLower_of_isDigit hc, hc] at hdigit
    cases hdigit
  · exact hmark hc

theorem no_flag_of_decimal {text : String} {x : Binary64} (h : DecimalText text.toList x) :
    ∀ b, ¬ FlagText text b :=
  no_flag_of_marks (Binary64.isMark_of_decimalText h)

theorem no_flag_of_word {text : String} {n : Int} (h : WordText text n) :
    ∀ b, ¬ FlagText text b :=
  no_flag_of_marks (Binary64.isMark_of_signedDigits h.1)

/-- What a text is taken for can be written out. -/
theorem exists_looseText? {text : String} {value : Json} (h : Means text value) :
    ∃ kept, looseText? value = some kept := by
  cases h with
  | @flag b => exact ⟨_, looseText?_bool b⟩
  | whole => exact ⟨_, rfl⟩
  | decimal => exact ⟨_, rfl⟩
  | text => exact ⟨_, rfl⟩

theorem looseText?_guess_of_kept {text : String} (h : Kept text) :
    looseText? (guess text) = some text := by
  cases h with
  | flag b hword =>
    subst hword
    rw [guess_eq_iff.2 (.flag (flagText_flagWord b)), looseText?_bool]
  | whole n hnumber hwritten =>
    rw [guess_eq_iff.2 (.whole (no_flag_of_word hnumber) hnumber)]
    show some (String.ofList _) = _
    rw [← hwritten, String.ofList_toList]
  | decimal x hword hdecimal hwritten =>
    rw [guess_eq_iff.2 (.decimal (no_flag_of_decimal hdecimal) hword hdecimal), looseText?,
      ← hwritten, String.ofList_toList]
  | text hflag hdecimal => rw [guess_eq_iff.2 (.text hflag hdecimal), looseText?]

/-- **The texts that come back as they are.** -/
theorem kept_iff {text kept : String} {value : Json} (h : Means text value)
    (hkept : looseText? value = some kept) : kept = text ↔ Kept text := by
  constructor
  · rintro rfl
    cases h with
    | @flag b =>
      rw [looseText?_bool] at hkept
      exact .flag b (Option.some.inj hkept).symm
    | @whole n _ hnumber =>
      have hwritten : String.ofList (Text.decimalInt n) = kept := Option.some.inj hkept
      exact .whole n hnumber (by rw [← hwritten, String.toList_ofList])
    | @decimal x _ hword hdecimal =>
      have hwritten : String.ofList (Binary64.render realLayout x) = kept := Option.some.inj hkept
      exact .decimal x hword hdecimal (by rw [← hwritten, String.toList_ofList])
    | text hflag hdecimal => exact .text hflag hdecimal
  · -- a text has one meaning, so what comes back is what comes of the guess
    intro hkeeps
    have hself := looseText?_guess_of_kept hkeeps
    rw [guess_eq_iff.2 h, hkept] at hself
    exact Option.some.inj hself

/-- The characters besides digits of all texts that are taken for truth values or numbers, in lower
case. -/
def guessMarks : List Char := "+-.aefilnrstuy".toList

/-- **A text with any other character is kept**, such as the name of a model with a `g` in it. -/
theorem kept_of_letter {text : String} {c : Char} (hmem : c ∈ text.toList)
    (hdigit : Text.isDigit c = false) (hc : c.toLower ∉ guessMarks) : Kept text := by
  refine .text (fun b hflag => ?_) fun x hdecimal => ?_
  · have hword : (flagWord b).toList.all guessMarks.contains = true := by
      cases b with
      | true => decide +kernel
      | false => decide +kernel
    have hletter : c.toLower ∈ (flagWord b).toList := by
      rw [← flagText_iff.1 hflag]
      exact List.mem_map_of_mem hmem
    exact hc (List.contains_iff_mem.1 (List.all_eq_true.1 hword _ hletter))
  · have hmarks : marks.all guessMarks.contains = true := by decide
    rcases Binary64.isMark_of_decimalText hdecimal c hmem with h | h
    · rw [h] at hdigit
      cases hdigit
    · exact hc (List.contains_iff_mem.1 (List.all_eq_true.1 hmarks _ h))

/-! ## Blanks -/

theorem isBlankText_of_marks {text : List Char} (hne : text ≠ []) (h : ∀ c ∈ text, IsMark c) :
    isBlankText (String.ofList text) = false := by
  rw [isBlankText, String.toList_ofList, Text.trim_of_bare (Binary64.bare_of_isMark h)]
  simpa using hne

/-- What comes back for a text that is not blank is not blank. -/
theorem isBlankText_of_means {text kept : String} {value : Json} (h : Means text value)
    (hkept : looseText? value = some kept) (hblank : isBlankText text = false) :
    isBlankText kept = false := by
  cases h with
  | @flag b =>
    rw [looseText?_bool] at hkept
    cases hkept
    cases b with
    | true => decide +kernel
    | false => decide +kernel
  | @whole n =>
    cases hkept
    have hdigits := Binary64.signedDigits_decimalInt n
    exact isBlankText_of_marks (Binary64.ne_nil_of_signedDigits hdigits)
      (Binary64.isMark_of_signedDigits hdigits)
  | @decimal x =>
    cases hkept
    exact isBlankText_of_marks (Binary64.render_ne_nil _ x) (Binary64.isMark_of_render _ x)
  | text =>
    cases hkept
    exact hblank

/-! ## A setting that is a text -/

/-- The settings that are texts and always have one. -/
inductive TextSetting where
  | host
  | completionModel
  | messageModel
  deriving DecidableEq, Repr

namespace TextSetting

/-- The variable for the setting. -/
def variableName : TextSetting → String
  | .host => "LLM_API_SIM_SERVER__HOST"
  | .completionModel => "LLM_API_SIM_OPENAI__DEFAULT_MODEL"
  | .messageModel => "LLM_API_SIM_ANTHROPIC__DEFAULT_MODEL"

/-- The key of the setting in a layer. -/
def key : TextSetting → String
  | .host => "server.host"
  | .completionModel => "openai.default_model"
  | .messageModel => "anthropic.default_model"

/-- The leaf of the setting. -/
def leaf : TextSetting → Leaf
  | .host => ⟨"server", "host", .text⟩
  | .completionModel => ⟨"openai", "default_model", .text⟩
  | .messageModel => ⟨"anthropic", "default_model", .text⟩

/-- The built-in settings but for a text of this setting. -/
def put : TextSetting → String → Settings
  | .host, text => { server := { host := text } }
  | .completionModel, text => { completion := { defaultModel := text } }
  | .messageModel, text => { message := { defaultModel := text } }

variable (setting : TextSetting)

theorem key?_variableName : key? setting.variableName = some setting.key := by
  cases setting with
  | host => decide +kernel
  | completionModel => decide +kernel
  | messageModel => decide +kernel

theorem pathOf_key : pathOf setting.key = [.field setting.leaf.table, .field setting.leaf.name] := by
  cases setting with
  | host => decide +kernel
  | completionModel => decide +kernel
  | messageModel => decide +kernel

theorem leaf_mem : setting.leaf ∈ leaves := by
  cases setting with
  | host => simp [leaf, leaves]
  | completionModel => simp [leaf, leaves]
  | messageModel => simp [leaf, leaves]

theorem leaf_kind : setting.leaf.kind = .text := by
  cases setting with
  | host => rfl
  | completionModel => rfl
  | messageModel => rfl

/-- The leaves of the settings with a text: the text, and else what is built in. -/
theorem of?_put (text : String) :
    ∀ other ∈ leaves, other.of? (setting.put text).toJson =
      if setting.leaf.table = other.table ∧ setting.leaf.name = other.name then some (.str text)
      else other.of? ({} : Settings).toJson := by
  have hbuiltIn := map_of?_toJson {}
  have hput := map_of?_toJson (setting.put text)
  simp only [leaves, List.map_cons, List.map_nil, List.cons.injEq, and_true] at hbuiltIn hput
  simp only [leaves, List.forall_mem_cons, hbuiltIn, hput]
  cases setting with
  | host => simp [leaf, put]
  | completionModel => simp [leaf, put]
  | messageModel => simp [leaf, put]

/-- Settings with a text that is not blank are usable. -/
theorem check_put {text : String} (hblank : isBlankText text = false) :
    check (setting.put text) = .ok (setting.put text) := by
  have hcompletion : isBlankText ({} : CompletionSettings).defaultModel = false := by decide +kernel
  have hmessage : isBlankText ({} : MessageSettings).defaultModel = false := by decide +kernel
  have hproblem : (setting.put text).problem? = none := by
    cases setting with
    | host => simp [put, problem?, hcompletion, hmessage]
    | completionModel => simp [put, problem?, hblank, hmessage]
    | messageModel => simp [put, problem?, hblank, hcompletion]
  rw [check, hproblem]

end TextSetting

/-- An environment that says something about no setting but this one. -/
def SetsOnly (setting : TextSetting) (text : String) (environment : List (String × String)) : Prop :=
  environment.filter (fun entry => (key? entry.1).isSome) = [(setting.variableName, text)]

variable {setting : TextSetting} {text kept : String} {environment : List (String × String)}

theorem environmentLayer_of_only (honly : SetsOnly setting text environment) :
    environmentLayer environment = [(setting.key, guess text)] := by
  have hfilter : environmentLayer environment =
      environmentLayer (environment.filter fun entry => (key? entry.1).isSome) := by
    rw [environmentLayer, environmentLayer, List.filterMap_filter]
    refine List.filterMap_congr fun (name, value) _ => ?_
    dsimp only
    cases key? name with
    | none => rfl
    | some key => rfl
  rw [hfilter, honly, environmentLayer]
  simp [setting.key?_variableName]

/-- **The settings with a text from the environment**: the built-in ones but for what is made of the
text. -/
theorem settings?_of_only (honly : SetsOnly setting text environment)
    (hkept : looseText? (guess text) = some kept) :
    looseSource.settings? (tree [] environment) = some (setting.put kept) := by
  have hlayer := environmentLayer_of_only honly
  have hvalue : ∀ fields, guess text ≠ .obj fields := by
    intro fields heq
    rw [heq] at hkept
    cases hkept
  have halone := alone_of_path setting.pathOf_key hvalue
  have hread : setting.leaf.kind.read? (guess text) = some (.str kept) := by
    rw [setting.leaf_kind]
    exact congrArg (Option.map Json.str) hkept
  have htyped : ∀ entry ∈ environmentLayer environment, Typed (alone entry) := by
    rw [hlayer, List.forall_mem_singleton, halone]
    exact typed_single setting.leaf_mem (by rw [hread]; rfl)
  -- the layer names one leaf, and all others are read as they are built in
  have hput : Effective (fun leaf => (leaf.given (environmentLayer environment)).or (leaf.given []))
      (setting.put kept) := by
    intro other hother
    have hsaid : (other.given (environmentLayer environment)).or (other.given []) =
        other.of? (.obj [(setting.leaf.table, .obj [(setting.leaf.name, guess text)])]) := by
      rw [hlayer, ← halone]
      exact Option.or_none
    rw [setting.of?_put kept other hother]
    dsimp only
    rw [hsaid, of?_single]
    split
    · rename_i hnames
      rw [← kind_of_names _ setting.leaf_mem other hother hnames.1 hnames.2]
      exact hread
    · exact read?_toJson {} other hother
  obtain ⟨settings, hsettings, heffective⟩ := @settings?_tree [] environment nofun htyped
  rw [hsettings, eq_of_effective heffective hput]

/-- **A text setting in the environment.**  Loading succeeds with the built-in settings but for this
one, which is what the text is taken for, written out again.  That is the text itself exactly if the
text is one that is kept. -/
theorem load_text (fileText : String → Option String) (honly : SetsOnly setting text environment)
    (hblank : isBlankText text = false) :
    ∃ value kept, Means text value ∧ looseText? value = some kept ∧
      load fileText none environment = .ok (setting.put kept) ∧ (kept = text ↔ Kept text) := by
  have hmeans := means_guess text
  obtain ⟨kept, hkept⟩ := exists_looseText? hmeans
  refine ⟨guess text, kept, hmeans, hkept, ?_, kept_iff hmeans hkept⟩
  show layered [] environment = _
  rw [layered, settings?_of_only honly hkept]
  exact setting.check_put (isBlankText_of_means hmeans hkept hblank)

theorem load_text_version :
    SetsOnly .completionModel "gpt-4.10"
        [("PATH", "/bin"), ("LLM_API_SIM_OPENAI__DEFAULT_MODEL", "gpt-4.10")] ∧
      load (fun _ => none) none
          [("PATH", "/bin"), ("LLM_API_SIM_OPENAI__DEFAULT_MODEL", "gpt-4.10")] =
        .ok (TextSetting.completionModel.put "gpt-4.10") := by
  have honly : SetsOnly .completionModel "gpt-4.10"
      [("PATH", "/bin"), ("LLM_API_SIM_OPENAI__DEFAULT_MODEL", "gpt-4.10")] := by
    unfold SetsOnly
    decide +kernel
  obtain ⟨value, kept, -, -, hload, hkept⟩ := load_text (fun _ => none) honly (by decide +kernel)
  have hletter : Kept "gpt-4.10" := kept_of_letter (c := 'g') (by decide +kernel) rfl (by decide)
  rw [hkept.2 hletter] at hload
  exact ⟨honly, hload⟩

/-- A version is taken for a number, and loses its last zero. -/
theorem version_respelled :
    SetsOnly .completionModel "4.10" [("LLM_API_SIM_OPENAI__DEFAULT_MODEL", "4.10")] ∧
      isBlankText "4.10" = false ∧
      load (fun _ => none) none [("LLM_API_SIM_OPENAI__DEFAULT_MODEL", "4.10")] =
        .ok (TextSetting.completionModel.put "4.1") ∧
      TextSetting.completionModel.put "4.1" ≠ TextSetting.completionModel.put "4.10" := by
  refine ⟨?_, by decide +kernel, by decide +kernel, by decide +kernel⟩
  unfold SetsOnly
  decide +kernel

end ScriptedChat.Settings
