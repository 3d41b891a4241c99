import ScriptedChat.Proofs.Filler.Length
import ScriptedChat.Proofs.Script.WellFormed
import ScriptedChat.Proofs.Text.Search
import ScriptedChat.Proofs.Transcript.Session

/-!
# Turns without a script

A transcript has no script if no message of the user has one between sentinels.
Then the newest message of the user decides: it may be an instruction as a whole,
and else its text alone gives the length of filler text.

* `NewestText`, `exists_newestText` — the text of the newest message of the user,
  which is empty if there is no such message or it has no text;
* `latestUser?_of_newest` — the search from the end finds that message;
* `Whole`, `bare_head_iff` — a text that is an instruction as a whole;
* `Triggered`, `reasoningFor_eq` — a text with the trigger of the reasoning;
* `isCountable_eq`, `select?_cases` — the turns that can be computed;
* `select_without_script` — the turn of every transcript without a script.
-/

namespace ScriptedChat

open Transcript (hasRole text? scopeOf script? position? latestUser?)

/-! ## The newest message of the user -/

/-- The place and the text of the newest message of the user. -/
inductive NewestText : List Json → Nat → String → Prop
  | nobody {messages : List Json} (others : ∀ message ∈ messages, hasRole "user" message = false) :
    NewestText messages 0 ""
  | user {before after : List Json} {message : Json} (author : hasRole "user" message = true)
    (newest : ∀ later ∈ after, hasRole "user" later = false) :
    NewestText (before ++ message :: after) before.length ((text? message).getD "")

/-- Every transcript has such a text. -/
theorem exists_newestText (messages : List Json) : ∃ index text, NewestText messages index text := by
  induction messages using List.reverseRecOn with
  | nil => exact ⟨0, "", .nobody fun _ hmem => absurd hmem List.not_mem_nil⟩
  | append_singleton messages message ih =>
    cases huser : hasRole "user" message with
    | true =>
      exact ⟨_, _, .user huser fun _ hmem => absurd hmem List.not_mem_nil⟩
    | false =>
      have hlast (rest : List Json) (h : ∀ later ∈ rest, hasRole "user" later = false) :
          ∀ later ∈ rest ++ [message], hasRole "user" later = false := by
        intro later hmem
        rcases List.mem_append.1 hmem with hmem | hmem
        · exact h later hmem
        · exact List.mem_singleton.1 hmem ▸ huser
      obtain ⟨index, text, hnewest⟩ := ih
      cases hnewest with
      | nobody others => exact ⟨0, "", .nobody (hlast messages others)⟩
      | user author newest =>
        rw [List.append_assoc, List.cons_append]
        exact ⟨_, _, .user author (hlast _ newest)⟩

/-- The search from the end passes over messages of others. -/
theorem find?_of_others {messages : List Json}
    (h : ∀ message ∈ messages, hasRole "user" message = false) (start : Nat) :
    (messages.zipIdx start).reverse.find? (fun (message, _) => hasRole "user" message) = none := by
  refine List.find?_eq_none.2 fun (message, index) hmem => ?_
  have huser := h message (List.fst_mem_of_mem_zipIdx (List.mem_reverse.1 hmem))
  simp [huser]

theorem latestUser?_of_others {messages : List Json}
    (h : ∀ message ∈ messages, hasRole "user" message = false) : latestUser? messages = none := by
  rw [latestUser?, find?_of_others h 0]
  rfl

theorem latestUser?_of_newest {before after : List Json} {message : Json}
    (author : hasRole "user" message = true)
    (newest : ∀ later ∈ after, hasRole "user" later = false) :
    latestUser? (before ++ message :: after) =
      (text? message).map fun text => (before.length, text) := by
  have hfind : (before ++ message :: after).zipIdx.reverse.find?
      (fun (message, _) => hasRole "user" message) = some (message, before.length) := by
    rw [List.zipIdx_append, List.zipIdx_cons, List.reverse_append, List.reverse_cons,
      List.find?_append, List.find?_append, find?_of_others newest, Nat.zero_add]
    simp [author]
  rw [latestUser?, hfind]
  show ((text? message).bind fun text => some (before.length, text)) = _
  cases text? message <;> rfl

/-! ## Texts -/

theorem single?_empty (scope : String) : Script.single? scope "" = none := rfl

/-- An empty text has no script, so it does not count where it stands. -/
theorem ofText_empty (fallback : FallbackSettings) (index other : Nat) :
    Turn.ofText fallback index "" = Turn.ofText fallback other "" := by
  rw [Turn.ofText, Turn.ofText, single?_empty, single?_empty]

/-- Without a script the newest text of the user is answered. -/
theorem select_of_newest {messages : List Json} {index : Nat} {text : String}
    (hnone : position? messages = none) (h : NewestText messages index text)
    (fallback : FallbackSettings) :
    Turn.select fallback messages = Turn.ofText fallback index text := by
  rw [Turn.select, hnone]
  cases h with
  | nobody others => rw [latestUser?_of_others others]; rfl
  | @user before after message author newest =>
    rw [latestUser?_of_newest author newest]
    cases text? message with
    | some text => rfl
    -- a message without a text is answered as if there were none, at place zero
    | none => exact ofText_empty fallback 0 before.length

/-- No message of a transcript has a script. -/
def Scriptless (messages : List Json) : Prop :=
  ∀ message index, (message, index) ∈ messages.zipIdx → script? index message = none

theorem position?_of_scriptless {messages : List Json} (h : Scriptless messages) :
    position? messages = none := by
  have hanchor : Transcript.anchor? messages = none := by
    refine List.findSome?_eq_none_iff.2 fun (message, index) hmem => ?_
    show (script? index message).map _ = none
    rw [h message index (List.mem_reverse.1 hmem)]
    rfl
  rw [position?, hanchor]
  rfl

/-- The newest text of a transcript without a script has none. -/
theorem plans?_of_scriptless {messages : List Json} {index : Nat} {text : String}
    (hscriptless : Scriptless messages) (h : NewestText messages index text) :
    Script.plans? (scopeOf index) text = none := by
  cases h with
  | nobody others => rfl
  | @user before after message author newest =>
    have hmem : (message, before.length) ∈ (before ++ message :: after).zipIdx :=
      List.mk_mem_zipIdx_iff_getElem?.2 (by simp)
    have hscript := hscriptless message before.length hmem
    rw [script?, if_pos author] at hscript
    cases htext : text? message with
    | some text => rw [htext] at hscript; exact hscript
    | none => rfl

/-! ## Instructions as a whole -/

/-- A text that is an object as a whole, of which the given plan is the first one. -/
def Whole (scope text : String) (plan : Plan) : Prop :=
  (Text.trim text.toList).head? = some '\x7b' ∧
    ∃ fields plans, Script.document? (Text.trim text.toList) = some (.obj fields) ∧
      Instruction.plans? scope (.obj fields) = some (plan :: plans)

theorem bare_head_iff (scope text : String) (plan : Plan) :
    (Script.bare? scope text).bind List.head? = some plan ↔ Whole scope text plan := by
  rw [Script.bare?_eq, Script.bareDocument?]
  constructor
  · intro h
    obtain ⟨plans, hplans, hhead⟩ := Option.bind_eq_some_iff.1 h
    obtain ⟨document, hdocument, hread⟩ := Option.bind_eq_some_iff.1 hplans
    obtain ⟨rest, rfl⟩ := List.head?_eq_some_iff.1 hhead
    split at hdocument
    · rename_i hopen
      cases document with
      | obj fields => exact ⟨hopen, fields, rest, hdocument, hread⟩
      | _ => exact absurd hread nofun
    · exact absurd hdocument nofun
  · rintro ⟨hopen, fields, plans, hdocument, hread⟩
    rw [if_pos hopen, hdocument, Option.bind_some, hread]
    rfl

/-- **A text without sentinels is an instruction as a whole, or none.** -/
theorem single?_of_plans? {scope text : String} (h : Script.plans? scope text = none) (plan : Plan) :
    Script.single? scope text = some plan ↔ Whole scope text plan := by
  rw [Script.single?, h]
  exact bare_head_iff scope text plan

/-! ## Reasoning -/

/-- The trigger of the reasoning is set, is not empty, and stands in the text. -/
def Triggered (fallback : FallbackSettings) (text : String) : Prop :=
  ∃ trigger, fallback.reasoningTrigger = some trigger ∧ trigger ≠ "" ∧
    trigger.toList <:+: text.toList

theorem reasoningFor_eq (fallback : FallbackSettings) (text : String) :
    (Triggered fallback text →
        Turn.reasoningFor fallback text = some fallback.reasoningWords.toNat) ∧
      (¬ Triggered fallback text → Turn.reasoningFor fallback text = none) := by
  have hoccurs (trigger : String) : Text.occurs trigger.toList text.toList = true ↔
      trigger.toList <:+: text.toList := by
    rw [Text.occurs, Option.isSome_iff_ne_none, ne_eq, Text.cutAt?_eq_none, not_not]
  rw [Turn.reasoningFor]
  constructor
  · rintro ⟨trigger, htrigger, hne, hinfix⟩
    simp [htrigger, hne, (hoccurs trigger).2 hinfix]
  · intro hnot
    split
    · rename_i trigger htrigger
      refine if_neg fun hboth => hnot ?_
      rw [Bool.and_eq_true, decide_eq_true_eq, hoccurs] at hboth
      exact ⟨trigger, htrigger, hboth⟩
    · rfl

/-! ## Turns that can be computed -/

/-- **The lengths of a range can be counted exactly if the length of every text can be computed**, or
of any. -/
theorem isCountable_eq (fallback : FallbackSettings) (text : String) :
    Turn.isCountable fallback =
      (checkedLength? text fallback.minWords fallback.maxWords).isSome := by
  rw [Turn.isCountable, Bool.eq_iff_iff, Bool.or_eq_true, decide_eq_true_eq,
    Option.isSome_iff_ne_none, Option.isSome_iff_ne_none, ne_eq, ne_eq,
    checkedLength?_eq_none_iff text]
  rcases UInt64.le_total fallback.minWords fallback.maxWords with hrange | hrange
  · rw [span?_eq_none_iff hrange]
    refine ⟨?_, .inr⟩
    rintro (hle | hcount)
    · rw [isWhole_iff hrange]
      have hmax : fallback.maxWords.toNat ≤ fallback.minWords.toNat := UInt64.le_iff_toNat_le.1 hle
      rw [Nat.sub_eq_zero_of_le hmax]
      decide
    · exact hcount
  · refine ⟨?_, fun _ => .inl hrange⟩
    rintro - ⟨hmin, hmax⟩
    rw [hmin, hmax] at hrange
    exact absurd hrange (by decide)

/-- **A turn is computed unless it is filler text between bounds that are too far apart.** -/
theorem select?_cases (fallback : FallbackSettings) (messages : List Json) :
    ((Turn.select fallback messages).origin = .filler ∧
        IsWhole fallback.minWords fallback.maxWords ∧ Turn.select? fallback messages = none) ∨
      (¬ ((Turn.select fallback messages).origin = .filler ∧
          IsWhole fallback.minWords fallback.maxWords) ∧
        Turn.select? fallback messages = some (Turn.select fallback messages)) := by
  have hcount : Turn.isCountable fallback = true ↔
      ¬ IsWhole fallback.minWords fallback.maxWords := by
    rw [isCountable_eq fallback "", Option.isSome_iff_ne_none, ne_eq, checkedLength?_eq_none_iff]
  rw [Turn.select?]
  by_cases horigin : (Turn.select fallback messages).origin = .filler
  · by_cases hwhole : IsWhole fallback.minWords fallback.maxWords
    · have hnot : Turn.isCountable fallback = false := Bool.eq_false_iff.2 fun h => hcount.1 h hwhole
      exact .inl ⟨horigin, hwhole, by simp [horigin, hnot]⟩
    · exact .inr ⟨fun hboth => hwhole hboth.2, by simp [hcount.2 hwhole]⟩
  · exact .inr ⟨fun hboth => horigin hboth.1, by simp [horigin]⟩

/-- The range of lengths in settings that can be used. -/
theorem range_of_settings {settings : Settings} (h : settings.problem? = none) :
    0 < settings.fallback.minWords ∧ settings.fallback.minWords ≤ settings.fallback.maxWords := by
  simp only [Settings.problem?] at h
  split at h
  · exact absurd h nofun
  split at h
  · exact absurd h nofun
  split at h
  · exact absurd h nofun
  · rename_i hrange
    rw [Bool.or_eq_true, decide_eq_true_eq, decide_eq_true_eq, not_or] at hrange
    exact ⟨UInt64.pos_iff_ne_zero.2 hrange.1, UInt64.not_lt.1 hrange.2⟩

/-- With settings that can be used every turn is computed. -/
theorem select?_of_settings {settings : Settings} (h : settings.problem? = none)
    (messages : List Json) :
    Turn.select? settings.fallback messages = some (Turn.select settings.fallback messages) := by
  obtain ⟨-, hwhole, -⟩ | ⟨-, hselect⟩ := select?_cases settings.fallback messages
  · exact absurd hwhole (not_isWhole (range_of_settings h).1)
  · exact hselect

/-! ## The turn -/

/-- **Turns without a script.**  If no message of the user has a script, the newest text of the user
has none between sentinels either.  If it is an object as a whole that has plans, the first of them is
the turn, with identifiers that begin with the place of the message.  Else the turn is one text of
filler words; their number is in the range of the settings and depends on the text alone, and there
is reasoning exactly if the trigger stands in the text. -/
theorem select_without_script {settings : Settings} (hsettings : settings.problem? = none)
    {messages : List Json} (hscriptless : Scriptless messages) :
    (∃ index text, NewestText messages index text) ∧
    ∀ index text, NewestText messages index text →
      Script.plans? (scopeOf index) text = none ∧
      (∀ plan, Whole (scopeOf index) text plan →
        Turn.select settings.fallback messages = { plan, origin := .single, cursor := none }) ∧
      ((¬ ∃ plan, Whole (scopeOf index) text plan) → ∃ words reasoning,
        Turn.select settings.fallback messages =
            { plan := { label := "filler", reasoning, steps := [.filler words] }
              origin := .filler
              cursor := none } ∧
          words = (stableLength text settings.fallback.minWords settings.fallback.maxWords).toNat ∧
          settings.fallback.minWords.toNat ≤ words ∧ words ≤ settings.fallback.maxWords.toNat ∧
          (Triggered settings.fallback text →
            reasoning = some settings.fallback.reasoningWords.toNat) ∧
          (¬ Triggered settings.fallback text → reasoning = none)) := by
  refine ⟨exists_newestText messages, fun index text hnewest => ?_⟩
  have hselect := select_of_newest (position?_of_scriptless hscriptless) hnewest settings.fallback
  have hplans := plans?_of_scriptless hscriptless hnewest
  refine ⟨hplans, ?_, ?_⟩
  · intro plan hwhole
    rw [hselect, Turn.ofText, (single?_of_plans? hplans plan).2 hwhole]
  · intro hnone
    have hsingle : Script.single? (scopeOf index) text = none :=
      Option.eq_none_iff_forall_ne_some.2 fun plan hplan =>
        hnone ⟨plan, (single?_of_plans? hplans plan).1 hplan⟩
    obtain ⟨hmin, hrange⟩ := range_of_settings hsettings
    obtain ⟨hlow, hhigh⟩ := stableLength_mem text hmin hrange
    obtain ⟨htriggered, hother⟩ := reasoningFor_eq settings.fallback text
    refine ⟨_, _, ?_, rfl, hlow, hhigh, htriggered, hother⟩
    rw [hselect, Turn.ofText, hsingle]
    rfl

/-- A message of the user. -/
def userMessage (text : String) : Json :=
  .obj [("content", .str text), ("role", .str "user")]

/-- A text that is an instruction as a whole. -/
def wholeText : String :=
  " \x7b\"messages\":[\x7b\"text\":\"hello\"\x7d]\x7d"

/-- Settings with a trigger of the reasoning. -/
def thoughtful : Settings :=
  { fallback := { reasoningTrigger := some "think" } }

theorem select_without_script_thoughtful :
    (∃ plan, Turn.select thoughtful.fallback [userMessage wholeText] =
        { plan, origin := .single, cursor := none }) ∧
      ∃ words, Turn.select thoughtful.fallback [userMessage wholeText, userMessage "Please think."] =
          { plan := { label := "filler", reasoning := some 12, steps := [.filler words] }
            origin := .filler
            cursor := none } ∧
        8 ≤ words ∧ words ≤ 40 := by
  have hscriptless (messages : List Json)
      (h : messages.zipIdx.all (fun (message, index) => (script? index message).isNone) = true) :
      Scriptless messages :=
    fun message index hmem => Option.isNone_iff_eq_none.1 (List.all_eq_true.1 h _ hmem)
  constructor
  · have hnewest : NewestText [userMessage wholeText] 0 wholeText :=
      @NewestText.user [] [] (userMessage wholeText) (by decide) nofun
    obtain ⟨-, hturn⟩ := @select_without_script thoughtful rfl [userMessage wholeText]
      (hscriptless _ (by decide +kernel))
    obtain ⟨hplans, hwhole, -⟩ := hturn 0 wholeText hnewest
    have hsingle : (Script.single? (scopeOf 0) wholeText).isSome = true := by decide +kernel
    obtain ⟨plan, hplan⟩ := Option.isSome_iff_exists.1 hsingle
    exact ⟨plan, hwhole plan ((single?_of_plans? hplans plan).1 hplan)⟩
  · have hnewest : NewestText [userMessage wholeText, userMessage "Please think."] 1
        "Please think." :=
      @NewestText.user [userMessage wholeText] [] (userMessage "Please think.") (by decide) nofun
    obtain ⟨-, hturn⟩ := @select_without_script thoughtful rfl
      [userMessage wholeText, userMessage "Please think."] (hscriptless _ (by decide +kernel))
    obtain ⟨-, -, hfiller⟩ := hturn 1 "Please think." hnewest
    have hnot : ¬ ∃ plan, Whole (scopeOf 1) "Please think." plan := by
      rintro ⟨plan, hopen, -⟩
      exact absurd hopen (by decide +kernel)
    obtain ⟨words, reasoning, hselect, -, hlow, hhigh, htriggered, -⟩ := hfiller hnot
    have htrigger : Triggered thoughtful.fallback "Please think." :=
      ⟨"think", rfl, by decide, ⟨"Please ".toList, ".".toList, by decide⟩⟩
    obtain rfl := htriggered htrigger
    exact ⟨words, hselect, hlow, hhigh⟩

end ScriptedChat
