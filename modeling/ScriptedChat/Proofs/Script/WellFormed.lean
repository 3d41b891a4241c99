import Mathlib.Data.List.Forall2
import ScriptedChat.Proofs.Binary64.Decimal
import ScriptedChat.Proofs.Identifier
import ScriptedChat.Proofs.Script.Site

/-!
# The plans of a script are well formed

A script is untrusted JSON: counts may be negative, huge, fractions or text,
names and identifiers may be empty or absent, records may be written as arrays.
Whatever it is, a plan that is read from it has what the answers rely on.

* `Plan.WellFormed` — a name, something to show, counts within bounds, calls that
  have names and identifiers;
* `stepOf?_wellFormed`, `stepsFrom_wellFormed` — a step, and by induction the
  steps of all entries, where the last use before an entry has an identifier;
* `plan?_wellFormed` — a plan, with no more steps than its instruction has entries;
* `plans_of_text_wellFormed` — all plans of a text.
-/

namespace ScriptedChat

/-! ## Well-formed plans -/

/-- A call has a name, and an identifier of the form that clients know. -/
structure ToolCall.WellFormed (call : ToolCall) : Prop where
  named : call.name ≠ ""
  identified : ∃ digits, call.id.toList = "call_".toList ++ digits ∧ digits.length = 24 ∧
    ∀ c ∈ digits, Digest.isHexDigit c = true

/-- What the answers rely on in a step of each kind. -/
def Step.WellFormed : Step → Prop
  | .filler length => length ≤ Instruction.maxWords
  | .toolCalls calls => calls ≠ [] ∧ ∀ call ∈ calls, call.WellFormed
  | .serverToolUse use => use.id ≠ ""
  | .serverToolResult result => result.toolUseId ≠ ""
  | .cited text => ∀ length, text.body = .filler length → length ≤ Instruction.maxWords
  | .literal _ => True
  | .echo _ => True

/-- What the answers rely on in a plan. -/
structure Plan.WellFormed (plan : Plan) : Prop where
  labelled : plan.label ≠ ""
  shown : plan.steps ≠ [] ∨ ∃ words, plan.reasoning = some words ∧ 0 < words
  reasoned : ∀ words, plan.reasoning = some words → words ≤ Instruction.maxWords
  steps : ∀ step ∈ plan.steps, step.WellFormed

/-! ## Numbers have a text -/

theorem Json.numberText_ne_empty (n : Number) : numberText n ≠ "" := by
  rw [numberText, ne_eq, String.ofList_eq_empty_iff]
  cases n with
  | int n => exact Binary64.ne_nil_of_signedDigits (Binary64.signedDigits_decimalInt n)
  | real x => exact Binary64.render_ne_nil realLayout x

namespace Instruction

open Json

/-! ## Steps -/

theorem clampWords_le (n : Int) : clampWords n ≤ maxWords :=
  Nat.min_le_right _ _

theorem wordCount?_le {value : Json} {words : Nat} (h : wordCount? value = some words) :
    words ≤ maxWords := by
  unfold wordCount? at h
  split at h
  · exact Option.some.inj h ▸ clampWords_le _
  · exact Option.some.inj h ▸ clampWords_le _
  · obtain ⟨n, -, rfl⟩ := Option.map_eq_some_iff.1 h
    exact clampWords_le n
  · exact absurd h nofun

theorem nonempty?_ne_empty {given : Option String} {text : String}
    (h : nonempty? given = some text) : text ≠ "" :=
  of_decide_eq_true (Option.filter_eq_some_iff.1 h).2

theorem toolCall?_wellFormed {seed name : String} {position index : Nat} {args : Option Json}
    {call : ToolCall} (h : toolCall? seed position index name args = some call) :
    call.WellFormed := by
  unfold toolCall? at h
  split at h
  · exact absurd h nofun
  · rename_i hname
    obtain rfl := Option.some.inj h
    exact ⟨hname, stableId_shape _ _⟩

theorem toolCalls?_wellFormed {seed : String} {position : Nat}
    {calls : List (String × Option Json)} {step : Step}
    (h : toolCalls? seed position calls = some step) : step.WellFormed := by
  unfold toolCalls? at h
  split at h
  · exact absurd h nofun
  · rename_i hne
    obtain rfl := Option.some.inj h
    refine ⟨fun hnil => hne hnil, fun call hmem => ?_⟩
    obtain ⟨⟨⟨name, args⟩, index⟩, -, hcall⟩ := List.mem_filterMap.1 hmem
    exact toolCall?_wellFormed hcall

theorem serverToolUse?_wellFormed {seed : String} {position : Nat} {value : Json} {step : Step}
    (h : serverToolUse? seed position value = some step) : step.WellFormed := by
  simp only [serverToolUse?, Option.bind_eq_bind, Option.bind_eq_some_iff, Option.pure_def] at h
  obtain ⟨_, -, given, -, _, -, _, -, h⟩ := h
  obtain rfl := Option.some.inj h
  show (nonempty? given).getD _ ≠ ""
  cases hgiven : nonempty? given with
  | none => exact stableId_ne_empty _ _
  | some id => exact nonempty?_ne_empty hgiven

/-- An identifier that is kept, if there is one, is not empty. -/
def Kept (lastUse : Option String) : Prop :=
  ∀ id, lastUse = some id → id ≠ ""

theorem kept_none : Kept none :=
  fun _ h => absurd h nofun

theorem serverToolResult?_wellFormed {seed : String} {lastUse : Option String} {value : Json}
    {step : Step} (hlast : Kept lastUse)
    (h : serverToolResult? seed lastUse value = some step) : step.WellFormed := by
  simp only [serverToolResult?, Option.bind_eq_bind, Option.bind_eq_some_iff, Option.pure_def] at h
  obtain ⟨_, -, given, -, _, -, _, -, _, -, h⟩ := h
  obtain rfl := Option.some.inj h
  show ((nonempty? given).or lastUse).getD _ ≠ ""
  cases hgiven : nonempty? given with
  | some id => exact nonempty?_ne_empty hgiven
  | none =>
    cases hid : lastUse with
    | none => exact stableId_ne_empty _ _
    | some id => exact hlast id hid

theorem citedText?_wellFormed {value : Json} {step : Step} (h : citedText? value = some step) :
    step.WellFormed := by
  simp only [citedText?, Option.bind_eq_bind, Option.bind_eq_some_iff, Option.pure_def] at h
  obtain ⟨_, -, _, -, _, -, _, -, h⟩ := h
  split at h
  · obtain rfl := Option.some.inj h
    intro length hbody
    cases hbody
  · obtain ⟨words, hwords, h⟩ := Option.bind_eq_some_iff.1 h
    obtain rfl := Option.some.inj h
    intro length hbody
    obtain rfl := CitedBody.filler.inj hbody
    exact wordCount?_le hwords
  · cases h

/-- Every kind of entry has a well-formed step or none. -/
theorem stepOf?_wellFormed {seed : String} {position : Nat} {lastUse : Option String}
    {kind : String} {value : Json} {step : Step} (hlast : Kept lastUse)
    (h : stepOf? seed position lastUse kind value = some step) : step.WellFormed := by
  unfold stepOf? at h
  split at h
  case h_1 =>
    obtain ⟨words, hwords, rfl⟩ := Option.map_eq_some_iff.1 h
    obtain ⟨length, -, hcount⟩ := Option.bind_eq_some_iff.1 hwords
    exact wordCount?_le hcount
  case h_3 =>
    obtain ⟨calls, -, hcalls⟩ := Option.bind_eq_some_iff.1 h
    exact toolCalls?_wellFormed hcalls
  case h_9 => exact serverToolUse?_wellFormed h
  case h_10 => exact serverToolResult?_wellFormed hlast h
  case h_11 => exact citedText?_wellFormed h
  case h_12 => exact absurd h nofun
  all_goals
    first
    | obtain ⟨_, -, rfl⟩ := Option.map_eq_some_iff.1 h
      exact trivial
    | obtain rfl := Option.some.inj h
      exact trivial

theorem step?_wellFormed {seed : String} {position : Nat} {lastUse : Option String} {entry : Json}
    {step : Step} (hlast : Kept lastUse) (h : step? seed position lastUse entry = some step) :
    step.WellFormed := by
  unfold step? at h
  split at h
  · exact stepOf?_wellFormed hlast h
  · exact absurd h nofun

/-- A well-formed step passes on an identifier that is not empty. -/
theorem Kept.step {lastUse : Option String} {step : Step} (hlast : Kept lastUse)
    (hstep : step.WellFormed) : Kept (step.serverToolId?.or lastUse) := by
  cases step with
  | serverToolUse use =>
    intro id hid
    obtain rfl := Option.some.inj hid
    exact hstep
  | _ => exact hlast

/-- The steps of the entries, by induction: what an entry leaves behind for the
next ones is an identifier that is not empty. -/
theorem stepsFrom_wellFormed (seed : String) (position : Nat) {lastUse : Option String}
    (hlast : Kept lastUse) (entries : List Json) :
    ∀ step ∈ stepsFrom seed position lastUse entries, step.WellFormed := by
  induction entries generalizing position lastUse with
  | nil => exact fun _ hmem => absurd hmem nofun
  | cons entry entries ih =>
    rw [stepsFrom]
    cases hentry : step? seed position lastUse entry with
    | none => exact ih (position + 1) hlast
    | some first =>
      have hfirst := step?_wellFormed hlast hentry
      intro step hmem
      obtain rfl | hmem := List.mem_cons.1 hmem
      · exact hfirst
      · exact ih (position + 1) (hlast.step hfirst) step hmem

theorem length_stepsFrom_le (seed : String) (position : Nat) (lastUse : Option String)
    (entries : List Json) : (stepsFrom seed position lastUse entries).length ≤ entries.length := by
  induction entries generalizing position lastUse with
  | nil => exact Nat.le_refl 0
  | cons entry entries ih =>
    rw [stepsFrom]
    cases step? seed position lastUse entry with
    | none => exact Nat.le_succ_of_le (ih (position + 1) lastUse)
    | some step => exact Nat.succ_le_succ (ih (position + 1) _)

/-! ## Instructions -/

/-- The entries that stand in an instruction: in its field `messages`, or fourth
in an instruction that is written as an array. -/
def entryList : Json → List Json
  | .obj fields => ((lookup "messages" fields).bind asItems?).getD []
  | .arr items => (items[3]?.bind asItems?).getD []
  | _ => []

theorem withDefault_items {field : Option Json} {entries : List Json}
    (h : Record.withDefault [] asItems? field = some entries) :
    entries = (field.bind asItems?).getD [] := by
  cases field with
  | none => exact (Option.some.inj h).symm
  | some value =>
    have hitems : asItems? value = some entries := h
    rw [Option.bind_some, hitems, Option.getD_some]

theorem optional_reasoning_le {field : Option Json} {words : Nat}
    (h : Record.optional reasoning? field = some (some (some words))) : words ≤ maxWords := by
  unfold Record.optional at h
  split at h
  · exact absurd h nofun
  · exact absurd h nofun
  · obtain ⟨_, hreasoning, heq⟩ := Option.map_eq_some_iff.1 h
    obtain rfl := Option.some.inj heq
    obtain ⟨view, -, hwords⟩ := Option.bind_eq_some_iff.1 hreasoning
    obtain ⟨length, -, hcount⟩ := Option.bind_eq_some_iff.1 (Option.some.inj hwords)
    exact wordCount?_le hcount

/-- What the parts of an instruction are read from. -/
theorem parts?_eq_some {value : Json} {parts : Parts} (h : parts? value = some parts) :
    (∀ words, parts.reasoning = some words → words ≤ maxWords) ∧
      parts.entries = entryList value := by
  simp only [parts?, Option.bind_eq_bind, Option.bind_eq_some_iff, Option.pure_def] at h
  obtain ⟨field, hfield, _, -, _, -, reasoning, hreasoning, entries, hentries, h⟩ := h
  obtain rfl := Option.some.inj h
  constructor
  · intro words hwords
    obtain rfl : reasoning = some (some words) := Option.join_eq_some_iff.1 hwords
    exact optional_reasoning_le hreasoning
  · rw [withDefault_items hentries]
    cases value with
    | obj fields => rw [← Option.some.inj hfield]; rfl
    | arr items =>
      rw [Record.view?] at hfield
      split at hfield
      · rw [← Option.some.inj hfield]; rfl
      · exact absurd hfield nofun
    | _ => exact absurd hfield nofun

theorem Parts.label_ne_empty (parts : Parts) (index : Nat) : parts.label index ≠ "" := by
  unfold Parts.label
  cases hmessage : nonempty? parts.message with
  | some text => exact nonempty?_ne_empty hmessage
  | none =>
    cases hid : parts.id.bind idLabel? with
    | none => simp
    | some text =>
      show text ≠ ""
      obtain ⟨id, -, hlabel⟩ := Option.bind_eq_some_iff.1 hid
      unfold idLabel? at hlabel
      split at hlabel
      · exact nonempty?_ne_empty hlabel
      · exact Option.some.inj hlabel ▸ numberText_ne_empty _
      · exact absurd hlabel nofun

/-- **The plan of an instruction is well formed**, and has no more steps than
the instruction has entries. -/
theorem plan?_wellFormed {scope : String} {index : Nat} {value : Json} {plan : Plan}
    (h : plan? scope index value = some plan) :
    plan.WellFormed ∧ plan.steps.length ≤ (entryList value).length := by
  unfold plan? at h
  obtain ⟨parts, hparts, h⟩ := Option.bind_eq_some_iff.1 h
  obtain ⟨hreasoning, hentries⟩ := parts?_eq_some hparts
  dsimp only at h
  split at h
  · exact absurd h nofun
  · rename_i hshown
    obtain rfl := Option.some.inj h
    refine ⟨⟨parts.label_ne_empty index, ?_, hreasoning, ?_⟩, ?_⟩
    · rw [Bool.and_eq_true, not_and_or, List.isEmpty_iff, decide_eq_true_eq] at hshown
      refine hshown.imp id fun hwords => ?_
      cases hreason : parts.reasoning with
      | none => exact absurd (by rw [hreason]; rfl) hwords
      | some words =>
        refine ⟨words, rfl, Nat.pos_of_ne_zero fun hzero => hwords ?_⟩
        rw [hreason, hzero]
        rfl
    · exact stepsFrom_wellFormed _ _ kept_none _
    · exact hentries ▸ length_stepsFrom_le _ _ _ _

/-! ## Scripts -/

/-- What is kept of a list comes from some of its items, one for one and in order. -/
theorem forall₂_filterMap {α β : Type} (f : α → Option β) (items : List α) :
    ∃ chosen, chosen.Sublist items ∧
      List.Forall₂ (fun result item => f item = some result) (items.filterMap f) chosen := by
  induction items with
  | nil => exact ⟨[], List.Sublist.refl [], .nil⟩
  | cons item items ih =>
    obtain ⟨chosen, hsublist, hresults⟩ := ih
    cases hitem : f item with
    | none =>
      rw [List.filterMap_cons_none hitem]
      exact ⟨chosen, hsublist.cons item, hresults⟩
    | some result =>
      rw [List.filterMap_cons_some hitem]
      exact ⟨item :: chosen, hsublist.cons_cons item, .cons hitem hresults⟩

/-- A plan is well formed, is the plan of an instruction at its position, and has
no more steps than the instruction has entries. -/
structure Fits (scope : String) (plan : Plan) (instruction : Json × Nat) : Prop where
  wellFormed : plan.WellFormed
  parsed : plan? scope instruction.2 instruction.1 = some plan
  bounded : plan.steps.length ≤ (entryList instruction.1).length

/-- There are some plans, no more than instructions, and each fits one of them. -/
structure Fit (scope : String) (instructions : List Json) (plans : List Plan) : Prop where
  nonempty : plans ≠ []
  count : plans.length ≤ instructions.length
  fits : ∃ chosen, chosen.Sublist instructions.zipIdx ∧ List.Forall₂ (Fits scope) plans chosen

/-- The plans of a document fit its instructions. -/
theorem plans?_fit {scope : String} {document : Json} {plans : List Plan}
    (h : plans? scope document = some plans) :
    ∃ instructions, instructions? document = some instructions ∧ Fit scope instructions plans := by
  unfold plans? at h
  obtain ⟨instructions, hinstructions, h⟩ := Option.bind_eq_some_iff.1 h
  refine ⟨instructions, hinstructions, ?_⟩
  split at h
  · cases h
  · rename_i hne
    obtain rfl := Option.some.inj h
    obtain ⟨chosen, hsublist, hplans⟩ :=
      forall₂_filterMap (fun entry => plan? scope entry.2 entry.1) instructions.zipIdx
    refine ⟨hne, ?_, chosen, hsublist, hplans.imp fun plan instruction hplan => ?_⟩
    · calc (plansOf scope instructions).length
        _ ≤ instructions.zipIdx.length := List.length_filterMap_le _ _
        _ = instructions.length := List.length_zipIdx
    · obtain ⟨hwellFormed, hbounded⟩ := plan?_wellFormed hplan
      exact ⟨hwellFormed, hplan, hbounded⟩

/-- The first of the plans fits one of the instructions. -/
theorem Fit.head {scope : String} {instructions : List Json} {plans : List Plan} {plan : Plan}
    (h : Fit scope instructions plans) (hplan : plans.head? = some plan) :
    ∃ instruction ∈ instructions.zipIdx, Fits scope plan instruction := by
  obtain ⟨chosen, hsublist, hfits⟩ := h.fits
  cases hfits with
  | nil => exact absurd hplan nofun
  | cons hfirst _ =>
    obtain rfl := Option.some.inj hplan
    exact ⟨_, hsublist.subset List.mem_cons_self, hfirst⟩

end Instruction

/-! ## Texts -/

namespace Script

open Instruction (instructions? Fit Fits)

/-- The plan that is read from a text as a single one is the first plan of one of its documents. -/
theorem single?_eq_some {scope text : String} {plan : Plan} (h : single? scope text = some plan) :
    ∃ document plans, (blockDocument? text = some document ∨ bareDocument? text = some document) ∧
      Instruction.plans? scope document = some plans ∧ plans.head? = some plan := by
  unfold single? at h
  cases hplans : plans? scope text with
  | some plans =>
    rw [hplans] at h
    rw [plans?_eq] at hplans
    obtain ⟨document, hdocument, hread⟩ := Option.bind_eq_some_iff.1 hplans
    exact ⟨document, plans, .inl hdocument, hread, h⟩
  | none =>
    rw [hplans] at h
    obtain ⟨plans, hbare, hhead⟩ := Option.bind_eq_some_iff.1 h
    rw [bare?_eq] at hbare
    obtain ⟨document, hdocument, hread⟩ := Option.bind_eq_some_iff.1 hbare
    exact ⟨document, plans, .inr hdocument, hread, hhead⟩

/-- **The plans of a text are well formed.**  If a text has a script, it has some plans, no more
than the script has instructions, each from an instruction of its own; and every plan, the one
that is read from a text as a single one too, is well formed and has no more steps than its
instruction has entries. -/
theorem plans_of_text_wellFormed (scope text : String) :
    (∀ plans, plans? scope text = some plans → ∃ document instructions,
      blockDocument? text = some document ∧ instructions? document = some instructions ∧
        Fit scope instructions plans) ∧
    ∀ plan, single? scope text = some plan → ∃ document instructions,
      (blockDocument? text = some document ∨ bareDocument? text = some document) ∧
        instructions? document = some instructions ∧
        ∃ instruction ∈ instructions.zipIdx, Fits scope plan instruction := by
  constructor
  · intro plans h
    rw [plans?_eq] at h
    obtain ⟨document, hdocument, hplans⟩ := Option.bind_eq_some_iff.1 h
    obtain ⟨instructions, hinstructions, hfit⟩ := Instruction.plans?_fit hplans
    exact ⟨document, instructions, hdocument, hinstructions, hfit⟩
  · intro plan h
    obtain ⟨document, plans, hdocument, hplans, hhead⟩ := single?_eq_some h
    obtain ⟨instructions, hinstructions, hfit⟩ := Instruction.plans?_fit hplans
    exact ⟨document, instructions, hdocument, hinstructions, hfit.head hhead⟩

/-- A script whose counts are negative, huge or fractions, with a call that has no name. -/
def unruly : String :=
  "<mock-llm-instructions>\x7b\"reasoning\":[-3],\"messages\":[\x7b\"text_message\":\x7b\"length\":1e9\x7d\x7d," ++
  "\x7b\"tool_call\":[\x7b\"name\":\"\"\x7d,\x7b\"name\":\"ls\"\x7d]\x7d]\x7d</mock-llm-instructions>"

theorem unruly_wellFormed : ∃ plans plan, plans? "0" unruly = some plans ∧
    single? "0" unruly = some plan ∧ plan.WellFormed ∧ plans ≠ [] := by
  have hplans : (plans? "0" unruly).isSome = true := by decide +kernel
  have hsingle : (single? "0" unruly).isSome = true := by decide +kernel
  obtain ⟨plans, hplans⟩ := Option.isSome_iff_exists.1 hplans
  obtain ⟨plan, hsingle⟩ := Option.isSome_iff_exists.1 hsingle
  obtain ⟨_, _, -, -, hfit⟩ := (plans_of_text_wellFormed "0" unruly).1 plans hplans
  obtain ⟨_, _, -, -, _, -, hfits⟩ := (plans_of_text_wellFormed "0" unruly).2 plan hsingle
  exact ⟨plans, plan, hplans, hsingle, hfits.wellFormed, hfit.nonempty⟩

end Script

end ScriptedChat
