import Mathlib.Data.List.Basic
import ScriptedChat.Proofs.Script.Plan
import ScriptedChat.Transcript

/-!
# Where identifiers are made

A plan has the identifiers of its calls, but no longer the places in the script
that they were made from.  This file finds the places, as the script has them.

* `Mention` — a call or a use that an entry asks for;
* `Reads` — the steps of an entry have the identifiers of its mentions;
* `reads_calls`, `reads_uses` — they do, for the client's tools and for the
  provider's tools;
* `flatMap_stepsFrom` — what the steps of entries have is what the entries have;
* `Site` — a mention with its entry, its instruction and its message;
* `Reads.stepsFrom`, `Reads.plan?`, `Reads.written`, `Reads.plans` — the
  identifiers of steps, of a plan, of a text and of a whole transcript are those
  of their sites, one for one and in order.
-/

namespace ScriptedChat

/-- The identifiers of the calls of the client's tools in a step. -/
def Step.callIds (step : Step) : List String :=
  step.calls.map ToolCall.id

/-- The identifiers of the uses of a provider's tools in a step. -/
def Step.useIds (step : Step) : List String :=
  step.serverUses.map ServerToolUse.id

namespace Instruction

open Json

/-! ## Entries -/

/-- A call or a use that an entry asks for. -/
structure Mention where
  /-- its number in the entry, where an entry can ask for several -/
  path : List Nat
  name : String
  /-- the identifier that the entry gives -/
  given : Option String
  deriving DecidableEq, Repr

/-- What the identifier of a mention is made from. -/
def Mention.parts (seed : String) (entry : Nat) (mention : Mention) : List String :=
  seed :: ((entry :: mention.path).map Text.natText ++ [mention.name])

/-- The identifier of a mention: the one that is given, or else one that is made. -/
def Mention.id (mark seed : String) (entry : Nat) (mention : Mention) : String :=
  mention.given.getD (stableId mark (mention.parts seed entry))

/-- The mention of a call with its number, if it has a name. -/
def callMention? (call : (String × Option Json) × Nat) : Option Mention :=
  if call.1.1 = "" then none else some { path := [call.2], name := call.1.1, given := none }

/-- The calls of the client's tools that an entry of some kind asks for. -/
def callMentions (kind : String) (value : Json) : List Mention :=
  if kind = "tool_call" then ((calls? value).getD []).zipIdx.filterMap callMention? else []

/-- The mention of a use of a provider's tool. -/
def useMention? (value : Json) : Option Mention := do
  let field ← Record.view? ["id", "name", "input"] value
  let id ← Record.optional asText? (field "id")
  let name ← Record.required asText? (field "name")
  return { path := [], name, given := nonempty? id }

/-- The use of a provider's tool that an entry of some kind asks for. -/
def useMentions (kind : String) (value : Json) : List Mention :=
  if kind = "server_tool_use" then (useMention? value).toList else []

/-- What an entry asks for. -/
def entryMentions (mentions : String → Json → List Mention) : Json → List Mention
  | .obj [(kind, value)] => mentions kind value
  | _ => []

/-- The step of an entry has the identifiers of its mentions. -/
def Reads (mark : String) (ids : Step → List String) (mentions : String → Json → List Mention) :
    Prop :=
  ∀ (seed : String) (position : Nat) (lastUse : Option String) (kind : String) (value : Json),
    (stepOf? seed position lastUse kind value).elim [] ids =
      (mentions kind value).map (Mention.id mark seed position)

/-! ### The kinds of steps -/

theorem toolCalls?_calls (seed : String) (position : Nat) (calls : List (String × Option Json)) :
    (toolCalls? seed position calls).elim [] Step.calls =
      calls.zipIdx.filterMap fun ((name, args), i) => toolCall? seed position i name args := by
  unfold toolCalls?
  split
  · rename_i hnone
    exact hnone.symm
  · rfl

theorem toolCall?_id (seed : String) (position : Nat) (call : (String × Option Json) × Nat) :
    (toolCall? seed position call.2 call.1.1 call.1.2).map ToolCall.id =
      (callMention? call).map (Mention.id "call_" seed position) := by
  unfold toolCall? callMention?
  split <;> rfl

theorem optional_some (field : Option Json) : ∃ value, Record.optional some field = some value := by
  cases field with
  | none => exact ⟨none, rfl⟩
  | some value => cases value <;> exact ⟨_, rfl⟩

theorem serverToolUse?_id (seed : String) (position : Nat) (value : Json) :
    (serverToolUse? seed position value).elim [] Step.useIds =
      (useMention? value).toList.map (Mention.id serverToolMark seed position) := by
  unfold serverToolUse? useMention?
  cases Record.view? ["id", "name", "input"] value with
  | none => rfl
  | some field =>
    obtain ⟨input, hinput⟩ := optional_some (field "input")
    cases hid : Record.optional asText? (field "id") with
    | none => simp [hid]
    | some id =>
      cases hname : Record.required asText? (field "name") with
      | none => simp [hid, hname]
      | some name =>
        simp only [Option.bind_eq_bind, Option.bind_some, hid, hname, hinput]
        rfl

theorem toolCalls?_eq_some {seed : String} {position : Nat} {calls : List (String × Option Json)}
    {step : Step} (h : toolCalls? seed position calls = some step) :
    ∃ named, step = .toolCalls named := by
  unfold toolCalls? at h
  split at h
  · exact absurd h nofun
  · exact ⟨_, (Option.some.inj h).symm⟩

theorem serverToolUse?_eq_some {seed : String} {position : Nat} {value : Json} {step : Step}
    (h : serverToolUse? seed position value = some step) : ∃ use, step = .serverToolUse use := by
  simp only [serverToolUse?, Option.bind_eq_bind, Option.bind_eq_some_iff, Option.pure_def] at h
  obtain ⟨_, -, _, -, _, -, _, -, h⟩ := h
  exact ⟨_, (Option.some.inj h).symm⟩

theorem serverToolResult?_eq_some {seed : String} {lastUse : Option String} {value : Json}
    {step : Step} (h : serverToolResult? seed lastUse value = some step) :
    ∃ result, step = .serverToolResult result := by
  simp only [serverToolResult?, Option.bind_eq_bind, Option.bind_eq_some_iff, Option.pure_def] at h
  obtain ⟨_, -, _, -, _, -, _, -, _, -, h⟩ := h
  exact ⟨_, (Option.some.inj h).symm⟩

theorem citedText?_eq_some {value : Json} {step : Step} (h : citedText? value = some step) :
    ∃ text, step = .cited text := by
  simp only [citedText?, Option.bind_eq_bind, Option.bind_eq_some_iff, Option.pure_def] at h
  obtain ⟨_, -, _, -, _, -, _, -, h⟩ := h
  split at h
  · exact ⟨_, (Option.some.inj h).symm⟩
  · obtain ⟨_, -, h⟩ := Option.bind_eq_some_iff.1 h
    exact ⟨_, (Option.some.inj h).symm⟩
  · exact absurd h nofun

/-! ### Whole entries -/

/-- Only an entry of calls has calls, and only an entry of a use has one. -/
theorem stepOf?_kind {seed : String} {position : Nat} {lastUse : Option String} {kind : String}
    {value : Json} {step : Step} (h : stepOf? seed position lastUse kind value = some step) :
    (kind ≠ "tool_call" → step.calls = []) ∧ (kind ≠ "server_tool_use" → step.serverUses = []) := by
  unfold stepOf? at h
  split at h
  case h_3 =>
    obtain ⟨calls, -, hcalls⟩ := Option.bind_eq_some_iff.1 h
    obtain ⟨named, rfl⟩ := toolCalls?_eq_some hcalls
    exact ⟨fun hkind => absurd rfl hkind, fun _ => rfl⟩
  case h_9 =>
    obtain ⟨use, rfl⟩ := serverToolUse?_eq_some h
    exact ⟨fun _ => rfl, fun hkind => absurd rfl hkind⟩
  case h_10 =>
    obtain ⟨result, rfl⟩ := serverToolResult?_eq_some h
    exact ⟨fun _ => rfl, fun _ => rfl⟩
  case h_11 =>
    obtain ⟨text, rfl⟩ := citedText?_eq_some h
    exact ⟨fun _ => rfl, fun _ => rfl⟩
  case h_12 => exact absurd h nofun
  all_goals
    first
    | obtain ⟨_, -, rfl⟩ := Option.map_eq_some_iff.1 h
      exact ⟨fun _ => rfl, fun _ => rfl⟩
    | obtain rfl := Option.some.inj h
      exact ⟨fun _ => rfl, fun _ => rfl⟩

theorem reads_calls : Reads "call_" Step.callIds callMentions := by
  intro seed position lastUse kind value
  unfold callMentions
  split
  · rename_i hkind
    subst hkind
    cases hcalls : calls? value with
    | none => simp [stepOf?, hcalls]
    | some calls =>
      have hstep : stepOf? seed position lastUse "tool_call" value =
          toolCalls? seed position calls := by
        rw [stepOf?, hcalls]
        rfl
      have hids : (toolCalls? seed position calls).elim [] Step.callIds =
          ((toolCalls? seed position calls).elim [] Step.calls).map ToolCall.id := by
        cases toolCalls? seed position calls <;> rfl
      rw [hstep, hids, toolCalls?_calls, List.map_filterMap, Option.getD_some, List.map_filterMap]
      exact congrArg (calls.zipIdx.filterMap ·) (funext (toolCall?_id seed position))
  · rename_i hkind
    cases hstep : stepOf? seed position lastUse kind value with
    | none => rfl
    | some step => rw [Option.elim_some, Step.callIds, (stepOf?_kind hstep).1 hkind]; rfl

theorem reads_uses : Reads serverToolMark Step.useIds useMentions := by
  intro seed position lastUse kind value
  unfold useMentions
  split
  · rename_i hkind
    subst hkind
    exact serverToolUse?_id seed position value
  · rename_i hkind
    cases hstep : stepOf? seed position lastUse kind value with
    | none => rfl
    | some step => rw [Option.elim_some, Step.useIds, (stepOf?_kind hstep).2 hkind]; rfl

variable {mark : String} {ids : Step → List String} {mentions : String → Json → List Mention}

theorem Reads.step? (h : Reads mark ids mentions) (seed : String) (position : Nat)
    (lastUse : Option String) (entry : Json) :
    (step? seed position lastUse entry).elim [] ids =
      (entryMentions mentions entry).map (Mention.id mark seed position) := by
  cases entry with
  | obj fields =>
    match fields with
    | [] => rfl
    | [(kind, value)] => exact h seed position lastUse kind value
    | _ :: _ :: _ => rfl
  | _ => rfl

/-- What the steps of entries have, by induction: every entry has its own
position, whatever the entries before it are. -/
theorem flatMap_stepsFrom {α : Type} {f : Step → List α} {g : Json → Nat → List α} {seed : String}
    (h : ∀ position lastUse entry,
      (Instruction.step? seed position lastUse entry).elim [] f = g entry position)
    (position : Nat) (lastUse : Option String) (entries : List Json) :
    (Instruction.stepsFrom seed position lastUse entries).flatMap f =
      (entries.zipIdx position).flatMap fun (entry, i) => g entry i := by
  induction entries generalizing position lastUse with
  | nil => rfl
  | cons entry entries ih =>
    rw [Instruction.stepsFrom, List.zipIdx_cons, List.flatMap_cons]
    change _ = g entry position ++ _
    rw [← h position lastUse entry]
    cases Instruction.step? seed position lastUse entry with
    | none => exact ih (position + 1) lastUse
    | some step => rw [List.flatMap_cons, ih]; rfl

/-- The identifiers of the steps from an entry on. -/
theorem Reads.stepsFrom (h : Reads mark ids mentions) (seed : String) (position : Nat)
    (lastUse : Option String) (entries : List Json) :
    (stepsFrom seed position lastUse entries).flatMap ids =
      (entries.zipIdx position).flatMap fun (entry, i) =>
        (entryMentions mentions entry).map (Mention.id mark seed i) :=
  flatMap_stepsFrom (h.step? seed) position lastUse entries

/-! ## Instructions -/

/-- Where an identifier is made: a mention, its entry, and the instruction and
the message that the entry stands in. -/
structure Site where
  message : Nat
  instruction : Nat
  label : String
  entry : Nat
  mention : Mention
  deriving DecidableEq, Repr

namespace Site

/-- The numbers that lead to a site. -/
def place (site : Site) : Nat × Nat × List Nat :=
  (site.message, site.instruction, site.entry :: site.mention.path)

def seed (site : Site) : String :=
  Instruction.seed (Transcript.scopeOf site.message) site.instruction site.label

/-- What the identifier of a site is made from, if none is given. -/
def parts (site : Site) : List String :=
  site.mention.parts site.seed site.entry

def id (mark : String) (site : Site) : String :=
  site.mention.id mark site.seed site.entry

/-- Whether the identifier is made. -/
def isMade (site : Site) : Bool :=
  site.mention.given.isNone

end Site

/-- The sites of an instruction. -/
def sites (mentions : String → Json → List Mention) (message index : Nat) (value : Json) :
    List Site :=
  (parts? value).elim [] fun parts =>
    parts.entries.zipIdx.flatMap fun (entry, i) =>
      (entryMentions mentions entry).map (Site.mk message index (parts.label index) i)

theorem Reads.plan? (h : Reads mark ids mentions) (message index : Nat) (value : Json) :
    ((plan? (Transcript.scopeOf message) index value).elim [] fun plan => plan.steps.flatMap ids) =
      (sites mentions message index value).map (Site.id mark) := by
  unfold Instruction.plan? sites
  cases parts? value with
  | none => rfl
  | some parts =>
    have hsteps := h.stepsFrom (seed (Transcript.scopeOf message) index (parts.label index)) 0 none
      parts.entries
    rw [Option.elim_some, List.map_flatMap]
    simp only [List.map_map]
    refine Eq.trans ?_ hsteps
    rw [Option.bind_eq_bind, Option.bind_some]
    split
    · rename_i hempty
      rw [Bool.and_eq_true, List.isEmpty_iff] at hempty
      rw [hempty.1]
      rfl
    · rfl

theorem plansOf_instructions (scope : String) (document : Json) :
    plansOf scope ((instructions? document).getD []) = (plans? scope document).getD [] := by
  unfold plans?
  cases instructions? document with
  | none => rfl
  | some instructions =>
    rw [Option.getD_some, Option.bind_eq_bind, Option.bind_some]
    split
    · rename_i hnone
      exact hnone
    · rfl

end Instruction

/-! ## Texts -/

namespace Script

open Instruction (Mention Site)

/-- The document between the sentinels of a text. -/
def blockDocument? (text : String) : Option Json :=
  (block? text.toList).bind document?

/-- The document that a text is as a whole. -/
def bareDocument? (text : String) : Option Json :=
  if (Text.trim text.toList).head? = some '\x7b' then document? (Text.trim text.toList) else none

/-- The document of a text: the one between its sentinels if that has a plan, or
else the text as a whole. -/
def source? (scope text : String) : Option Json :=
  let hasPlan (document : Json) : Bool := (Instruction.plans? scope document).isSome
  ((blockDocument? text).filter hasPlan).or ((bareDocument? text).filter hasPlan)

/-- The instructions of a text. -/
def instructions (scope text : String) : List Json :=
  ((source? scope text).bind Instruction.instructions?).getD []

/-- The plans that are written in a text. -/
def written (scope text : String) : List Plan :=
  Instruction.plansOf scope (instructions scope text)

/-- The sites of a text. -/
def sites (mentions : String → Json → List Mention) (message : Nat) (text : String) : List Site :=
  (instructions (Transcript.scopeOf message) text).zipIdx.flatMap fun (value, index) =>
    Instruction.sites mentions message index value

theorem plans?_eq (scope text : String) :
    plans? scope text = (blockDocument? text).bind (Instruction.plans? scope) := by
  unfold plans? blockDocument?
  cases block? text.toList <;> rfl

theorem bare?_eq (scope text : String) :
    bare? scope text = (bareDocument? text).bind (Instruction.plans? scope) := by
  unfold bare? bareDocument?
  by_cases hopen : (Text.trim text.toList).head? = some '\x7b'
  · simp only [if_pos hopen]
    rfl
  · simp only [if_neg hopen, Option.bind_none]

/-- Two values are tried in turn: what the first one gives, or else what the second one gives. -/
theorem bind_filter_or {α β : Type} (f : α → Option β) (first second : Option α) :
    ((first.filter fun a => (f a).isSome).or (second.filter fun a => (f a).isSome)).bind f =
      (first.bind f).or (second.bind f) := by
  have hfilter (value : Option α) :
      (value.filter fun a => (f a).isSome).bind f = value.bind f := by
    cases value with
    | none => rfl
    | some a => cases ha : f a <;> simp [Option.filter, ha]
  cases first with
  | none => exact hfilter second
  | some a =>
    cases ha : f a with
    | none => simpa [Option.filter, ha] using hfilter second
    | some b => simp [Option.filter, ha]

theorem bind_source? (scope text : String) :
    (source? scope text).bind (Instruction.plans? scope) =
      (plans? scope text).or (bare? scope text) := by
  rw [plans?_eq, bare?_eq]
  exact bind_filter_or _ _ _

/-- **Both readings of a text are among the plans that are written in it**: the
list of plans between the sentinels, and the first plan of the text. -/
theorem readings_sublist_written (scope text : String) :
    ((plans? scope text).getD (single? scope text).toList).Sublist (written scope text) := by
  have hwritten : written scope text = ((plans? scope text).or (bare? scope text)).getD [] := by
    rw [← bind_source?, written, instructions]
    cases source? scope text with
    | none => rfl
    | some document => exact Instruction.plansOf_instructions scope document
  rw [hwritten, single?]
  cases plans? scope text with
  | some plans => exact List.Sublist.refl plans
  | none =>
    cases bare? scope text with
    | none => exact List.Sublist.refl []
    | some plans =>
      cases plans with
      | nil => exact List.Sublist.refl []
      | cons plan plans => exact List.singleton_sublist.2 List.mem_cons_self

end Script

theorem flatMap_filterMap {α β γ : Type} (f : α → Option β) (g : β → List γ) (xs : List α) :
    (xs.filterMap f).flatMap g = xs.flatMap fun x => (f x).elim [] g := by
  induction xs with
  | nil => rfl
  | cons x xs ih =>
    rw [List.filterMap_cons, List.flatMap_cons, ← ih]
    cases f x <;> rfl

variable {mark : String} {ids : Step → List String}
  {mentions : String → Json → List Instruction.Mention}

theorem Instruction.Reads.written (h : Reads mark ids mentions) (message : Nat) (text : String) :
    ((Script.written (Transcript.scopeOf message) text).flatMap fun plan => plan.steps.flatMap ids) =
      (Script.sites mentions message text).map (Site.id mark) := by
  rw [Script.written, plansOf, flatMap_filterMap, Script.sites, List.map_flatMap]
  exact List.flatMap_congr fun _ _ => h.plan? message _ _

/-! ## Transcripts -/

namespace Transcript

open Instruction (Mention Site)

/-- The text of a message that the user wrote. -/
def userText? (message : Json) : Option String :=
  if hasRole "user" message then text? message else none

/-- The plans that are written in the messages of the user. -/
def plans (messages : List Json) : List Plan :=
  messages.zipIdx.flatMap fun (message, index) =>
    (userText? message).elim [] (Script.written (scopeOf index))

/-- The sites of a transcript. -/
def sites (mentions : String → Json → List Mention) (messages : List Json) : List Site :=
  messages.zipIdx.flatMap fun (message, index) =>
    (userText? message).elim [] (Script.sites mentions index)

end Transcript

/-- **The identifiers of a transcript are those of its sites**, in order. -/
theorem Instruction.Reads.plans (h : Reads mark ids mentions) (messages : List Json) :
    ((Transcript.plans messages).flatMap fun plan => plan.steps.flatMap ids) =
      (Transcript.sites mentions messages).map (Site.id mark) := by
  rw [Transcript.plans, Transcript.sites, List.map_flatMap, List.flatMap_assoc]
  refine List.flatMap_congr fun (message, index) _ => ?_
  change ((Transcript.userText? message).elim [] _).flatMap _ =
    ((Transcript.userText? message).elim [] _).map _
  cases Transcript.userText? message with
  | none => rfl
  | some text => exact h.written index text

end ScriptedChat
