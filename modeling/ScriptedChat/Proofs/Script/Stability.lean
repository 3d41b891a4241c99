import ScriptedChat.Proofs.Json.Fields
import ScriptedChat.Proofs.Script.Entries

/-!
# A script is stable under changes

Two scripts that differ in one entry have the same plans elsewhere, and two
instructions that differ in one entry the same steps.  Names and identifiers are
made from the places of the entries as they are written, so nothing moves when
an entry stops or begins to count; and only the last use of a provider's tool
goes from one entry to later ones.

* `Chain`, `plans?_getD` — documents with a list of instructions;
* `hasPlan` — whether an instruction has a plan is told by the instruction alone;
* `entries?`, `withEntries`, `parts?_withEntries` — an instruction with other
  entries;
* `Repaired`, `repaired_stepsFrom` — what another last use does to later steps;
* `Replaced`, `replaced_stepsFrom` — what another entry does to all steps;
* `scripts_locally_stable` — all of it, for scripts and for instructions.
-/

namespace ScriptedChat.Instruction

open Json

/-! ## Lists of instructions -/

/-- A document with a list of instructions, whatever else it has. -/
def Chain (document : Json) (instructions : List Json) : Prop :=
  document.get? "instruction_chain" = some (.arr instructions)

theorem instructions?_of_chain {document : Json} {instructions : List Json}
    (h : Chain document instructions) : instructions? document = some instructions := by
  cases document with
  | obj fields =>
    have hlookup : lookup "instruction_chain" fields = some (.arr instructions) := h
    rw [instructions?, asFields?, Option.bind_eq_bind, Option.bind_some, hlookup]
  | _ => exact absurd h nofun

/-- The plans of a list of instructions, if there is one. -/
theorem plans?_of_chain {document : Json} {instructions : List Json}
    (h : Chain document instructions) (scope : String) :
    plans? scope document =
      if plansOf scope instructions = [] then none else some (plansOf scope instructions) := by
  rw [plans?, instructions?_of_chain h, Option.bind_eq_bind, Option.bind_some]
  cases plansOf scope instructions <;> rfl

theorem plans?_getD {document : Json} {instructions : List Json} (h : Chain document instructions)
    (scope : String) : (plans? scope document).getD [] = plansOf scope instructions := by
  rw [plans?_of_chain h]
  split
  · rename_i hnil
    exact hnil.symm
  · rfl

/-! ## Instructions that have a plan -/

/-- Whether an instruction has a plan.  It does not count where it stands (`isSome_plan?`). -/
def hasPlan (instruction : Json) : Bool :=
  (plan? "" 0 instruction).isSome

theorem isSome_plan? (scope : String) (index : Nat) (instruction : Json) :
    (plan? scope index instruction).isSome = hasPlan instruction := by
  rw [hasPlan, Bool.eq_iff_iff, Option.isSome_iff_ne_none, Option.isSome_iff_ne_none, ne_eq, ne_eq]
  cases hparts : parts? instruction with
  | none => rw [plan?, plan?, hparts, Option.bind_eq_bind, Option.bind_none, Option.bind_none]
  | some parts => rw [plan?_eq_none_iff hparts, plan?_eq_none_iff hparts]

theorem plan?_eq_none {instruction : Json} (h : hasPlan instruction = false) (scope : String)
    (index : Nat) : plan? scope index instruction = none := by
  rw [← isSome_plan? scope index] at h
  exact Option.not_isSome_iff_eq_none.1 (Bool.eq_false_iff.1 h)

/-! ## Instructions with other entries -/

/-- The entries of an instruction that has a list of them. -/
def entries? : Json → Option (List Json)
  | .obj fields => (lookup "messages" fields).bind asItems?
  | .arr items => items[3]?.bind asItems?
  | _ => none

/-- An instruction with other entries. -/
def withEntries (entries : List Json) : Json → Json
  | .obj fields => .obj (insertField "messages" (.arr entries) fields)
  | .arr items => .arr (items.set 3 (.arr entries))
  | other => other

theorem asItems?_eq_some {value : Json} {items : List Json} (h : asItems? value = some items) :
    value = .arr items := by
  cases value with
  | arr other => exact congrArg _ (Option.some.inj h)
  | _ => exact absurd h nofun

theorem entryList_eq (instruction : Json) :
    entryList instruction = (entries? instruction).getD [] := by
  cases instruction <;> rfl

/-- The names of the fields of an instruction, in the order of an array. -/
def fieldNames : List String :=
  ["id", "id_message", "reasoning", "messages"]

/-- Instructions that differ in their entries only have parts that differ in their entries only. -/
theorem parts?_of_view {value changed : Json} {field other : String → Option Json}
    {entries others : List Json} (hvalue : Record.view? fieldNames value = some field)
    (hchanged : Record.view? fieldNames changed = some other)
    (hentries : field "messages" = some (.arr entries))
    (hothers : other "messages" = some (.arr others))
    (hsame : ∀ name ∈ ["id", "id_message", "reasoning"], other name = field name) :
    parts? changed = (parts? value).map fun parts => { parts with entries := others } := by
  have hid : other "id" = field "id" := hsame _ (by decide)
  have hmessage : other "id_message" = field "id_message" := hsame _ (by decide)
  have hreasoning : other "reasoning" = field "reasoning" := hsame _ (by decide)
  have hitems (items : List Json) :
      Record.withDefault [] asItems? (some (.arr items)) = some items := rfl
  rw [fieldNames] at hvalue hchanged
  simp only [parts?, hvalue, hchanged, hid, hmessage, hreasoning, hentries, hothers, hitems,
    Option.bind_eq_bind, Option.bind_some, Option.map_bind, Option.pure_def, Function.comp_def,
    Option.map_some]

/-- Other entries are all that changes in the parts of an instruction. -/
theorem parts?_withEntries {instruction : Json} {entries : List Json}
    (h : entries? instruction = some entries) (others : List Json) :
    parts? (withEntries others instruction) =
      (parts? instruction).map fun parts => { parts with entries := others } := by
  cases instruction with
  | obj fields =>
    obtain ⟨value, hvalue, hitems⟩ := Option.bind_eq_some_iff.1 h
    obtain rfl := asItems?_eq_some hitems
    refine parts?_of_view rfl rfl hvalue ?_ ?_
    · exact (lookup_insertField "messages" "messages" _ fields).trans (if_pos rfl)
    · intro name hmem
      have hne : "messages" ≠ name := by
        rintro rfl
        exact absurd hmem (by decide)
      exact (lookup_insertField name "messages" _ fields).trans (if_neg hne)
  | arr items =>
    obtain ⟨value, hvalue, hitems⟩ := Option.bind_eq_some_iff.1 h
    obtain rfl := asItems?_eq_some hitems
    by_cases hlength : items.length ≤ fieldNames.length
    · have hchanged : (items.set 3 (.arr others)).length ≤ fieldNames.length := by
        rwa [List.length_set]
      refine parts?_of_view (if_pos hlength) (if_pos hchanged) hvalue ?_ ?_
      · exact List.getElem?_set_self (List.getElem?_eq_some_iff.1 hvalue).1
      · intro name hmem
        have hindex : ∀ name ∈ ["id", "id_message", "reasoning"], 3 ≠ fieldNames.idxOf name := by
          decide
        exact List.getElem?_set_ne (hindex name hmem)
    · have hnone (items : List Json) (hlong : ¬ items.length ≤ fieldNames.length) :
          parts? (.arr items) = none := by
        have hview : Record.view? fieldNames (.arr items) = none := if_neg hlong
        rw [fieldNames] at hview
        rw [parts?, hview]
        rfl
      rw [withEntries, hnone _ hlength, hnone _ (by rwa [List.length_set])]
      rfl
  | _ => simp [entries?] at h

/-! ## Other last uses -/

/-- The steps of entries, and their steps after another last use: they are the same, except for the
uses of results whose entries name none. -/
inductive Repaired : List Json → List Step → List Step → Prop
  | nil : Repaired [] [] []
  | skip {entry : Json} {entries : List Json} {steps others : List Step} :
      hasStep entry = false → Repaired entries steps others →
        Repaired (entry :: entries) steps others
  | same {entry : Json} {entries : List Json} {steps others : List Step} (step : Step) :
      hasStep entry = true → Repaired entries steps others →
        Repaired (entry :: entries) (step :: steps) (step :: others)
  | pair {value : Json} {entries : List Json} {steps others : List Step}
      (result : ServerToolResult) (use : String) :
      (¬ ∃ id, CarriesId value id) → Repaired entries steps others →
        Repaired (resultEntry value :: entries) (.serverToolResult result :: steps)
          (.serverToolResult { result with toolUseId := use } :: others)

/-- What another last use does to a result. -/
theorem Repaired.result {value : Json} {result : Unpaired} (hresult : unpaired? value = some result)
    {entries : List Json} {steps others : List Step} (hstep : hasStep (resultEntry value) = true)
    (h : Repaired entries steps others) (seed : String) (lastUse other : Option String) :
    Repaired (resultEntry value :: entries)
      (.serverToolResult (result.pair seed lastUse) :: steps)
      (.serverToolResult (result.pair seed other) :: others) := by
  by_cases hgiven : ∃ id, CarriesId value id
  · -- an entry that names its use is deaf to the last one
    obtain ⟨id, hid⟩ := hgiven
    have hsame : result.pair seed lastUse = result.pair seed other := by
      rw [Unpaired.pair, Unpaired.pair, ((unpaired?_eq_some hresult).2 id).2 hid]
      rfl
    rw [hsame]
    exact .same _ hstep h
  · exact .pair (result.pair seed lastUse) (result.pair seed other).toolUseId hgiven h

/-- What another last use does to the step of one entry. -/
theorem Repaired.step {entry : Json} {entries : List Json} {steps others : List Step}
    (hstep : hasStep entry = true) (h : Repaired entries steps others) (seed : String)
    (position : Nat) (lastUse other : Option String) :
    Repaired (entry :: entries) ((step? seed position lastUse entry).toList ++ steps)
      ((step? seed position other entry).toList ++ others) := by
  have hisSome := isSome_step? seed position lastUse entry
  rw [hstep] at hisSome
  obtain ⟨step, hsome⟩ := Option.isSome_iff_exists.1 hisSome
  obtain ⟨kind, value, rfl⟩ : ∃ kind value, entry = .obj [(kind, value)] := by
    unfold step? at hsome
    split at hsome
    · exact ⟨_, _, rfl⟩
    · exact absurd hsome nofun
  by_cases hkind : kind = "server_tool_result"
  · subst hkind
    rw [← resultEntry] at hsome hstep ⊢
    rw [step?_resultEntry] at hsome ⊢
    rw [step?_resultEntry]
    obtain ⟨result, hresult, -⟩ := Option.map_eq_some_iff.1 hsome
    rw [hresult]
    exact h.result hresult hstep seed lastUse other
  · have hsame : step? seed position other (.obj [(kind, value)]) = some step :=
      (stepOf?_lastUse hkind seed position other lastUse value).trans hsome
    rw [hsome, hsame]
    exact .same step hstep h

/-- **Nothing but the last use goes from one entry to later ones**, by induction over them. -/
theorem repaired_stepsFrom (seed : String) (position : Nat) (lastUse other : Option String)
    (entries : List Json) :
    Repaired entries (stepsFrom seed position lastUse entries)
      (stepsFrom seed position other entries) := by
  induction entries generalizing position lastUse other with
  | nil => exact .nil
  | cons entry entries ih =>
    rw [stepsFrom_cons, stepsFrom_cons]
    cases hstep : hasStep entry with
    | false =>
      rw [step?_eq_none hstep, step?_eq_none hstep]
      exact .skip hstep (ih _ _ _)
    | true =>
      exact (ih _ _ _).step hstep seed position lastUse other

/-- Steps of entries before and after one entry has been replaced.  The steps of the entries before
it are the same, and so are those of the entries behind it if no use of a provider's tool comes or
goes. -/
def Replaced (before : List Json) (entry other : Json) (after : List Json)
    (steps changed : List Step) : Prop :=
  ∃ (front : List Step) (own new : Option Step) (back rest : List Step),
    steps = front ++ (own.toList ++ back) ∧ changed = front ++ (new.toList ++ rest) ∧
    front.length = before.countP hasStep ∧
    own.isSome = hasStep entry ∧ new.isSome = hasStep other ∧ Repaired after back rest ∧
    (own.elim [] Step.serverUses = [] → new.elim [] Step.serverUses = [] → back = rest)

theorem replaced_stepsFrom (seed : String) (before : List Json) (entry other : Json)
    (after : List Json) :
    Replaced before entry other after (stepsFrom seed 0 none (before ++ entry :: after))
      (stepsFrom seed 0 none (before ++ other :: after)) := by
  let lastUse := lastUse? (stepsFrom seed 0 none before)
  let own := step? seed before.length lastUse entry
  let new := step? seed before.length lastUse other
  refine ⟨stepsFrom seed 0 none before, own, new, _, _, stepsFrom_split seed before entry after,
    stepsFrom_split seed before other after, length_stepsFrom seed 0 none before,
    isSome_step? seed before.length lastUse entry, isSome_step? seed before.length lastUse other,
    repaired_stepsFrom seed _ _ _ after, fun hown hnew => ?_⟩
  have hno (step : Option Step) (h : step.elim [] Step.serverUses = []) :
      step.bind Step.serverToolId? = none := by
    cases step with
    | none => rfl
    | some step => exact serverToolId?_eq_none h
  rw [hno own hown, hno new hnew]

/-! ## Instructions with one entry replaced, or with more of them -/

theorem entries_of_parts {instruction : Json} {parts : Parts} {entries : List Json}
    (hparts : parts? instruction = some parts) (h : entries? instruction = some entries) :
    parts.entries = entries := by
  rw [(parts?_eq_some hparts).2, entryList_eq, h, Option.getD_some]

/-- Instructions with the same steps and the same other parts have the same plan. -/
theorem plan?_congr {value changed : Json} {parts others : Parts}
    (hparts : parts? value = some parts) (hothers : parts? changed = some others)
    {scope : String} {index : Nat} (hlabel : others.label index = parts.label index)
    (hreasoning : others.reasoning = parts.reasoning)
    (hsteps : stepsFrom (seed scope index (parts.label index)) 0 none others.entries =
      stepsFrom (seed scope index (parts.label index)) 0 none parts.entries) :
    plan? scope index changed = plan? scope index value := by
  rw [plan?, plan?, hparts, hothers, Option.bind_eq_bind, Option.bind_some, Option.bind_some]
  dsimp only
  rw [hlabel, hreasoning, hsteps]

/-- Plans of one instruction with different entries. -/
def SameHead (plan changed : Option Plan) : Prop :=
  ∀ one, plan = some one → ∀ other, changed = some other →
    other.label = one.label ∧ other.reasoning = one.reasoning

/-- A plan before and after an entry of its instruction has been replaced. -/
structure PlanReplaced (before : List Json) (entry other : Json) (after : List Json)
    (plan changed : Option Plan) : Prop where
  head : SameHead plan changed
  /-- entries that have no step are all the same -/
  inert : hasStep entry = false → hasStep other = false → changed = plan
  steps : plan = none ∧ changed = none ∨
    Replaced before entry other after (plan.elim [] Plan.steps) (changed.elim [] Plan.steps)

/-- A plan before and after entries have been put at the end of its instruction. -/
def Extended (plan longer : Option Plan) : Prop :=
  ∀ one, plan = some one → ∃ other, longer = some other ∧ other.label = one.label ∧
    other.reasoning = one.reasoning ∧ one.steps <+: other.steps

theorem sameHead_withEntries {instruction : Json} {entries : List Json}
    (h : entries? instruction = some entries) (others : List Json) (scope : String) (index : Nat) :
    SameHead (plan? scope index instruction)
      (plan? scope index (withEntries others instruction)) := by
  intro one hone other hother
  obtain ⟨parts, hparts, hlabel, hreasoning, -⟩ := plan?_eq_some hone
  obtain ⟨changed, hchanged, hlabel', hreasoning', -⟩ := plan?_eq_some hother
  rw [parts?_withEntries h, hparts, Option.map_some] at hchanged
  obtain rfl := Option.some.inj hchanged
  exact ⟨hlabel'.trans hlabel.symm, hreasoning'.trans hreasoning.symm⟩

theorem planReplaced {instruction : Json} {before after : List Json} {entry : Json}
    (h : entries? instruction = some (before ++ entry :: after)) (other : Json) (scope : String)
    (index : Nat) :
    PlanReplaced before entry other after (plan? scope index instruction)
      (plan? scope index (withEntries (before ++ other :: after) instruction)) := by
  have hchanged := parts?_withEntries h (before ++ other :: after)
  cases hparts : parts? instruction with
  | none =>
    rw [hparts] at hchanged
    have hnone : plan? scope index instruction = none := by rw [plan?, hparts]; rfl
    have hnone' :
        plan? scope index (withEntries (before ++ other :: after) instruction) = none := by
      rw [plan?, hchanged]; rfl
    rw [hnone, hnone']
    exact ⟨fun one hone => by simp at hone, fun _ _ => rfl, .inl ⟨rfl, rfl⟩⟩
  | some parts =>
    rw [hparts, Option.map_some] at hchanged
    have hreplaced :=
      replaced_stepsFrom (seed scope index (parts.label index)) before entry other after
    rw [← entries_of_parts hparts h] at hreplaced
    refine ⟨sameHead_withEntries h _ scope index, fun hentry hother => ?_, .inr ?_⟩
    · refine plan?_congr hparts hchanged rfl rfl ?_
      rw [entries_of_parts hparts h, stepsFrom_split, stepsFrom_split, step?_eq_none hentry,
        step?_eq_none hother]
    · rw [steps_plan? hparts, steps_plan? hchanged]
      exact hreplaced

theorem extended_withEntries {instruction : Json} {entries : List Json}
    (h : entries? instruction = some entries) (more : List Json) (scope : String) (index : Nat) :
    Extended (plan? scope index instruction)
      (plan? scope index (withEntries (entries ++ more) instruction)) := by
  intro one hone
  obtain ⟨parts, hparts, -, -, -, -⟩ := plan?_eq_some hone
  have hchanged := parts?_withEntries h (entries ++ more)
  rw [hparts, Option.map_some] at hchanged
  have hsteps := steps_plan? hparts scope index
  have hlonger := steps_plan? hchanged scope index
  change _ = stepsFrom (seed scope index (parts.label index)) 0 none (entries ++ more) at hlonger
  rw [hone, Option.elim_some, entries_of_parts hparts h] at hsteps
  rw [stepsFrom_append, ← hsteps] at hlonger
  cases hother : plan? scope index (withEntries (entries ++ more) instruction) with
  | some other =>
    obtain ⟨hlabel, hreasoning⟩ := sameHead_withEntries h _ scope index one hone other hother
    rw [hother, Option.elim_some] at hlonger
    exact ⟨other, rfl, hlabel, hreasoning, hlonger ▸ List.prefix_append _ _⟩
  | none =>
    -- there are no steps at all, so the plan is that of the instruction as it was
    rw [hother, Option.elim_none] at hlonger
    have hsame : plan? scope index (withEntries (entries ++ more) instruction) =
        plan? scope index instruction := by
      refine plan?_congr hparts hchanged rfl rfl ?_
      rw [entries_of_parts hparts h, stepsFrom_append, ← hsteps, ← hlonger]
      exact (List.append_eq_nil_iff.1 hlonger.symm).1.symm
    rw [hother, hone] at hsame
    exact absurd hsame nofun

/-! ## Everything -/

/-- The plans of a script before and after one of its instructions has been replaced. -/
structure ScriptReplaced (scope : String) (before : List Json) (instruction other : Json)
    (after : List Json) (plans changed : Option (List Plan)) : Prop where
  /-- instructions that have no plan are all the same -/
  inert : hasPlan instruction = false → hasPlan other = false → changed = plans
  /-- the other instructions have the plans that they had -/
  others : ∃ front back,
    plans.getD [] = front ++ ((plan? scope before.length instruction).toList ++ back) ∧
      changed.getD [] = front ++ ((plan? scope before.length other).toList ++ back) ∧
      front = plansOf scope before ∧ back = plansFrom scope (before.length + 1) after

theorem scriptReplaced {document changed : Json} {before after : List Json}
    {instruction other : Json} (h : Chain document (before ++ instruction :: after))
    (hchanged : Chain changed (before ++ other :: after)) (scope : String) :
    ScriptReplaced scope before instruction other after (plans? scope document)
      (plans? scope changed) := by
  constructor
  case inert =>
    intro hinstruction hother
    rw [plans?_of_chain h, plans?_of_chain hchanged, plansOf_split, plansOf_split,
      plan?_eq_none hinstruction, plan?_eq_none hother]
  case others =>
    rw [plans?_getD h, plans?_getD hchanged, plansOf_split, plansOf_split]
    exact ⟨_, _, rfl, rfl, rfl, rfl⟩

/-- **Scripts are stable under changes.**  Instructions that have no plan are all the same, another
instruction changes no plan but its own, and instructions at the end come with their plans at the
end.  In an instruction, entries that have no step are all the same, another entry changes no step
but its own and, if a use of a provider's tool comes or goes, the uses of later results that name
none; and entries at the end come with their steps at the end. -/
theorem scripts_locally_stable (scope : String) :
    (∀ before instruction other after document changed,
      Chain document (before ++ instruction :: after) → Chain changed (before ++ other :: after) →
        ScriptReplaced scope before instruction other after (plans? scope document)
          (plans? scope changed)) ∧
    (∀ instructions more document longer, Chain document instructions →
      Chain longer (instructions ++ more) →
        (plans? scope document).getD [] <+: (plans? scope longer).getD []) ∧
    ∀ index instruction entries, entries? instruction = some entries →
      (∀ before entry other after, entries = before ++ entry :: after →
        PlanReplaced before entry other after (plan? scope index instruction)
          (plan? scope index (withEntries (before ++ other :: after) instruction))) ∧
      ∀ more, Extended (plan? scope index instruction)
        (plan? scope index (withEntries (entries ++ more) instruction)) := by
  refine ⟨?_, ?_, ?_⟩
  · intro before instruction other after document changed h hchanged
    exact scriptReplaced h hchanged scope
  · intro instructions more document longer h hlonger
    rw [plans?_getD h, plans?_getD hlonger, plansOf_append]
    exact List.prefix_append _ _
  · intro index instruction entries h
    refine ⟨?_, fun more => extended_withEntries h more scope index⟩
    rintro before entry other after rfl
    exact planReplaced h other scope index

/-- An instruction with an entry between a use and its result. -/
def inquiry (entry : Json) : Json :=
  .obj [("messages", .arr
    [.obj [("server_tool_use", .obj [("name", .str "web_search")])], entry,
      resultEntry (.obj [("name", .str "web_search")])])]

/-- A script with an instruction before an inquiry. -/
def inquiries (instruction : Json) : Json :=
  .obj [("instruction_chain", .arr [instruction, inquiry .null])]

theorem scripts_locally_stable_inquiries :
    plans? "0" (inquiries (.str "")) = plans? "0" (inquiries .null) ∧
      (plans? "0" (.obj [("instruction_chain", .arr [.null])])).getD [] <+:
        (plans? "0" (inquiries .null)).getD [] ∧
      plan? "0" 1 (inquiry (.str "")) = plan? "0" 1 (inquiry .null) ∧
      ∃ one other, plan? "0" 1 (inquiry .null) = some one ∧
        plan? "0" 1 (withEntries (entryList (inquiry .null) ++ [.null]) (inquiry .null)) =
          some other ∧ one.steps <+: other.steps := by
  obtain ⟨hreplace, happend, hinstruction⟩ := scripts_locally_stable "0"
  obtain ⟨hentry, hmore⟩ := hinstruction 1 (inquiry .null) _ rfl
  have hplan : (plan? "0" 1 (inquiry .null)).isSome = true := by decide +kernel
  obtain ⟨one, hone⟩ := Option.isSome_iff_exists.1 hplan
  obtain ⟨other, hother, -, -, hsteps⟩ := hmore [.null] one hone
  refine ⟨?_, ?_, ?_, one, other, hone, hother, hsteps⟩
  · exact (hreplace [] .null (.str "") _ (inquiries .null) (inquiries (.str "")) rfl rfl).inert
      rfl rfl
  · exact happend [.null] [inquiry .null] _ _ rfl rfl
  · exact (hentry [_] .null (.str "") [_] rfl).inert rfl rfl

end ScriptedChat.Instruction
