import ScriptedChat.Proofs.Script.WellFormed

/-!
# Entries are read one after the other

The steps of an instruction come out of one pass over its entries.  The pass
leaves out what is no step and remembers one identifier, that of the last use of
a provider's tool; nothing else goes from one entry to another.

* `hasStep`, `isSome_step?` — whether an entry has a step is told by the entry
  alone;
* `lastUse?`, `stepsFrom_append` — the pass, cut at any place: what it remembers
  is the last use among the steps that it has put out;
* `stepsFrom_split`, `length_stepsFrom` — one entry among others, and its place
  among the steps;
* `Unpaired`, `serverToolResult?_eq` — a result before it has a use;
* `steps_plan?`, `plan?_eq_none_iff`, `plan?_eq_some`, `plansOf_split` — the plan of
  the steps, if there is one, and one plan among those of a script.
-/

namespace ScriptedChat.Instruction

open Json

/-! ## Entries that have a step -/

/-- Whether an entry has a step.  It does not count where the entry stands and what stands before
it (`isSome_step?`). -/
def hasStep (entry : Json) : Bool :=
  (step? "" 0 none entry).isSome

/-- The calls that have a name. -/
def named (calls : List (String × Option Json)) : List (String × Option Json) :=
  calls.filter fun call => call.1 ≠ ""

/-- What a call says: its name and the text of its arguments. -/
def said (call : ToolCall) : String × String :=
  (call.name, call.arguments)

theorem said_toolCall? (seed : String) (position : Nat) (calls : List (String × Option Json))
    (index : Nat) :
    ((calls.zipIdx index).filterMap fun ((name, args), i) =>
        toolCall? seed position i name args).map said =
      (named calls).map fun call => (call.1, argumentText call.2) := by
  induction calls generalizing index with
  | nil => rfl
  | cons call calls ih =>
    obtain ⟨name, args⟩ := call
    have hrest := ih (index + 1)
    rw [List.zipIdx_cons, List.filterMap_cons]
    by_cases hname : name = ""
    · have hdropped : named ((name, args) :: calls) = named calls :=
        List.filter_cons_of_neg (by simpa using hname)
      simp only [toolCall?, if_pos hname, hdropped]
      exact hrest
    · have hkept : named ((name, args) :: calls) = (name, args) :: named calls :=
        List.filter_cons_of_pos (by simpa using hname)
      simp only [toolCall?, if_neg hname, hkept, List.map_cons]
      exact congrArg _ hrest

/-- **Every call with a name is made**, and says what it was given. -/
theorem said_toolCalls? (seed : String) (position : Nat) (calls : List (String × Option Json)) :
    ((toolCalls? seed position calls).elim [] Step.calls).map said =
      (named calls).map fun call => (call.1, argumentText call.2) := by
  rw [toolCalls?_calls]
  exact said_toolCall? seed position calls 0

theorem isSome_toolCalls? (seed : String) (position : Nat) (calls : List (String × Option Json)) :
    (toolCalls? seed position calls).isSome = ! (named calls).isEmpty := by
  have hsaid := said_toolCalls? seed position calls
  cases hstep : toolCalls? seed position calls with
  | none =>
    rw [hstep] at hsaid
    rw [List.map_eq_nil_iff.1 hsaid.symm]
    rfl
  | some step =>
    obtain ⟨made, rfl⟩ := toolCalls?_eq_some hstep
    obtain ⟨hne, -⟩ := toolCalls?_wellFormed hstep
    rw [hstep, Option.elim_some, Step.calls] at hsaid
    cases hnamed : named calls with
    | nil => exact absurd (List.map_eq_nil_iff.1 (by rw [hsaid, hnamed]; rfl)) hne
    | cons call calls => rfl

theorem isSome_serverToolUse? (seed : String) (position : Nat) (value : Json) :
    (serverToolUse? seed position value).isSome = (useMention? value).isSome := by
  have hids := serverToolUse?_id seed position value
  cases huse : serverToolUse? seed position value with
  | none =>
    rw [huse] at hids
    cases hmention : useMention? value with
    | none => rfl
    | some mention => rw [hmention] at hids; exact absurd hids nofun
  | some step =>
    obtain ⟨use, rfl⟩ := serverToolUse?_eq_some huse
    rw [huse] at hids
    cases hmention : useMention? value with
    | none => rw [hmention] at hids; exact absurd hids nofun
    | some mention => rfl

/-! ## Results before they have a use -/

/-- A result of a provider's tool as its entry gives it. -/
structure Unpaired where
  /-- the use that the entry names -/
  given : Option String
  name : String
  outcome : ServerToolOutcome

/-- The result that belongs to the use that it names, or else to the last use before it. -/
def Unpaired.pair (seed : String) (lastUse : Option String) (result : Unpaired) :
    ServerToolResult where
  toolUseId :=
    (result.given.or lastUse).getD (stableId serverToolMark [seed, "unpaired", result.name])
  name := result.name
  outcome := result.outcome

/-- A field of the entry of a result, which is an object or an array. -/
def resultField (name : String) (value : Json) : Option Json :=
  (Record.view? ["tool_use_id", "name", "result", "error_code"] value).bind fun field => field name

/-- The entry of a result names a use. -/
def CarriesId (value : Json) (id : String) : Prop :=
  resultField "tool_use_id" value = some (.str id) ∧ id ≠ ""

/-- What the entry of a result gives. -/
def unpaired? (value : Json) : Option Unpaired := do
  let field ← Record.view? ["tool_use_id", "name", "result", "error_code"] value
  let id ← Record.optional asText? (field "tool_use_id")
  let name ← Record.required asText? (field "name")
  let result ← Record.optional some (field "result")
  let code ← Record.optional asText? (field "error_code")
  return {
    given := nonempty? id
    name
    outcome := match code with
      | some code => .error code
      | none => .result (result.getD (.arr [])) }

theorem serverToolResult?_eq (seed : String) (lastUse : Option String) (value : Json) :
    serverToolResult? seed lastUse value =
      (unpaired? value).map fun result => .serverToolResult (result.pair seed lastUse) := by
  simp only [serverToolResult?, unpaired?, Option.bind_eq_bind, Option.map_bind, Option.pure_def,
    Function.comp_def, Option.map_some]
  rfl

theorem nonempty?_optional {field : Option Json} {given : Option String}
    (h : Record.optional asText? field = some given) (id : String) :
    nonempty? given = some id ↔ field = some (.str id) ∧ id ≠ "" := by
  have hgiven : given = some id ↔ field = some (.str id) := by
    unfold Record.optional at h
    split at h
    · obtain rfl := Option.some.inj h
      simp
    · obtain rfl := Option.some.inj h
      simp
    · rename_i value _
      obtain ⟨text, htext, rfl⟩ := Option.map_eq_some_iff.1 h
      cases value with
      | str other =>
        obtain rfl := Option.some.inj htext
        simp
      | _ => exact absurd htext nofun
  rw [nonempty?, Option.filter_eq_some_iff, hgiven, decide_eq_true_eq]

/-- A result has the name in its entry, and the use that its entry names if it names one. -/
theorem unpaired?_eq_some {value : Json} {result : Unpaired} (h : unpaired? value = some result) :
    resultField "name" value = some (.str result.name) ∧
      ∀ id, result.given = some id ↔ CarriesId value id := by
  simp only [unpaired?, Option.bind_eq_bind, Option.bind_eq_some_iff, Option.pure_def] at h
  obtain ⟨field, hfield, given, hgiven, name, hname, _, -, _, -, h⟩ := h
  obtain rfl := Option.some.inj h
  have hview (key : String) : resultField key value = field key := by
    rw [resultField, hfield, Option.bind_some]
  constructor
  · obtain ⟨text, htext, hname⟩ := Option.bind_eq_some_iff.1 hname
    cases text with
    | str text => rw [hview, htext, ← Option.some.inj hname]
    | _ => exact absurd hname nofun
  · intro id
    rw [CarriesId, hview]
    exact nonempty?_optional hgiven id

/-- The entry of a result of a provider's tool. -/
def resultEntry (value : Json) : Json :=
  .obj [("server_tool_result", value)]

theorem step?_resultEntry (seed : String) (position : Nat) (lastUse : Option String)
    (value : Json) :
    step? seed position lastUse (resultEntry value) =
      (unpaired? value).map fun result => .serverToolResult (result.pair seed lastUse) :=
  serverToolResult?_eq seed lastUse value

/-! ## One entry -/

theorem stepOf?_calls (seed : String) (position : Nat) (lastUse : Option String) (value : Json) :
    stepOf? seed position lastUse "tool_call" value =
      (calls? value).bind (toolCalls? seed position) :=
  rfl

theorem stepOf?_use (seed : String) (position : Nat) (lastUse : Option String) (value : Json) :
    stepOf? seed position lastUse "server_tool_use" value = serverToolUse? seed position value :=
  rfl

theorem stepOf?_result (seed : String) (position : Nat) (lastUse : Option String) (value : Json) :
    stepOf? seed position lastUse "server_tool_result" value =
      serverToolResult? seed lastUse value :=
  rfl

/-- Only a result asks for the last use. -/
theorem stepOf?_lastUse {kind : String} (h : kind ≠ "server_tool_result") (seed : String)
    (position : Nat) (lastUse other : Option String) (value : Json) :
    stepOf? seed position lastUse kind value = stepOf? seed position other kind value := by
  unfold stepOf?
  split
  case h_10 => exact absurd rfl h
  all_goals rfl

/-- Only calls and uses ask for their place. -/
theorem stepOf?_place {kind : String} (hcalls : kind ≠ "tool_call")
    (huse : kind ≠ "server_tool_use") (hresult : kind ≠ "server_tool_result")
    (seed other : String) (position place : Nat) (lastUse : Option String) (value : Json) :
    stepOf? seed position lastUse kind value = stepOf? other place lastUse kind value := by
  unfold stepOf?
  split
  case h_3 => exact absurd rfl hcalls
  case h_9 => exact absurd rfl huse
  case h_10 => exact absurd rfl hresult
  all_goals rfl

theorem isSome_stepOf? (seed other : String) (position place : Nat) (lastUse last : Option String)
    (kind : String) (value : Json) :
    (stepOf? seed position lastUse kind value).isSome =
      (stepOf? other place last kind value).isSome := by
  -- only three kinds look at their surroundings, and none of them to find out if there is a step
  by_cases hcalls : kind = "tool_call"
  · subst hcalls
    rw [stepOf?_calls, stepOf?_calls]
    cases calls? value with
    | none => rw [Option.bind_none, Option.bind_none]
    | some calls =>
      rw [Option.bind_some, Option.bind_some, isSome_toolCalls?, isSome_toolCalls?]
  by_cases huse : kind = "server_tool_use"
  · subst huse
    rw [stepOf?_use, stepOf?_use, isSome_serverToolUse?, isSome_serverToolUse?]
  by_cases hresult : kind = "server_tool_result"
  · subst hresult
    rw [stepOf?_result, stepOf?_result, serverToolResult?_eq, serverToolResult?_eq,
      Option.isSome_map, Option.isSome_map]
  · rw [stepOf?_lastUse hresult seed position lastUse last,
      stepOf?_place hcalls huse hresult seed other position place]

/-- **Whether an entry has a step is told by the entry alone.** -/
theorem isSome_step? (seed : String) (position : Nat) (lastUse : Option String) (entry : Json) :
    (step? seed position lastUse entry).isSome = hasStep entry := by
  unfold hasStep step?
  split
  · exact isSome_stepOf? seed "" position 0 lastUse none _ _
  · rfl

theorem step?_eq_none {entry : Json} (h : hasStep entry = false) (seed : String) (position : Nat)
    (lastUse : Option String) : step? seed position lastUse entry = none := by
  rw [← isSome_step? seed position lastUse] at h
  exact Option.not_isSome_iff_eq_none.1 (Bool.eq_false_iff.1 h)

/-! ## All entries -/

/-- The identifier of the last use of a provider's tool among steps. -/
def lastUse? (steps : List Step) : Option String :=
  (steps.filterMap Step.serverToolId?).getLast?

theorem lastUse?_cons (step : Step) (steps : List Step) (lastUse : Option String) :
    (lastUse? (step :: steps)).or lastUse =
      (lastUse? steps).or (step.serverToolId?.or lastUse) := by
  unfold lastUse?
  cases hid : step.serverToolId? with
  | none => rw [List.filterMap_cons_none hid, Option.none_or]
  | some id =>
    rw [List.filterMap_cons_some hid, List.getLast?_cons]
    cases (steps.filterMap Step.serverToolId?).getLast? <;> rfl

theorem serverToolId?_eq_none {step : Step} (h : step.serverUses = []) :
    step.serverToolId? = none := by
  cases step with
  | serverToolUse use => exact absurd h nofun
  | _ => rfl

/-- Steps without a use have no last one. -/
theorem lastUse?_eq_none {steps : List Step} (h : ∀ step ∈ steps, step.serverUses = []) :
    lastUse? steps = none := by
  have hnil : steps.filterMap Step.serverToolId? = [] :=
    List.filterMap_eq_nil_iff.2 fun step hmem => serverToolId?_eq_none (h step hmem)
  rw [lastUse?, hnil]
  rfl

/-- A use is the last one of the steps if no other one comes after it. -/
theorem lastUse?_append_use (before : List Step) (use : ServerToolUse) {after : List Step}
    (h : ∀ step ∈ after, step.serverUses = []) :
    lastUse? (before ++ .serverToolUse use :: after) = some use.id := by
  have hnil : after.filterMap Step.serverToolId? = [] :=
    List.filterMap_eq_nil_iff.2 fun step hmem => serverToolId?_eq_none (h step hmem)
  have hid : (Step.serverToolUse use).serverToolId? = some use.id := rfl
  rw [lastUse?, List.filterMap_append, List.filterMap_cons_some hid, hnil, List.getLast?_concat]

theorem stepsFrom_cons (seed : String) (position : Nat) (lastUse : Option String) (entry : Json)
    (entries : List Json) :
    stepsFrom seed position lastUse (entry :: entries) =
      (step? seed position lastUse entry).toList ++
        stepsFrom seed (position + 1)
          (((step? seed position lastUse entry).bind Step.serverToolId?).or lastUse) entries := by
  rw [stepsFrom]
  cases step? seed position lastUse entry with
  | none => rfl
  | some step => rfl

/-- **The pass over the entries, cut at any place**, by induction: what it remembers there is the
last use among the steps that it has put out, or else what it began with. -/
theorem stepsFrom_append (seed : String) (position : Nat) (lastUse : Option String)
    (before after : List Json) :
    stepsFrom seed position lastUse (before ++ after) =
      stepsFrom seed position lastUse before ++
        stepsFrom seed (position + before.length)
          ((lastUse? (stepsFrom seed position lastUse before)).or lastUse) after := by
  induction before generalizing position lastUse with
  | nil => rfl
  | cons entry before ih =>
    have hposition : position + (before.length + 1) = position + 1 + before.length := by omega
    rw [List.cons_append, stepsFrom_cons, stepsFrom_cons, ih, List.length_cons, hposition,
      List.append_assoc]
    cases step? seed position lastUse entry with
    | none => rfl
    | some step =>
      rw [Option.toList_some, List.singleton_append, List.singleton_append, List.singleton_append,
        lastUse?_cons]
      rfl

/-- The steps of all entries, with those of one entry set apart. -/
theorem stepsFrom_split (seed : String) (before : List Json) (entry : Json) (after : List Json) :
    stepsFrom seed 0 none (before ++ entry :: after) =
      stepsFrom seed 0 none before ++
        ((step? seed before.length (lastUse? (stepsFrom seed 0 none before)) entry).toList ++
          stepsFrom seed (before.length + 1)
            (((step? seed before.length (lastUse? (stepsFrom seed 0 none before)) entry).bind
              Step.serverToolId?).or (lastUse? (stepsFrom seed 0 none before))) after) := by
  rw [stepsFrom_append, stepsFrom_cons, Nat.zero_add, Option.or_none]

/-- There are as many steps as entries that have one. -/
theorem length_stepsFrom (seed : String) (position : Nat) (lastUse : Option String)
    (entries : List Json) :
    (stepsFrom seed position lastUse entries).length = entries.countP hasStep := by
  induction entries generalizing position lastUse with
  | nil => rfl
  | cons entry entries ih =>
    rw [stepsFrom_cons, List.length_append, ih, List.countP_cons,
      ← isSome_step? seed position lastUse entry, Nat.add_comm]
    cases step? seed position lastUse entry <;> rfl

/-! ## Plans -/

/-- The steps of an instruction, none where there is no plan. -/
theorem steps_plan? {value : Json} {parts : Parts} (h : parts? value = some parts) (scope : String)
    (index : Nat) :
    (plan? scope index value).elim [] Plan.steps =
      stepsFrom (seed scope index (parts.label index)) 0 none parts.entries := by
  rw [plan?, h, Option.bind_eq_bind, Option.bind_some]
  dsimp only
  split
  · rename_i hempty
    rw [Bool.and_eq_true, List.isEmpty_iff] at hempty
    exact hempty.1.symm
  · rfl

/-- An instruction has no plan if it has no step and no words of reasoning. -/
theorem plan?_eq_none_iff {instruction : Json} {parts : Parts}
    (h : parts? instruction = some parts) (scope : String) (index : Nat) :
    plan? scope index instruction = none ↔
      parts.entries.countP hasStep = 0 ∧ parts.reasoning.getD 0 = 0 := by
  rw [plan?, h, Option.bind_eq_bind, Option.bind_some,
    ← length_stepsFrom (seed scope index (parts.label index)) 0 none, List.length_eq_zero_iff,
    ← List.isEmpty_iff]
  dsimp only
  split
  · rename_i hempty
    simpa using hempty
  · rename_i hshown
    simpa using hshown

/-- What a plan is made from. -/
theorem plan?_eq_some {scope : String} {index : Nat} {value : Json} {plan : Plan}
    (h : plan? scope index value = some plan) :
    ∃ parts, parts? value = some parts ∧ plan.label = parts.label index ∧
      plan.reasoning = parts.reasoning ∧ parts.entries = entryList value ∧
      plan.steps = stepsFrom (seed scope index plan.label) 0 none parts.entries := by
  obtain ⟨parts, hparts, hplan⟩ := Option.bind_eq_some_iff.1 h
  have hsteps := steps_plan? hparts scope index
  rw [h, Option.elim_some] at hsteps
  dsimp only at hplan
  split at hplan
  · exact absurd hplan nofun
  · obtain rfl := Option.some.inj hplan
    exact ⟨parts, hparts, rfl, rfl, (parts?_eq_some hparts).2, hsteps⟩

/-- The plans of the instructions of a script from a position on. -/
def plansFrom (scope : String) (index : Nat) (instructions : List Json) : List Plan :=
  (instructions.zipIdx index).filterMap fun (value, i) => plan? scope i value

theorem plansFrom_cons (scope : String) (index : Nat) (instruction : Json)
    (instructions : List Json) :
    plansFrom scope index (instruction :: instructions) =
      (plan? scope index instruction).toList ++ plansFrom scope (index + 1) instructions := by
  rw [plansFrom, List.zipIdx_cons]
  simp only [List.filterMap_cons]
  cases plan? scope index instruction <;> rfl

theorem plansOf_append (scope : String) (before after : List Json) :
    plansOf scope (before ++ after) =
      plansOf scope before ++ plansFrom scope before.length after := by
  rw [plansOf, List.zipIdx_append, List.filterMap_append, Nat.zero_add]
  rfl

/-- The plans of a script, with that of one instruction set apart. -/
theorem plansOf_split (scope : String) (before : List Json) (instruction : Json)
    (after : List Json) :
    plansOf scope (before ++ instruction :: after) =
      plansOf scope before ++
        ((plan? scope before.length instruction).toList ++
          plansFrom scope (before.length + 1) after) := by
  rw [plansOf_append, plansFrom_cons]

end ScriptedChat.Instruction
