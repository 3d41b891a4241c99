import ScriptedChat.Proofs.Script.Entries
import ScriptedChat.Proofs.Transcript.Identifiers

/-!
# Results pair with the nearest use before them

The result of a provider's tool belongs to a use.  The entry of a result may name
the use; if it does not, the result belongs to the last use that stands before it
in the plan, whatever lies between them.  Where there is none, the identifier is
made, and it is no use's.

* `Paired` — a result with the steps before it;
* `paired_pair` — it is paired by the last use among these steps;
* `usesOf`, `ids_serverUses` — the uses of an instruction, and their identifiers
  in its plan;
* `preimage_ne_unpaired` — a made identifier of a result is made from other bytes
  than those of all uses of a script;
* `results_pair_with_nearest_use` — all of it, for every instruction of a script.
-/

namespace ScriptedChat.Instruction

open Json

/-! ## One result -/

/-- What the identifier of a result is made from that belongs to no use. -/
def unpairedParts (seed name : String) : List String :=
  [seed, "unpaired", name]

/-- A result that comes from the given entry and stands after the given steps. -/
structure Paired (seed : String) (value : Json) (front : List Step) (result : ServerToolResult) :
    Prop where
  name : resultField "name" value = some (.str result.name)
  /-- a use that the entry names is kept -/
  kept : ∀ id, CarriesId value id → result.toolUseId = id
  /-- or else it is the last use before the result, whatever lies between them -/
  nearest : (¬ ∃ id, CarriesId value id) → ∀ before use after,
    front = before ++ .serverToolUse use :: after → (∀ step ∈ after, step.serverUses = []) →
      result.toolUseId = use.id
  /-- or else, without a use before it, one that is made -/
  alone : (¬ ∃ id, CarriesId value id) → (∀ step ∈ front, step.serverUses = []) →
    result.toolUseId = stableId serverToolMark (unpairedParts seed result.name)

/-- **The last use among the steps before a result pairs it.** -/
theorem paired_pair {value : Json} {result : Unpaired} (h : unpaired? value = some result)
    (seed : String) (front : List Step) :
    Paired seed value front (result.pair seed (lastUse? front)) := by
  obtain ⟨hname, hgiven⟩ := unpaired?_eq_some h
  have hnone (hno : ¬ ∃ id, CarriesId value id) : result.given = none :=
    Option.eq_none_iff_forall_ne_some.2 fun id hid => hno ⟨id, (hgiven id).1 hid⟩
  constructor
  case name => exact hname
  case kept =>
    intro id hid
    rw [Unpaired.pair, (hgiven id).2 hid]
    rfl
  case nearest =>
    rintro hno before use after rfl hafter
    rw [Unpaired.pair, hnone hno, lastUse?_append_use before use hafter]
    rfl
  case alone =>
    intro hno hfront
    rw [Unpaired.pair, hnone hno, lastUse?_eq_none hfront]
    rfl

/-- The entry of a result that has a step has it at its place among the steps. -/
theorem exists_result {seed : String} {before : List Json} {value : Json} (after : List Json)
    (h : hasStep (resultEntry value) = true) :
    ∃ result,
      (stepsFrom seed 0 none (before ++ resultEntry value :: after))[before.countP hasStep]? =
          some (.serverToolResult result) ∧
        Paired seed value ((stepsFrom seed 0 none (before ++ resultEntry value :: after)).take
          (before.countP hasStep)) result := by
  have hlength := length_stepsFrom seed 0 none before
  have hsome := isSome_step? seed before.length (lastUse? (stepsFrom seed 0 none before))
    (resultEntry value)
  rw [h, step?_resultEntry, Option.isSome_map] at hsome
  obtain ⟨result, hresult⟩ := Option.isSome_iff_exists.1 hsome
  rw [stepsFrom_split, step?_resultEntry, hresult]
  refine ⟨result.pair seed (lastUse? (stepsFrom seed 0 none before)), ?_, ?_⟩
  · rw [← hlength, List.getElem?_append_right (Nat.le_refl _), Nat.sub_self]
    rfl
  · rw [← hlength, List.take_left]
    exact paired_pair hresult seed _

/-! ## Uses -/

/-- The uses of a provider's tools that an instruction asks for, each with the place of its
entry. -/
def usesOf (instruction : Json) : List (Nat × Mention) :=
  (entryList instruction).zipIdx.flatMap fun (entry, i) =>
    (entryMentions useMentions entry).map fun use => (i, use)

/-- The uses of a plan have the identifiers that their entries give, or else made ones. -/
theorem ids_serverUses {scope : String} {index : Nat} {instruction : Json} {plan : Plan}
    (h : plan? scope index instruction = some plan) :
    plan.serverUses.map ServerToolUse.id =
      (usesOf instruction).map fun use =>
        use.2.id serverToolMark (seed scope index plan.label) use.1 := by
  obtain ⟨parts, -, -, -, hentries, hsteps⟩ := plan?_eq_some h
  have hids := reads_uses.stepsFrom (seed scope index plan.label) 0 none parts.entries
  rw [← hsteps, hentries] at hids
  rw [Plan.serverUses, List.map_flatMap, usesOf, List.map_flatMap]
  refine hids.trans (List.flatMap_congr fun entry _ => ?_)
  show List.map _ _ = List.map _ (List.map _ _)
  rw [List.map_map]
  rfl

/-- Seeds of one script tell its instructions apart, whatever follows them. -/
theorem index_of_seed {scope : String} {index other : Nat} {label name : String}
    {rest more : List Char}
    (h : (seed scope index label).toList ++ '\x00' :: rest =
      (seed scope other name).toList ++ '\x00' :: more) : index = other := by
  simp only [toList_seed, List.append_assoc, List.cons_append] at h
  have hnumbers := List.tail_eq_of_cons_eq (List.append_cancel_left h)
  exact (Text.decimal_append_inj (by decide) hnumbers).1

/-- **No use is made from the bytes of a result that belongs to none**, in the same instruction
or in another one of its script. -/
theorem preimage_ne_unpaired {scope : String} {index other : Nat} {label name : String}
    (h : other = index → name = label) (entry : Nat) (use : Mention) (tool : String) :
    preimage (use.parts (seed scope other name) entry) ≠
      preimage (unpairedParts (seed scope index label) tool) := by
  intro heq
  have htexts := terminated_of_preimage heq
  rw [Mention.parts, unpairedParts, terminated_cons, terminated_cons] at htexts
  obtain rfl := index_of_seed htexts
  obtain rfl := h rfl
  -- after the seed there is the number of an entry here, and a word there
  have hrest := List.tail_eq_of_cons_eq (List.append_cancel_left htexts)
  rw [List.map_cons, List.cons_append, terminated_cons, terminated_cons, Text.toList_natText]
    at hrest
  cases hdecimal : Text.decimal entry with
  | nil => exact Text.decimal_ne_nil entry hdecimal
  | cons c digits =>
    have hdigit := Text.isDigit_of_mem_decimal entry c (hdecimal ▸ List.mem_cons_self)
    rw [hdecimal] at hrest
    obtain rfl : c = 'u' := List.head_eq_of_cons_eq hrest
    exact absurd hdigit (by decide)

theorem stableId_ne {parts others : List String} (mark : String)
    (hne : preimage parts ≠ preimage others)
    (hnone : NoCollision [preimage parts, preimage others]) :
    stableId mark parts ≠ stableId mark others :=
  fun h => hne (hnone _ List.mem_cons_self _ (List.mem_cons_of_mem _ List.mem_cons_self)
    (hash_of_stableId h))

/-! ## All results -/

/-- **Results pair with the nearest use before them.**  Every entry of a result that has a step has
it in the plan, at the place that the entries before it leave to it.  The result keeps the use that
its entry names; or else it belongs to the last use before it in the plan; or else its identifier
is made from the seed of the plan and the name of the tool.  Such an identifier is made from other
bytes than that of every use in the script, so it is different unless the two collide.  And the
plan is the same whatever instructions stand around its own. -/
theorem results_pair_with_nearest_use {scope : String} {index : Nat} {instruction : Json}
    {plan : Plan} (h : plan? scope index instruction = some plan) :
    (∀ before value after, entryList instruction = before ++ resultEntry value :: after →
      hasStep (resultEntry value) = true →
        ∃ result, plan.steps[before.countP hasStep]? = some (.serverToolResult result) ∧
          Paired (seed scope index plan.label) value (plan.steps.take (before.countP hasStep))
            result) ∧
    (plan.serverUses.map ServerToolUse.id =
      (usesOf instruction).map fun use =>
        use.2.id serverToolMark (seed scope index plan.label) use.1) ∧
    (∀ (other : Nat) (label : String) (entry : Nat) (use : Mention) (tool : String),
      (other = index → label = plan.label) → use.given = none →
        let made := use.parts (seed scope other label) entry
        let alone := unpairedParts (seed scope index plan.label) tool
        preimage made ≠ preimage alone ∧
          (NoCollision [preimage made, preimage alone] →
            use.id serverToolMark (seed scope other label) entry ≠
              stableId serverToolMark alone)) ∧
    ∀ others more : List Json, others.length = index →
      plansOf scope (others ++ instruction :: more) =
        plansOf scope others ++ plan :: plansFrom scope (index + 1) more := by
  obtain ⟨parts, -, -, -, hentries, hsteps⟩ := plan?_eq_some h
  refine ⟨?_, ids_serverUses h, ?_, ?_⟩
  · intro before value after hsplit hstep
    rw [hsteps, hentries, hsplit]
    exact exists_result after hstep
  · intro other label entry use tool hlabel hgiven
    have hne : preimage (use.parts (seed scope other label) entry) ≠
        preimage (unpairedParts (seed scope index plan.label) tool) :=
      preimage_ne_unpaired hlabel entry use tool
    refine ⟨hne, fun hnone => ?_⟩
    rw [Mention.id, hgiven]
    exact stableId_ne serverToolMark hne hnone
  · rintro others more rfl
    rw [plansOf_split, h]
    rfl

/-- A result before any use, then a use, a text, an entry that is no step, and two results more, the
last one with a use of its own. -/
def searches : Json :=
  .obj [("messages", .arr
    [resultEntry (.obj [("name", .str "web_search")]),
     .obj [("server_tool_use", .obj [("name", .str "web_search")])],
     .obj [("text", .str "found")],
     .obj [("unknown", .null)],
     resultEntry (.obj [("name", .str "web_search")]),
     resultEntry (.obj [("name", .str "web_search"), ("tool_use_id", .str "mine")])])]

/-- The plan of `searches`, with the identifiers of its use and of its results. -/
def searchesPlan (made alone paired mine : String) : Plan :=
  let result (id : String) : Step := .serverToolResult ⟨id, "web_search", .result (.arr [])⟩
  { label := "instruction-" ++ Text.natText 0
    reasoning := none
    steps := [result alone, .serverToolUse ⟨made, "web_search", .obj []⟩, .literal "found",
      result paired, result mine] }

theorem results_pair_searches :
    ∃ made alone paired mine,
      plan? "0" 0 searches = some (searchesPlan made alone paired mine) ∧
        alone ≠ made ∧ paired = made ∧ mine = "mine" := by
  let label := "instruction-" ++ Text.natText 0
  let made := stableId serverToolMark [seed "0" 0 label, Text.natText 1, "web_search"]
  let alone := stableId serverToolMark (unpairedParts (seed "0" 0 label) "web_search")
  have hplan : plan? "0" 0 searches = some (searchesPlan made alone made "mine") := rfl
  obtain ⟨hresults, -, hmade, -⟩ := results_pair_with_nearest_use hplan
  refine ⟨made, alone, made, "mine", hplan, ?_, ?_, ?_⟩
  · have hnone : NoCollision
        [preimage [seed "0" 0 label, Text.natText 1, "web_search"],
          preimage (unpairedParts (seed "0" 0 label) "web_search")] := by
      decide +kernel
    exact Ne.symm
      ((hmade 0 label 1 ⟨[], "web_search", none⟩ "web_search" (fun _ => rfl) rfl).2 hnone)
  · obtain ⟨result, hresult, hpaired⟩ := hresults ((entryList searches).take 4) _ _ rfl rfl
    obtain rfl := Step.serverToolResult.inj (Option.some.inj hresult)
    refine hpaired.nearest ?_ [_] _ [_] rfl ?_
    · rintro ⟨id, hid, -⟩
      exact absurd hid nofun
    · intro step hmem
      obtain rfl := List.mem_singleton.1 hmem
      rfl
  · obtain ⟨result, hresult, hmine⟩ := hresults ((entryList searches).take 5) _ _ rfl rfl
    obtain rfl := Step.serverToolResult.inj (Option.some.inj hresult)
    exact hmine.kept "mine" ⟨rfl, by decide⟩

end ScriptedChat.Instruction
