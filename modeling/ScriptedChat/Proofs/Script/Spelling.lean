import ScriptedChat.Proofs.Script.Embedding
import ScriptedChat.Proofs.Script.WellFormed

/-!
# The spellings of an instruction agree

An instruction can stand alone between the sentinels, in a list of one
instruction, or alone in a text without sentinels.  All of them are the same
document or have the same instructions, so they have the same plans, down to the
identifiers.

* `chained` — the list of one instruction;
* `document?_chained` — its document, wherever the reader has levels enough;
* `instructions?_chained` — its instructions;
* `single?_of_document` — a text that is a document as a whole;
* `spellings_agree` — the plans.
-/

namespace ScriptedChat.Script

open Json (Slot Field alone)
open Text (Blanks)

/-! ## A list of one instruction -/

/-- What stands before the instruction in a list of one. -/
def chainFront : List Char := "\x7b\"instruction_chain\":[".toList

/-- What stands after the instruction in a list of one. -/
def chainBack : List Char := "]\x7d".toList

/-- The text of a list with one instruction. -/
def chained (script : List Char) : List Char :=
  chainFront ++ (script ++ chainBack)

/-- The field that holds a list with one instruction. -/
def chainField (slot : Slot) : Field :=
  { name := .tight (Json.quote "instruction_chain")
    value := .tight ('[' :: (slot.whole ++ Json.afterItems [])) }

theorem chained_eq (slot : Slot) :
    chained slot.whole = '\x7b' :: ((chainField slot).whole ++ Json.afterFields []) := by
  have hfront : chainFront = '\x7b' :: (Json.quote "instruction_chain" ++ [':', '[']) := by
    decide +kernel
  have hback : chainBack = Json.afterItems [] ++ Json.afterFields [] := by
    decide +kernel
  rw [chained, hfront, hback, Field.whole, chainField, Slot.whole_tight, Slot.whole_tight]
  simp only [List.cons_append, List.append_assoc, List.nil_append]

theorem valueText_chain {n : Nat} {slot : Slot} (hspaced : slot.Spaced)
    (h : Json.ValueText n slot.text) :
    Json.ValueText (n + 1) ('[' :: (slot.whole ++ Json.afterItems [])) := by
  refine .array (fun other hmem => ?_) fun other hmem => ?_
  · exact List.mem_singleton.1 hmem ▸ hspaced
  · exact List.mem_singleton.1 hmem ▸ h

theorem named_chainField (slot : Slot) : (chainField slot).Named :=
  ⟨Slot.spaced_tight _, ⟨_, Json.stringText_escape _, rfl⟩, Slot.spaced_tight _⟩

theorem objectText_chained {n : Nat} {slot : Slot} (hspaced : slot.Spaced)
    (h : Json.ValueText n slot.text) : Json.ObjectText (n + 2) (chained slot.whole) := by
  rw [chained_eq]
  refine .fields (fun entry hmem => ?_) fun entry hmem => ?_
  · exact List.mem_singleton.1 hmem ▸ named_chainField slot
  · obtain rfl := List.mem_singleton.1 hmem
    exact valueText_chain hspaced h

/-- What is read of a list of one instruction: two more levels are needed. -/
theorem alone_chained {n : Nat} (d : Nat) {slot : Slot} (hspaced : slot.Spaced)
    (h : Json.ValueText n slot.text) :
    alone (Json.value (d + 2)) (chained slot.whole) =
      (alone (Json.value d) slot.text).map fun v => .obj [("instruction_chain", .arr [v])] := by
  have harray := Json.sees_open_array (Json.sees_array
    (fun other hmem => List.mem_singleton.1 hmem ▸ hspaced)
    (fun other hmem => List.mem_singleton.1 hmem ▸ h.settled.starts)
    (fun other hmem => List.mem_singleton.1 hmem ▸ h.settled.sees d))
  have hfield : ∀ entry ∈ [chainField slot], Json.SeesField (Json.value (d + 1)) Json.nameOf?
      (alone (Json.value (d + 1))) entry := by
    intro entry hmem
    obtain rfl := List.mem_singleton.1 hmem
    exact (named_chainField slot).sees ((valueText_chain hspaced h).settled.sees (d + 1))
  have hobject := Json.sees_open_object (Json.sees_object (Json.skipsGaps_value (d + 1)) hfield)
  have hentry : Json.entryOf? Json.nameOf? (alone (Json.value (d + 1))) (chainField slot) =
      (alone (Json.value d) slot.text).map fun v => ("instruction_chain", .arr [v]) := by
    have hname : Json.nameOf? (chainField slot).name.text = some "instruction_chain" :=
      Json.nameOf?_quote _
    have hvalue : alone (Json.value (d + 1)) (chainField slot).value.text = _ := harray.eq_alone
    rw [Json.entryOf?, hname, hvalue, List.mapM_cons, List.mapM_nil]
    cases alone (Json.value d) slot.text with
    | none => rfl
    | some v => rfl
  rw [chained_eq, hobject.eq_alone, List.mapM_cons, List.mapM_nil, hentry]
  cases alone (Json.value d) slot.text with
  | none => rfl
  | some v => rfl

/-- The document of a list of one instruction, where it is not nested too deeply. -/
theorem document?_chained {n : Nat} {slot : Slot} (hspaced : slot.Spaced)
    (h : Json.ValueText n slot.text) (hdepth : n + 2 ≤ Json.maxDepth) :
    document? (chained slot.whole) =
      (document? slot.whole).map fun v => .obj [("instruction_chain", .arr [v])] := by
  have htext := Json.read_slot (Slot.spaced_tight (chained slot.whole))
    (objectText_chained hspaced h).valueText
  rw [Slot.whole_tight] at htext
  have hlevels : Json.maxDepth = 125 + 2 := rfl
  calc document? (chained slot.whole)
    _ = alone (Json.value (125 + 2)) (chained slot.whole) := htext
    _ = (alone (Json.value 125) slot.text).map _ := alone_chained 125 hspaced h
    _ = (alone (Json.value Json.maxDepth) slot.text).map _ := by
      rw [h.settled.stable 125 (by omega), h.settled.stable Json.maxDepth (by omega)]
    _ = (document? slot.whole).map _ := by
      rw [← Json.read_slot hspaced h]
      rfl

/-! ## Instructions -/

theorem instructions?_chained (v : Json) :
    Instruction.instructions? (.obj [("instruction_chain", .arr [v])]) = some [v] := rfl

/-- An object without a list of instructions is an instruction itself. -/
theorem instructions?_alone {fields : List (String × Json)}
    (h : Json.lookup "instruction_chain" fields = none) :
    Instruction.instructions? (.obj fields) = some [.obj fields] := by
  have hfields : Json.asFields? (.obj fields) = some fields := rfl
  rw [Instruction.instructions?, hfields]
  simp only [Option.bind_eq_bind, Option.bind_some, h]

theorem plans?_congr {scope : String} {document other : Json}
    (h : Instruction.instructions? document = Instruction.instructions? other) :
    Instruction.plans? scope document = Instruction.plans? scope other := by
  unfold Instruction.plans?
  rw [h]

/-- A single instruction has one plan or none. -/
theorem plans?_single {scope : String} {document v : Json} {plans : List Plan}
    (hinstructions : Instruction.instructions? document = some [v])
    (h : Instruction.plans? scope document = some plans) : ∃ plan, plans = [plan] := by
  obtain ⟨instructions, hother, hfit⟩ := Instruction.plans?_fit h
  obtain rfl := Option.some.inj (hinstructions.symm.trans hother)
  match plans, hfit.nonempty, hfit.count with
  | [plan], _, _ => exact ⟨plan, rfl⟩

/-! ## Texts that are a script as a whole -/

section Whole

variable {n : Nat} {slot : Slot} {front back : List Char} {whole : String}

theorem bareDocument?_of_whole (hspaced : slot.Spaced) (hobject : Json.ObjectText n slot.text)
    (hfront : Blanks front) (hback : Blanks back)
    (hwhole : whole.toList = front ++ (slot.whole ++ back)) :
    bareDocument? whole = document? slot.whole := by
  have hbraces : Braced slot.text := ⟨hobject.braces.1, hobject.braces.2⟩
  have htext : whole.toList = (front ++ slot.front) ++ (slot.text ++ (slot.back ++ back)) := by
    rw [hwhole, Slot.whole]
    simp only [List.append_assoc]
  have htrim : Text.trim whole.toList = slot.text := by
    rw [htext]
    exact Text.trim_between (hfront.append (Gap.blanks hspaced.front))
      ((Gap.blanks hspaced.back).append hback) hbraces.bare hbraces.ne_nil
  rw [bareDocument?, htrim, if_pos hbraces.head, document?_slot hspaced hobject]

/-- A text of blanks and a script without an opening sentinel has none. -/
theorem plans?_of_whole (scope : String) {script : List Char} (hopening : ¬ opening <:+: script)
    (hfront : Blanks front) (hback : Blanks back)
    (hwhole : whole.toList = front ++ (script ++ back)) : plans? scope whole = none := by
  have hnone : Text.cutAt? opening whole.toList = none := by
    rw [Text.cutAt?_eq_none, hwhole]
    intro hoccurs
    exact hopening (sentinel_opening.within (Blanks.not_mem hfront (by decide))
      (Blanks.not_mem hback (by decide)) hoccurs)
  rw [plans?_eq, blockDocument?, block?, hnone]
  rfl

/-- A text that is a script as a whole has the first plan of the document. -/
theorem single?_of_whole (scope : String) (hspaced : slot.Spaced)
    (hobject : Json.ObjectText n slot.text) (hopening : ¬ opening <:+: slot.whole)
    (hfront : Blanks front) (hback : Blanks back)
    (hwhole : whole.toList = front ++ (slot.whole ++ back)) :
    single? scope whole =
      ((document? slot.whole).bind (Instruction.plans? scope)).bind List.head? := by
  rw [single?, plans?_of_whole scope hopening hfront hback hwhole, bare?_eq,
    bareDocument?_of_whole hspaced hobject hfront hback hwhole]

end Whole

/-- There is a first plan wherever there are plans. -/
theorem head?_plans {scope : String} {document : Option Json} :
    (document.bind (Instruction.plans? scope)).bind List.head? = none ↔
      document.bind (Instruction.plans? scope) = none := by
  cases hplans : document.bind (Instruction.plans? scope) with
  | none => exact iff_of_true rfl rfl
  | some plans =>
    obtain ⟨document, -, hread⟩ := Option.bind_eq_some_iff.1 hplans
    obtain ⟨instructions, -, hfit⟩ := Instruction.plans?_fit hread
    rw [Option.bind_some, List.head?_eq_none_iff]
    exact iff_of_false hfit.nonempty nofun

/-! ## Agreement -/

/-- **The spellings of an instruction agree.**  An object without a list of instructions has the
same plans alone between sentinels and in a list of one, which is one plan or none.  And every
object has the same first plan as a whole text as it has between sentinels, if it has any. -/
theorem spellings_agree (scope : String) {n : Nat} {script : List Char}
    (hscript : Json.ObjectDocument n script) (hopening : ¬ opening <:+: script)
    (hclosing : ¬ closing <:+: script) :
    (n + 2 ≤ Json.maxDepth →
      (∀ value, document? script = some value → value.get? "instruction_chain" = none) →
      ∀ single chain : String, Embeds script single.toList → Embeds (chained script) chain.toList →
        plans? scope single = plans? scope chain ∧
          ∀ plans, plans? scope single = some plans → ∃ plan, plans = [plan]) ∧
    ∀ (front back : List Char) (whole embedded : String), Blanks front → Blanks back →
      whole.toList = front ++ (script ++ back) → Embeds script embedded.toList →
        single? scope whole = (plans? scope embedded).bind List.head? ∧
          (single? scope whole = none ↔ plans? scope embedded = none) := by
  constructor
  · intro hdepth hkeyless single chain hsingle hchain
    have hsingle := plans_of_embedded scope hscript hclosing hsingle
    obtain ⟨slot, hspaced, hobject, rfl⟩ := hscript
    have hchained := objectText_chained hspaced hobject.valueText
    have hnot : ¬ closing <:+: chained slot.whole := by
      intro hoccurs
      exact hclosing (sentinel_closing.within (by decide +kernel) (by decide +kernel) hoccurs)
    have hchain := plans_of_embedded scope hchained.document hnot hchain
    rw [document?_chained hspaced hobject.valueText hdepth] at hchain
    rw [hsingle, hchain]
    cases hread : document? slot.whole with
    | none => exact ⟨rfl, fun plans hplans => absurd hplans nofun⟩
    | some value =>
      have hvalue := (Json.read_slot hspaced hobject.valueText).symm.trans hread
      obtain ⟨fields, rfl⟩ := hobject.isObject hvalue
      have halone := instructions?_alone (hkeyless _ hread)
      refine ⟨plans?_congr (halone.trans (instructions?_chained _).symm), fun plans hplans => ?_⟩
      exact plans?_single halone hplans
  · intro front back whole embedded hfront hback hwhole hembedded
    have hembedded := plans_of_embedded scope hscript hclosing hembedded
    obtain ⟨slot, hspaced, hobject, rfl⟩ := hscript
    rw [single?_of_whole scope hspaced hobject hopening hfront hback hwhole, hembedded]
    exact ⟨rfl, head?_plans⟩

/-- A text with a list of one instruction. -/
def listed : String :=
  "<mock-llm-instructions>\x7b\"instruction_chain\":[\x7b\"messages\":[\x7b\"text\":\"hi\"\x7d]\x7d]\x7d" ++
  "</mock-llm-instructions>"

theorem spellings_of_greeting :
    plans? "0" crowded = plans? "0" listed ∧ (plans? "0" listed).isSome = true ∧
      single? "0" (String.ofList (greeting ++ ['\n'])) = (plans? "0" crowded).bind List.head? := by
  have hlisted : Embeds (chained greeting) listed.toList :=
    ⟨[], [] ++ (chained greeting ++ []), [], by decide +kernel, .plain .nil .nil, by decide +kernel⟩
  have hkeyless : ∀ value, document? greeting = some value →
      value.get? "instruction_chain" = none := by
    have hnone : ((document? greeting).bind (Json.get? "instruction_chain")).isNone = true := by
      decide +kernel
    intro value hvalue
    rw [hvalue] at hnone
    exact Option.isNone_iff_eq_none.1 hnone
  obtain ⟨hchain, hwhole⟩ := spellings_agree "0" objectText_greeting.document
    (by decide +kernel) (by decide +kernel)
  exact ⟨(hchain (by decide) hkeyless crowded listed embeds_crowded hlisted).1, by decide +kernel,
    (hwhole [] ['\n'] _ crowded .nil (by decide) String.toList_ofList embeds_crowded).1⟩

end ScriptedChat.Script
