import ScriptedChat.Proofs.Identifier
import ScriptedChat.Proofs.Script.Site

/-!
# Identifiers are unique in a conversation

Scripts may come again in a conversation, names may come again in a script, and
names are free to have the characters that stand between the parts of an
identifier.  Still no two identifiers are made from the same bytes.

The message and the instruction are numbers, and no digit ends them, so they are
given back whatever the name of the instruction is.  Where both are the same, the
name is the same as well, and what follows it is again numbers.

* `Apart` — sites at different places and with different bytes;
* `apart_of_message_ne`, `apart_of_instruction_ne`, `apart_of_path_ne` — one
  number that differs is enough;
* `Numbered` — the mentions of an entry have different numbers;
* `pairwise_sites` — all sites of a transcript, from the entries up;
* `made_identifiers_distinct` — their identifiers are different, too, unless the
  hash of two of them begins alike.
-/

namespace ScriptedChat

namespace Instruction

/-! ## One site -/

theorem toList_seed (scope : String) (index : Nat) (label : String) :
    (seed scope index label).toList =
      scope.toList ++ '/' :: (Text.decimal index ++ '/' :: label.toList) := by
  unfold seed
  simp only [String.toList_append, Text.toList_natText, List.append_assoc]
  rfl

namespace Site

/-- The bytes that the identifier of a site is the hash of. -/
def bytes (site : Site) : List UInt8 :=
  preimage site.parts

variable {a b : Site}

/-- The text whose bytes are hashed begins with the message and the instruction. -/
theorem terminated_parts (site : Site) :
    terminated site.parts =
      "message-".toList ++ (Text.decimal site.message ++ '/' ::
        (Text.decimal site.instruction ++ '/' ::
          (site.label.toList ++ '\x00' :: terminated
            ((site.entry :: site.mention.path).map Text.natText ++ [site.mention.name])))) := by
  rw [parts, Mention.parts, terminated_cons, seed, toList_seed, Transcript.scopeOf,
    String.toList_append, Text.toList_natText]
  simp only [List.append_assoc, List.cons_append]

/-- **The message and the instruction of a site are in its bytes.** -/
theorem numbers_of_bytes (h : a.bytes = b.bytes) :
    a.message = b.message ∧ a.instruction = b.instruction := by
  have heq := terminated_of_preimage h
  rw [terminated_parts, terminated_parts] at heq
  have hmessage := Text.decimal_append_inj (by decide) (List.append_cancel_left heq)
  exact ⟨hmessage.1, (Text.decimal_append_inj (by decide) hmessage.2).1⟩

/-- In one instruction, the entry of a site and its number are in its bytes. -/
theorem path_of_bytes (hseed : a.seed = b.seed)
    (hlength : a.mention.path.length = b.mention.path.length) (h : a.bytes = b.bytes) :
    a.entry :: a.mention.path = b.entry :: b.mention.path := by
  have heq := terminated_of_preimage h
  rw [parts, parts, Mention.parts, Mention.parts, terminated_cons, terminated_cons, hseed] at heq
  have hrest := List.tail_eq_of_cons_eq (List.append_cancel_left heq)
  exact numbers_of_terminated (by rw [List.length_cons, List.length_cons, hlength]) hrest

/-- Sites at different places, whose identifiers are made from different bytes. -/
def Apart (a b : Site) : Prop :=
  a.place ≠ b.place ∧ a.bytes ≠ b.bytes

theorem apart_of_message_ne (h : a.message ≠ b.message) : Apart a b :=
  ⟨fun hplace => h (congrArg Prod.fst hplace), fun hbytes => h (numbers_of_bytes hbytes).1⟩

theorem apart_of_instruction_ne (h : a.instruction ≠ b.instruction) : Apart a b :=
  ⟨fun hplace => h (congrArg (fun place => place.2.1) hplace),
    fun hbytes => h (numbers_of_bytes hbytes).2⟩

theorem apart_of_path_ne (hseed : a.seed = b.seed)
    (hlength : a.mention.path.length = b.mention.path.length)
    (h : a.entry :: a.mention.path ≠ b.entry :: b.mention.path) : Apart a b :=
  ⟨fun hplace => h (congrArg (fun place => place.2.2) hplace),
    fun hbytes => h (path_of_bytes hseed hlength hbytes)⟩

end Site

/-! ## Numbered lists -/

theorem pairwise_zipIdx {α : Type} (xs : List α) (n : Nat) :
    (xs.zipIdx n).Pairwise fun x y => x.2 ≠ y.2 := by
  rw [← List.pairwise_map (f := Prod.snd), List.zipIdx_map_snd]
  exact List.nodup_range'

/-- What comes from the items of a numbered list is pairwise related if it is for
one item and for items with different numbers. -/
theorem pairwise_flatMap_zipIdx {α β : Type} {R : β → β → Prop} {f : α × Nat → List β}
    (xs : List α) (hinner : ∀ x, (f x).Pairwise R)
    (houter : ∀ x y, x.2 ≠ y.2 → ∀ a ∈ f x, ∀ b ∈ f y, R a b) :
    (xs.zipIdx.flatMap f).Pairwise R :=
  List.pairwise_flatMap.2
    ⟨fun x _ => hinner x, (pairwise_zipIdx xs 0).imp fun hne => houter _ _ hne⟩

/-- The mentions of an entry are told apart by their numbers, of which all
mentions have equally many. -/
structure Numbered (length : Nat) (mentions : String → Json → List Mention) : Prop where
  nodup (kind : String) (value : Json) : ((mentions kind value).map Mention.path).Nodup
  length_path (kind : String) (value : Json) :
    ∀ mention ∈ mentions kind value, mention.path.length = length

theorem callMention?_eq_some {call : (String × Option Json) × Nat} {mention : Mention}
    (h : callMention? call = some mention) :
    { path := [call.2], name := call.1.1, given := none } = mention := by
  unfold callMention? at h
  split at h
  · exact absurd h nofun
  · exact Option.some.inj h

theorem exists_of_mem_callMentions {kind : String} {value : Json} {mention : Mention}
    (h : mention ∈ callMentions kind value) : ∃ call, callMention? call = some mention := by
  unfold callMentions at h
  split at h
  · obtain ⟨call, -, hcall⟩ := List.mem_filterMap.1 h
    exact ⟨call, hcall⟩
  · exact absurd h List.not_mem_nil

theorem path_of_useMention? {value : Json} {mention : Mention}
    (h : useMention? value = some mention) : mention.path = [] := by
  simp only [useMention?, Option.bind_eq_bind, Option.bind_eq_some_iff, Option.pure_def] at h
  obtain ⟨_, -, _, -, _, -, h⟩ := h
  exact (Option.some.inj h) ▸ rfl

/-- The calls of an entry are numbered, also those without a name. -/
theorem numbered_calls : Numbered 1 callMentions where
  nodup kind value := by
    unfold callMentions
    split
    · refine List.pairwise_map.2 (List.pairwise_filterMap.2 ((pairwise_zipIdx _ 0).imp ?_))
      intro call other hne mention hmention mention' hmention'
      rw [← callMention?_eq_some hmention, ← callMention?_eq_some hmention']
      exact fun heq => hne (List.head_eq_of_cons_eq heq)
    · exact List.nodup_nil
  length_path kind value mention hmention := by
    obtain ⟨call, hcall⟩ := exists_of_mem_callMentions hmention
    rw [← callMention?_eq_some hcall]
    rfl

/-- An entry asks for one use at most, which has no number. -/
theorem numbered_uses : Numbered 0 useMentions where
  nodup kind value := by
    unfold useMentions
    split
    · cases useMention? value with
      | none => exact List.nodup_nil
      | some mention => exact List.pairwise_singleton _ _
    · exact List.nodup_nil
  length_path kind value mention hmention := by
    unfold useMentions at hmention
    split at hmention
    · rw [path_of_useMention? (Option.mem_toList.1 hmention)]
      rfl
    · exact absurd hmention List.not_mem_nil

/-! ## All sites -/

variable {length : Nat} {mentions : String → Json → List Mention}

theorem exists_of_mem_elim {α β : Type} {value : Option α} {f : α → List β} {b : β}
    (h : b ∈ value.elim [] f) : ∃ a, b ∈ f a := by
  cases value with
  | none => exact absurd h List.not_mem_nil
  | some a => exact ⟨a, h⟩

theorem Numbered.length_entry (h : Numbered length mentions) (entry : Json) :
    ∀ mention ∈ entryMentions mentions entry, mention.path.length = length := by
  unfold entryMentions
  split
  · exact h.length_path _ _
  · exact fun mention hmention => absurd hmention List.not_mem_nil

/-- In an entry, the numbers of the mentions tell the sites apart. -/
theorem Numbered.pairwise_entry (h : Numbered length mentions) (message index : Nat)
    (label : String) (entry : Json) (i : Nat) :
    ((entryMentions mentions entry).map (Site.mk message index label i)).Pairwise Site.Apart := by
  have hpaths : ((entryMentions mentions entry).map Mention.path).Nodup := by
    unfold entryMentions
    split
    · exact h.nodup _ _
    · exact List.nodup_nil
  refine List.pairwise_map.2 ((List.pairwise_map.1 hpaths).imp_of_mem ?_)
  intro mention other hmention hother hne
  refine Site.apart_of_path_ne rfl ?_ fun heq => hne (List.tail_eq_of_cons_eq heq)
  exact (h.length_entry entry mention hmention).trans (h.length_entry entry other hother).symm

/-- In an instruction, the entries do. -/
theorem Numbered.pairwise_instruction (h : Numbered length mentions) (message index : Nat)
    (value : Json) : (sites mentions message index value).Pairwise Site.Apart := by
  unfold sites
  cases parts? value with
  | none => exact List.Pairwise.nil
  | some parts =>
    refine pairwise_flatMap_zipIdx _
      (fun (entry, i) => h.pairwise_entry message index (parts.label index) entry i) ?_
    intro x y hne a ha b hb
    obtain ⟨mention, hmention, rfl⟩ := List.mem_map.1 ha
    obtain ⟨other, hother, rfl⟩ := List.mem_map.1 hb
    refine Site.apart_of_path_ne rfl ?_ fun heq => hne (List.head_eq_of_cons_eq heq)
    exact (h.length_entry _ mention hmention).trans (h.length_entry _ other hother).symm

theorem mem_sites {message index : Nat} {value : Json} {site : Site}
    (h : site ∈ sites mentions message index value) :
    site.message = message ∧ site.instruction = index ∧
      ∃ kind value, site.mention ∈ mentions kind value := by
  obtain ⟨parts, hparts⟩ := exists_of_mem_elim h
  obtain ⟨⟨entry, i⟩, -, hentry⟩ := List.mem_flatMap.1 hparts
  obtain ⟨mention, hmention, rfl⟩ := List.mem_map.1 hentry
  unfold entryMentions at hmention
  split at hmention
  · exact ⟨rfl, rfl, _, _, hmention⟩
  · exact absurd hmention List.not_mem_nil

theorem mem_text_sites {message : Nat} {text : String} {site : Site}
    (h : site ∈ Script.sites mentions message text) :
    site.message = message ∧ ∃ kind value, site.mention ∈ mentions kind value := by
  obtain ⟨⟨value, index⟩, -, hvalue⟩ := List.mem_flatMap.1 h
  exact ⟨(mem_sites hvalue).1, (mem_sites hvalue).2.2⟩

/-- In a message, the instructions do. -/
theorem Numbered.pairwise_text (h : Numbered length mentions) (message : Nat) (text : String) :
    (Script.sites mentions message text).Pairwise Site.Apart := by
  refine pairwise_flatMap_zipIdx _ (fun (value, i) => h.pairwise_instruction message i value) ?_
  intro x y hne a ha b hb
  apply Site.apart_of_instruction_ne
  rwa [(mem_sites ha).2.1, (mem_sites hb).2.1]

/-- **In a transcript, the messages do.** -/
theorem Numbered.pairwise_sites (h : Numbered length mentions) (messages : List Json) :
    (Transcript.sites mentions messages).Pairwise Site.Apart := by
  refine pairwise_flatMap_zipIdx _ (fun (message, index) => ?_) ?_
  · change ((Transcript.userText? message).elim [] _).Pairwise _
    cases Transcript.userText? message with
    | none => exact List.Pairwise.nil
    | some text => exact h.pairwise_text index text
  · intro x y hne a ha b hb
    obtain ⟨text, ha⟩ := exists_of_mem_elim ha
    obtain ⟨other, hb⟩ := exists_of_mem_elim hb
    apply Site.apart_of_message_ne
    rwa [(mem_text_sites ha).1, (mem_text_sites hb).1]

end Instruction

/-! ## All identifiers -/

namespace Transcript

open Instruction (Site callMentions useMentions serverToolMark)

/-- The calls of the client's tools in the plans of a transcript. -/
def calls (messages : List Json) : List ToolCall :=
  (plans messages).flatMap Plan.calls

/-- The uses of a provider's tools in the plans of a transcript. -/
def serverUses (messages : List Json) : List ServerToolUse :=
  (plans messages).flatMap Plan.serverUses

/-- Where the calls of a transcript stand. -/
def callSites (messages : List Json) : List Site :=
  sites callMentions messages

/-- Where the uses of a transcript stand. -/
def useSites (messages : List Json) : List Site :=
  sites useMentions messages

/-- Where the uses of a transcript stand that are given no identifier. -/
def madeUseSites (messages : List Json) : List Site :=
  (useSites messages).filter Site.isMade

theorem isMade_of_mem_callSites {messages : List Json} {site : Site}
    (h : site ∈ callSites messages) : site.isMade = true := by
  obtain ⟨⟨message, index⟩, -, hmessage⟩ := List.mem_flatMap.1 h
  obtain ⟨text, htext⟩ := Instruction.exists_of_mem_elim hmessage
  obtain ⟨-, kind, value, hmention⟩ := Instruction.mem_text_sites htext
  obtain ⟨call, hcall⟩ := Instruction.exists_of_mem_callMentions hmention
  rw [Site.isMade, ← Instruction.callMention?_eq_some hcall]
  rfl

theorem id_of_isMade (mark : String) {site : Site} (h : site.isMade = true) :
    site.id mark = stableId mark site.parts := by
  rw [Site.id, Instruction.Mention.id, Option.isNone_iff_eq_none.1 h]
  rfl

/-- Identifiers that are made are different if their bytes are and do not collide. -/
theorem nodup_made (mark : String) {sites : List Site} (hmade : ∀ site ∈ sites, site.isMade = true)
    (hbytes : (sites.map Site.bytes).Nodup) (hnone : NoCollision (sites.map Site.bytes)) :
    (sites.map (Site.id mark)).Nodup := by
  have hids : sites.map (Site.id mark) = (sites.map Site.parts).map (stableId mark) := by
    rw [List.map_map]
    exact List.map_congr_left fun site hsite => id_of_isMade mark (hmade site hsite)
  have hpreimages : sites.map Site.bytes = (sites.map Site.parts).map preimage := by
    rw [List.map_map]
    rfl
  rw [hpreimages] at hbytes hnone
  rw [hids]
  exact nodup_stableId mark hnone hbytes

theorem ids_calls (messages : List Json) :
    (calls messages).map ToolCall.id = (callSites messages).map (Site.id "call_") := by
  rw [callSites, ← Instruction.reads_calls.plans, calls, List.map_flatMap]
  refine List.flatMap_congr fun plan _ => ?_
  rw [Plan.calls, List.map_flatMap]
  rfl

theorem ids_serverUses (messages : List Json) :
    (serverUses messages).map ServerToolUse.id =
      (useSites messages).map (Site.id serverToolMark) := by
  rw [useSites, ← Instruction.reads_uses.plans, serverUses, List.map_flatMap]
  refine List.flatMap_congr fun plan _ => ?_
  rw [Plan.serverUses, List.map_flatMap]
  rfl

theorem ids_toolUses (messages : List Json) :
    ((calls messages).map fun call => Message.toolUseId call.id) =
      (callSites messages).map (Site.id "toolu_") := by
  have hcompose : ((calls messages).map fun call => Message.toolUseId call.id) =
      ((calls messages).map ToolCall.id).map Message.toolUseId := by
    rw [List.map_map]
    rfl
  rw [hcompose, ids_calls, List.map_map]
  refine List.map_congr_left fun site hsite => ?_
  have hmade := isMade_of_mem_callSites hsite
  rw [Function.comp_apply, id_of_isMade _ hmade, id_of_isMade _ hmade, toolUseId_stableId]

/-- **Identifiers are unique in a conversation.**  The plans of a transcript are
all that either reading of its texts gives.  Their calls, and their uses of a
provider's tools, stand one for one at sites with different places.  Where an
identifier is made, the bytes that are hashed are different as well.  Unless
hashes collide on these bytes, the identifiers of all calls are different, the
identifiers of the calls as a message shows them, and the identifiers that are
made for uses. -/
theorem made_identifiers_distinct (messages : List Json) :
    (∀ index text, ((Script.plans? (scopeOf index) text).getD
      (Script.single? (scopeOf index) text).toList).Sublist
        (Script.written (scopeOf index) text)) ∧
    ((calls messages).map ToolCall.id = (callSites messages).map (Site.id "call_") ∧
      ((callSites messages).map Site.place).Nodup ∧
      ((callSites messages).map Site.bytes).Nodup) ∧
    ((serverUses messages).map ServerToolUse.id =
        (useSites messages).map (Site.id serverToolMark) ∧
      ((useSites messages).map Site.place).Nodup ∧
      ((madeUseSites messages).map Site.bytes).Nodup) ∧
    (NoCollision ((callSites messages).map Site.bytes) →
      ((calls messages).map ToolCall.id).Nodup ∧
      ((calls messages).map fun call => Message.toolUseId call.id).Nodup) ∧
    (NoCollision ((madeUseSites messages).map Site.bytes) →
      ((madeUseSites messages).map (Site.id serverToolMark)).Nodup) := by
  have hcalls := Instruction.numbered_calls.pairwise_sites messages
  have huses := Instruction.numbered_uses.pairwise_sites messages
  have hcallBytes : ((callSites messages).map Site.bytes).Nodup :=
    List.pairwise_map.2 (hcalls.imp And.right)
  have huseBytes : ((madeUseSites messages).map Site.bytes).Nodup :=
    List.pairwise_map.2 ((huses.filter _).imp And.right)
  refine ⟨fun index text => Script.readings_sublist_written _ text,
    ⟨ids_calls messages, List.pairwise_map.2 (hcalls.imp And.left), hcallBytes⟩,
    ⟨ids_serverUses messages, List.pairwise_map.2 (huses.imp And.left), huseBytes⟩, ?_, ?_⟩
  · intro hnone
    have hmade (site : Site) (hsite : site ∈ callSites messages) := isMade_of_mem_callSites hsite
    rw [ids_calls, ids_toolUses]
    exact ⟨nodup_made "call_" hmade hcallBytes hnone, nodup_made "toolu_" hmade hcallBytes hnone⟩
  · exact nodup_made serverToolMark (fun site hsite => (List.mem_filter.1 hsite).2) huseBytes

/-- A script that is pasted twice.  Its names have the characters that stand
between the parts of an identifier, and digits. -/
def pastedTwice : List Json :=
  List.replicate 2 (.obj [("role", .str "user"), ("content", .str ("<mock-llm-instructions>" ++
    "\x7b\"id\":\"/0\\u0000\",\"messages\":[\x7b\"tool_call\":\x7b\"name\":\"0\"\x7d\x7d," ++
    "\x7b\"server_tool_use\":\x7b\"name\":\"0\"\x7d\x7d]\x7d</mock-llm-instructions>"))])

theorem sites_pastedTwice :
    callSites pastedTwice =
      [⟨0, 0, "/0\x00", 0, ⟨[0], "0", none⟩⟩, ⟨1, 0, "/0\x00", 0, ⟨[0], "0", none⟩⟩] ∧
    madeUseSites pastedTwice =
      [⟨0, 0, "/0\x00", 1, ⟨[], "0", none⟩⟩, ⟨1, 0, "/0\x00", 1, ⟨[], "0", none⟩⟩] := by
  decide +kernel

theorem made_identifiers_distinct_pastedTwice :
    ((calls pastedTwice).map ToolCall.id).length = 2 ∧
    ((calls pastedTwice).map ToolCall.id).Nodup ∧
    ((calls pastedTwice).map fun call => Message.toolUseId call.id).Nodup ∧
    ((madeUseSites pastedTwice).map (Site.id serverToolMark)).length = 2 ∧
    ((madeUseSites pastedTwice).map (Site.id serverToolMark)).Nodup := by
  have hsites := sites_pastedTwice
  have hcalls : NoCollision ((callSites pastedTwice).map Site.bytes) := by
    rw [hsites.1]
    decide +kernel
  have huses : NoCollision ((madeUseSites pastedTwice).map Site.bytes) := by
    rw [hsites.2]
    decide +kernel
  have hdistinct := made_identifiers_distinct pastedTwice
  have hunique := hdistinct.2.2.2.1 hcalls
  refine ⟨?_, hunique.1, hunique.2, ?_, hdistinct.2.2.2.2 huses⟩
  · rw [hdistinct.2.1.1, hsites.1]
    rfl
  · rw [hsites.2]
    rfl

end Transcript

end ScriptedChat
