import ScriptedChat.Chat.Echo
import ScriptedChat.Proofs.Json.Soundness
import ScriptedChat.Proofs.Json.RoundTrip
import ScriptedChat.Proofs.Text.ByteOrder

/-!
# The echo of the parameters

A script can show parameters of a request: those it names, or all but the
messages.  The text that is shown depends on which names are given, and neither
on their order nor on how often each is given.

* `Shows` — a text that is an object with given fields;
* `lookup_chosenFields`, `lookup_otherFields` — the fields behind a text;
* `chosenParams_congr`, `chosenParams_all` — when two lists of names show the
  same;
* `params_echo` — the echo for the body of any request.
-/

namespace ScriptedChat.Chat

/-- A text is the compact object with the fields for which `holds` is true, and
no others, in the order of the bytes of their names. -/
def Shows (text : String) (holds : String → Json → Prop) : Prop :=
  ∃ shown, text = (Json.obj shown).compact ∧
    (shown.Pairwise fun a b => List.Lex (· < ·) (Utf8.bytes a.1) (Utf8.bytes b.1)) ∧
    ∀ name value, (name, value) ∈ shown ↔ holds name value

/-- Fields in ascending order are shown as they are. -/
theorem shows_of_ascending {shown : List (String × Json)} (h : Json.Ascending shown)
    {holds : String → Json → Prop}
    (hmem : ∀ name value, Json.lookup name shown = some value ↔ holds name value) :
    Shows (Json.obj shown).compact holds :=
  ⟨shown, rfl, h.imp Utf8.bytes_lt, fun name value => (Json.mem_iff_lookup h).trans (hmem name value)⟩

variable {body : List (String × Json)} {names others : List String}

/-! ## The names that are given -/

/-- Each name that is given leads to its value in the body, or else to null. -/
theorem lookup_chosenFields (body : Json) (names : List String) (name : String) :
    Json.lookup name
        (Json.sortFields (names.map fun name => (name, Json.orNull (body.get? name)))) =
      if name ∈ names then some (.orNull (body.get? name)) else none :=
  Json.lookup_sortFields_names (fun name => .orNull (body.get? name)) names name

theorem chosenParams_congr (body : Json) (h : ∀ name, name ∈ names ↔ name ∈ others) :
    chosenParams body names = chosenParams body others := by
  refine congrArg Json.obj
    (Json.ascending_ext (Json.ascending_sortFields _) (Json.ascending_sortFields _) fun name => ?_)
  rw [lookup_chosenFields, lookup_chosenFields]
  simp only [h]

theorem shows_chosenParams (hbody : Json.Ascending body) (names : List String) :
    Shows (chosenParams (.obj body) names).compact fun name value =>
      name ∈ names ∧
        ((name, value) ∈ body ∨ value = .null ∧ ∀ other, (name, other) ∉ body) := by
  refine shows_of_ascending (Json.ascending_sortFields _) fun name value => ?_
  rw [lookup_chosenFields]
  simp only [Json.mem_iff_lookup hbody, Json.get?]
  by_cases hmem : name ∈ names
  · cases Json.lookup name body with
    | none => simp [hmem, Json.orNull, eq_comm]
    | some given => simp [hmem, Json.orNull]
  · simp [hmem]

/-! ## All but the messages -/

theorem allParams_obj (body : List (String × Json)) :
    allParams (.obj body) = .obj (body.filter fun (name, _) => name ≠ "messages") := rfl

theorem lookup_otherFields (body : List (String × Json)) (name : String) :
    Json.lookup name (body.filter fun (name, _) => name ≠ "messages") =
      if name = "messages" then none else Json.lookup name body := by
  induction body with
  | nil => simp
  | cons field body ih =>
    obtain ⟨k, v⟩ := field
    rw [List.filter_cons, Json.lookup_cons]
    by_cases hk : k = "messages"
    · subst hk
      simp only [ne_eq, not_true, decide_false, Bool.false_eq_true, if_false]
      rw [ih]
      by_cases hname : name = "messages"
      · rw [if_pos hname, if_pos hname]
      · rw [if_neg hname, if_neg hname, if_neg (Ne.symm hname)]
    · simp only [ne_eq, hk, not_false_eq_true, decide_true, if_true]
      rw [Json.lookup_cons, ih]
      by_cases hname : k = name
      · subst hname
        rw [if_pos rfl, if_neg hk, if_pos rfl]
      · rw [if_neg hname, if_neg hname]

theorem shows_allParams (hbody : Json.Ascending body) :
    Shows (allParams (.obj body)).compact
      fun name value => (name, value) ∈ body ∧ name ≠ "messages" := by
  rw [allParams_obj]
  refine shows_of_ascending (hbody.filter _) fun name value => ?_
  rw [lookup_otherFields, Json.mem_iff_lookup hbody]
  by_cases hname : name = "messages"
  · simp [hname]
  · simp [hname]

/-- The names of all fields but the messages show all fields but the messages. -/
theorem chosenParams_all (hbody : Json.Ascending body)
    (h : ∀ name, name ∈ names ↔ name ≠ "messages" ∧ ∃ value, (name, value) ∈ body) :
    chosenParams (.obj body) names = allParams (.obj body) := by
  rw [allParams_obj]
  refine congrArg Json.obj
    (Json.ascending_ext (Json.ascending_sortFields _) (hbody.filter _) fun name => ?_)
  rw [lookup_chosenFields, lookup_otherFields]
  by_cases hname : name = "messages"
  · have hmem : name ∉ names := fun hmem => ((h name).1 hmem).1 hname
    rw [if_neg hmem, if_pos hname]
  · rw [if_neg hname]
    cases hlookup : Json.lookup name body with
    | none =>
      have hmem : name ∉ names := fun hmem => by
        obtain ⟨-, value, hvalue⟩ := (h name).1 hmem
        exact absurd ((Json.mem_iff_lookup hbody).1 hvalue) (by simp [hlookup])
      rw [if_neg hmem]
    | some value =>
      have hmem : name ∈ names := (h name).2 ⟨hname, value, Json.mem_of_lookup hlookup⟩
      rw [if_pos hmem]
      simp only [Json.get?, hlookup]
      rfl

/-! ## The body of a request -/

theorem body_of_ofBody {value : Json} {chat : Chat} (h : ofBody value = .ok chat) :
    ∃ body, value = .obj body ∧ chat.body = .obj body := by
  cases value with
  | obj body =>
    obtain ⟨messages, -, h⟩ := Json.ok_of_bind h
    cases h
    exact ⟨body, rfl, rfl⟩
  | _ => cases h

/-- A chat request keeps the object that its body is. -/
theorem body_of_read {request : Http.Request} {chat : Chat} (h : read request = .ok chat) :
    ∃ body, Json.read request.body = .ok (.obj body) ∧ chat.body = .obj body := by
  unfold read document at h
  split at h
  · cases h
  · split at h
    · cases h
    · split at h
      · cases h
      · rename_i value hread
        obtain ⟨body, rfl, hbody⟩ := body_of_ofBody h
        exact ⟨body, hread, hbody⟩

theorem paramsText_of_nil {chat : Chat} (h : chat.body = .obj body) :
    chat.paramsText [] = (allParams (.obj body)).compact := by
  rw [paramsText, h]
  rfl

theorem paramsText_of_ne_nil {chat : Chat} (h : chat.body = .obj body) (hne : names ≠ []) :
    chat.paramsText names = (chosenParams (.obj body) names).compact := by
  rw [paramsText, h, if_neg fun hempty => hne (List.isEmpty_iff.1 hempty)]

/-- **Main result.** An echo with names shows the object whose names are exactly
those, each once and in the order of their bytes, with the value in the body or
else null; so it depends on nothing but which names are given.  An echo without
names shows all fields of the body but the messages, and if there are any, their
names in any order show the same. -/
theorem params_echo {request : Http.Request} {chat : Chat} (h : read request = .ok chat) :
    ∃ body, Json.read request.body = .ok (.obj body) ∧
      (∀ names, names ≠ [] →
        Shows (echoText request chat (.requestParams names)) fun name value =>
          name ∈ names ∧ ((name, value) ∈ body ∨
            value = .null ∧ ∀ other, (name, other) ∉ body)) ∧
      (∀ names others, (∀ name, name ∈ names ↔ name ∈ others) →
        echoText request chat (.requestParams names) =
          echoText request chat (.requestParams others)) ∧
      (Shows (echoText request chat (.requestParams [])) fun name value =>
        (name, value) ∈ body ∧ name ≠ "messages") ∧
      ((∃ field ∈ body, field.1 ≠ "messages") → ∀ names,
        (∀ name, name ∈ names ↔ name ≠ "messages" ∧ ∃ value, (name, value) ∈ body) →
          echoText request chat (.requestParams names) =
            echoText request chat (.requestParams [])) := by
  obtain ⟨body, hread, hbody⟩ := body_of_read h
  have hasc := Json.ascending_of_read hread
  refine ⟨body, hread, fun names hne => ?_, fun names others hsame => ?_, ?_, ?_⟩
  · show Shows (chat.paramsText names) _
    rw [paramsText_of_ne_nil hbody hne]
    exact shows_chosenParams hasc names
  · show chat.paramsText names = chat.paramsText others
    by_cases hne : names = []
    · subst hne
      have hothers : others = [] := List.eq_nil_iff_forall_not_mem.2 fun name hmem =>
        absurd ((hsame name).2 hmem) List.not_mem_nil
      rw [hothers]
    · have hothers : others ≠ [] := by
        rintro rfl
        exact hne (List.eq_nil_iff_forall_not_mem.2 fun name hmem =>
          absurd ((hsame name).1 hmem) List.not_mem_nil)
      rw [paramsText_of_ne_nil hbody hne, paramsText_of_ne_nil hbody hothers,
        chosenParams_congr _ hsame]
  · show Shows (chat.paramsText []) _
    rw [paramsText_of_nil hbody]
    exact shows_allParams hasc
  · rintro ⟨⟨name, value⟩, hmem, hname⟩ names hall
    show chat.paramsText names = chat.paramsText []
    have hne : names ≠ [] := List.ne_nil_of_mem ((hall name).2 ⟨hname, value, hmem⟩)
    rw [paramsText_of_ne_nil hbody hne, paramsText_of_nil hbody, chosenParams_all hasc hall]

/-- An object with two fields besides the messages. -/
def switches : List (String × Json) :=
  [("fast", .bool true), ("messages", .arr []), ("safe", .null)]

/-- A request with that object as its body. -/
def switchesRequest : Http.Request :=
  { (default : Http.Request) with body := Utf8.bytes (Json.obj switches).compact }

theorem params_echo_switches :
    ∃ chat, read switchesRequest = .ok chat ∧
      echoText switchesRequest chat (.requestParams ["size", "fast", "size"]) =
        echoText switchesRequest chat (.requestParams ["fast", "size"]) ∧
      echoText switchesRequest chat (.requestParams ["safe", "fast"]) =
        echoText switchesRequest chat (.requestParams []) := by
  have hok : (read switchesRequest).toOption.isSome = true := by decide +kernel
  obtain ⟨chat, hchat⟩ : ∃ chat, read switchesRequest = .ok chat := by
    cases hread : read switchesRequest with
    | ok chat => exact ⟨chat, rfl⟩
    | error failure =>
      rw [hread] at hok
      cases hok
  have hexact : Json.Exact Json.maxDepth (.obj switches) := by
    refine .obj (by simp only [Json.Ascending, switches]; decide) ?_
    simp [switches, Json.Exact.bool, Json.Exact.null, Json.Exact.arr]
  obtain ⟨body, hbody, -, hsame, -, hall⟩ := params_echo hchat
  obtain rfl : body = switches :=
    Json.obj.inj (Except.ok.inj (hbody.symm.trans (Json.readText_compact hexact)))
  refine ⟨chat, hchat, hsame _ _ (by simp), hall ⟨("fast", .bool true), by simp [switches]⟩ _ ?_⟩
  intro name
  simp only [switches, List.mem_cons, Prod.mk.injEq, List.not_mem_nil, or_false]
  grind

end ScriptedChat.Chat
