import ScriptedChat.Endpoint
import ScriptedChat.Proofs.Chat
import ScriptedChat.Proofs.Text.Search
import ScriptedChat.Proofs.Turn

/-!
# Which endpoint answers, and with what status

No path leads to two endpoints, whatever path the one for completions is bound
to.  So a row of endpoints answers a request in the same way in whatever order
they stand and however often; and a reply has one of three statuses, which the
method, the path and the body of the request decide.

* `Endpoint.suffix_of_isAt` — where the paths to an endpoint end;
* `Endpoint.accepts_unique` — at most one endpoint answers a request;
* `Endpoint.reply?_cases` — which replies cannot be computed;
* `dispatch_of_mem`, `dispatch_of_none` — the reply of a row, if one of it
  answers and if none does;
* `Endpoint.Verdict` — what every status of a reply means;
* `dispatch_verdict` — every reply means that, and the order does not count;
* `dispatch_beyond_limits` — objects refused for another field, and a reply that
  is missing.
-/

namespace ScriptedChat

namespace Endpoint

/-! ## The paths of an endpoint -/

/-- **Every path to an endpoint ends in the endpoint's own way**, also one that it is bound to. -/
theorem suffix_of_isAt {settings : Settings} {endpoint : Endpoint} {path : String}
    (h : endpoint.isAt settings path = true) : endpoint.suffix.toList <:+ path.toList := by
  unfold isAt at h
  split at h
  · rename_i base _
    rw [eq_of_beq h, String.toList_append]
    exact List.suffix_append _ _
  · obtain ⟨before, hbefore⟩ := Option.isSome_iff_exists.1 h
    rw [Text.beforeBack?_eq_some.1 hbefore]
    exact List.suffix_append _ _

/-- Neither of two endpoints' ways to end is the end of the other. -/
theorem eq_of_suffix {endpoint other : Endpoint}
    (h : endpoint.suffix.toList <:+ other.suffix.toList) : endpoint = other := by
  revert h
  cases endpoint <;> cases other <;> decide

/-- **At most one endpoint answers a request.** -/
theorem accepts_unique {settings : Settings} {endpoint other : Endpoint} {method path : String}
    (h : endpoint.accepts settings method path = true)
    (hother : other.accepts settings method path = true) : endpoint = other := by
  rw [accepts, Bool.and_eq_true] at h hother
  have hends := suffix_of_isAt h.2
  have hotherEnds := suffix_of_isAt hother.2
  rcases List.suffix_or_suffix_of_suffix hends hotherEnds with hle | hle
  · exact eq_of_suffix hle
  · exact (eq_of_suffix hle).symm

/-! ## One endpoint -/

variable {settings : Settings} {fresh : Fresh} {request : Http.Request} {endpoint : Endpoint}

theorem answer_of_not_accepts
    (h : ¬ endpoint.accepts settings request.method request.path = true) :
    endpoint.answer settings fresh request = .error request.decline := by
  rw [answer, if_neg h]
  rfl

/-- An endpoint that answers refuses a malformed request, and replies to any other. -/
theorem answer_cases (fresh : Fresh)
    (h : endpoint.accepts settings request.method request.path = true) :
    (Chat.Malformed request ∧ ∃ reason,
        endpoint.answer settings fresh request = .error (.malformedRequest reason)) ∨
      (¬ Chat.Malformed request ∧ ∃ chat, Chat.read request = .ok chat ∧
        endpoint.answer settings fresh request =
          .ok (endpoint.reply? settings fresh request chat)) := by
  rw [answer, if_pos h]
  obtain ⟨hbad, reason, hread⟩ | ⟨hgood, chat, hread⟩ := Chat.read_cases request
  · exact .inl ⟨hbad, reason, by rw [hread]; rfl⟩
  · exact .inr ⟨hgood, chat, hread, by rw [hread]; rfl⟩

/-- What an endpoint that answers makes of a request: its reply, or its account of a failure. -/
def outcome (settings : Settings) (fresh : Fresh) (request : Http.Request) (endpoint : Endpoint) :
    Option Http.Reply :=
  match endpoint.answer settings fresh request with
  | .ok reply => reply
  | .error failure => some (endpoint.errorReply failure)

/-! ## Replies that cannot be computed -/

/-- The request is to be answered by filler text, and its length may be any number of 64 bits: these
are too many to be counted. -/
def Uncountable (settings : Settings) (request : Http.Request) : Prop :=
  IsWhole settings.fallback.minWords settings.fallback.maxWords ∧
    ∃ chat, Chat.read request = .ok chat ∧
      (Turn.select settings.fallback chat.messages).origin = .filler

/-- The request is to be answered by a chat completion in one document, and the sum of all tokens is
too great for it. -/
def Unsummable (settings : Settings) (request : Http.Request) : Prop :=
  settings.usage.totalTokens? = none ∧
    Endpoint.completion.accepts settings request.method request.path = true ∧
    ∃ chat, Chat.read request = .ok chat ∧ chat.stream = false

/-- A document is computed, unless it needs a sum of all tokens that is too great. -/
theorem document?_cases (endpoint : Endpoint) (plan : Plan) (stamp : Stamp) :
    (endpoint = .completion ∧ stamp.usage.totalTokens? = none ∧
        endpoint.document? plan stamp = none) ∨
      (¬ (endpoint = .completion ∧ stamp.usage.totalTokens? = none) ∧
        ∃ document, endpoint.document? plan stamp = some document) := by
  cases endpoint with
  | completion =>
    rw [document?, Completion.document?]
    cases htotal : stamp.usage.totalTokens? with
    | none => exact .inl ⟨rfl, rfl, rfl⟩
    | some total => exact .inr ⟨nofun, _, rfl⟩
  | message => exact .inr ⟨nofun, _, rfl⟩

/-- **An endpoint replies with success to every chat request**, unless it cannot compute the reply. -/
theorem reply?_cases (fresh : Fresh) {chat : Chat} (hread : Chat.read request = .ok chat)
    (h : endpoint.accepts settings request.method request.path = true) :
    ((Uncountable settings request ∨ Unsummable settings request) ∧
        endpoint.reply? settings fresh request chat = none) ∨
      (¬ Uncountable settings request ∧ ¬ Unsummable settings request ∧
        ∃ body, endpoint.reply? settings fresh request chat = some (.ok body)) := by
  have hchat {other : Chat} (hother : Chat.read request = .ok other) : other = chat :=
    Except.ok.inj (hother.symm.trans hread)
  obtain ⟨hfiller, hwhole, hselect⟩ | ⟨hcounts, hselect⟩ :=
    select?_cases settings.fallback chat.messages
  · refine .inl ⟨.inl ⟨hwhole, chat, hread, hfiller⟩, ?_⟩
    rw [reply?, prepare, hselect]
    rfl
  have hcountable : ¬ Uncountable settings request := by
    rintro ⟨hwhole, other, hother, hfiller⟩
    exact hcounts ⟨hchat hother ▸ hfiller, hwhole⟩
  rw [reply?, prepare, hselect]
  by_cases hstream : chat.stream = true
  · refine .inr ⟨hcountable, ?_, _, if_pos hstream⟩
    rintro ⟨-, -, other, hother, hwhole⟩
    rw [hchat hother, hstream] at hwhole
    cases hwhole
  · have hdocument := document?_cases endpoint
      ((Turn.select settings.fallback chat.messages).plan.resolve (chat.echoText request))
      (endpoint.stamp settings fresh chat)
    obtain ⟨rfl, htotal, hnone⟩ | ⟨hsums, document, hsome⟩ := hdocument
    · refine .inl ⟨.inr ⟨htotal, h, chat, hread, Bool.eq_false_iff.2 hstream⟩, ?_⟩
      simp [hstream, hnone]
    · refine .inr ⟨hcountable, ?_, .json document, ?_⟩
      · rintro ⟨htotal, haccepts, -⟩
        exact hsums ⟨accepts_unique h haccepts, htotal⟩
      · simp [hstream, hsome]

end Endpoint

/-! ## Rows of endpoints -/

section Row

variable {settings : Settings} {fresh : Fresh} {request : Http.Request}

/-- An endpoint at the head of a row replies to what it answers, and leaves all else to the rest. -/
theorem dispatch_cons (endpoint : Endpoint) (row : List Endpoint) :
    dispatch settings fresh request (endpoint :: row) =
      if endpoint.accepts settings request.method request.path = true then
        endpoint.outcome settings fresh request
      else dispatch settings fresh request row := by
  by_cases h : endpoint.accepts settings request.method request.path = true
  · rw [if_pos h, dispatch, Endpoint.outcome]
    -- what an endpoint that answers fails with is no refusal to answer
    obtain ⟨_, reason, hanswer⟩ | ⟨_, chat, _, hanswer⟩ := Endpoint.answer_cases fresh h
    · rw [hanswer]
      rfl
    · rw [hanswer]
  · rw [if_neg h, dispatch, Endpoint.answer_of_not_accepts h]
    rfl

/-- A row of which no endpoint answers. -/
theorem dispatch_of_none {row : List Endpoint}
    (h : ∀ endpoint ∈ row, ¬ endpoint.accepts settings request.method request.path = true) :
    dispatch settings fresh request row = some (notFound request) := by
  induction row with
  | nil => rfl
  | cons first row ih =>
    obtain ⟨hfirst, hrow⟩ := List.forall_mem_cons.1 h
    rw [dispatch_cons, if_neg hfirst, ih hrow]

/-- **A row of which one endpoint answers replies as that one**, wherever it stands. -/
theorem dispatch_of_mem {row : List Endpoint} {endpoint : Endpoint} (hmem : endpoint ∈ row)
    (h : endpoint.accepts settings request.method request.path = true) :
    dispatch settings fresh request row = endpoint.outcome settings fresh request := by
  induction row with
  | nil => exact absurd hmem List.not_mem_nil
  | cons first row ih =>
    rw [dispatch_cons]
    by_cases hfirst : first.accepts settings request.method request.path = true
    · rw [if_pos hfirst, Endpoint.accepts_unique hfirst h]
    · rw [if_neg hfirst]
      rcases List.mem_cons.1 hmem with rfl | hmem
      · exact absurd h hfirst
      · exact ih hmem

/-- **Only which endpoints stand in a row counts**, not their order nor how often they do. -/
theorem dispatch_congr {row other : List Endpoint}
    (h : ∀ endpoint, endpoint ∈ row ↔ endpoint ∈ other) :
    dispatch settings fresh request row = dispatch settings fresh request other := by
  by_cases hanswers : ∃ endpoint ∈ row,
      endpoint.accepts settings request.method request.path = true
  · obtain ⟨endpoint, hmem, haccepts⟩ := hanswers
    rw [dispatch_of_mem hmem haccepts, dispatch_of_mem ((h endpoint).1 hmem) haccepts]
  · have hrow : ∀ endpoint ∈ row,
        ¬ endpoint.accepts settings request.method request.path = true :=
      fun endpoint hmem haccepts => hanswers ⟨endpoint, hmem, haccepts⟩
    rw [dispatch_of_none hrow,
      dispatch_of_none fun endpoint hmem => hrow endpoint ((h endpoint).2 hmem)]

end Row

/-! ## Statuses -/

namespace Endpoint

theorem mem_all (endpoint : Endpoint) : endpoint ∈ all := by
  cases endpoint <;> decide

/-- Some endpoint answers the request. -/
def Found (settings : Settings) (request : Http.Request) : Prop :=
  ∃ endpoint : Endpoint, endpoint.accepts settings request.method request.path = true

/-- There is a reply, and it has the given status. -/
def HasStatus (reply? : Option Http.Reply) (status : Nat) : Prop :=
  ∃ reply, reply? = some reply ∧ reply.status = status

@[simp]
theorem hasStatus_some (reply : Http.Reply) (status : Nat) :
    HasStatus (some reply) status ↔ reply.status = status := by
  simp [HasStatus]

@[simp]
theorem not_hasStatus_none (status : Nat) : ¬ HasStatus none status := by
  simp [HasStatus]

/-- What the reply to a request has to be. -/
structure Verdict (settings : Settings) (request : Http.Request) (reply? : Option Http.Reply) :
    Prop where
  /-- nothing is said of a request that no endpoint answers but that, whatever its body is -/
  notFound_iff : HasStatus reply? 404 ↔ ¬ Found settings request
  notFound_reply : HasStatus reply? 404 → reply? =
    some
      { status := 404
        body := .text
          ("No simulated endpoint for " ++ request.method ++ " " ++ request.path) }
  malformed_iff : HasStatus reply? 400 ↔ Found settings request ∧ Chat.Malformed request
  /-- an account of the failure in the form of the one endpoint that answers -/
  completion_refusal : accepts settings .completion request.method request.path = true →
    HasStatus reply? 400 → ∃ reason, reply? =
      some
        { status := 400
          body := .json (.obj
            [("error", .obj
              [("code", .null),
               ("message", .str ("Malformed request: " ++ reason)),
               ("param", .null),
               ("type", .str "invalid_request_error")])]) }
  message_refusal : accepts settings .message request.method request.path = true →
    HasStatus reply? 400 → ∃ reason, reply? =
      some
        { status := 400
          body := .json (.obj
            [("error", .obj
              [("message", .str ("Malformed request: " ++ reason)),
               ("type", .str "invalid_request_error")]),
             ("type", .str "error")]) }
  /-- success, in every other case in which the length of filler text can be computed -/
  ok_iff : ¬ Unsummable settings request →
    (HasStatus reply? 200 ↔
      Found settings request ∧ ¬ Chat.Malformed request ∧ ¬ Uncountable settings request)
  missing_iff : ¬ Unsummable settings request →
    (reply? = none ↔
      Found settings request ∧ ¬ Chat.Malformed request ∧ Uncountable settings request)
  /-- no other field of an object than its messages counts -/
  only_messages : ∀ fields, request.bodyFault = none →
    Json.Means request.body (.obj fields) → HasStatus reply? 400 →
      Chat.MessagesFault (.obj fields)
  /-- that holds of every object written within the limits of the reader -/
  only_messages_written : ∀ fields, request.bodyFault = none →
    Json.Exact Json.maxDepth (.obj fields) → request.body = Utf8.bytes (Json.obj fields).compact →
      HasStatus reply? 400 → Chat.MessagesFault (.obj fields)
  status_cases : ∀ reply, reply? = some reply →
    reply.status = 200 ∨ reply.status = 400 ∨ reply.status = 404

variable {settings : Settings} {request : Http.Request} {endpoint : Endpoint}

theorem verdict_notFound (h : ¬ Found settings request) :
    Verdict settings request (some (notFound request)) where
  notFound_iff := iff_of_true ⟨_, rfl, rfl⟩ h
  notFound_reply := fun _ => rfl
  malformed_iff := iff_of_false (by simp [notFound]) fun hboth => h hboth.1
  completion_refusal := fun haccepts => absurd ⟨_, haccepts⟩ h
  message_refusal := fun haccepts => absurd ⟨_, haccepts⟩ h
  ok_iff := fun _ => iff_of_false (by simp [notFound]) fun hall => h hall.1
  missing_iff := fun _ => iff_of_false nofun fun hall => h hall.1
  only_messages := fun _ _ _ hbad => absurd hbad (by simp [notFound])
  only_messages_written := fun _ _ _ _ hbad => absurd hbad (by simp [notFound])
  status_cases := by
    rintro _ ⟨⟩
    exact .inr (.inr rfl)

theorem verdict_errorReply (h : endpoint.accepts settings request.method request.path = true)
    (hbad : Chat.Malformed request) (reason : String) :
    Verdict settings request (some (endpoint.errorReply (.malformedRequest reason))) where
  notFound_iff := iff_of_false (by simp [errorReply, Failure.status])
    fun hnot => hnot ⟨endpoint, h⟩
  notFound_reply := fun hnot => absurd hnot (by simp [errorReply, Failure.status])
  malformed_iff := iff_of_true ⟨_, rfl, rfl⟩ ⟨⟨endpoint, h⟩, hbad⟩
  completion_refusal := by
    intro haccepts _
    obtain rfl := accepts_unique h haccepts
    exact ⟨reason, rfl⟩
  message_refusal := by
    intro haccepts _
    obtain rfl := accepts_unique h haccepts
    exact ⟨reason, rfl⟩
  ok_iff := fun _ => iff_of_false (by simp [errorReply, Failure.status]) fun hall => hall.2.1 hbad
  missing_iff := fun _ => iff_of_false nofun fun hall => hall.2.1 hbad
  only_messages := fun fields hfault hmeans _ =>
    (Chat.malformed_iff_of_means hfault hmeans).1 hbad
  only_messages_written := fun fields hfault hexact hbody _ =>
    (Chat.malformed_iff_of_means hfault (hbody ▸ Json.means_compact hexact)).1 hbad
  status_cases := by
    rintro _ ⟨⟩
    exact .inr (.inl rfl)

theorem verdict_ok (h : Found settings request) (hgood : ¬ Chat.Malformed request)
    (hcountable : ¬ Uncountable settings request) (body : Http.Body) :
    Verdict settings request (some (.ok body)) where
  notFound_iff := iff_of_false (by simp [Http.Reply.ok]) fun hnot => hnot h
  notFound_reply := fun hnot => absurd hnot (by simp [Http.Reply.ok])
  malformed_iff := iff_of_false (by simp [Http.Reply.ok]) fun hboth => hgood hboth.2
  completion_refusal := fun _ hbad => absurd hbad (by simp [Http.Reply.ok])
  message_refusal := fun _ hbad => absurd hbad (by simp [Http.Reply.ok])
  ok_iff := fun _ => iff_of_true ⟨_, rfl, rfl⟩ ⟨h, hgood, hcountable⟩
  missing_iff := fun _ => iff_of_false nofun fun hall => hcountable hall.2.2
  only_messages := fun _ _ _ hbad => absurd hbad (by simp [Http.Reply.ok])
  only_messages_written := fun _ _ _ _ hbad => absurd hbad (by simp [Http.Reply.ok])
  status_cases := by
    rintro _ ⟨⟩
    exact .inl rfl

theorem verdict_missing (h : Found settings request) (hgood : ¬ Chat.Malformed request)
    (hmissing : Uncountable settings request ∨ Unsummable settings request) :
    Verdict settings request none where
  notFound_iff := iff_of_false (not_hasStatus_none _) fun hnot => hnot h
  notFound_reply := fun hnot => absurd hnot (not_hasStatus_none _)
  malformed_iff := iff_of_false (not_hasStatus_none _) fun hboth => hgood hboth.2
  completion_refusal := fun _ hbad => absurd hbad (not_hasStatus_none _)
  message_refusal := fun _ hbad => absurd hbad (not_hasStatus_none _)
  ok_iff := fun hsums => iff_of_false (not_hasStatus_none _)
    fun hall => hall.2.2 (hmissing.resolve_right hsums)
  missing_iff := fun hsums => iff_of_true rfl ⟨h, hgood, hmissing.resolve_right hsums⟩
  only_messages := fun _ _ _ hbad => absurd hbad (not_hasStatus_none _)
  only_messages_written := fun _ _ _ _ hbad => absurd hbad (not_hasStatus_none _)
  status_cases := nofun

end Endpoint

/-- A request for a chat completion. -/
def chatRequest (body : List Char) : Http.Request :=
  { method := "POST"
    target := .origin "/v1/chat/completions" none
    headers := []
    body := Utf8.encode body
    bodyFault := none }

/-- An object without messages, with the given value in another field. -/
def soleField (value : List Char) : Json.Field :=
  { name := .tight (Json.quote "metadata"), value := .tight value }

def soleObject (value : List Char) : List Char :=
  '\x7b' :: ((soleField value).whole ++ Json.afterFields [])

theorem named_soleField (value : List Char) : (soleField value).Named :=
  ⟨Json.Slot.spaced_tight _, ⟨_, Json.stringText_escape "metadata".toList, rfl⟩,
    Json.Slot.spaced_tight _⟩

theorem objectText_sole {d : Nat} {value : List Char} (h : Json.ValueText d value) :
    Json.ObjectText (d + 1) (soleObject value) :=
  .fields (List.forall_mem_singleton.2 (named_soleField value)) (List.forall_mem_singleton.2 h)

/-- Where the value cannot be read with the levels that are left, the object means nothing. -/
theorem not_means_sole {d : Nat} {value : List Char} (h : Json.ValueText d value)
    (hvalue : Json.alone (Json.value 126) value = none) (v : Json) :
    ¬ Json.Means (Utf8.encode (soleObject value)) v := by
  intro hmeans
  have hread := Json.read_slot (Json.Slot.spaced_tight (soleObject value))
    (objectText_sole h).valueText
  rw [Json.Slot.whole_tight, Json.read_of_means hmeans] at hread
  have hfields : [soleField value].mapM
      (Json.entryOf? Json.nameOf? (Json.alone (Json.value 126))) = none := by
    simp [Json.entryOf?, soleField, Json.Slot.tight, hvalue]
  have hobject := (Json.sees_open_object (Json.sees_object (Json.skipsGaps_value 126)
    (List.forall_mem_singleton.2
      ((named_soleField value).sees (h.settled.sees 126))))).eq_alone
  rw [hfields] at hobject
  have hnone : some v = none := hread.trans hobject
  cases hnone

/-- Empty arrays in one another. -/
def nested (levels : Nat) : List Char :=
  List.replicate levels '[' ++ List.replicate levels ']'

theorem nested_succ (levels : Nat) :
    nested (levels + 1) =
      '[' :: ((Json.Slot.tight (nested levels)).whole ++ Json.afterItems []) := by
  rw [Json.Slot.whole_tight, nested, List.replicate_succ, List.replicate_succ' (n := levels),
    List.cons_append, ← List.append_assoc]
  rfl

theorem valueText_nested (levels : Nat) : Json.ValueText (levels + 1) (nested (levels + 1)) := by
  induction levels with
  | zero => exact .emptyArray .nil
  | succ levels ih =>
    rw [nested_succ]
    exact .array (List.forall_mem_singleton.2 (Json.Slot.spaced_tight _))
      (List.forall_mem_singleton.2 ih)

theorem alone_nested (d : Nat) : Json.alone (Json.value d) (nested (d + 1)) = none := by
  induction d with
  | zero => exact Json.sees_too_deep.1.eq_alone
  | succ d ih =>
    have hsettled := (valueText_nested d).settled
    have harray := (Json.sees_open_array (Json.sees_array
      (List.forall_mem_singleton.2 (Json.Slot.spaced_tight (nested (d + 1))))
      (List.forall_mem_singleton.2 hsettled.starts)
      (List.forall_mem_singleton.2 (hsettled.sees d)))).eq_alone
    rw [nested_succ]
    refine harray.trans ?_
    rw [List.mapM_cons, show (Json.Slot.tight (nested (d + 1))).text = nested (d + 1) from rfl, ih]
    rfl

/-- A number greater than every floating-point number, a half of a surrogate pair, and more levels
than there may be together with the object around them. -/
def beyondLimits : List (List Char) :=
  [['1', 'e', '9', '9', '9'], ['"', '\\', 'u', 'd', '8', '0', '0', '"'], nested Json.maxDepth]

theorem valueText_beyondLimits :
    ∀ value ∈ beyondLimits, Json.ValueText Json.maxDepth value ∧
      Json.alone (Json.value 126) value = none := by
  have hone : Json.Digits ['1'] := ⟨nofun, List.all_eq_true.1 (by decide)⟩
  have hnines : Json.Digits ['9', '9', '9'] := ⟨nofun, List.all_eq_true.1 (by decide)⟩
  have hnumber : Json.NumberText ['1', 'e', '9', '9', '9'] :=
    @Json.NumberText.parts [] ['1'] [] ['e', '9', '9', '9'] (.inl rfl) (.digits hone (by decide))
      .none (@Json.ExponentText.digits 'e' [] ['9', '9', '9'] (.inl rfl) (.inl rfl) hnines)
  have hhalf : Json.StringText ['\\', 'u', 'd', '8', '0', '0', '"'] :=
    .more (.code (List.all_eq_true.1 (by decide))) .close
  intro value hvalue
  simp only [beyondLimits, List.mem_cons, List.not_mem_nil, or_false] at hvalue
  obtain rfl | rfl | rfl := hvalue
  · exact ⟨.number hnumber, by decide +kernel⟩
  · exact ⟨.string hhalf, by decide +kernel⟩
  · exact ⟨valueText_nested 126, alone_nested 126⟩

/-- Settings with all numbers of 64 bits as lengths of filler text. They cannot be used. -/
def widest : Settings :=
  { fallback := { minWords := 0, maxWords := 0xFFFFFFFFFFFFFFFF } }

end ScriptedChat
