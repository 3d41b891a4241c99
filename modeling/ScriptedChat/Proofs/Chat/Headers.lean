import ScriptedChat.Proofs.Chat.Echo

/-!
# The echo of the headers

A script can show the headers of a request.  Headers are sent in some order, the
case of letters in their names does not count, and a name may come more than
once.  A request keeps the values of every name in their order, and need not keep
the order of different names; what is shown does not depend on that.

* `valuesOf`, `Carries` — what is sent under a name, and a request that keeps it;
* `FieldOf` — the field that is shown for a name;
* `shows_headers`, `readText_headers` — the fields that are shown, and read again;
* `headers_echo` — the echo for all headers that are sent.
-/

namespace ScriptedChat.Chat

variable {request : Http.Request} {sent others : List (String × List UInt8)}

/-! ## Headers that are sent -/

/-- The values that are sent under a name in lower case, in their order. -/
def valuesOf (sent : List (String × List UInt8)) (name : String) : List (List UInt8) :=
  (sent.filter fun header => Http.lowerCase header.1 == name).map Prod.snd

/-- The request has the headers that are sent, the values of every name in their order. -/
def Carries (request : Http.Request) (sent : List (String × List UInt8)) : Prop :=
  ∀ name, (request.headers.filter fun header => header.name == name).map Http.Header.value =
    valuesOf sent name

/-- Two ways of sending the same headers: one is the other in an order that keeps the values of every
name in order. -/
def SameValues (sent others : List (String × List UInt8)) : Prop :=
  ∀ name, valuesOf sent name = valuesOf others name

/-- A request may keep the headers just as they are sent. -/
theorem carries_named
    (h : request.headers = sent.map fun header => .named header.1 header.2) :
    Carries request sent := by
  intro name
  rw [h, List.filter_map, List.map_map]
  rfl

/-- Neighbours with different names may change places. -/
theorem sameValues_swap {a b : String × List UInt8}
    (h : Http.lowerCase a.1 ≠ Http.lowerCase b.1) (front back : List (String × List UInt8)) :
    SameValues (front ++ a :: b :: back) (front ++ b :: a :: back) := by
  intro name
  rw [valuesOf, valuesOf, List.filter_append, List.filter_append]
  congr 2
  by_cases ha : Http.lowerCase a.1 = name
  · have hb : Http.lowerCase b.1 ≠ name := fun hb => h (ha.trans hb.symm)
    simp [ha, hb]
  · simp [ha, List.filter_cons]

theorem valuesOf_ne_nil {name : String} :
    valuesOf sent name ≠ [] ↔ ∃ header ∈ sent, Http.lowerCase header.1 = name := by
  rw [valuesOf, ne_eq, List.map_eq_nil_iff, List.filter_eq_nil_iff]
  simp

/-! ## What is shown -/

/-- The values of a name as they are shown: as text, with a comma and a space between them. -/
def shownValues (values : List (List UInt8)) : Json :=
  .str (String.intercalate ", " (values.map Utf8.decodeLossy))

/-- The field that is shown for a name that is sent. -/
def FieldOf (sent : List (String × List UInt8)) (name : String) (value : Json) : Prop :=
  (∃ header ∈ sent, Http.lowerCase header.1 = name) ∧ value = shownValues (valuesOf sent name)

theorem headerValue_eq (h : Carries request sent) (name : String) :
    Json.str (headerValue request.headers name) = shownValues (valuesOf sent name) := by
  rw [shownValues, ← h name, List.map_map]
  rfl

theorem mem_names (h : Carries request sent) (name : String) :
    name ∈ request.headers.map Http.Header.name ↔
      ∃ header ∈ sent, Http.lowerCase header.1 = name := by
  rw [← valuesOf_ne_nil, ← h name, ne_eq, List.map_eq_nil_iff, List.filter_eq_nil_iff]
  simp

/-- The fields of all headers, sorted. -/
def headerFields (headers : List Http.Header) : List (String × Json) :=
  Json.sortFields (headers.map fun header => (header.name, .str (headerValue headers header.name)))

theorem headersJson_eq (headers : List Http.Header) :
    headersJson headers = .obj (headerFields headers) := rfl

theorem lookup_headerFields (h : Carries request sent) (name : String) (value : Json) :
    Json.lookup name (headerFields request.headers) = some value ↔ FieldOf sent name value := by
  have hnames : (request.headers.map fun header =>
      (header.name, Json.str (headerValue request.headers header.name))) =
      (request.headers.map Http.Header.name).map fun name =>
        (name, .str (headerValue request.headers name)) := by
    rw [List.map_map]
    rfl
  rw [headerFields, hnames,
    Json.lookup_sortFields_names fun name => .str (headerValue request.headers name),
    headerValue_eq h, FieldOf, ← mem_names h]
  by_cases hmem : name ∈ request.headers.map Http.Header.name
  · simp only [hmem, if_true, true_and, Option.some.injEq, eq_comm]
  · simp only [hmem, if_false, false_and, reduceCtorEq]

theorem shows_headers (h : Carries request sent) :
    Shows (headersText request) (FieldOf sent) :=
  shows_of_ascending (Json.ascending_sortFields _) (lookup_headerFields h)

/-- **What is shown is read again**, with all fields as they are shown. -/
theorem readText_headers (h : Carries request sent) :
    ∃ fields, Json.readText (headersText request) = .ok (.obj fields) ∧
      ∀ name value, (name, value) ∈ fields ↔ FieldOf sent name value := by
  have hascending : Json.Ascending (headerFields request.headers) := Json.ascending_sortFields _
  refine ⟨headerFields request.headers, ?_, fun name value => ?_⟩
  · refine Json.readText_compact (.obj hascending ?_)
    rintro ⟨name, value⟩ hmem
    obtain ⟨-, rfl⟩ := (lookup_headerFields h name value).1 ((Json.mem_iff_lookup hascending).1 hmem)
    exact .str _
  · exact (Json.mem_iff_lookup hascending).trans (lookup_headerFields h name value)

/-- Requests that carry the same values under every name show the same. -/
theorem headersText_congr {other : Http.Request} (h : Carries request sent)
    (hother : Carries other others) (hsame : SameValues sent others) :
    headersText request = headersText other := by
  have hcarries : Carries other sent := fun name => (hother name).trans (hsame name).symm
  have hfields : headerFields request.headers = headerFields other.headers := by
    refine Json.ascending_ext (Json.ascending_sortFields _) (Json.ascending_sortFields _)
      fun name => Option.ext fun value => ?_
    exact (lookup_headerFields h name value).trans (lookup_headerFields hcarries name value).symm
  rw [headersText, headersText, headersJson_eq, headersJson_eq, hfields]

/-- **The echo of the headers.**  It shows the object whose names are exactly those that are sent, in
lower case, each once and in the order of their bytes; the value of each is all its values, in the
order in which they are sent, with the bytes that are no text replaced.  Reading the text gives these
fields again.  The text is the same in every order that keeps the values of every name in order. -/
theorem headers_echo (h : Carries request sent) (chat : Chat) :
    Shows (echoText request chat .requestHeaders) (FieldOf sent) ∧
      (∃ fields, Json.readText (echoText request chat .requestHeaders) = .ok (.obj fields) ∧
        ∀ name value, (name, value) ∈ fields ↔ FieldOf sent name value) ∧
      ∀ other otherChat others, Carries other others → SameValues sent others →
        echoText request chat .requestHeaders = echoText other otherChat .requestHeaders :=
  ⟨shows_headers h, readText_headers h, fun _ _ _ hother hsame => headersText_congr h hother hsame⟩

/-- Two values of one name, spelled in two ways, around the value of another that is no text. -/
def traced : List (String × List UInt8) :=
  [("X-Trace", [0x61]), ("Accept", [0x2A, 0xFF]), ("x-trace", [0x62])]

/-- The same with the other name in front. -/
def acceptFirst : List (String × List UInt8) :=
  [("Accept", [0x2A, 0xFF]), ("X-Trace", [0x61]), ("x-trace", [0x62])]

def requestWith (sent : List (String × List UInt8)) : Http.Request :=
  { (default : Http.Request) with headers := sent.map fun header => .named header.1 header.2 }

theorem headers_echo_traced :
    echoText (requestWith traced) default .requestHeaders =
        "\x7b\"accept\":\"*\uFFFD\",\"x-trace\":\"a, b\"\x7d" ∧
      (∃ fields, Json.readText (echoText (requestWith traced) default .requestHeaders) =
          .ok (.obj fields) ∧
        ∀ name value, (name, value) ∈ fields ↔ FieldOf traced name value) ∧
      echoText (requestWith traced) default .requestHeaders =
        echoText (requestWith acceptFirst) default .requestHeaders := by
  obtain ⟨-, hread, hsame⟩ := headers_echo (@carries_named (requestWith traced) traced rfl) default
  refine ⟨by decide +kernel, hread, hsame _ _ acceptFirst (carries_named rfl) ?_⟩
  exact sameValues_swap (by decide) [] [("x-trace", [0x62])]

end ScriptedChat.Chat
