import ScriptedChat.Proofs.Json.Lexeme

/-!
# Values of the grammar are read in one piece

The reader takes all of a value's text and no more, or refuses it, whatever
stands after it; and it does not matter how many levels are left, once they
suffice.

* `items_last`, `items_more`, `fields_last`, `fields_more` — the rounds of the
  reader inside arrays and objects;
* `answers_items`, `answers_fields` — all rounds, by induction;
* `Settled`, `ValueText.settled` — values, by induction over the grammar;
* `read_slot` — a whole text is what stands between its gaps.
-/

namespace ScriptedChat.Json

/-! ## Gaps -/

theorem Gap.bytes {text : List Char} (h : Gap text) : ∀ b ∈ Utf8.encode text, isSpace b = true := by
  intro b hb
  obtain ⟨c, hc, hb⟩ := List.mem_flatMap.1 hb
  have hgap := h c hc
  simp only [isGap, Bool.or_eq_true, decide_eq_true_eq] at hgap
  obtain ((rfl | rfl) | rfl) | rfl := hgap
  all_goals exact List.mem_singleton.1 hb ▸ rfl

theorem Gap.skip {text : List Char} (h : Gap text) (s : List UInt8) :
    skipSpace (Utf8.encode text ++ s) = skipSpace s :=
  List.dropWhile_append_of_pos h.bytes

/-- A number does not go on with a blank. -/
theorem Gap.endsNumber {text : List Char} (h : Gap text) {s : List UInt8} (hs : EndsNumber s) :
    EndsNumber (Utf8.encode text ++ s) := by
  have hbytes := h.bytes
  cases hencode : Utf8.encode text with
  | nil => exact hs
  | cons b bytes =>
    rw [hencode] at hbytes
    have hb := hbytes b List.mem_cons_self
    refine .cons ?_
    simp only [isSpace, Bool.or_eq_true, beq_iff_eq] at hb
    obtain ((rfl | rfl) | rfl) | rfl := hb
    all_goals decide

/-! ## Arrays -/

variable {item : Reader Json} {outcome : List Char → Option Json}

/-- A byte with which a value begins. -/
def StartByte (b : UInt8) : Prop := isSpace b = false ∧ b ≠ 0x5D

instance (b : UInt8) : Decidable (StartByte b) := inferInstanceAs (Decidable (_ ∧ _))

theorem startByte_digit {b : UInt8} (h : isDigitByte b = true) : StartByte b := by
  refine ⟨isSpace_digit h, ?_⟩
  rintro rfl
  exact absurd h (by decide)

/-- A text begins with a byte that is neither a blank nor the end of an array. -/
def Starts (text : List Char) : Prop :=
  ∃ b bytes, Utf8.encode text = b :: bytes ∧ StartByte b

theorem length_afterItems (slots : List Slot) :
    slots.length < (Utf8.encode (afterItems slots)).length := by
  induction slots with
  | nil => decide
  | cons slot slots ih =>
    have hbytes : Utf8.encode (afterItems (slot :: slots)) =
        0x2C :: (Utf8.encode slot.whole ++ Utf8.encode (afterItems slots)) := by
      rw [afterItems, Utf8.encode_cons, Utf8.encode_append]
      rfl
    rw [hbytes]
    simp only [List.length_cons, List.length_append]
    omega

theorem endsNumber_afterItems (slots : List Slot) (rest : List UInt8) :
    EndsNumber (Utf8.encode (afterItems slots) ++ rest) := by
  cases slots with
  | nil => exact .cons (by decide)
  | cons slot slots => exact .cons (b := 0x2C) (by decide)

theorem encode_whole (slot : Slot) (rest : List UInt8) :
    Utf8.encode slot.whole ++ rest =
      Utf8.encode slot.front ++ (Utf8.encode slot.text ++ (Utf8.encode slot.back ++ rest)) := by
  rw [Slot.whole, Utf8.encode_append, Utf8.encode_append, List.append_assoc, List.append_assoc]

theorem Slot.Spaced.skip {slot : Slot} (h : slot.Spaced) (hstarts : Starts slot.text)
    (rest : List UInt8) : ∃ b more, b ≠ 0x5D ∧
      Utf8.encode slot.text ++ (Utf8.encode slot.back ++ rest) = b :: more ∧
      skipSpace (Utf8.encode slot.whole ++ rest) = b :: more := by
  obtain ⟨b, bytes, hbytes, hb⟩ := hstarts
  refine ⟨b, bytes ++ (Utf8.encode slot.back ++ rest), hb.2, ?_, ?_⟩
  · rw [hbytes, List.cons_append]
  · rw [encode_whole, h.front.skip, hbytes, List.cons_append, skipSpace_cons hb.1]

theorem items_last {fuel : Nat} {read : List Json} {v : Json} {s left rest : List UInt8}
    (h : item s = .ok (v, left)) (hleft : skipSpace left = 0x5D :: rest) :
    items item (fuel + 1) read s = .ok (.arr (v :: read).reverse, rest) := by
  rw [items, h]
  simp only [bind, Except.bind, hleft]

theorem items_more {fuel : Nat} {read : List Json} {v : Json} {b : UInt8}
    {s left next rest : List UInt8} (h : item s = .ok (v, left))
    (hleft : skipSpace left = 0x2C :: next) (hnext : skipSpace next = b :: rest) (hb : b ≠ 0x5D) :
    items item (fuel + 1) read s = items item fuel (v :: read) (b :: rest) := by
  rw [items, h]
  simp only [bind, Except.bind, hleft, hnext]
  split
  · rename_i heq
    exact absurd heq (List.cons_ne_nil _ _)
  · rename_i heq
    exact absurd (List.cons.inj heq).1 hb
  · rfl

theorem items_refused {fuel : Nat} {read : List Json} {s : List UInt8} {fault : Fault}
    (h : item s = .error fault) : items item (fuel + 1) read s = .error fault := by
  rw [items, h]
  rfl

/-- The items of an array, item by item; the gap before the first one is gone already. -/
theorem answers_items (fuel : Nat) (read : List Json) {slot : Slot} {slots : List Slot}
    (rest : List UInt8) (hspaced : ∀ s ∈ slot :: slots, s.Spaced)
    (hstarts : ∀ s ∈ slot :: slots, Starts s.text)
    (hsees : ∀ s ∈ slot :: slots, Sees item s.text (outcome s.text))
    (hfuel : slots.length < fuel) :
    Answers
      (items item fuel read (Utf8.encode slot.text ++
        (Utf8.encode slot.back ++ (Utf8.encode (afterItems slots) ++ rest))))
      (((slot :: slots).mapM fun s => outcome s.text).map fun vs => .arr (read.reverse ++ vs))
      rest := by
  induction slots generalizing slot read fuel with
  | nil =>
    obtain ⟨fuel, rfl⟩ := Nat.exists_eq_add_one_of_ne_zero (Nat.ne_of_gt hfuel)
    have hback := (hspaced slot List.mem_cons_self).back
    have hitem := hsees slot List.mem_cons_self _ (hback.endsNumber (endsNumber_afterItems [] rest))
    cases hout : outcome slot.text with
    | none =>
      rw [hout] at hitem
      obtain ⟨fault, hitem⟩ := hitem
      simp only [List.mapM_cons, hout]
      exact ⟨fault, items_refused hitem⟩
    | some v =>
      rw [hout] at hitem
      have hend := hback.skip (Utf8.encode (afterItems []) ++ rest)
      simp only [List.mapM_cons, hout, List.mapM_nil]
      refine (items_last hitem hend).trans ?_
      rw [List.reverse_cons]
      rfl
  | cons next slots ih =>
    obtain ⟨fuel, rfl⟩ := Nat.exists_eq_add_one_of_ne_zero (Nat.ne_of_gt (Nat.zero_lt_of_lt hfuel))
    have hback := (hspaced slot List.mem_cons_self).back
    have hitem := hsees slot List.mem_cons_self _
      (hback.endsNumber (endsNumber_afterItems (next :: slots) rest))
    cases hout : outcome slot.text with
    | none =>
      rw [hout] at hitem
      obtain ⟨fault, hitem⟩ := hitem
      simp only [List.mapM_cons, hout]
      exact ⟨fault, items_refused hitem⟩
    | some v =>
      rw [hout] at hitem
      have hmore : ∀ s ∈ next :: slots, s ∈ slot :: next :: slots :=
        fun s hs => List.mem_cons_of_mem _ hs
      have hnext := hmore next List.mem_cons_self
      have hcomma : skipSpace (Utf8.encode slot.back ++
          (Utf8.encode (afterItems (next :: slots)) ++ rest)) =
          0x2C :: (Utf8.encode next.whole ++ (Utf8.encode (afterItems slots) ++ rest)) := by
        rw [hback.skip, afterItems, Utf8.encode_cons, Utf8.encode_append, List.append_assoc,
          List.append_assoc]
        rfl
      obtain ⟨b, bytes, hb, htext, hskip⟩ := (hspaced next hnext).skip (hstarts next hnext)
        (Utf8.encode (afterItems slots) ++ rest)
      have htail := ih fuel (v :: read) (fun s hs => hspaced s (hmore s hs))
        (fun s hs => hstarts s (hmore s hs)) (fun s hs => hsees s (hmore s hs))
        (Nat.lt_of_succ_lt_succ hfuel)
      rw [htext] at htail
      rw [items_more hitem hcomma hskip hb, List.mapM_cons, hout]
      rw [List.reverse_cons] at htail
      cases hvalues : (next :: slots).mapM fun s => outcome s.text with
      | none =>
        rw [hvalues] at htail
        exact htail
      | some vs =>
        rw [hvalues] at htail
        simpa using htail

/-- An array after its opening bracket. -/
theorem sees_array {slot : Slot} {slots : List Slot} (hspaced : ∀ s ∈ slot :: slots, s.Spaced)
    (hstarts : ∀ s ∈ slot :: slots, Starts s.text)
    (hsees : ∀ s ∈ slot :: slots, Sees item s.text (outcome s.text)) :
    Sees (array item) (slot.whole ++ afterItems slots)
      (((slot :: slots).mapM fun s => outcome s.text).map .arr) := by
  intro rest _
  obtain ⟨b, bytes, hb, htext, hskip⟩ := (hspaced slot List.mem_cons_self).skip
    (hstarts slot List.mem_cons_self) (Utf8.encode (afterItems slots) ++ rest)
  have hlength := length_afterItems slots
  have hitems := answers_items (b :: bytes).length [] rest hspaced hstarts hsees (by
    rw [← htext]
    simp only [List.length_append]
    omega)
  rw [htext] at hitems
  rw [Utf8.encode_append, List.append_assoc]
  unfold array
  rw [hskip]
  split
  · exact absurd ‹_› (List.cons_ne_nil _ _)
  · exact absurd (List.cons.inj ‹_›).1 hb
  · exact hitems

theorem sees_emptyArray {gap : List Char} (h : Gap gap) :
    Sees (array item) (gap ++ [']']) (some (.arr [])) := by
  intro rest _
  have hend : skipSpace (Utf8.encode [']'] ++ rest) = 0x5D :: rest := rfl
  rw [Utf8.encode_append, List.append_assoc]
  unfold array
  rw [h.skip, hend]
  rfl

/-! ## Objects -/

variable {names : List Char → Option String}

/-- The name and the value of a field, if both of them are read. -/
def entryOf? (names : List Char → Option String) (outcome : List Char → Option Json)
    (field : Field) : Option (String × Json) :=
  (names field.name.text).bind fun name => (outcome field.value.text).map fun v => (name, v)

/-- A reader passes over a gap in front of a value. -/
def SkipsGaps (item : Reader Json) : Prop :=
  ∀ gap s, Gap gap → item (Utf8.encode gap ++ s) = item s

theorem encode_field_whole {field : Field} {body : List Char} (h : field.name.text = '"' :: body)
    (rest : List UInt8) :
    Utf8.encode field.whole ++ rest = Utf8.encode field.name.front ++ 0x22 :: (Utf8.encode body ++
      (Utf8.encode field.name.back ++ 0x3A :: (Utf8.encode field.value.whole ++ rest))) := by
  rw [Field.whole, Utf8.encode_append, List.append_assoc, encode_whole, h]
  rfl

theorem length_afterFields (entries : List Field) :
    entries.length < (Utf8.encode (afterFields entries)).length := by
  induction entries with
  | nil => decide
  | cons entry entries ih =>
    have hbytes : Utf8.encode (afterFields (entry :: entries)) =
        0x2C :: (Utf8.encode entry.whole ++ Utf8.encode (afterFields entries)) := by
      rw [afterFields, Utf8.encode_cons, Utf8.encode_append]
      rfl
    rw [hbytes]
    simp only [List.length_cons, List.length_append]
    omega

theorem endsNumber_afterFields (entries : List Field) (rest : List UInt8) :
    EndsNumber (Utf8.encode (afterFields entries) ++ rest) := by
  cases entries with
  | nil => exact .cons (by decide)
  | cons entry entries => exact .cons (b := 0x2C) (by decide)

theorem fields_last {fuel : Nat} {read : List (String × Json)} {k : String} {v : Json}
    {s afterName body left rest : List UInt8} (hname : string s = .ok (k, afterName))
    (hcolon : skipSpace afterName = 0x3A :: body) (h : item body = .ok (v, left))
    (hleft : skipSpace left = 0x7D :: rest) :
    fields item (fuel + 1) read s = .ok (object ((k, v) :: read).reverse, rest) := by
  rw [fields, hname]
  simp only [bind, Except.bind, hcolon, h, hleft]

theorem fields_more {fuel : Nat} {read : List (String × Json)} {k : String} {v : Json}
    {s afterName body left next rest : List UInt8} (hname : string s = .ok (k, afterName))
    (hcolon : skipSpace afterName = 0x3A :: body) (h : item body = .ok (v, left))
    (hleft : skipSpace left = 0x2C :: next) (hnext : skipSpace next = 0x22 :: rest) :
    fields item (fuel + 1) read s = fields item fuel ((k, v) :: read) rest := by
  rw [fields, hname]
  simp only [bind, Except.bind, hcolon, h, hleft, hnext]

/-- The readers of names and of values see a field. -/
structure SeesField (item : Reader Json) (names : List Char → Option String)
    (outcome : List Char → Option Json) (field : Field) : Prop where
  name : ∃ body, field.name.text = '"' :: body ∧ Sees string body (names field.name.text)
  nameSpaced : field.name.Spaced
  value : Sees item field.value.text (outcome field.value.text)
  valueSpaced : field.value.Spaced

/-- One field is read up to the bytes after its value, or refused. -/
theorem SeesField.cases {field : Field} (h : SeesField item names outcome field)
    (hskips : SkipsGaps item) {body : List Char} (hbody : field.name.text = '"' :: body)
    {after : List UInt8} (hafter : EndsNumber after) :
    (∃ name v afterName start, entryOf? names outcome field = some (name, v) ∧
      string (Utf8.encode body ++ (Utf8.encode field.name.back ++
        0x3A :: (Utf8.encode field.value.whole ++ after))) = .ok (name, afterName) ∧
      skipSpace afterName = 0x3A :: start ∧
      item start = .ok (v, Utf8.encode field.value.back ++ after)) ∨
    entryOf? names outcome field = none ∧ ∀ fuel read, ∃ fault,
      fields item (fuel + 1) read (Utf8.encode body ++ (Utf8.encode field.name.back ++
        0x3A :: (Utf8.encode field.value.whole ++ after))) = .error fault := by
  obtain ⟨body', hbody', hname⟩ := h.name
  obtain rfl : body' = body := (List.cons.inj (hbody'.symm.trans hbody)).2
  have hcolon : skipSpace (Utf8.encode field.name.back ++
      0x3A :: (Utf8.encode field.value.whole ++ after)) =
      0x3A :: (Utf8.encode field.value.whole ++ after) := h.nameSpaced.back.skip _
  have hends : EndsNumber (0x3A :: (Utf8.encode field.value.whole ++ after)) := .cons (by decide)
  have hname := hname _ (h.nameSpaced.back.endsNumber hends)
  have hvalue := h.value _ (h.valueSpaced.back.endsNumber hafter)
  rw [← hskips _ _ h.valueSpaced.front, ← encode_whole] at hvalue
  unfold entryOf?
  cases hn : names field.name.text with
  | none =>
    rw [hn] at hname
    obtain ⟨fault, hname⟩ := hname
    refine .inr ⟨rfl, fun fuel read => ⟨fault, ?_⟩⟩
    rw [fields, hname]
    rfl
  | some name =>
    rw [hn] at hname
    cases hv : outcome field.value.text with
    | none =>
      rw [hv] at hvalue
      obtain ⟨fault, hvalue⟩ := hvalue
      refine .inr ⟨rfl, fun fuel read => ⟨fault, ?_⟩⟩
      rw [fields, hname]
      simp only [bind, Except.bind, hcolon, hvalue]
    | some v =>
      rw [hv] at hvalue
      exact .inl ⟨name, v, _, _, rfl, hname, hcolon, hvalue⟩

/-- The fields of an object, field by field, from after the mark that opens the first name. -/
theorem answers_fields (hskips : SkipsGaps item) (fuel : Nat) (read : List (String × Json))
    {entry : Field} {entries : List Field} {body : List Char}
    (hbody : entry.name.text = '"' :: body) (rest : List UInt8)
    (hsees : ∀ e ∈ entry :: entries, SeesField item names outcome e)
    (hfuel : entries.length < fuel) :
    Answers
      (fields item fuel read (Utf8.encode body ++ (Utf8.encode entry.name.back ++
        0x3A :: (Utf8.encode entry.value.whole ++ (Utf8.encode (afterFields entries) ++ rest)))))
      (((entry :: entries).mapM (entryOf? names outcome)).map fun fs =>
        object (read.reverse ++ fs))
      rest := by
  induction entries generalizing entry read fuel body with
  | nil =>
    obtain ⟨fuel, rfl⟩ := Nat.exists_eq_add_one_of_ne_zero (Nat.ne_of_gt hfuel)
    have hfield := hsees entry List.mem_cons_self
    obtain ⟨name, v, afterName, start, hentry, hname, hcolon, hvalue⟩ | ⟨hnone, hrefused⟩ :=
      hfield.cases hskips hbody (endsNumber_afterFields [] rest)
    · have hend := hfield.valueSpaced.back.skip (Utf8.encode (afterFields []) ++ rest)
      simp only [List.mapM_cons, hentry, List.mapM_nil]
      refine (fields_last hname hcolon hvalue hend).trans ?_
      rw [List.reverse_cons]
      rfl
    · simp only [List.mapM_cons, hnone]
      exact hrefused fuel read
  | cons next entries ih =>
    obtain ⟨fuel, rfl⟩ := Nat.exists_eq_add_one_of_ne_zero (Nat.ne_of_gt (Nat.zero_lt_of_lt hfuel))
    have hfield := hsees entry List.mem_cons_self
    obtain ⟨name, v, afterName, start, hentry, hname, hcolon, hvalue⟩ | ⟨hnone, hrefused⟩ :=
      hfield.cases hskips hbody (endsNumber_afterFields (next :: entries) rest)
    · have hmore : ∀ e ∈ next :: entries, SeesField item names outcome e :=
        fun e he => hsees e (List.mem_cons_of_mem _ he)
      have hnext := hmore next List.mem_cons_self
      obtain ⟨nextBody, hnextBody, -⟩ := hnext.name
      have hcomma : skipSpace (Utf8.encode entry.value.back ++
          (Utf8.encode (afterFields (next :: entries)) ++ rest)) =
          0x2C :: (Utf8.encode next.whole ++ (Utf8.encode (afterFields entries) ++ rest)) := by
        rw [hfield.valueSpaced.back.skip, afterFields, Utf8.encode_cons, Utf8.encode_append,
          List.append_assoc, List.append_assoc]
        rfl
      have hquote : skipSpace
          (Utf8.encode next.whole ++ (Utf8.encode (afterFields entries) ++ rest)) =
          0x22 :: (Utf8.encode nextBody ++ (Utf8.encode next.name.back ++
            0x3A :: (Utf8.encode next.value.whole ++
              (Utf8.encode (afterFields entries) ++ rest)))) := by
        rw [encode_field_whole hnextBody, hnext.nameSpaced.front.skip]
        rfl
      have htail := ih fuel ((name, v) :: read) hnextBody hmore (Nat.lt_of_succ_lt_succ hfuel)
      rw [fields_more hname hcolon hvalue hcomma hquote, List.mapM_cons, hentry]
      rw [List.reverse_cons] at htail
      cases hvalues : (next :: entries).mapM (entryOf? names outcome) with
      | none =>
        rw [hvalues] at htail
        exact htail
      | some fs =>
        rw [hvalues] at htail
        simpa using htail
    · simp only [List.mapM_cons, hnone]
      exact hrefused fuel read

/-- An object after its opening brace. -/
theorem sees_object (hskips : SkipsGaps item) {entry : Field} {entries : List Field}
    (hsees : ∀ e ∈ entry :: entries, SeesField item names outcome e) :
    Sees (objectBody item) (entry.whole ++ afterFields entries)
      (((entry :: entries).mapM (entryOf? names outcome)).map object) := by
  intro rest _
  have hfield := hsees entry List.mem_cons_self
  obtain ⟨body, hbody, -⟩ := hfield.name
  have hlength := length_afterFields entries
  have hquote : skipSpace (Utf8.encode entry.whole ++ (Utf8.encode (afterFields entries) ++ rest)) =
      0x22 :: (Utf8.encode body ++ (Utf8.encode entry.name.back ++
        0x3A :: (Utf8.encode entry.value.whole ++ (Utf8.encode (afterFields entries) ++ rest)))) := by
    rw [encode_field_whole hbody, hfield.nameSpaced.front.skip]
    rfl
  rw [Utf8.encode_append, List.append_assoc]
  unfold objectBody
  rw [hquote]
  exact answers_fields hskips _ [] hbody rest hsees (by
    simp only [List.length_append, List.length_cons]
    omega)

theorem sees_emptyObject {gap : List Char} (h : Gap gap) :
    Sees (objectBody item) (gap ++ ['\x7d']) (some (.obj [])) := by
  intro rest _
  have hend : skipSpace (Utf8.encode ['\x7d'] ++ rest) = 0x7D :: rest := rfl
  rw [Utf8.encode_append, List.append_assoc]
  unfold objectBody
  rw [h.skip, hend]
  rfl

/-! ## Values -/

/-- What follows an opening byte is left to the reader for it. -/
theorem valueWith_open (list record : Reader Json) (s : List UInt8) :
    valueWith list record (0x22 :: s) = (string s).map (fun (text, s) => (.str text, s))
      ∧ valueWith list record (0x5B :: s) = list s
      ∧ valueWith list record (0x7B :: s) = record s := by
  refine ⟨?_, ?_, ?_⟩
  · unfold valueWith
    rw [skipSpace_cons (by decide)]
    rfl
  · unfold valueWith
    rw [skipSpace_cons (by decide)]
    rfl
  · unfold valueWith
    rw [skipSpace_cons (by decide)]
    rfl

theorem value_eq (d : Nat) :
    ∃ list record, value d = valueWith list record := by
  cases d with
  | zero => exact ⟨_, _, rfl⟩
  | succ d => exact ⟨_, _, rfl⟩

theorem skipsGaps_value (d : Nat) : SkipsGaps (value d) := by
  intro gap s hgap
  obtain ⟨list, record, heq⟩ := value_eq d
  rw [heq]
  unfold valueWith
  rw [hgap.skip]

/-- A value is read in one piece at every depth, and in one way wherever `n` levels are left. -/
structure Settled (n : Nat) (text : List Char) : Prop where
  starts : Starts text
  sees : ∀ d, Sees (value d) text (alone (value d) text)
  stable : ∀ d, n ≤ d → alone (value d) text = alone (value n) text

/-- Values without arrays and objects in them. -/
theorem Settled.flat {n : Nat} {text : List Char} (outcome : Option Json) (hstarts : Starts text)
    (h : ∀ list record, Sees (valueWith list record) text outcome) : Settled n text := by
  have hsees (d : Nat) : Sees (value d) text outcome := by
    obtain ⟨list, record, heq⟩ := value_eq d
    exact heq ▸ h list record
  exact ⟨hstarts, fun d => (hsees d).sees_alone,
    fun d _ => (hsees d).eq_alone.trans (hsees n).eq_alone.symm⟩

/-- Arrays and objects: one level less is left inside them. -/
theorem Settled.nested {n : Nat} {text : List Char} {outcome : Nat → Option Json}
    (hstarts : Starts text) (hzero : Sees (value 0) text none)
    (hsucc : ∀ d, Sees (value (d + 1)) text (outcome d))
    (hstable : ∀ d, n ≤ d → outcome d = outcome n) : Settled (n + 1) text := by
  refine ⟨hstarts, fun d => ?_, fun d hd => ?_⟩
  · cases d with
    | zero => exact hzero.sees_alone
    | succ d => exact (hsucc d).sees_alone
  · obtain ⟨d, rfl⟩ := Nat.exists_eq_add_one_of_ne_zero (by omega : d ≠ 0)
    calc alone (value (d + 1)) text
      _ = outcome d := (hsucc d).eq_alone
      _ = outcome n := hstable d (Nat.le_of_succ_le_succ hd)
      _ = alone (value (n + 1)) text := (hsucc n).eq_alone.symm

theorem WholeText.byte {text : List Char} (h : WholeText text) :
    ∃ b bytes, Utf8.encode text = b :: bytes ∧ isDigitByte b = true := by
  cases h with
  | zero => exact ⟨_, _, rfl, by decide⟩
  | digits hdigits =>
    obtain ⟨b, bytes, hbytes, hall⟩ := hdigits.bytes
    exact ⟨b, bytes, hbytes, hall b List.mem_cons_self⟩

theorem settled_number {n : Nat} {text : List Char} (h : NumberText text) : Settled n text := by
  cases h with
  | @parts sign whole fraction exponent hsign hwhole hfraction hexponent =>
    rcases hsign with rfl | rfl
    · obtain ⟨outcome, hsees⟩ := sees_number false hwhole hfraction hexponent
      obtain ⟨b, bytes, hbytes, hb⟩ := hwhole.byte
      have htext : Utf8.encode ([] ++ (whole ++ (fraction ++ exponent))) =
          b :: (bytes ++ Utf8.encode (fraction ++ exponent)) := by
        rw [List.nil_append, Utf8.encode_append, hbytes, List.cons_append]
      refine .flat outcome ⟨b, _, htext, startByte_digit hb⟩ fun list record rest hrest => ?_
      have hnumber := hsees rest hrest
      rw [List.nil_append] at htext
      rw [htext] at hnumber
      rw [List.nil_append, htext, List.cons_append, valueWith_digit hb]
      exact hnumber
    · obtain ⟨outcome, hsees⟩ := sees_number true hwhole hfraction hexponent
      exact .flat outcome ⟨0x2D, _, rfl, by decide⟩ fun list record rest hrest => hsees rest hrest

theorem settled_string {n : Nat} {body : List Char} (h : StringText body) :
    Settled n ('"' :: body) := by
  obtain ⟨outcome, hsees⟩ := sees_string h
  have hvalue (list record : Reader Json) :
      Sees (valueWith list record) ('"' :: body) (outcome.map .str) := by
    intro rest hrest
    have hstring := hsees rest hrest
    show Answers (valueWith list record (0x22 :: (Utf8.encode body ++ rest))) _ _
    rw [(valueWith_open list record _).1]
    cases outcome with
    | some text => rw [show string _ = _ from hstring]; rfl
    | none =>
      obtain ⟨fault, hstring⟩ := hstring
      exact ⟨fault, by rw [hstring]; rfl⟩
  exact .flat _ ⟨0x22, _, rfl, by decide⟩ hvalue

theorem sees_open_array {d : Nat} {text : List Char} {outcome : Option Json}
    (h : Sees (array (value d)) text outcome) : Sees (value (d + 1)) ('[' :: text) outcome := by
  intro rest hrest
  show Answers (value (d + 1) (0x5B :: (Utf8.encode text ++ rest))) _ _
  rw [value, (valueWith_open _ _ _).2.1]
  exact h rest hrest

theorem sees_open_object {d : Nat} {text : List Char} {outcome : Option Json}
    (h : Sees (objectBody (value d)) text outcome) :
    Sees (value (d + 1)) ('\x7b' :: text) outcome := by
  intro rest hrest
  show Answers (value (d + 1) (0x7B :: (Utf8.encode text ++ rest))) _ _
  rw [value, (valueWith_open _ _ _).2.2]
  exact h rest hrest

/-- Where no level is left, arrays and objects are refused. -/
theorem sees_too_deep {text : List Char} :
    Sees (value 0) ('[' :: text) none ∧ Sees (value 0) ('\x7b' :: text) none :=
  ⟨fun rest _ => ⟨⟨.nestingTooDeep, Utf8.encode text ++ rest⟩, rfl⟩,
    fun rest _ => ⟨⟨.nestingTooDeep, Utf8.encode text ++ rest⟩, rfl⟩⟩

theorem mapM_congr_left {α β : Type} {f g : α → Option β} {xs : List α}
    (h : ∀ x ∈ xs, f x = g x) : xs.mapM f = xs.mapM g := by
  induction xs with
  | nil => rfl
  | cons x xs ih =>
    rw [List.mapM_cons, List.mapM_cons, h x List.mem_cons_self,
      ih fun y hy => h y (List.mem_cons_of_mem _ hy)]

/-- The name of a field, from its opening mark on. -/
def nameOf? (text : List Char) : Option String :=
  alone string text.tail

theorem Field.Named.sees {field : Field} (h : field.Named)
    (hvalue : Sees item field.value.text (outcome field.value.text)) :
    SeesField item nameOf? outcome field := by
  obtain ⟨body, hbody, hname⟩ := h.name
  obtain ⟨name, hsees⟩ := sees_string hbody
  refine ⟨⟨body, hname, ?_⟩, h.spaced, hvalue, h.value⟩
  rw [nameOf?, hname]
  exact hsees.sees_alone

/-- **Every value of the grammar is read in one piece**, by induction over the grammar. -/
theorem ValueText.settled {n : Nat} {text : List Char} (h : ValueText n text) : Settled n text := by
  induction h with
  | null => exact .flat (some .null) ⟨0x6E, _, rfl, by decide⟩ fun _ _ _ _ => rfl
  | yes => exact .flat (some (.bool true)) ⟨0x74, _, rfl, by decide⟩ fun _ _ _ _ => rfl
  | no => exact .flat (some (.bool false)) ⟨0x66, _, rfl, by decide⟩ fun _ _ _ _ => rfl
  | number hnumber => exact settled_number hnumber
  | string hstring => exact settled_string hstring
  | emptyArray hgap =>
    exact .nested ⟨0x5B, _, rfl, by decide⟩ sees_too_deep.1
      (fun d => sees_open_array (sees_emptyArray hgap)) fun _ _ => rfl
  | array hspaced _ ih =>
    refine .nested ⟨0x5B, _, rfl, by decide⟩ sees_too_deep.1
      (fun d => sees_open_array (sees_array hspaced (fun s hs => (ih s hs).starts)
        fun s hs => (ih s hs).sees d)) fun d hd => ?_
    rw [mapM_congr_left fun s hs => (ih s hs).stable d hd]
  | emptyObject hgap =>
    exact .nested ⟨0x7B, _, rfl, by decide⟩ sees_too_deep.2
      (fun d => sees_open_object (sees_emptyObject hgap)) fun _ _ => rfl
  | object hnamed _ ih =>
    refine .nested ⟨0x7B, _, rfl, by decide⟩ sees_too_deep.2
      (fun d => sees_open_object (sees_object (skipsGaps_value d) fun e he =>
        (hnamed e he).sees ((ih e he).sees d))) fun d hd => ?_
    refine congrArg (Option.map Json.object) (mapM_congr_left fun e he => ?_)
    rw [entryOf?, entryOf?, (ih e he).stable d hd]

/-- What is read of an object is an object. -/
theorem ObjectText.isObject {n d : Nat} {text : List Char} {v : Json} (h : ObjectText n text)
    (hread : alone (value d) text = some v) : ∃ fields, v = .obj fields := by
  cases d with
  | zero =>
    have hnone : alone (value 0) text = none := by
      cases h with
      | empty => exact sees_too_deep.2.eq_alone
      | fields => exact sees_too_deep.2.eq_alone
    exact absurd (hnone.symm.trans hread) nofun
  | succ d =>
    cases h with
    | empty hgap =>
      have hempty := (sees_open_object (d := d) (sees_emptyObject hgap)).eq_alone
      exact ⟨[], (Option.some.inj (hempty.symm.trans hread)).symm⟩
    | fields hnamed hvalues =>
      have hfields := (sees_open_object (sees_object (skipsGaps_value d) fun e he =>
        (hnamed e he).sees ((hvalues e he).settled.sees d))).eq_alone
      obtain ⟨fs, -, hobject⟩ := Option.map_eq_some_iff.1 (hfields.symm.trans hread)
      exact ⟨_, hobject.symm⟩

/-! ## Whole texts -/

/-- **A whole text is what stands between its gaps.** -/
theorem read_slot {n : Nat} {slot : Slot} (hspaced : slot.Spaced) (h : ValueText n slot.text) :
    (read (Utf8.encode slot.whole)).toOption = alone (value maxDepth) slot.text := by
  have hback : EndsNumber (Utf8.encode slot.back) := by
    have hends := hspaced.back.endsNumber .nil
    rwa [List.append_nil] at hends
  have hend : skipSpace (Utf8.encode slot.back) = [] := by
    have hskip := hspaced.back.skip []
    rwa [List.append_nil] at hskip
  have hread := h.settled.sees maxDepth _ hback
  rw [← skipsGaps_value maxDepth _ _ hspaced.front, ← Utf8.encode_append, ← Utf8.encode_append]
    at hread
  show (read (Utf8.encode (slot.front ++ (slot.text ++ slot.back)))).toOption = _
  unfold read whole?
  cases hvalue : alone (value maxDepth) slot.text with
  | none =>
    rw [hvalue] at hread
    obtain ⟨fault, hread⟩ := hread
    rw [hread]
    rfl
  | some v =>
    rw [hvalue] at hread
    rw [show value maxDepth _ = _ from hread]
    simp only [bind, Except.bind, hend]
    rfl

end ScriptedChat.Json
