import ScriptedChat.Proofs.Json.Fields
import ScriptedChat.Proofs.Json.Meaning
import ScriptedChat.Proofs.Text.Numeral

/-!
# A value is read as it was written

Compact text is an exact form of every value without floating-point numbers.
The reader refuses text that is nested too deeply, so the depth of a value
counts as well.

What is proved here:

* `Exact` — the values in question, with their depth;
* `spelling_escape`, `denotes_chars` — what is written of them denotes them;
* `valueText_chars`, `objectText_of_fields` — so it is text of the grammar;
* `readText_compact` — and a whole text is read as it was written.
-/

namespace ScriptedChat.Json

/-! ## Values without floating-point numbers -/

/-- Values whose numbers are whole and whose arrays and objects are nested at
most `d` levels.  That whole numbers have 64 bits and that the fields of an
object are in ascending order is so in every value that a program holds. -/
inductive Exact : Nat → Json → Prop where
  | null {d : Nat} : Exact d .null
  | bool {d : Nat} (b : Bool) : Exact d (.bool b)
  | num {d : Nat} {n : Int} (fits : Fits n) : Exact d (.num (.int n))
  | str {d : Nat} (text : String) : Exact d (.str text)
  | arr {d : Nat} {items : List Json} (exact_items : ∀ v ∈ items, Exact d v) :
    Exact (d + 1) (.arr items)
  | obj {d : Nat} {fields : List (String × Json)} (ascending : Ascending fields)
    (exact_fields : ∀ field ∈ fields, Exact d field.2) : Exact (d + 1) (.obj fields)

/-- An object that is built from fields in any order. -/
theorem Exact.object {d : Nat} {fields : List (String × Json)}
    (h : ∀ field ∈ fields, Exact d field.2) : Exact (d + 1) (object fields) :=
  .obj (ascending_sortFields fields) fun field hmem => h field (mem_of_mem_sortFields hmem)

/-! ## Compact text is JSON -/

theorem wholeText_decimal (n : Nat) : WholeText (Text.decimal n) := by
  cases n with
  | zero =>
    rw [Text.decimal_of_lt (by decide)]
    exact .zero
  | succ n =>
    refine .digits ⟨Text.decimal_ne_nil _, Text.isDigit_of_mem_decimal _⟩ ?_
    obtain ⟨b, digits, hbytes, hne⟩ := decimalBytes_head (n + 1)
    cases hdecimal : Text.decimal (n + 1) with
    | nil => exact nofun
    | cons c more =>
      rw [decimalBytes, hdecimal, Utf8.encode_cons] at hbytes
      rintro ⟨⟩
      exact hne (Nat.succ_pos n) (List.cons.inj hbytes).1.symm

theorem numberText_decimalInt (n : Int) : NumberText (Text.decimalInt n) := by
  have hparts (m : Nat) : Text.decimal m = Text.decimal m ++ ([] ++ []) := by simp
  cases n with
  | ofNat n =>
    rw [Text.decimalInt, hparts]
    exact .parts (.inl rfl) (wholeText_decimal n) .none .none
  | negSucc n =>
    rw [Text.decimalInt, hparts]
    exact .parts (.inr rfl) (wholeText_decimal (n + 1)) .none .none

/-- **A whole number of 64 bits is what is made of its digits.** -/
theorem numberOf_decimalInt {n : Int} (h : Fits n) : NumberOf (Text.decimalInt n) (.int n) := by
  refine ⟨numberText_decimalInt n, ?_⟩
  obtain ⟨list, record, heq⟩ := value_eq maxDepth
  have hread := @valueWith_int list record n [] h .nil
  rw [List.append_nil, ← heq] at hread
  rw [read, whole?, hread]
  rfl

theorem eq_ofNat {c : Char} {n : Nat} (h : c.toNat = n) : c = Char.ofNat n := by
  rw [← h, Char.ofNat_toNat]

theorem numeral?_control :
    ∀ k < 0x20, Text.numeral? 16 ['0', '0', hexChar (k / 16), hexChar (k % 16)] = some k := by
  decide +kernel

/-- What is written of a character stands for it. -/
theorem spelling_escape_cons (c : Char) {text denoted : List Char} (more : Spelling text denoted) :
    Spelling (escape c ++ text) (c :: denoted) := by
  unfold escape
  split
  · rename_i h
    subst h
    exact .escape (.letter (by decide)) more
  rename_i hquote
  split
  · rename_i h
    subst h
    exact .escape (.letter (by decide)) more
  rename_i hslash
  split
  · rename_i h
    subst h
    exact .escape (.letter (by decide)) more
  split
  · rename_i h
    subst h
    exact .escape (.letter (by decide)) more
  split
  · rename_i h
    subst h
    exact .escape (.letter (by decide)) more
  split
  · rename_i h
    rw [eq_ofNat h]
    exact .escape (.letter (by decide)) more
  split
  · rename_i h
    rw [eq_ofNat h]
    exact .escape (.letter (by decide)) more
  split
  · rename_i h
    have hcode : EscapeText _ (Char.ofNat c.toNat) :=
      .code (.digits (numeral?_control c.toNat h)) (fun hlead => by
        have := hlead.1
        omega) fun htrail => by
        have := htrail.1
        omega
    rw [Char.ofNat_toNat] at hcode
    exact .escape hcode more
  · rename_i h
    exact .plain (Nat.not_lt.1 h) (fun heq => hquote (eq_ofNat heq))
      (fun heq => hslash (eq_ofNat heq)) more

theorem spelling_escape (text : List Char) : Spelling (text.flatMap escape ++ ['"']) text := by
  induction text with
  | nil => exact .close
  | cons c text ih =>
    rw [List.flatMap_cons, List.append_assoc]
    exact spelling_escape_cons c ih

theorem stringText_escape (text : List Char) : StringText (text.flatMap escape ++ ['"']) :=
  (spelling_escape text).stringText

/-- The slot of a value that is written without gaps. -/
def compactSlot (v : Json) : Slot :=
  .tight (chars v)

/-- A field that is written without gaps. -/
def compactField (field : String × Json) : Field :=
  { name := .tight (quote field.1), value := compactSlot field.2 }

theorem itemsChars_eq (items : List Json) : itemsChars items = afterItems (items.map compactSlot) := by
  induction items with
  | nil => rfl
  | cons v items ih => rw [itemsChars, List.map_cons, afterItems, compactSlot, Slot.whole_tight, ih]

theorem whole_compactField (k : String) (v : Json) :
    (compactField (k, v)).whole = quote k ++ ':' :: chars v := by
  rw [Field.whole, compactField, Slot.whole_tight, compactSlot, Slot.whole_tight]

theorem fieldsChars_eq (fields : List (String × Json)) :
    fieldsChars fields = afterFields (fields.map compactField) := by
  induction fields with
  | nil => rfl
  | cons field fields ih =>
    obtain ⟨k, v⟩ := field
    rw [fieldsChars, List.map_cons, afterFields, whole_compactField, ih, List.append_assoc]
    rfl

theorem chars_arr (v : Json) (items : List Json) :
    chars (.arr (v :: items)) =
      '[' :: ((compactSlot v).whole ++ afterItems (items.map compactSlot)) := by
  rw [chars, compactSlot, Slot.whole_tight, ← itemsChars_eq]

theorem chars_obj (field : String × Json) (fields : List (String × Json)) :
    chars (.obj (field :: fields)) =
      '\x7b' :: ((compactField field).whole ++ afterFields (fields.map compactField)) := by
  rw [chars, whole_compactField, ← fieldsChars_eq, List.append_assoc]
  rfl

theorem spells_compactField (field : String × Json) : (compactField field).Spells field.1 :=
  ⟨Slot.spaced_tight _, ⟨_, spelling_escape field.1.toList, rfl⟩, Slot.spaced_tight _⟩

theorem nameOf?_quote (name : String) : nameOf? (quote name) = some name :=
  (spells_compactField (name, .null)).nameOf?

/-- What is written of an array of values denotes it. -/
theorem denotes_items {d : Nat} {v : Json} {items : List Json}
    (h : ∀ w ∈ v :: items, Denotes d (chars w) w) :
    Denotes (d + 1) (chars (.arr (v :: items))) (.arr (v :: items)) := by
  have harray := @Denotes.array d (compactSlot v, v) (items.map fun w => (compactSlot w, w))
    (forall_map_cons (f := fun w => (compactSlot w, w)) fun w _ => Slot.spaced_tight (chars w))
    (forall_map_cons (f := fun w => (compactSlot w, w)) h)
  simp only [List.map_cons, List.map_map, Function.comp_def, List.map_id'] at harray
  rwa [chars_arr]

/-- What is written of an object with fields denotes it. -/
theorem denotes_fields {d : Nat} {field : String × Json} {fields : List (String × Json)}
    (h : ∀ entry ∈ field :: fields, Denotes d (chars entry.2) entry.2) :
    Denotes (d + 1) (chars (.obj (field :: fields))) (object (field :: fields)) := by
  have hobject := @Denotes.object d (compactField field, field)
    (fields.map fun entry => (compactField entry, entry))
    (forall_map_cons (f := fun entry => (compactField entry, entry))
      fun entry _ => spells_compactField entry)
    (forall_map_cons (f := fun entry => (compactField entry, entry)) h)
  simp only [List.map_cons, List.map_map, Function.comp_def, List.map_id'] at hobject
  rwa [chars_obj]

/-- **What is written of a value denotes that value.** -/
theorem denotes_chars {d : Nat} {v : Json} (h : Exact d v) : Denotes d (chars v) v := by
  induction h with
  | null => exact .null
  | bool b =>
    cases b with
    | true => exact .yes
    | false => exact .no
  | num fits => exact .number (numberOf_decimalInt fits)
  | str text => exact .string (spelling_escape text.toList)
  | @arr d items _ ih =>
    cases items with
    | nil => exact .emptyArray .nil
    | cons v items => exact denotes_items ih
  | @obj d fields hascending _ ih =>
    cases fields with
    | nil => exact .emptyObject .nil
    | cons field fields =>
      have hobject := denotes_fields ih
      rwa [object_of_ascending hascending] at hobject

theorem valueText_chars {d : Nat} {v : Json} (h : Exact d v) : ValueText d (chars v) :=
  (denotes_chars h).valueText

/-- What is written of an object is an object of the grammar. -/
theorem objectText_of_fields {d : Nat} {fields : List (String × Json)}
    (h : ∀ field ∈ fields, ValueText d (chars field.2)) :
    ObjectText (d + 1) (chars (.obj fields)) := by
  cases fields with
  | nil => exact .empty .nil
  | cons field fields =>
    rw [chars_obj]
    refine .fields ?_ ?_
    · intro entry hentry
      rw [← List.map_cons] at hentry
      obtain ⟨field, -, rfl⟩ := List.mem_map.1 hentry
      exact (spells_compactField field).named
    · intro entry hentry
      rw [← List.map_cons] at hentry
      obtain ⟨field, hfield, rfl⟩ := List.mem_map.1 hentry
      exact h field hfield

/-! ## Whole texts -/

/-- What is written of a value means that value. -/
theorem means_compact {v : Json} (h : Exact maxDepth v) : Means (Utf8.bytes v.compact) v := by
  refine ⟨compactSlot v, Slot.spaced_tight _, denotes_chars h, ?_⟩
  rw [compactSlot, Slot.whole_tight, Utf8.bytes, compact, String.toList_ofList]

/-- **Compact text loses nothing.**  A value without floating-point numbers
that is not nested too deeply is the value of its own text. -/
theorem readText_compact {v : Json} (h : Exact maxDepth v) : readText v.compact = .ok v :=
  read_of_means (means_compact h)

end ScriptedChat.Json
