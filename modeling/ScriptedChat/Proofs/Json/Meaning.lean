import ScriptedChat.Proofs.Json.Reading

/-!
# What JSON text denotes

The grammar says which texts are JSON.  Here it says what they mean, and leaves
out what cannot be held: a half of a surrogate pair without the other half, a
number that is too great for floating point, and more levels of arrays and
objects than there may be.

* `EscapeText`, `Spelling` — the characters of a string, and the text that they
  denote;
* `NumberOf` — numbers that can be held;
* `Denotes depth` — texts of the grammar, with the values that they denote;
* `Means` — whole texts;
* `Spelling.string`, `Spelling.stringText`, `Denotes.valueText` — these are texts
  of the grammar, and strings are read as what they denote;
* `Denotes.alone_eq` — so are values, by induction over the values in them;
* `read_of_means` — and whole texts.
-/

namespace ScriptedChat.Json

/-! ## Strings -/

/-- The letters after a backslash, with the characters that they stand for. -/
def letterEscapes : List (Char × Char) :=
  [('"', '"'), ('\\', '\\'), ('/', '/'), ('b', '\x08'), ('f', '\x0C'), ('n', '\n'), ('r', '\r'),
    ('t', '\t')]

/-- A number as an escape of four hexadecimal digits. -/
inductive CodeText : List Char → Nat → Prop where
  | digits {a b c d : Char} {n : Nat} (number : Text.numeral? 16 [a, b, c, d] = some n) :
    CodeText ['\\', 'u', a, b, c, d] n

/-- The first half of a surrogate pair. -/
def LeadingHalf (n : Nat) : Prop := 0xD800 ≤ n ∧ n ≤ 0xDBFF

/-- The second half of a surrogate pair. -/
def TrailingHalf (n : Nat) : Prop := 0xDC00 ≤ n ∧ n ≤ 0xDFFF

/-- The character of a surrogate pair. -/
def pairChar (lead trail : Nat) : Char :=
  Char.ofNat (0x10000 + (lead - 0xD800) * 0x400 + (trail - 0xDC00))

/-- An escape and the character that it stands for. The two halves of a pair stand together. -/
inductive EscapeText : List Char → Char → Prop where
  | letter {c denoted : Char} (letter : (c, denoted) ∈ letterEscapes) :
    EscapeText ['\\', c] denoted
  | code {part : List Char} {n : Nat} (code : CodeText part n) (no_lead : ¬ LeadingHalf n)
    (no_trail : ¬ TrailingHalf n) : EscapeText part (Char.ofNat n)
  | pair {first second : List Char} {lead trail : Nat} (first_code : CodeText first lead)
    (leads : LeadingHalf lead) (second_code : CodeText second trail)
    (trails : TrailingHalf trail) : EscapeText (first ++ second) (pairChar lead trail)

/-- A string after its opening mark, and the text that it denotes. -/
inductive Spelling : List Char → List Char → Prop where
  | close : Spelling ['"'] []
  | plain {c : Char} {text denoted : List Char} (printable : 0x20 ≤ c.toNat)
    (no_quote : c.toNat ≠ 0x22) (no_slash : c.toNat ≠ 0x5C) (more : Spelling text denoted) :
    Spelling (c :: text) (c :: denoted)
  | escape {part text denoted : List Char} {c : Char} (escape : EscapeText part c)
    (more : Spelling text denoted) : Spelling (part ++ text) (c :: denoted)

/-! ## Values -/

/-- A number that can be held.  Its digits and its scale are rounded one after the other, so that it
is worth what is made of its text when nothing else stands there. -/
structure NumberOf (text : List Char) (n : Number) : Prop where
  number : NumberText text
  read : read (Utf8.encode text) = .ok (.num n)

/-- A field with the given name. -/
structure Field.Spells (field : Field) (name : String) : Prop where
  spaced : field.name.Spaced
  name : ∃ body, Spelling body name.toList ∧ field.name.text = '"' :: body
  value : field.value.Spaced

/-- A value in which arrays and objects are nested at most so many levels, from its first to its
last character, and the value that it denotes. -/
inductive Denotes : Nat → List Char → Json → Prop where
  | null {d : Nat} : Denotes d ['n', 'u', 'l', 'l'] .null
  | yes {d : Nat} : Denotes d ['t', 'r', 'u', 'e'] (.bool true)
  | no {d : Nat} : Denotes d ['f', 'a', 'l', 's', 'e'] (.bool false)
  | number {d : Nat} {text : List Char} {n : Number} (number : NumberOf text n) :
    Denotes d text (.num n)
  | string {d : Nat} {body : List Char} {text : String} (string : Spelling body text.toList) :
    Denotes d ('"' :: body) (.str text)
  | emptyArray {d : Nat} {gap : List Char} (gap_text : Gap gap) :
    Denotes (d + 1) ('[' :: (gap ++ [']'])) (.arr [])
  | array {d : Nat} {item : Slot × Json} {items : List (Slot × Json)}
    (spaced : ∀ entry ∈ item :: items, entry.1.Spaced)
    (values : ∀ entry ∈ item :: items, Denotes d entry.1.text entry.2) :
    Denotes (d + 1) ('[' :: (item.1.whole ++ afterItems (items.map Prod.fst)))
      (.arr ((item :: items).map Prod.snd))
  | emptyObject {d : Nat} {gap : List Char} (gap_text : Gap gap) :
    Denotes (d + 1) ('\x7b' :: (gap ++ ['\x7d'])) (.obj [])
  | object {d : Nat} {field : Field × String × Json} {fields : List (Field × String × Json)}
    (spelled : ∀ entry ∈ field :: fields, entry.1.Spells entry.2.1)
    (values : ∀ entry ∈ field :: fields, Denotes d entry.1.value.text entry.2.2) :
    Denotes (d + 1) ('\x7b' :: (field.1.whole ++ afterFields (fields.map Prod.fst)))
      (object ((field :: fields).map Prod.snd))

/-- Bytes that are the text of a value, between gaps and within the limits. -/
def Means (s : List UInt8) (v : Json) : Prop :=
  ∃ slot : Slot, slot.Spaced ∧ Denotes maxDepth slot.text v ∧ Utf8.encode slot.whole = s

/-! ## Hexadecimal digits -/

theorem numeral?_eq_some {a b c d : Char} {n : Nat} :
    Text.numeral? 16 [a, b, c, d] = some n ↔
      ∃ i j k l, Text.digitIn? 16 a = some i ∧ Text.digitIn? 16 b = some j ∧
        Text.digitIn? 16 c = some k ∧ Text.digitIn? 16 d = some l ∧
          16 * (16 * (16 * i + j) + k) + l = n := by
  simp [Text.numeral?, Option.bind_eq_some_iff]

theorem hexNumber?_eq_some {p q r b : UInt8} {n : Nat} :
    hexNumber? [b, r, q, p] = some n ↔
      ∃ i j k l, hexValue? p = some i ∧ hexValue? q = some j ∧ hexValue? r = some k ∧
        hexValue? b = some l ∧ 16 * (16 * (16 * i + j) + k) + l = n := by
  simp [hexNumber?, Option.bind_eq_some_iff, and_assoc]

theorem hexValue?_ofNat :
    ∀ n < 128, hexValue? (UInt8.ofNat n) = Text.digitIn? 16 (Char.ofNat n) := by
  decide +kernel

theorem isHex_of_digitIn? {c : Char} {v : Nat} (h : Text.digitIn? 16 c = some v) :
    isHex c = true := by
  unfold Text.digitIn? at h
  obtain ⟨h, -⟩ := Option.filter_eq_some_iff.1 h
  have hdigit : ('0' ≤ c && c ≤ '9') = Text.isDigit c := rfl
  rw [hdigit] at h
  unfold isHex
  split at h
  · simp only [*, Bool.true_or]
  split at h
  · simp only [*, Bool.true_or, Bool.or_true]
  split at h
  · simp only [*, Bool.or_true]
  · cases h

/-- A digit and its byte. -/
theorem exists_byte {c : Char} {v : Nat} (h : Text.digitIn? 16 c = some v) :
    ∃ b, Utf8.encodeChar c = [b] ∧ hexValue? b = some v := by
  have hhex := isHex_of_digitIn? h
  refine ⟨_, encodeChar_hex hhex, ?_⟩
  rw [hexValue?_ofNat c.toNat (toNat_of_isHex hhex), Char.ofNat_toNat, h]

theorem exists_digit {b : UInt8} {v : Nat} (h : hexValue? b = some v) :
    ∃ c, Utf8.encodeChar c = [b] ∧ Text.digitIn? 16 c = some v := by
  have hlow : b.toNat < 128 := by
    by_contra hhigh
    have hnone : hexValue? b = none := by
      unfold hexValue?
      dsimp only
      rw [if_neg, if_neg, if_neg]
      all_goals rw [Bool.and_eq_true, decide_eq_true_eq, decide_eq_true_eq]; omega
    exact absurd (hnone.symm.trans h) nofun
  refine ⟨Char.ofNat b.toNat, Utf8.encodeChar_one hlow rfl, ?_⟩
  rw [← hexValue?_ofNat b.toNat hlow, UInt8.ofNat_toNat, h]

/-- The escape of a number and its bytes. -/
theorem CodeText.bytes {part : List Char} {n : Nat} (h : CodeText part n) :
    ∃ p q r b, Utf8.encode part = [0x5C, 0x75, p, q, r, b] ∧ hexNumber? [b, r, q, p] = some n := by
  cases h with
  | digits hnumber =>
    obtain ⟨i, j, k, l, ha, hb, hc, hd, hn⟩ := numeral?_eq_some.1 hnumber
    obtain ⟨p, hp, hi⟩ := exists_byte ha
    obtain ⟨q, hq, hj⟩ := exists_byte hb
    obtain ⟨r, hr, hk⟩ := exists_byte hc
    obtain ⟨b, hb, hl⟩ := exists_byte hd
    refine ⟨p, q, r, b, ?_, hexNumber?_eq_some.2 ⟨i, j, k, l, hi, hj, hk, hl, hn⟩⟩
    simp only [Utf8.encode_cons, hp, hq, hr, hb]
    rfl

theorem CodeText.exists_of_bytes {p q r b : UInt8} {n : Nat}
    (h : hexNumber? [b, r, q, p] = some n) :
    ∃ part, CodeText part n ∧ Utf8.encode part = [0x5C, 0x75, p, q, r, b] := by
  obtain ⟨i, j, k, l, hi, hj, hk, hl, hn⟩ := hexNumber?_eq_some.1 h
  obtain ⟨a, hp, ha⟩ := exists_digit hi
  obtain ⟨e, hq, he⟩ := exists_digit hj
  obtain ⟨c, hr, hc⟩ := exists_digit hk
  obtain ⟨d, hb, hd⟩ := exists_digit hl
  refine ⟨_, .digits (numeral?_eq_some.2 ⟨i, j, k, l, ha, he, hc, hd, hn⟩), ?_⟩
  simp only [Utf8.encode_cons, hp, hq, hr, hb]
  rfl

/-! ## Strings are read -/

section Strings

variable {start read s : List UInt8}

theorem unicodeEscape_char {digits : List UInt8} {n : Nat} (h : hexNumber? digits = some n)
    (hlead : ¬ LeadingHalf n) (htrail : ¬ TrailingHalf n) :
    unicodeEscape none digits = .more .plain (Utf8.encodeChar (Char.ofNat n)) := by
  unfold LeadingHalf at hlead
  unfold TrailingHalf at htrail
  simp [unicodeEscape, h, hlead, htrail]

theorem unicodeEscape_lead {digits : List UInt8} {n : Nat} (h : hexNumber? digits = some n)
    (hlead : LeadingHalf n) : unicodeEscape none digits = .more (.afterLead n) [] := by
  unfold LeadingHalf at hlead
  have htrail : ¬ (0xDC00 ≤ n ∧ n ≤ 0xDFFF) := by omega
  simp [unicodeEscape, h, hlead, htrail]

theorem unicodeEscape_trail {digits : List UInt8} {lead n : Nat} (h : hexNumber? digits = some n)
    (htrail : TrailingHalf n) :
    unicodeEscape (some lead) digits = .more .plain (Utf8.encodeChar (pairChar lead n)) := by
  unfold TrailingHalf at htrail
  simp [unicodeEscape, h, htrail, pairChar]

/-- **An escape is read as the character that it stands for.** -/
theorem EscapeText.stringFrom_eq {part : List Char} {c : Char} (h : EscapeText part c) :
    stringFrom start .plain read (Utf8.encode part ++ s) =
      stringFrom start .plain ((Utf8.encodeChar c).reverse ++ read) s := by
  cases h with
  | letter hletter =>
    simp only [letterEscapes, List.mem_cons, Prod.mk.injEq, List.not_mem_nil, or_false] at hletter
    obtain ⟨rfl, rfl⟩ | ⟨rfl, rfl⟩ | ⟨rfl, rfl⟩ | ⟨rfl, rfl⟩ | ⟨rfl, rfl⟩ | ⟨rfl, rfl⟩ |
      ⟨rfl, rfl⟩ | ⟨rfl, rfl⟩ := hletter
    all_goals exact stringFrom_letter (by decide) (by decide)
  | code hcode hlead htrail =>
    obtain ⟨p, q, r, b, hbytes, hnumber⟩ := hcode.bytes
    have hlast : stringStep (.hex none [r, q, p]) b = _ := unicodeEscape_char hnumber hlead htrail
    rw [hbytes]
    exact (Between.plain.stringFrom_code p q r b).trans (stringFrom_more hlast)
  | @pair first second lead trail hfirst hlead hsecond htrail =>
    obtain ⟨p, q, r, b, hbytes, hnumber⟩ := hfirst.bytes
    obtain ⟨p', q', r', b', hbytes', hnumber'⟩ := hsecond.bytes
    have hlast : stringStep (.hex none [r, q, p]) b = _ := unicodeEscape_lead hnumber hlead
    have hlast' : stringStep (.hex (some lead) [r', q', p']) b' =
        .more .plain (Utf8.encodeChar (pairChar lead trail)) :=
      unicodeEscape_trail hnumber' htrail
    rw [Utf8.encode_append, hbytes, hbytes', List.append_assoc]
    refine ((Between.plain.stringFrom_code p q r b).trans (stringFrom_more hlast)).trans ?_
    exact ((Between.afterLead lead).stringFrom_code p' q' r' b').trans (stringFrom_more hlast')

/-- The characters of a string, by induction, up to its closing mark. -/
theorem Spelling.stringFrom_eq {body denoted : List Char} (h : Spelling body denoted) :
    stringFrom start .plain read (Utf8.encode body ++ s) =
      stringFrom start .plain ((Utf8.encode denoted).reverse ++ read) (0x22 :: s) := by
  induction h generalizing read with
  | close => rfl
  | plain hlow hquote hslash _ ih =>
    rw [Utf8.encode_cons, List.append_assoc,
      stringFrom_plain (plainByte_of_mem_encodeChar hlow hquote hslash), ih, Utf8.encode_cons,
      List.reverse_append, List.append_assoc]
  | escape hescape _ ih =>
    rw [Utf8.encode_append, List.append_assoc, hescape.stringFrom_eq, ih, Utf8.encode_cons,
      List.reverse_append, List.append_assoc]

/-- **A string is read as the text that it denotes.** -/
theorem Spelling.string {body denoted : List Char} (h : Spelling body denoted) (s : List UInt8) :
    string (Utf8.encode body ++ s) = .ok (String.ofList denoted, s) := by
  have hclose : stringStep .plain 0x22 = .close := rfl
  rw [Json.string, h.stringFrom_eq, stringFrom, hclose, List.append_nil, List.reverse_reverse]
  simp only [Utf8.decode?_encode]

end Strings

/-! ## Texts of the grammar -/

theorem CodeText.charText {part : List Char} {n : Nat} (h : CodeText part n) : CharText part := by
  cases h with
  | digits hnumber =>
    obtain ⟨i, j, k, l, ha, hb, hc, hd, -⟩ := numeral?_eq_some.1 hnumber
    refine .code fun digit hdigit => ?_
    simp only [List.mem_cons, List.not_mem_nil, or_false] at hdigit
    obtain rfl | rfl | rfl | rfl := hdigit
    · exact isHex_of_digitIn? ha
    · exact isHex_of_digitIn? hb
    · exact isHex_of_digitIn? hc
    · exact isHex_of_digitIn? hd

theorem EscapeText.stringText {part text : List Char} {c : Char} (h : EscapeText part c)
    (more : StringText text) : StringText (part ++ text) := by
  cases h with
  | letter hletter =>
    refine .more (.letter ?_) more
    exact (by decide : ∀ entry ∈ letterEscapes, entry.1 ∈ _) _ hletter
  | code hcode => exact .more hcode.charText more
  | pair hfirst _ hsecond _ =>
    rw [List.append_assoc]
    exact .more hfirst.charText (.more hsecond.charText more)

theorem Spelling.stringText {body denoted : List Char} (h : Spelling body denoted) :
    StringText body := by
  induction h with
  | close => exact .close
  | plain hlow hquote hslash _ ih => exact .more (.plain hlow hquote hslash) ih
  | escape hescape _ ih => exact hescape.stringText ih

variable {d : Nat} {text : List Char} {v : Json}

theorem Field.Spells.named {field : Field} {name : String} (h : field.Spells name) :
    field.Named := by
  obtain ⟨body, hbody, hname⟩ := h.name
  exact ⟨h.spaced, ⟨body, hbody.stringText, hname⟩, h.value⟩

theorem forall_map_cons {α β : Type} {f : α → β} {P : β → Prop} {x : α} {xs : List α}
    (h : ∀ y ∈ x :: xs, P (f y)) : ∀ z ∈ f x :: xs.map f, P z := by
  rw [← List.map_cons]
  exact List.forall_mem_map.2 h

/-- A text that denotes a value is a value of the grammar. -/
theorem Denotes.valueText (h : Denotes d text v) : ValueText d text := by
  induction h with
  | null => exact .null
  | yes => exact .yes
  | no => exact .no
  | number hnumber => exact .number hnumber.number
  | string hstring => exact .string hstring.stringText
  | emptyArray hgap => exact .emptyArray hgap
  | array hspaced _ ih => exact .array (forall_map_cons hspaced) (forall_map_cons ih)
  | emptyObject hgap => exact .emptyObject hgap
  | object hspelled _ ih =>
    exact .object (forall_map_cons fun entry he => (hspelled entry he).named) (forall_map_cons ih)

/-! ## Values are read -/

/-- A number is the same at every depth. -/
theorem NumberOf.alone_eq {n : Number} (h : NumberOf text n) (d : Nat) :
    alone (value d) text = some (.num n) := by
  have hsettled : Settled 0 text := settled_number h.number
  have hread := read_slot (Slot.spaced_tight text) (.number (d := 0) h.number)
  rw [Slot.whole_tight, h.read] at hread
  calc alone (value d) text
    _ = alone (value 0) text := hsettled.stable d (Nat.zero_le d)
    _ = alone (value maxDepth) text := (hsettled.stable maxDepth (Nat.zero_le _)).symm
    _ = some (.num n) := hread.symm

theorem mapM_map_eq_some {α β γ : Type} {f : β → Option γ} {g : α → β} {k : α → γ} {xs : List α}
    (h : ∀ x ∈ xs, f (g x) = some (k x)) : (xs.map g).mapM f = some (xs.map k) := by
  induction xs with
  | nil => rfl
  | cons x xs ih =>
    rw [List.map_cons, List.mapM_cons, h x List.mem_cons_self,
      ih fun y hy => h y (List.mem_cons_of_mem _ hy)]
    rfl

theorem Field.Spells.nameOf? {field : Field} {name : String} (h : field.Spells name) :
    nameOf? field.name.text = some name := by
  obtain ⟨body, hbody, hname⟩ := h.name
  have hread := hbody.string []
  rw [List.append_nil, String.ofList_toList] at hread
  rw [Json.nameOf?, hname, List.tail_cons, alone, hread]
  rfl

/-- **What is read of a text alone is what it denotes**, by induction over the values in it. -/
theorem Denotes.alone_eq (h : Denotes d text v) : alone (value d) text = some v := by
  induction h with
  | @null d | @yes d | @no d =>
    obtain ⟨list, record, heq⟩ := value_eq d
    rw [heq]
    rfl
  | number hnumber => exact hnumber.alone_eq _
  | @string d body text hstring =>
    obtain ⟨list, record, heq⟩ := value_eq d
    have hread := hstring.string []
    rw [List.append_nil, String.ofList_toList] at hread
    show ((value d (0x22 :: Utf8.encode body)).toOption.map Prod.fst) = _
    rw [heq, (valueWith_open list record _).1, hread]
    rfl
  | emptyArray hgap => exact (sees_open_array (sees_emptyArray hgap)).eq_alone
  | @array d item items hspaced hvalues ih =>
    have hread : ((item :: items).map Prod.fst).mapM (fun slot => alone (value d) slot.text) =
        some ((item :: items).map Prod.snd) := mapM_map_eq_some ih
    refine (sees_open_array (sees_array (forall_map_cons hspaced) ?_ ?_)).eq_alone.trans
      (congrArg (Option.map Json.arr) hread)
    · exact forall_map_cons fun entry he => (hvalues entry he).valueText.settled.starts
    · exact forall_map_cons fun entry he => (hvalues entry he).valueText.settled.sees d
  | emptyObject hgap => exact (sees_open_object (sees_emptyObject hgap)).eq_alone
  | @object d field fields hspelled hvalues ih =>
    have hread : ((field :: fields).map Prod.fst).mapM (entryOf? nameOf? (alone (value d))) =
        some ((field :: fields).map Prod.snd) := by
      refine mapM_map_eq_some fun entry he => ?_
      rw [entryOf?, (hspelled entry he).nameOf?, ih entry he]
      rfl
    refine (sees_open_object (sees_object (skipsGaps_value d) ?_)).eq_alone.trans
      (congrArg (Option.map Json.object) hread)
    exact forall_map_cons fun entry he =>
      (hspelled entry he).named.sees ((hvalues entry he).valueText.settled.sees d)

theorem ok_of_toOption {ε α : Type} {result : Except ε α} {a : α} (h : result.toOption = some a) :
    result = .ok a := by
  cases result with
  | error fault => cases h
  | ok b =>
    cases h
    rfl

/-- **What a whole text means is read of it.** -/
theorem read_of_means {s : List UInt8} (h : Means s v) : read s = .ok v := by
  obtain ⟨slot, hspaced, hdenotes, rfl⟩ := h
  exact ok_of_toOption ((read_slot hspaced hdenotes.valueText).trans hdenotes.alone_eq)

end ScriptedChat.Json
