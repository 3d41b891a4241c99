import Mathlib.Data.List.Basic
import ScriptedChat.Text.Numeral

/-!
# The grammar of JSON text

Which texts are JSON, without a word about how they are read or what they mean.

* `Gap` — blanks, which may stand around every part;
* `NumberText`, `StringText` — numbers, and strings after their opening mark;
* `ValueText depth` — values whose arrays and objects are nested at most `depth`
  levels, with the items in their slots between gaps;
* `ObjectText`, `ObjectDocument` — an object from its opening brace to its closing
  brace, and with the gaps around it.
-/

namespace ScriptedChat.Json

/-! ## Gaps -/

/-- The blanks of JSON: space, tab, line feed and carriage return. -/
def isGap (c : Char) : Bool :=
  c = ' ' || c = '\t' || c = '\n' || c = '\r'

/-- Blanks in a row, perhaps none. -/
def Gap (text : List Char) : Prop :=
  ∀ c ∈ text, isGap c = true

instance (text : List Char) : Decidable (Gap text) :=
  List.decidableBAll (fun c => isGap c = true) text

theorem Gap.nil : Gap [] := nofun

/-- A text with the gaps around it. -/
structure Slot where
  front : List Char
  text : List Char
  back : List Char

def Slot.whole (slot : Slot) : List Char :=
  slot.front ++ (slot.text ++ slot.back)

structure Slot.Spaced (slot : Slot) : Prop where
  front : Gap slot.front
  back : Gap slot.back

/-- A text without gaps around it. -/
def Slot.tight (text : List Char) : Slot :=
  { front := [], text, back := [] }

theorem Slot.spaced_tight (text : List Char) : (Slot.tight text).Spaced :=
  ⟨Gap.nil, Gap.nil⟩

/-! ## Numbers -/

/-- One or more digits. -/
structure Digits (text : List Char) : Prop where
  ne_nil : text ≠ []
  digits : ∀ c ∈ text, Text.isDigit c = true

/-- The digits before a decimal point: no zero comes before others. -/
inductive WholeText : List Char → Prop where
  | zero : WholeText ['0']
  | digits {text : List Char} (digits : Digits text) (first : text.head? ≠ some '0') :
    WholeText text

/-- Nothing, or a decimal point and digits. -/
inductive FractionText : List Char → Prop where
  | none : FractionText []
  | digits {text : List Char} (digits : Digits text) : FractionText ('.' :: text)

/-- Nothing, or the letter of an exponent, perhaps a sign, and digits. -/
inductive ExponentText : List Char → Prop where
  | none : ExponentText []
  | digits {mark : Char} {sign text : List Char} (mark_eq : mark = 'e' ∨ mark = 'E')
    (sign_eq : sign = [] ∨ sign = ['+'] ∨ sign = ['-']) (digits : Digits text) :
    ExponentText (mark :: (sign ++ text))

/-- A number. -/
inductive NumberText : List Char → Prop where
  | parts {sign whole fraction exponent : List Char} (sign_eq : sign = [] ∨ sign = ['-'])
    (whole_text : WholeText whole) (fraction_text : FractionText fraction)
    (exponent_text : ExponentText exponent) :
    NumberText (sign ++ (whole ++ (fraction ++ exponent)))

/-! ## Strings -/

/-- A hexadecimal digit in either case. -/
def isHex (c : Char) : Bool :=
  Text.isDigit c || ('a' ≤ c && c ≤ 'f') || ('A' ≤ c && c ≤ 'F')

/-- A character inside a string: itself, the escape of one letter, or four hexadecimal digits. -/
inductive CharText : List Char → Prop where
  | plain {c : Char} (printable : 0x20 ≤ c.toNat) (no_quote : c.toNat ≠ 0x22)
    (no_slash : c.toNat ≠ 0x5C) : CharText [c]
  | letter {c : Char} (letter : c ∈ ['"', '\\', '/', 'b', 'f', 'n', 'r', 't']) : CharText ['\\', c]
  | code {a b c d : Char} (hex : ∀ digit ∈ [a, b, c, d], isHex digit = true) :
    CharText ['\\', 'u', a, b, c, d]

/-- The characters of a string and its closing mark. -/
inductive StringText : List Char → Prop where
  | close : StringText ['"']
  | more {part text : List Char} (part_text : CharText part) (more : StringText text) :
    StringText (part ++ text)

/-! ## Values -/

/-- The further items of an array, each after a comma, and its end. -/
def afterItems : List Slot → List Char
  | [] => [']']
  | item :: items => ',' :: (item.whole ++ afterItems items)

/-- A field of an object: a name and a value, with the gaps around both of them. -/
structure Field where
  name : Slot
  value : Slot

def Field.whole (field : Field) : List Char :=
  field.name.whole ++ ':' :: field.value.whole

/-- The name of a field is a string. -/
structure Field.Named (field : Field) : Prop where
  spaced : field.name.Spaced
  name : ∃ body, StringText body ∧ field.name.text = '"' :: body
  value : field.value.Spaced

/-- The further fields of an object, each after a comma, and its end. -/
def afterFields : List Field → List Char
  | [] => ['\x7d']
  | field :: fields => ',' :: (field.whole ++ afterFields fields)

/-- A value in which arrays and objects are nested at most so many levels, from its first to
its last character. -/
inductive ValueText : Nat → List Char → Prop where
  | null {d : Nat} : ValueText d ['n', 'u', 'l', 'l']
  | yes {d : Nat} : ValueText d ['t', 'r', 'u', 'e']
  | no {d : Nat} : ValueText d ['f', 'a', 'l', 's', 'e']
  | number {d : Nat} {text : List Char} (number : NumberText text) : ValueText d text
  | string {d : Nat} {body : List Char} (string : StringText body) : ValueText d ('"' :: body)
  | emptyArray {d : Nat} {gap : List Char} (gap_text : Gap gap) :
    ValueText (d + 1) ('[' :: (gap ++ [']']))
  | array {d : Nat} {item : Slot} {items : List Slot} (spaced : ∀ slot ∈ item :: items, slot.Spaced)
    (values : ∀ slot ∈ item :: items, ValueText d slot.text) :
    ValueText (d + 1) ('[' :: (item.whole ++ afterItems items))
  | emptyObject {d : Nat} {gap : List Char} (gap_text : Gap gap) :
    ValueText (d + 1) ('\x7b' :: (gap ++ ['\x7d']))
  | object {d : Nat} {field : Field} {fields : List Field}
    (named : ∀ entry ∈ field :: fields, entry.Named)
    (values : ∀ entry ∈ field :: fields, ValueText d entry.value.text) :
    ValueText (d + 1) ('\x7b' :: (field.whole ++ afterFields fields))

/-- An object from its opening brace to its closing brace. -/
inductive ObjectText : Nat → List Char → Prop where
  | empty {d : Nat} {gap : List Char} (gap_text : Gap gap) :
    ObjectText (d + 1) ('\x7b' :: (gap ++ ['\x7d']))
  | fields {d : Nat} {field : Field} {fields : List Field}
    (named : ∀ entry ∈ field :: fields, entry.Named)
    (values : ∀ entry ∈ field :: fields, ValueText d entry.value.text) :
    ObjectText (d + 1) ('\x7b' :: (field.whole ++ afterFields fields))

variable {depth : Nat} {text : List Char}

theorem ObjectText.valueText (h : ObjectText depth text) : ValueText depth text := by
  cases h with
  | empty hgap => exact .emptyObject hgap
  | fields hnamed hvalues => exact .object hnamed hvalues

theorem getLast?_afterFields (front : List Char) (fields : List Field) :
    (front ++ afterFields fields).getLast? = some '\x7d' := by
  induction fields generalizing front with
  | nil => exact List.getLast?_concat
  | cons field fields ih =>
    rw [afterFields, List.append_cons, ← List.append_assoc]
    exact ih _

/-- An object stands between braces. -/
theorem ObjectText.braces (h : ObjectText depth text) :
    text.head? = some '\x7b' ∧ text.getLast? = some '\x7d' := by
  cases h with
  | empty => exact ⟨rfl, by rw [← List.cons_append, List.getLast?_concat]⟩
  | fields => exact ⟨rfl, by rw [← List.cons_append, getLast?_afterFields]⟩

/-- A whole text that is an object between gaps. -/
def ObjectDocument (depth : Nat) (text : List Char) : Prop :=
  ∃ slot : Slot, slot.Spaced ∧ ObjectText depth slot.text ∧ slot.whole = text

theorem Slot.whole_tight (text : List Char) : (Slot.tight text).whole = text := by
  rw [Slot.whole, Slot.tight, List.nil_append, List.append_nil]

theorem ObjectText.document (h : ObjectText depth text) : ObjectDocument depth text :=
  ⟨.tight text, Slot.spaced_tight text, h, Slot.whole_tight text⟩

end ScriptedChat.Json
