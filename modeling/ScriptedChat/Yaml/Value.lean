import ScriptedChat.Binary64.Decimal
import ScriptedChat.Json.Basic
import ScriptedChat.Yaml.Document
import ScriptedChat.Yaml.Scalar

/-!
# What documents mean in version 1.2

Every node has a value of its own, whoever reads it. Only plain scalars are more than texts, and a tag of
YAML's own says what kind of value a plain scalar is. An alias is a copy of what its anchor marks.

* `Value`: the values of nodes.
* `plainValue`, `taggedValue`: the values of plain scalars.
* `value?`: the value of a node. The names in a mapping must differ as values.
* `Value.toJson?`: a value as a tree of named values.
-/

namespace ScriptedChat.Yaml

/-- The value of a node. -/
inductive Value where
  /-- no value: a scalar that is not of the kind that its tag says, or a node inside itself -/
  | bad
  | null
  | flag (b : Bool)
  | int (n : Int)
  /-- a floating-point number as it is written -/
  | real (text : String)
  | text (text : String)
  | list (items : List Value)
  | table (fields : List (Value × Value))
  deriving BEq, Repr, Inhabited

/-! ## Scalars -/

/-- The whole number of 64 bits that a sign and digits in a base denote. -/
def signedIn? (base : Nat) (text : List Char) : Option Int :=
  let n? := match text with
    | '-' :: digits => (Text.numeral? base digits).map fun n => -(n : Int)
    | '+' :: digits => (Text.numeral? base digits).map Int.ofNat
    | digits => (Text.numeral? base digits).map Int.ofNat
  n?.filter fun n => Text.minInt64 ≤ n && n ≤ Text.maxInt64

/-- The whole number that a text denotes after the mark of a base or a plus sign; a sign may follow. -/
def markedInt? : List Char → Option Int
  | '0' :: 'x' :: text => signedIn? 16 text
  | '0' :: 'o' :: text => signedIn? 8 text
  | '+' :: text => Text.readInt64? text
  | _ => none

/-- Whether a text denotes a floating-point number. -/
def isRealText (text : String) : Bool :=
  realNames.contains text
    || text.toList.any Text.isDigit && (Binary64.readDecimal? text.toList).isSome

/-- The value of a plain scalar without a tag. -/
def plainValue (text : String) : Value :=
  match markedInt? text.toList with
  | some n => .int n
  | none =>
    if text = "" || text = "~" || text = "null" then .null
    else
      match flag? text, Text.readInt64? text.toList with
      | some b, _ => .flag b
      | none, some n => .int n
      | none, none => if isRealText text then .real text else .text text

/-- The value of a plain scalar with a tag of YAML's own. -/
def taggedValue (kind text : String) : Value :=
  if kind = "bool" then
    if text = "true" then .flag true else if text = "false" then .flag false else .bad
  else if kind = "int" then ((Text.readInt64? text.toList).map Value.int).getD .bad
  else if kind = "float" then if isRealText text then .real text else .bad
  else if kind = "null" then if text = "~" || text = "null" then .null else .bad
  else .text text

/-- The value of a scalar. -/
def scalarValue (tag : Option Tag) (style : Style) (text : String) : Value :=
  if style ≠ .plain then .text text
  else
    match tag with
    | none => plainValue text
    | some tag => if tag.handle = standardTags then taggedValue tag.suffix text else .text text

/-! ## Nodes -/

/-- The values of nodes with anchors. -/
abbrev Marked := List (Nat × Value)

/-- Anchors with that of a node whose value is known. -/
def Marked.add (marked : Marked) (anchor : Option Nat) (value : Value) : Marked :=
  match anchor with
  | some anchor => (anchor, value) :: marked
  | none => marked

/-- What has been read of a mapping: fields, the last one first, and a name without its value. -/
structure FieldsReading where
  fields : List (Value × Value) := []
  name : Value := .bad

/-- A mapping with one more value, which is a name or belongs to one. What has no value is no name. -/
def FieldsReading.add? (reading : FieldsReading) (value : Value) : Option FieldsReading :=
  if reading.name == .bad then some { reading with name := value }
  else if reading.fields.any fun (name, _) => name == reading.name then none
  else some { fields := (reading.name, value) :: reading.fields }

mutual

/-- The value of a node, after others with anchors. -/
def value? (marked : Marked) : Node → Option (Value × Marked)
  | .scalar properties style text =>
    let value := scalarValue properties.tag style text
    some (value, marked.add properties.anchor value)
  | .sequence properties items => do
    let (items, marked) ← itemValues? marked items
    return (.list items, marked.add properties.anchor (.list items))
  | .mapping properties fields => do
    let (reading, marked) ← fieldValues? marked {} fields
    let value := .table reading.fields.reverse
    return (value, marked.add properties.anchor value)
  | .alias anchor => some ((marked.lookup anchor).getD .bad, marked)

def itemValues? (marked : Marked) : List Node → Option (List Value × Marked)
  | [] => some ([], marked)
  | node :: nodes => do
    let (item, marked) ← value? marked node
    let (items, marked) ← itemValues? marked nodes
    return (item :: items, marked)

def fieldValues? (marked : Marked) (reading : FieldsReading) :
    List (Node × Node) → Option (FieldsReading × Marked)
  | [] => some (reading, marked)
  | (name, node) :: fields => do
    let (name, marked) ← value? marked name
    let reading ← reading.add? name
    let (value, marked) ← value? marked node
    let reading ← reading.add? value
    fieldValues? marked reading fields

end

/-! ## Trees of named values -/

/-- The name that a value stands for. -/
def Value.name? : Value → Option String
  | .text s => some s
  | .int n => some (String.ofList (Text.decimalInt n))
  | .flag b => some (if b then "true" else "false")
  | .real s => some s
  | _ => none

mutual

/-- A value as a tree of named values. Infinities and what is no number cannot be read, and only scalars
are names. -/
def Value.toJson? : Value → Option Json
  | .bad => some .null
  | .null => some .null
  | .flag b => some (.bool b)
  | .int n => some (.int n)
  | .real s => (Binary64.readDecimal? s.toList).map fun x => .num (.real x)
  | .text s => some (.str s)
  | .list items => (jsonItems? items).map .arr
  | .table fields => (jsonFields? fields).map Json.object

def jsonItems? : List Value → Option (List Json)
  | [] => some []
  | value :: values => do return (← value.toJson?) :: (← jsonItems? values)

def jsonFields? : List (Value × Value) → Option (List (String × Json))
  | [] => some []
  | (name, value) :: fields => do
    return (← name.name?, ← value.toJson?) :: (← jsonFields? fields)

end

/-- The tree of named values in a text; a text without a document is an empty table. -/
def readTree? (text : String) : Option Json := do
  match ← document? .v12 text with
  | none => return .obj []
  | some document => (← value? [] document).1.toJson?

end ScriptedChat.Yaml
