import ScriptedChat.Binary64.Basic

/-!
# JSON values

Values of the data format that requests, scripts and answers are written in.

* `Json`: the values. The fields of an object are a list in ascending order of their names, each name
  once; `Json.object` builds an object from fields in any order, and the last of several fields of one
  name counts.
* `Json.get?`: the field of an object.
* `Json.asText?`, `Json.asBool?`, `Json.asItems?`: the content of a value of the given kind.
-/

namespace ScriptedChat

/-- A number: a whole number of 64 bits, signed or unsigned, or a floating-point number. -/
inductive Number where
  | int (n : Int)
  | real (x : Binary64)
  deriving DecidableEq, Repr, Inhabited

/-- A JSON value. -/
inductive Json where
  | null
  | bool (b : Bool)
  | num (n : Number)
  | str (text : String)
  | arr (items : List Json)
  | obj (fields : List (String × Json))
  deriving BEq, Repr, Inhabited

namespace Json

/-! ## Fields -/

/-- The value of the first field with the given name. -/
def lookup (name : String) : List (String × Json) → Option Json
  | [] => none
  | (k, v) :: fields => if k = name then some v else lookup name fields

/-- Puts a field into fields in ascending order. A field of the same name is replaced. -/
def insertField (name : String) (value : Json) : List (String × Json) → List (String × Json)
  | [] => [(name, value)]
  | (k, v) :: fields =>
    if name = k then (name, value) :: fields
    else if name < k then (name, value) :: (k, v) :: fields
    else (k, v) :: insertField name value fields

/-- Fields in ascending order of their names, the last of each name. -/
def sortFields (fields : List (String × Json)) : List (String × Json) :=
  fields.foldl (fun sorted (k, v) => insertField k v sorted) []

/-- The object with the given fields. -/
def object (fields : List (String × Json)) : Json :=
  .obj (sortFields fields)

/-- The array of the given texts. -/
def texts (items : List String) : Json :=
  .arr (items.map .str)

/-- A natural number. -/
def nat (n : Nat) : Json := .num (.int n)

/-- A whole number. -/
def int (n : Int) : Json := .num (.int n)

/-- The given value, or null. -/
def orNull (value : Option Json) : Json := value.getD .null

/-! ## Content -/

/-- The field `name` of an object. -/
def get? (name : String) : Json → Option Json
  | .obj fields => lookup name fields
  | _ => none

def asText? : Json → Option String
  | .str text => some text
  | _ => none

def asBool? : Json → Option Bool
  | .bool b => some b
  | _ => none

def asItems? : Json → Option (List Json)
  | .arr items => some items
  | _ => none

def asFields? : Json → Option (List (String × Json))
  | .obj fields => some fields
  | _ => none

/-- The text in the field `name` of an object. -/
def getText? (name : String) (value : Json) : Option String :=
  (value.get? name).bind asText?

end Json

end ScriptedChat
