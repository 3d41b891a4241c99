import ScriptedChat.Json.Basic

/-!
# TOML tables

A table may be written in several places, but only within limits: it has at most one header, keys with
points add only to tables that such keys have made, and nothing is added to a table or an array that is
written as a value.

* `Origin`, `Item`, `Fields`: what a document has said so far.
* `descend?`: a change of the table at the end of a path.
* `addPair?`, `openTable?`, `openItem?`: what the lines of a document add.
* `Fields.toJson`: the value of a table.
-/

namespace ScriptedChat.Toml

/-- How a table has come about. -/
inductive Origin where
  /-- it has a header -/
  | header
  /-- it stands above a table with a header -/
  | above
  /-- by a key with points -/
  | dotted
  deriving DecidableEq, Repr

/-- What a name stands for. -/
inductive Item where
  | value (value : Json)
  | table (origin : Origin) (fields : List (String × Item))
  /-- tables with a common header, which comes once for each -/
  | tables (tables : List (List (String × Item)))

/-- The fields of a table. -/
abbrev Fields := List (String × Item)

/-- Fields with the item of a name replaced, or with a new one. -/
def Fields.put (name : String) (item : Item) : Fields → Fields
  | [] => [(name, item)]
  | (k, old) :: fields =>
    if k = name then (name, item) :: fields else (k, old) :: Fields.put name item fields

/-- A change of the table at the end of a path. Tables on the path that do not exist are made. In an array
of tables the last table counts. -/
def descend? (isDotted : Bool) (change : Origin → Fields → Option Fields) :
    List String → Origin → Fields → Option Fields
  | [], origin, fields => change origin fields
  | name :: path, _, fields =>
    match fields.lookup name with
    | none =>
      let origin : Origin := if isDotted then .dotted else .above
      (descend? isDotted change path origin []).map fun inner =>
        fields.put name (.table origin inner)
    | some (.table origin inner) =>
      if isDotted && origin = .header then none
      else
        (descend? isDotted change path origin inner).map fun inner =>
          fields.put name (.table origin inner)
    | some (.tables tables) =>
      match tables.reverse with
      | [] => none
      | last :: before =>
        (descend? isDotted change path .header last).map fun last =>
          fields.put name (.tables (last :: before).reverse)
    | some (.value _) => none

/-- A table with a pair added. -/
def addPair? (path : List String) (value : Json) (fields : Fields) : Option Fields :=
  match path.reverse with
  | [] => none
  | name :: parents =>
    descend? true (fun origin fields =>
      if (parents.isEmpty || origin = .dotted) && (fields.lookup name).isNone then
        some (fields.put name (.value value))
      else none) parents.reverse .header fields

/-- A document with a pair added to the table at a path. -/
def addPairAt? (current path : List String) (value : Json) (root : Fields) : Option Fields :=
  descend? false (fun _ fields => addPair? path value fields) current .header root

/-- A document with the header of a table added. -/
def openTable? (path : List String) (root : Fields) : Option Fields :=
  match path.reverse with
  | [] => none
  | name :: parents =>
    descend? false (fun _ fields =>
      match fields.lookup name with
      | none => some (fields.put name (.table .header []))
      | some (.table .above inner) => some (fields.put name (.table .header inner))
      | some _ => none) parents.reverse .header root

/-- A document with the header of a further table in an array added. -/
def openItem? (path : List String) (root : Fields) : Option Fields :=
  match path.reverse with
  | [] => none
  | name :: parents =>
    descend? false (fun _ fields =>
      match fields.lookup name with
      | none => some (fields.put name (.tables [[]]))
      | some (.tables tables) => some (fields.put name (.tables (tables ++ [[]])))
      | some _ => none) parents.reverse .header root

mutual

/-- The value of an item. -/
def Item.toJson : Item → Json
  | .value value => value
  | .table _ fields => .object (fieldsJson fields)
  | .tables tables => .arr (tablesJson tables)

def fieldsJson : List (String × Item) → List (String × Json)
  | [] => []
  | (name, item) :: fields => (name, item.toJson) :: fieldsJson fields

def tablesJson : List (List (String × Item)) → List Json
  | [] => []
  | fields :: tables => .object (fieldsJson fields) :: tablesJson tables

end

/-- The value of a table. -/
def Fields.toJson (fields : Fields) : Json :=
  .object (fieldsJson fields)

end ScriptedChat.Toml
