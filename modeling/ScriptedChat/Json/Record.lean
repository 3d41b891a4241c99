import ScriptedChat.Json.Basic

/-!
# Records in JSON

A record with declared fields is written as an object, or as an array with the values of its fields in the
order of declaration. Fields that are not declared are ignored in an object; an array may be shorter than
the declaration, and must not be longer.

* `Record.view? names value`: looks up a record's fields by name, if the value is a record.
* `Record.required`, `Record.optional`, `Record.withDefault`: one field, whose value must be there, may be
  absent or null, or may be absent.
* `Record.list`: a list of values of one kind.
-/

namespace ScriptedChat.Json.Record

/-- The fields of a record, each with the value it has, if any. -/
def view? (names : List String) : Json → Option (String → Option Json)
  | .obj fields => some fun name => lookup name fields
  | .arr items =>
    if items.length ≤ names.length then some fun name => items[names.idxOf name]? else none
  | _ => none

/-- A field that must be there. -/
def required {α : Type} (decode : Json → Option α) (field : Option Json) : Option α :=
  field.bind decode

/-- A field that may be absent or null. -/
def optional {α : Type} (decode : Json → Option α) : Option Json → Option (Option α)
  | none => some none
  | some .null => some none
  | some value => (decode value).map some

/-- A field that stands for `default` where it is absent. -/
def withDefault {α : Type} (default : α) (decode : Json → Option α) : Option Json → Option α
  | none => some default
  | some value => decode value

/-- A list, each item of which must be of the given kind. -/
def list {α : Type} (decode : Json → Option α) (value : Json) : Option (List α) :=
  value.asItems?.bind fun items => items.mapM decode

end ScriptedChat.Json.Record
