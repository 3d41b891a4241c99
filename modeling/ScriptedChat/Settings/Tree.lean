import ScriptedChat.Json.Basic
import ScriptedChat.Text.Numeral

/-!
# Layers of settings

Settings come in layers, each of which is a tree of named values. A later layer goes before an earlier one
wherever it says something: tables are merged name by name, and any other value replaces what was there.

* `merge`: a value with another one laid over it.
* `Step`, `path?`: the way to a value, and the way that a key describes.
* `setAt`: a tree with a value laid over the place at the end of a way.
* `layOver`: a tree with a layer over it.
-/

namespace ScriptedChat.Settings

mutual

/-- A value with another one laid over it. A table without fields says nothing, and only makes a table
where there was no value. -/
def merge (base : Json) : Json → Json
  | .obj [] => match base with
    | .null => .obj []
    | base => base
  | .obj (field :: fields) => .obj (mergeFields (base.asFields?.getD []) (field :: fields))
  | value => value

/-- Fields with others laid over them. -/
def mergeFields (base : List (String × Json)) : List (String × Json) → List (String × Json)
  | [] => base
  | (name, value) :: fields =>
    mergeFields
      (Json.insertField name (merge ((Json.lookup name base).getD .null) value) base) fields

end

/-! ## Ways -/

/-- A step on the way to a value. -/
inductive Step where
  | field (name : String)
  /-- an item of an array; negative numbers count from its end -/
  | item (index : Int)
  deriving DecidableEq, Repr

/-- Fields with one of them changed; a field that is absent is null. -/
def changeField (name : String) (change : Json → Json) (fields : List (String × Json)) :
    List (String × Json) :=
  Json.insertField name (change ((Json.lookup name fields).getD .null)) fields

/-- Items with the one at a place changed. Behind the end there are nulls. -/
def changeItem (place : Nat) (change : Json → Json) (items : List Json) : List Json :=
  items.take place ++ List.replicate (place - items.length) .null
    ++ change (items[place]?.getD .null) :: items.drop (place + 1)

/-- Items with the one at an index changed. Where a negative index reaches beyond the beginning, nulls are
added there. -/
def changeItemAt (index : Int) (change : Json → Json) (items : List Json) : List Json :=
  if 0 ≤ index then changeItem index.toNat change items
  else if index.natAbs ≤ items.length then changeItem (items.length - index.natAbs) change items
  else changeItem 0 change (List.replicate (index.natAbs - items.length) .null ++ items)

/-- A tree with a value laid over the place at the end of a way. Whatever is in the way is replaced. -/
def setAt (value : Json) : List Step → Json → Json
  | [], base => merge base value
  | .field name :: steps, base =>
    .obj (changeField name (setAt value steps) (base.asFields?.getD []))
  | .item index :: steps, base =>
    .arr (changeItemAt index (setAt value steps) (base.asItems?.getD []))

/-! ## Keys -/

/-- The characters of a name in a key. -/
def isNameChar (c : Char) : Bool :=
  ('a' ≤ c && c ≤ 'z') || ('A' ≤ c && c ≤ 'Z') || Text.isDigit c || c = '_' || c = '-'

/-- Reads a name from the beginning of a text. -/
def name? (text : List Char) : Option (Step × List Char) :=
  let name := text.takeWhile isNameChar
  if name.isEmpty then none else some (.field (String.ofList name), text.dropWhile isNameChar)

/-- A text without the spaces and tabs at its beginning. -/
def dropGap (text : List Char) : List Char :=
  text.dropWhile fun c => c = ' ' || c = '\t'

/-- Reads an index and the bracket after it. -/
def index? (text : List Char) : Option (Step × List Char) := do
  let text := dropGap text
  let (isNegative, text) := match text with
    | '-' :: rest => (true, rest)
    | rest => (false, rest)
  let n ← Text.readNat? (text.takeWhile Text.isDigit)
  let index : Int := if isNegative then -n else n
  match dropGap (text.dropWhile Text.isDigit) with
  | ']' :: rest =>
    if Text.minInt64 ≤ index && index ≤ Text.maxInt64 then some (.item index, rest) else none
  | _ => none

/-- The steps after the first name in a key: names after points, and indices in brackets. Every step takes
a character, so as many rounds as there are characters suffice. -/
def steps? : Nat → List Char → Option (List Step)
  | _, [] => some []
  | fuel + 1, '.' :: text => do
    let (step, rest) ← name? text
    return step :: (← steps? fuel rest)
  | fuel + 1, '[' :: text => do
    let (step, rest) ← index? text
    return step :: (← steps? fuel rest)
  | _, _ => none

/-- The way that a key describes. -/
def path? (key : String) : Option (List Step) := do
  let (step, rest) ← name? key.toList
  return step :: (← steps? rest.length rest)

/-- The way to the place of a key. A key that describes none is a name. -/
def pathOf (key : String) : List Step :=
  (path? key).getD [.field key]

/-- A tree with a layer over it, given as keys with their values. -/
def layOver (base : Json) (layer : List (String × Json)) : Json :=
  layer.foldl (fun tree (key, value) => setAt value (pathOf key) tree) base

end ScriptedChat.Settings
