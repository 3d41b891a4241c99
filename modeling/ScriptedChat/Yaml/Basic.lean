/-!
# YAML documents

Two versions of YAML are read, which differ in many details of what may stand where, and in what scalars
mean.

* `Version`: the versions.
* `Style`, `Tag`, `Token`: what the text of a document consists of.
* `Node`: what a document consists of. A scalar is text; what it means depends on its style and its tag,
  and on who reads it.
* `Node.marked?`: the node that an alias stands for.
-/

namespace ScriptedChat.Yaml

/-- The versions of YAML. -/
inductive Version where
  /-- version 1.1 -/
  | v11
  /-- version 1.2 -/
  | v12
  deriving DecidableEq, Repr

/-- The ways to write a scalar. -/
inductive Style where
  | plain
  | single
  | double
  | literal
  | folded
  deriving DecidableEq, Repr

/-- A tag says what kind of value a node is. Its name begins with a handle, which may stand for a longer
beginning. -/
structure Tag where
  handle : String
  suffix : String
  deriving DecidableEq, Repr, Inhabited

/-- The name of a tag. -/
def Tag.name (tag : Tag) : String := tag.handle ++ tag.suffix

/-- The beginning of the names of the tags that YAML itself defines. -/
def standardTags : String := "tag:yaml.org,2002:"

/-- The parts of the text of a document. -/
inductive Token where
  | versionDirective (major minor : Nat)
  | tagDirective (handle beginning : String)
  | documentStart
  | documentEnd
  | streamEnd
  | blockSequenceStart
  | blockMappingStart
  | blockEnd
  | flowSequenceStart
  | flowSequenceEnd
  | flowMappingStart
  | flowMappingEnd
  /-- the mark before an item in block style -/
  | blockEntry
  /-- the mark between items in flow style -/
  | flowEntry
  | key
  | value
  | alias (name : String)
  | anchor (name : String)
  | tag (tag : Tag)
  | scalar (style : Style) (text : String)
  deriving DecidableEq, Repr

/-- What may stand before the content of a node: a number under which aliases refer to it, and a tag. -/
structure Properties where
  anchor : Option Nat := none
  tag : Option Tag := none
  deriving DecidableEq, Repr, Inhabited

/-- A part of a document. -/
inductive Node where
  | scalar (properties : Properties) (style : Style) (text : String)
  | sequence (properties : Properties) (items : List Node)
  | mapping (properties : Properties) (fields : List (Node × Node))
  /-- stands for the node with an anchor -/
  | alias (anchor : Nat)
  deriving Repr, Inhabited

/-- A plain scalar without a text. -/
def Node.empty : Node := .scalar {} .plain ""

mutual

/-- The last node in a document that has an anchor. -/
def Node.marked? (anchor : Nat) : Node → Option Node
  | .scalar properties style text =>
    if properties.anchor = some anchor then some (.scalar properties style text) else none
  | .sequence properties items =>
    (markedItem? anchor items).or
      (if properties.anchor = some anchor then some (.sequence properties items) else none)
  | .mapping properties fields =>
    (markedField? anchor fields).or
      (if properties.anchor = some anchor then some (.mapping properties fields) else none)
  | .alias _ => none

def markedItem? (anchor : Nat) : List Node → Option Node
  | [] => none
  | node :: nodes => (markedItem? anchor nodes).or (node.marked? anchor)

def markedField? (anchor : Nat) : List (Node × Node) → Option Node
  | [] => none
  | (name, value) :: fields =>
    (markedField? anchor fields).or ((value.marked? anchor).or (name.marked? anchor))

end

end ScriptedChat.Yaml
