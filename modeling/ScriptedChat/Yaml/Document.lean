import ScriptedChat.Yaml.Tokens

/-!
# YAML documents from tokens

A node is an alias, or perhaps an anchor and a tag followed by a scalar, a sequence or a mapping. In some
places a node may be missing.

* `Composer`: the tokens that are still to be read, and the anchors so far.
* `node`: reads a node.
* `document?`: the document in a text.
-/

namespace ScriptedChat.Yaml

/-! ## Anchors and tags -/

/-- What a document says about its handles, and the version that it is read in. -/
structure Declarations where
  version : Version
  handles : List (String × String) := []

/-- The beginning of tags for which a handle stands. -/
def Declarations.beginning? (declared : Declarations) (handle : String) : Option String :=
  (declared.handles.lookup handle).or (if handle = "!!" then some standardTags else none)

/-- A tag with what its handle stands for. A handle with a name must be declared. -/
def Declarations.resolve? (declared : Declarations) (tag : Tag) : Option Tag :=
  if declared.version = .v11 && tag.handle = "" then some tag
  else
    match declared.beginning? tag.handle with
    | some beginning => some { tag with handle := beginning }
    | none => if isClosedHandle tag.handle then none else some tag

/-- What is still to be read, and what has been read. -/
structure Composer where
  rest : List Token
  /-- the anchors with their numbers, the last one first -/
  anchors : List (String × Nat) := []

/-- The number for a new anchor. Version 1.1 counts different names, so that after an anchor that comes
again the next one has the same number; version 1.2 counts anchors. -/
def newAnchor (version : Version) (anchors : List (String × Nat)) : Nat :=
  match version with
  | .v11 => (anchors.map (·.1)).eraseDups.length
  | .v12 => anchors.length

namespace Composer

variable (declared : Declarations)

/-- The tokens without the first one. -/
def drop (c : Composer) : Composer := { c with rest := c.rest.drop 1 }

/-- Whether the next token is one of the given ones. -/
def isAt (tokens : List Token) (c : Composer) : Bool :=
  c.rest.head?.any tokens.contains

/-- Reads an anchor, where one stands. -/
def takeAnchor (c : Composer) : Option Nat × Composer :=
  match c.rest with
  | .anchor name :: rest =>
    let n := newAnchor declared.version c.anchors
    (some n, { rest, anchors := (name, n) :: c.anchors })
  | _ => (none, c)

/-- Reads a tag, where one stands. -/
def takeTag? (c : Composer) : Option (Option Tag × Composer) :=
  match c.rest with
  | .tag tag :: rest => (declared.resolve? tag).map fun tag => (some tag, { c with rest })
  | _ => some (none, c)

/-- Reads an anchor and a tag, in either order, where they stand. -/
def takeProperties? (c : Composer) : Option (Properties × Composer) := do
  let (anchor, c) := c.takeAnchor declared
  let (tag, c) ← c.takeTag? declared
  if anchor.isSome then return ({ anchor, tag }, c)
  else
    let (anchor, c) := if tag.isSome then c.takeAnchor declared else (none, c)
    return ({ anchor, tag }, c)

/-- The node where none is written. -/
def missing : Node :=
  .scalar {} .plain (if declared.version = .v11 then "" else "~")

/-- A scalar with its properties. In version 1.1 the tag that is a mark alone says nothing about it. -/
def scalarNode (properties : Properties) (style : Style) (text : String) : Node :=
  if declared.version = .v11 && properties.tag.any (·.name = "!") then
    .scalar { properties with tag := none } style text
  else .scalar properties style text

/-! ## Nodes -/

mutual

/-- Reads a node. Collections in block style may stand only where `isBlock` says so, and a sequence without
indentation of its own only where `isIndentless` does. Every node and every item takes a token, so twice
as many rounds as there are tokens suffice. -/
def node (declared : Declarations) : Nat → Bool → Bool → Composer → Option (Node × Composer)
  | 0, _, _, _ => none
  | fuel + 1, isBlock, isIndentless, c =>
    match c.rest with
    | .alias name :: rest =>
      (c.anchors.lookup name).map fun anchor => (.alias anchor, { c with rest })
    | _ =>
      match c.takeProperties? declared with
      | none => none
      | some (properties, c) =>
        match c.rest with
        | .scalar style text :: _ => some (scalarNode declared properties style text, c.drop)
        | .flowSequenceStart :: _ => flowItems declared fuel properties true [] c.drop
        | .flowMappingStart :: _ => flowFields declared fuel properties true [] c.drop
        | token :: _ =>
          if token = .blockEntry && isIndentless then
            blockItems declared fuel properties true [] c
          else if token = .blockSequenceStart && isBlock then
            blockItems declared fuel properties false [] c.drop
          else if token = .blockMappingStart && isBlock then
            blockFields declared fuel properties [] c.drop
          else if properties.anchor.isSome || properties.tag.isSome then
            some (.scalar properties .plain "", c)
          else none
        | [] => none

/-- Reads a node unless one of the given tokens comes next. -/
def nodeUnless (declared : Declarations) :
    Nat → List Token → Bool → Bool → Composer → Option (Node × Composer)
  | 0, _, _, _, _ => none
  | fuel + 1, tokens, isBlock, isIndentless, c =>
    if c.isAt tokens then some (missing declared, c)
    else node declared fuel isBlock isIndentless c

/-- Reads the items of a sequence in block style. Without indentation of its own a sequence has no token at
its end. -/
def blockItems (declared : Declarations) :
    Nat → Properties → Bool → List Node → Composer → Option (Node × Composer)
  | 0, _, _, _, _ => none
  | fuel + 1, properties, isIndentless, read, c =>
    match c.rest with
    | .blockEntry :: _ =>
      let ends : List Token :=
        if isIndentless then [.blockEntry, .key, .value, .blockEnd] else [.blockEntry, .blockEnd]
      match nodeUnless declared fuel ends true false c.drop with
      | none => none
      | some (item, c) => blockItems declared fuel properties isIndentless (item :: read) c
    | .blockEnd :: _ =>
      some (.sequence properties read.reverse, if isIndentless then c else c.drop)
    | _ => if isIndentless then some (.sequence properties read.reverse, c) else none

/-- Reads the fields of a mapping in block style. In version 1.2 the name of a field may be missing. -/
def blockFields (declared : Declarations) :
    Nat → Properties → List (Node × Node) → Composer → Option (Node × Composer)
  | 0, _, _, _ => none
  | fuel + 1, properties, read, c =>
    let ends : List Token := [.key, .value, .blockEnd]
    let name? : Option (Node × Composer) :=
      match c.rest with
      | .key :: _ => nodeUnless declared fuel ends true true c.drop
      | .value :: _ => if declared.version = .v12 then some (missing declared, c) else none
      | _ => none
    if c.isAt [.blockEnd] then some (.mapping properties read.reverse, c.drop)
    else
      match name? with
      | none => none
      | some (name, c) =>
        match fieldValue declared fuel ends true c with
        | none => none
        | some (value, c) => blockFields declared fuel properties ((name, value) :: read) c

/-- Reads the value of a field, where one is written. -/
def fieldValue (declared : Declarations) :
    Nat → List Token → Bool → Composer → Option (Node × Composer)
  | 0, _, _, _ => none
  | fuel + 1, ends, isBlock, c =>
    if c.isAt [.value] then nodeUnless declared fuel ends isBlock isBlock c.drop
    else some (missing declared, c)

/-- Reads the items of a sequence in flow style. -/
def flowItems (declared : Declarations) :
    Nat → Properties → Bool → List Node → Composer → Option (Node × Composer)
  | 0, _, _, _, _ => none
  | fuel + 1, properties, isFirst, read, c =>
    if c.isAt [.flowSequenceEnd] then some (.sequence properties read.reverse, c.drop)
    else if ! isFirst && ! c.isAt [.flowEntry] then none
    else
      let c := if isFirst then c else c.drop
      if c.isAt [.flowSequenceEnd] then some (.sequence properties read.reverse, c.drop)
      else
        let item? :=
          if c.isAt [.key] then flowPair declared fuel c.drop else node declared fuel false false c
        match item? with
        | none => none
        | some (item, c) => flowItems declared fuel properties false (item :: read) c

/-- Reads a pair in a sequence in flow style, which is a mapping of its own. Where its name is missing, the
token after it is passed over. -/
def flowPair (declared : Declarations) : Nat → Composer → Option (Node × Composer)
  | 0, _ => none
  | fuel + 1, c =>
    let name? :=
      if c.isAt [.value, .flowEntry, .flowSequenceEnd] then some (missing declared, c.drop)
      else node declared fuel false false c
    match name? with
    | none => none
    | some (name, c) =>
      match fieldValue declared fuel [.flowEntry, .flowSequenceEnd] false c with
      | none => none
      | some (value, c) => some (.mapping {} [(name, value)], c)

/-- Reads the fields of a mapping in flow style. Without a mark of its key a field has no value. In version
1.2 the name of a field may be missing. -/
def flowFields (declared : Declarations) :
    Nat → Properties → Bool → List (Node × Node) → Composer → Option (Node × Composer)
  | 0, _, _, _, _ => none
  | fuel + 1, properties, isFirst, read, c =>
    if c.isAt [.flowMappingEnd] then some (.mapping properties read.reverse, c.drop)
    else if ! isFirst && ! c.isAt [.flowEntry] then none
    else
      let c := if isFirst then c else c.drop
      if c.isAt [.flowMappingEnd] then some (.mapping properties read.reverse, c.drop)
      else
        let hasValue := c.isAt [.key] || (declared.version = .v12 && c.isAt [.value])
        let name? :=
          if c.isAt [.key] then
            nodeUnless declared fuel [.value, .flowEntry, .flowMappingEnd] false false c.drop
          else if hasValue then some (missing declared, c)
          else node declared fuel false false c
        match name? with
        | none => none
        | some (name, c) =>
          let value? :=
            if hasValue then fieldValue declared fuel [.flowEntry, .flowMappingEnd] false c
            else some (missing declared, c)
          match value? with
          | none => none
          | some (value, c) =>
            flowFields declared fuel properties false ((name, value) :: read) c

end

end Composer

/-! ## Documents -/

/-- The directives before a document, the tokens after them, and whether there are any. Each handle is
declared once, and at most one version; in version 1.2 only the last directive counts. -/
def directives? (version : Version) (hasVersion : Bool) (handles : List (String × String)) :
    List Token → Option (List (String × String) × List Token)
  | .versionDirective major minor :: rest =>
    let isKnown := major = 1 && (minor = 1 || minor = 2)
    if hasVersion || (version = .v11 && ! isKnown) then none
    else directives? version true (if version = .v12 then [] else handles) rest
  | .tagDirective handle beginning :: rest =>
    match version with
    | .v11 =>
      if (handles.lookup handle).isSome then none
      else directives? version hasVersion ((handle, beginning) :: handles) rest
    | .v12 => directives? version hasVersion [(handle, beginning)] rest
  | rest => some (handles, rest)

/-- Whether a token is a directive or the mark of a document. -/
def isDocumentToken : Token → Bool
  | .versionDirective _ _ => true
  | .tagDirective _ _ => true
  | .documentStart => true
  | .documentEnd => true
  | .streamEnd => true
  | _ => false

/-- The content of a document that has been begun. -/
def content? (declared : Declarations) (isExplicit : Bool) (tokens : List Token) :
    Option (Node × List Token) :=
  if isExplicit && tokens.head?.any isDocumentToken then some (Composer.missing declared, tokens)
  else
    (Composer.node declared (4 * tokens.length + 4) true false { rest := tokens }).map
      fun (node, c) => (node, c.rest)

/-- Reads the tokens of one document, without or with a mark at its beginning. -/
def documentFrom? (version : Version) (tokens : List Token) : Option (Node × List Token) := do
  let isImplicit := tokens.head?.any fun token => ! isDocumentToken token || token = .documentEnd
  let (handles, rest) ← directives? version false [] tokens
  if isImplicit then content? { version } false rest
  else if rest.head? = some .documentStart then content? { version, handles } true (rest.drop 1)
  else none

/-- The document in a text, if there is exactly one; `some none` stands for a text without a document. In
version 1.2 the mark of an end may stand before a document. -/
def document? (version : Version) (text : String) : Option (Option Node) := do
  let tokens ← tokens? version text
  let tokens := if version = .v12 then tokens.dropWhile (· = .documentEnd) else tokens
  if tokens = [.streamEnd] then return none
  let (document, rest) ← documentFrom? version tokens
  if rest.dropWhile (· = .documentEnd) = [.streamEnd] then return some document else none

end ScriptedChat.Yaml
