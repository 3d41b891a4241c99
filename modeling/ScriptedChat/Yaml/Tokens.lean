import ScriptedChat.Yaml.BlockScalar
import ScriptedChat.Yaml.Plain
import ScriptedChat.Yaml.Quoted
import ScriptedChat.Yaml.Tag

/-!
# The tokens of a YAML document

In block style the structure of a document follows from the indentation of its lines: a collection begins
at a column and ends before the first token that does not stand as far in. That a scalar or a collection
in flow style is the key of a mapping shows only at the colon after it; so it is remembered as a possible
key, and marked as one when the colon comes.

* `Scanner`: how far a text has been cut into tokens.
* `Scanner.skipSpace?`: the scanner before the next token.
* `Scanner.openKey?`, `Scanner.closeFlow?`, `Scanner.mapValue?` and their like: the scanner after one
  token.
* `tokens?`: the tokens of a text.
-/

namespace ScriptedChat.Yaml

/-! ## The state -/

/-- A token with those that have been put before it. -/
structure Entry where
  before : List Token := []
  token : Token

/-- Something that may turn out to be a key. -/
structure SimpleKey where
  /-- whether it must be one, because it stands where only a key can stand -/
  isRequired : Bool
  /-- the number of its first token -/
  entry : Nat
  position : Position

/-- An indentation that is in force. -/
structure Level where
  column : Int
  /-- whether a collection in block style stands there; if not, it only says how far in the content of a
  value has to stand -/
  isBlock : Bool

/-- Whether a sequence in flow style is inside a mapping of one pair that has no braces. -/
inductive Pairing where
  | possible
  | inside
  deriving DecidableEq, Repr

/-- How far a text has been cut into tokens. -/
structure Scanner where
  cursor : Cursor
  entries : Array Entry := #[]
  /-- the possible key -/
  key : Option SimpleKey := none
  /-- the possible keys around each open collection in flow style -/
  outerKeys : List (Option SimpleKey) := []
  /-- whether a key can begin here -/
  keyAllowed : Bool := true
  /-- the indentations in force, the innermost first -/
  levels : List Level := []
  /-- where a colon needs no gap after it -/
  adjacentAt : Option Nat := none
  /-- whether the pairs in flow style stand in a mapping that has begun -/
  inMapping : Bool := false
  /-- for each open sequence in flow style -/
  pairings : List Pairing := []

namespace Scanner

variable (version : Version)

def inFlow (s : Scanner) : Bool := ! s.outerKeys.isEmpty

/-- The indentation in force; outside of everything it is before the first column. -/
def indent (s : Scanner) : Int := (s.levels.head?.map Level.column).getD (-1)

def column (s : Scanner) : Int := s.cursor.column

/-- The scanner with one more token. -/
def push (token : Token) (s : Scanner) : Scanner :=
  { s with entries := s.entries.push { token } }

/-- The scanner with a token before that of a given number. -/
def putBefore (entry : Nat) (token : Token) (s : Scanner) : Scanner :=
  { s with entries := s.entries.modify entry fun e => { e with before := token :: e.before } }

/-- The scanner after so many characters. -/
def skip (n : Nat) (s : Scanner) : Scanner :=
  { s with cursor := s.cursor.skip version n }

def allowKey (isAllowed : Bool) (s : Scanner) : Scanner :=
  { s with keyAllowed := isAllowed }

/-! ## Indentation -/

/-- Whether the indentation in force is that of a collection. -/
def isBlockLevel (s : Scanner) : Bool := s.levels.head?.any Level.isBlock

/-- Ends the collections in block style that stand further in than a column. -/
def unrollTo (column : Int) : List Level → Array Entry → List Level × Array Entry
  | [], entries => ([], entries)
  | level :: levels, entries =>
    if column < level.column then
      unrollTo column levels (if level.isBlock then entries.push { token := .blockEnd } else entries)
    else (level :: levels, entries)

def unroll (column : Int) (s : Scanner) : Scanner :=
  if s.inFlow then s
  else
    let (levels, entries) := unrollTo column s.levels s.entries
    { s with levels, entries }

/-- Begins a collection in block style at a column, unless it has begun: its token stands before that of
the given number, or comes next. -/
def roll (column : Int) (entry : Option Nat) (token : Token) (s : Scanner) : Scanner :=
  if s.inFlow then s
  else
    let s :=
      if s.indent ≤ column && ! s.isBlockLevel then { s with levels := s.levels.drop 1 } else s
    if s.indent < column then
      let s := { s with levels := { column, isBlock := true } :: s.levels }
      match entry with
      | some entry => s.putBefore entry token
      | none => s.push token
    else s

/-- Version 1.2 wants the content of a value to stand further in than its collection. -/
def rollOne (s : Scanner) : Scanner :=
  if version = .v12 && ! s.inFlow && s.isBlockLevel then
    { s with levels := { column := s.indent + 1, isBlock := false } :: s.levels }
  else s

/-- Where a scalar begins, its collection counts again. -/
def dropInner (s : Scanner) : Scanner :=
  { s with levels := s.levels.dropWhile (! ·.isBlock) }

/-! ## Possible keys -/

/-- Forgets the possible key, which must not be required. -/
def removeKey? (s : Scanner) : Option Scanner :=
  if s.key.any SimpleKey.isRequired then none else some { s with key := none }

/-- Remembers what comes next as a possible key, if one can begin here. Version 1.1 does not forget a
required key. -/
def saveKey? (s : Scanner) : Option Scanner :=
  if ! s.keyAllowed then some s
  else do
    let s ← if version = .v11 then s.removeKey? else some s
    let isRequired := ! s.inFlow && s.indent = s.column && s.isBlockLevel
    return { s with
      key := some { isRequired, entry := s.entries.size, position := s.cursor.position } }

/-- Whether a key can no longer be one: it must end on its line, within 1024 characters. -/
def isStale (s : Scanner) (key : SimpleKey) : Bool :=
  key.position.line < s.cursor.position.line
    || key.position.index + 1024 < s.cursor.position.index

/-- A possible key as long as it can be one. -/
def keepKey? (s : Scanner) : Option SimpleKey → Option (Option SimpleKey)
  | none => some none
  | some key =>
    if ! s.isStale key then some (some key)
    else if key.isRequired then none
    else some none

/-- Forgets the keys that can no longer be keys. Version 1.2 has no limits in flow style. -/
def dropStaleKeys? (s : Scanner) : Option Scanner :=
  if version = .v12 && s.inFlow then some s
  else do
    let key ← s.keepKey? s.key
    let outerKeys ← s.outerKeys.mapM s.keepKey?
    return { s with key, outerKeys }

/-! ## Between tokens -/

/-- Skips blanks, comments and line ends in version 1.1. In block style a tab must not stand where a key
can begin. -/
def skipSpace11 (inFlow : Bool) (keyAllowed inRemark : Bool) (position : Position) :
    List Char → Bool × Cursor
  | [] => (keyAllowed, ⟨position, []⟩)
  | c :: rest =>
    let next := position.after .v11 c
    if isBreak .v11 c then skipSpace11 inFlow (keyAllowed || ! inFlow) false next rest
    else if inRemark || c = '#' then skipSpace11 inFlow keyAllowed true next rest
    else if c = ' ' || (c = '\t' && (inFlow || ! keyAllowed))
        || (c = '\uFEFF' && position.column = 0) then
      skipSpace11 inFlow keyAllowed false next rest
    else (keyAllowed, ⟨position, c :: rest⟩)

/-- Skips blanks, comments and line ends in version 1.2. A line with a tab in its indentation may only
hold a comment. -/
def skipSpace12 (inFlow : Bool) (indent : Int) (keyAllowed : Bool) (margin : Margin)
    (position : Position) : List Char → Option (Bool × Cursor)
  | [] => some (keyAllowed, ⟨position, []⟩)
  | c :: rest =>
    let next := position.after .v12 c
    if isBreak .v12 c then skipSpace12 inFlow indent (keyAllowed || ! inFlow) .free next rest
    else if margin = .remark || c = '#' then
      skipSpace12 inFlow indent keyAllowed .remark next rest
    else if isBlank c then
      let isTabbed := c = '\t' && position.atMargin && (position.column : Int) < indent
      skipSpace12 inFlow indent keyAllowed (if isTabbed then .tabbed else margin) next rest
    else if margin = .tabbed then none
    else some (keyAllowed, ⟨position, c :: rest⟩)

/-- The scanner before the next token. -/
def skipSpace? (s : Scanner) : Option Scanner :=
  let position := s.cursor.position
  match version with
  | .v11 =>
    let (keyAllowed, cursor) := skipSpace11 s.inFlow s.keyAllowed false position s.cursor.rest
    some { s with keyAllowed, cursor }
  | .v12 =>
    (skipSpace12 s.inFlow s.indent s.keyAllowed .free position s.cursor.rest).map
      fun (keyAllowed, cursor) => { s with keyAllowed, cursor }

/-- In version 1.2, the scanner after the blanks and the comment that may follow a token. -/
def endToken? (s : Scanner) : Option Scanner :=
  if version = .v12 then (s.cursor.restOfLine? version).map fun cursor => { s with cursor }
  else some s

/-! ## Documents -/

/-- The scanner where no collection in block style is open. -/
def leave? (s : Scanner) : Option Scanner := do
  return (← (s.unroll (-1)).removeKey?).allowKey false

def directive? (s : Scanner) : Option Scanner := do
  let s ← s.leave?
  let (token, cursor) ← Yaml.directive? version s.cursor
  return ({ s with cursor } : Scanner).push token

/-- The scanner after the mark that begins or ends a document. In version 1.2 nothing may stand after the
mark of an end. -/
def documentMark? (token : Token) (s : Scanner) : Option Scanner := do
  let s := ((← s.leave?).skip version 3).push token
  if version = .v12 && token = .documentEnd then
    let s ← s.endToken? version
    if lineEnds version s.cursor.rest then return s else none
  else return s

/-- The scanner at the end of the text. -/
def finish? (s : Scanner) : Option Scanner := do
  if version = .v12 && s.outerKeys.any (·.any SimpleKey.isRequired) then none
  return (← s.leave?).push .streamEnd

/-! ## Flow style -/

def openFlow? (token : Token) (s : Scanner) : Option Scanner := do
  let s := (← s.saveKey? version).rollOne version
  if version = .v12 && 255 ≤ s.outerKeys.length then none
  let s := { s with key := none, outerKeys := s.key :: s.outerKeys, keyAllowed := true }
  let s := if token = .flowMappingStart then { s with inMapping := true }
    else { s with pairings := .possible :: s.pairings }
  return (← (s.skip version 1).endToken? version).push token

/-- Ends a mapping of one pair in a sequence. -/
def closePair (s : Scanner) : Scanner :=
  match s.pairings with
  | .inside :: pairings =>
    { s with inMapping := false, pairings := .possible :: pairings }.push .flowMappingEnd
  | _ => s

def closeFlow? (token : Token) (s : Scanner) : Option Scanner := do
  let s ← s.removeKey?
  let s := { s with
    key := s.outerKeys.head?.getD s.key, outerKeys := s.outerKeys.drop 1, keyAllowed := false }
  let s := if token = .flowSequenceEnd then
    let s := s.closePair
    { s with pairings := s.pairings.drop 1 }
    else s
  let s ← (s.skip version 1).endToken? version
  let s := if s.inFlow then { s with adjacentAt := some s.cursor.position.index } else s
  return s.push token

def flowEntry? (s : Scanner) : Option Scanner := do
  let s := ((← s.removeKey?).allowKey true).closePair
  return (← (s.skip version 1).endToken? version).push .flowEntry

/-! ## Marks of collections -/

/-- Whether a text goes on with the mark of an item. -/
def isEntryMark (text : List Char) : Bool :=
  match text with
  | '-' :: rest => gapFollows version rest
  | _ => false

/-- The scanner after the mark of an item in block style. In version 1.2 a tab does not part two of
them. -/
def blockEntry? (s : Scanner) : Option Scanner := do
  if ! s.inFlow && ! s.keyAllowed then none
  if version = .v12 && s.inFlow then none
  let s := s.roll s.column none .blockSequenceStart
  match version with
  | .v11 => return ((← s.removeKey?).allowKey true).skip version 1 |>.push .blockEntry
  | .v12 =>
    let s := s.skip version 1
    let hasTab := (s.cursor.rest.takeWhile isBlank).contains '\t'
    let s ← s.endToken? version
    if hasTab && isEntryMark version s.cursor.rest then none
    let s := if s.cursor.rest.head?.any fun c => isBreak version c || isFlowMark c then
      s.rollOne version else s
    return ((← s.removeKey?).allowKey true).push .blockEntry

/-- Skips spaces, comments and line ends in version 1.2. -/
def skipSpaces (inRemark : Bool) (position : Position) : List Char → Cursor
  | [] => ⟨position, []⟩
  | c :: rest =>
    let next := position.after .v12 c
    if c = '\n' then skipSpaces false next rest
    else if inRemark || c = '#' then skipSpaces true next rest
    else if c = ' ' then skipSpaces false next rest
    else ⟨position, c :: rest⟩

/-- The scanner after what must stand behind the mark of a key in version 1.2: spaces, comments and line
ends, but no tab. -/
def afterKeyMark? (s : Scanner) : Option Scanner :=
  let cursor := skipSpaces false s.cursor.position s.cursor.rest
  if s.cursor.rest.isEmpty || cursor.rest.head? = some '\t' then none
  else some { s with cursor }

/-- The scanner after the mark of a key that need not be simple. -/
def openKey? (s : Scanner) : Option Scanner := do
  if ! s.inFlow && ! s.keyAllowed then none
  let s := s.roll s.column none .blockMappingStart
  let s := if s.inFlow then { s with inMapping := true } else s
  let s := ((← s.removeKey?).allowKey (! s.inFlow)).skip version 1
  let s ← if version = .v12 then s.afterKeyMark? else some s
  return s.push .key

/-- Whether a tab stands directly after a colon, and a word after it, which version 1.2 does not
allow. -/
def isTabbedValue (text : List Char) : Bool :=
  let blanks := text.takeWhile isBlank
  blanks.head? = some '\t' && ! blanks.contains ' '
    && (text.drop blanks.length).head?.any isWordChar

/-- The scanner after a colon, which makes what stands before it a key. In a sequence in flow style a pair
is a mapping of its own. -/
def mapValue? (s : Scanner) : Option Scanner := do
  let isPair := version = .v12 && ! s.pairings.isEmpty && ! s.inMapping
  let s := if isPair then { s with pairings := .inside :: s.pairings.drop 1 } else s
  let start := s.cursor.position
  let column := s.column
  let s := s.skip version 1
  let s ←
    if version = .v12 && s.cursor.rest.head? = some '\t' then
      if isTabbedValue s.cursor.rest then none else s.endToken? version
    else some s
  match s.key with
  | some key =>
    if isPair && key.position.line < start.line then none
    let s := s.putBefore key.entry .key
    let s := if isPair then s.putBefore key.entry .flowMappingStart else s
    let s := s.roll key.position.column (some key.entry) .blockMappingStart
    return { s.rollOne version with key := none, keyAllowed := false }.push .value
  | none =>
    let s := if isPair then s.push .flowMappingStart else s
    if ! s.inFlow && ! s.keyAllowed then none
    let s := (s.roll column none .blockMappingStart).rollOne version
    return (s.allowKey (! s.inFlow)).push .value

/-! ## Nodes -/

def alias? (s : Scanner) : Option Scanner := do
  let s := (← s.saveKey? version).allowKey false
  let (name, cursor) ← Yaml.anchor? version (s.cursor.skip version 1)
  return ({ s with cursor } : Scanner).push (.alias name)

def anchor? (s : Scanner) : Option Scanner := do
  let s := (← s.saveKey? version).allowKey false
  let (name, cursor) ← Yaml.anchor? version (s.cursor.skip version 1)
  return ({ s with cursor } : Scanner).push (.anchor name)

def tag? (s : Scanner) : Option Scanner := do
  let s := (← s.saveKey? version).allowKey false
  let (tag, cursor) ← Yaml.tag? version s.inFlow s.cursor
  return ({ s with cursor } : Scanner).push (.tag tag)

def blockScalar? (s : Scanner) : Option Scanner := do
  let s ← if version = .v11 then s.removeKey? else s.saveKey? version
  let s := s.dropInner.allowKey true
  let (style, text, cursor) ← Yaml.blockScalar? version s.indent s.cursor
  return ({ s with cursor } : Scanner).push (.scalar style text)

/-- Whether something may follow a scalar between quotation marks in version 1.2: in block style the line
must end, or the scalar must be a key on one line. -/
def mayFollowQuoted (inFlow oneLine : Bool) : List Char → Bool
  | [] => true
  | c :: _ =>
    isBreak .v12 c || (inFlow && [',', '\x7d', ']', ':'].contains c) || (oneLine && c = ':')

def quoted? (s : Scanner) : Option Scanner := do
  let s := (← s.saveKey? version).allowKey false
  let start := s.cursor.position.line
  let (style, text, cursor) ← Yaml.quoted? version s.indent s.cursor
  let s := { s with cursor }
  match version with
  | .v11 => return s.push (.scalar style text)
  | .v12 =>
    let s ← s.endToken? version
    if ! mayFollowQuoted s.inFlow (start = s.cursor.position.line) s.cursor.rest then none
    let s ← s.skipSpace? version
    return { s with adjacentAt := some s.cursor.position.index }.push (.scalar style text)

def plain? (s : Scanner) : Option Scanner := do
  let s := ((← s.saveKey? version).allowKey false).dropInner
  let (text, hasBreak, cursor) ← Yaml.plain? version s.inFlow s.indent s.cursor
  return ({ s with cursor, keyAllowed := hasBreak } : Scanner).push (.scalar .plain text)

/-! ## Tokens -/

/-- Whether a colon parts a key and a value. -/
def isValueMark (s : Scanner) (rest : List Char) : Bool :=
  gapFollows version rest || s.inFlow && match version with
    | .v11 => true
    | .v12 => rest.head?.any isFlowMark || s.adjacentAt = some s.cursor.position.index

/-- The scanner after the token that begins with a character. -/
def token? (c : Char) (rest : List Char) (s : Scanner) : Option Scanner :=
  let gap := gapFollows version rest
  if version = .v12 && s.column < s.indent then none
  else if c = '[' then s.openFlow? version .flowSequenceStart
  else if c = '\x7b' then s.openFlow? version .flowMappingStart
  else if c = ']' then s.closeFlow? version .flowSequenceEnd
  else if c = '\x7d' then s.closeFlow? version .flowMappingEnd
  else if c = ',' then s.flowEntry? version
  else if c = '-' && gap then s.blockEntry? version
  else if c = '?' && (gap || (version = .v11 && s.inFlow)) then s.openKey? version
  else if c = ':' && s.isValueMark version rest then s.mapValue? version
  else if c = '*' then s.alias? version
  else if c = '&' then s.anchor? version
  else if c = '!' then s.tag? version
  else if (c = '|' || c = '>') && ! s.inFlow then s.blockScalar? version
  else if c = '"' || c = '\'' then s.quoted? version
  else if startsPlain version s.inFlow c rest then s.plain? version
  else none

/-- The scanner after the next token. -/
def next? (c : Char) (rest : List Char) (s : Scanner) : Option Scanner :=
  if s.cursor.column = 0 && c = '%' then s.directive? version
  else
    match s.cursor.documentMark? version with
    | some token =>
      if s.cursor.column = 0 then s.documentMark? version token else s.token? version c rest
    | none => s.token? version c rest

/-- The scanner at the end of the text. Every token but the last takes a character, so as many rounds as
there are characters suffice. -/
def run? : Nat → Scanner → Option Scanner
  | 0, _ => none
  | fuel + 1, s => do
    let s ← (← s.skipSpace? version).dropStaleKeys? version
    let s := s.unroll s.column
    match s.cursor.rest with
    | [] => s.finish? version
    | c :: rest => run? fuel (← s.next? version c rest)

/-- All tokens so far. -/
def tokens (s : Scanner) : List Token :=
  s.entries.toList.flatMap fun entry => entry.before ++ [entry.token]

end Scanner

/-- The tokens of a text, if it can be cut into tokens. -/
def tokens? (version : Version) (text : String) : Option (List Token) := do
  let chars ← characters version text
  let s ← Scanner.run? version (chars.length + 1) { cursor := ⟨{}, chars⟩ }
  return s.tokens

end ScriptedChat.Yaml
