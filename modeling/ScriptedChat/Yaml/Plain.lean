import ScriptedChat.Yaml.Gap

/-!
# Plain scalars

A scalar without quotation marks ends before a comment, before a colon that ends a key, before a line that
does not stand further in than the node around it, and in flow style before a mark.

* `startsPlain`: whether a plain scalar can begin here.
* `wordEnd`: whether a word goes on with a character.
* `plain`: reads a plain scalar.
-/

namespace ScriptedChat.Yaml

/-- The characters with which no plain scalar begins. -/
def isIndicator (c : Char) : Bool :=
  "-?:,[]\x7b\x7d#&*!|>'\"%@\x60".toList.contains c

/-- Whether a plain scalar can begin with a character, where no other token does. -/
def startsPlain (version : Version) (inFlow : Bool) (c : Char) (rest : List Char) : Bool :=
  match version with
  | .v11 =>
    (! isSpace version c && ! isIndicator c) || (c = '-' && ! rest.head?.any isBlank)
      || (! inFlow && (c = '?' || c = ':') && ! gapFollows version rest)
  | .v12 => ! ['%', '@', '\x60'].contains c

/-- How a word goes on. -/
inductive WordEnd where
  | more
  | stop
  /-- neither is possible -/
  | wrong
  deriving DecidableEq, Repr

/-- Whether a word goes on with a character. In flow style version 1.1 is at a loss with a colon before a
mark. -/
def wordEnd (version : Version) (inFlow : Bool) (c : Char) (rest : List Char) : WordEnd :=
  let beforeMark := inFlow && c = ':' && rest.head?.any fun d =>
    isFlowMark d || (version = .v11 && d = '?')
  if beforeMark then if version = .v11 then .wrong else .stop
  else if (c = ':' && gapFollows version rest) || (inFlow && isFlowMark c) then .stop
  else .more

/-- How a line that begins with a tab in its margin is read in version 1.2: it may only hold a comment. -/
inductive Margin where
  | free
  | tabbed
  | remark
  deriving DecidableEq, Repr

/-- What a plain scalar is read as. -/
structure PlainReading where
  /-- the text, the last character first -/
  read : List Char
  /-- the gap after it -/
  gap : Gap
  cursor : Cursor

/-- Whether a scalar ends at the beginning of a word. -/
def endsPlain (version : Version) (inFlow : Bool) (indent : Int) (gap : Gap) (cursor : Cursor) :
    Bool :=
  let hasMark := match version with
    | .v11 => cursor.atDocumentMark version
    | .v12 => cursor.position.atMargin && (cursor.documentMark? version).isSome
  hasMark || cursor.rest.head? = some '#'
    || (! inFlow && gap ≠ .none && (cursor.column : Int) ≤ indent)

/-- Whether a word cannot begin with a character: in flow style version 1.2 wants more than a hyphen before
a mark. -/
def isLoneHyphen (version : Version) (inFlow : Bool) (c : Char) (rest : List Char) : Bool :=
  version = .v12 && inFlow && c = '-' && rest.head?.any isFlowMark

/-- Reads a plain scalar in a node at the given indentation. -/
def plainFrom (version : Version) (inFlow : Bool) (indent : Int) (margin : Margin) (inWord : Bool)
    (gap : Gap) (read : List Char) (position : Position) : List Char → Option PlainReading
  | [] => some ⟨read, gap, ⟨position, []⟩⟩
  | c :: rest =>
    let next := position.after version c
    if margin ≠ .free && ! isBreak version c then
      if margin = .remark || c = '#' then
        plainFrom version inFlow indent .remark false gap read next rest
      else if isBlank c then plainFrom version inFlow indent .tabbed false gap read next rest
      else none
    else if isSpace version c then
      if c = '\t' && gap.hasBreak && (position.column : Int) ≤ indent then
        if version = .v11 then none
        else plainFrom version inFlow indent .tabbed false gap read next rest
      else plainFrom version inFlow indent .free false (gap.push version c) read next rest
    else
      let cursor : Cursor := ⟨position, c :: rest⟩
      if ! inWord && endsPlain version inFlow indent gap cursor then some ⟨read, gap, cursor⟩
      else if ! inWord && isLoneHyphen version inFlow c rest then none
      else
        match wordEnd version inFlow c rest with
        | .wrong => none
        | .stop => some ⟨read, gap, cursor⟩
        | .more =>
          plainFrom version inFlow indent .free true .none (c :: (gap.text.reverse ++ read)) next rest

/-- Reads a plain scalar: its text, whether it goes on to another line at its end, and the cursor after
it. Version 1.2 wants it to stand further in than the node around it also in flow style. -/
def plain? (version : Version) (inFlow : Bool) (indent : Int) (cursor : Cursor) :
    Option (String × Bool × Cursor) := do
  if version = .v12 && inFlow && (cursor.column : Int) ≤ indent then none
  let reading ← plainFrom version inFlow indent .free false .none [] cursor.position cursor.rest
  if reading.read.isEmpty then none
  return (String.ofList reading.read.reverse, reading.gap.hasBreak, reading.cursor)

end ScriptedChat.Yaml
