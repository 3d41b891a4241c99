import ScriptedChat.Text.Numeral
import ScriptedChat.Yaml.Gap

/-!
# Scalars between quotation marks

Between single marks a doubled mark stands for one. Between double marks a backslash begins an escape,
which may be the end of a line.

* `escape?`, `escapeWidth?`: the escapes.
* `quoted`: reads a scalar up to its closing mark.
-/

namespace ScriptedChat.Yaml

/-- The character that an escape of one letter stands for. -/
def escape? (c : Char) : Option Char :=
  match c with
  | '0' => some '\x00'
  | 'a' => some '\x07'
  | 'b' => some '\x08'
  | 't' => some '\t'
  | '\t' => some '\t'
  | 'n' => some '\n'
  | 'v' => some '\x0b'
  | 'f' => some '\x0c'
  | 'r' => some '\r'
  | 'e' => some '\x1b'
  | ' ' => some ' '
  | '"' => some '"'
  | '/' => some '/'
  | '\\' => some '\\'
  | 'N' => some '\u0085'
  | '_' => some '\u00a0'
  | 'L' => some '\u2028'
  | 'P' => some '\u2029'
  | _ => none

/-- The number of digits in an escape of a character by its number. -/
def escapeWidth? (c : Char) : Option Nat :=
  match c with
  | 'x' => some 2
  | 'u' => some 4
  | 'U' => some 8
  | _ => none

/-- Where a reader stands between quotation marks. -/
inductive QuoteState where
  /-- in a word, or in a gap after one -/
  | words (gap : Gap)
  | escaped
  /-- inside an escape with so many more digits; the digits so far, the last one first -/
  | hex (left : Nat) (digits : List Char)
  /-- after the first of two single marks -/
  | doubled

/-- Whether a word may begin after a gap. The text must not look like the mark of a document there, and in
version 1.2 it must stand as far in as the node around it. -/
def mayGoOn (version : Version) (indent : Int) (gap : Gap) (cursor : Cursor) : Bool :=
  gap = .none
    || (! cursor.atDocumentMark version && (version = .v11 || indent ≤ (cursor.column : Int)))

/-- Whether a tab stands where version 1.2 wants indentation. -/
def isTabInMargin (version : Version) (indent : Int) (gap : Gap) (column : Nat) (c : Char) : Bool :=
  version = .v12 && gap.hasBreak && c = '\t' && (column : Int) < indent

/-- Reads a text up to its closing quotation mark; `read` is the text so far, the last character first. A
closing mark may stand at the margin directly after an escaped line end. -/
def quoted (version : Version) (isDouble : Bool) (indent : Int) (state : QuoteState)
    (read : List Char) (position : Position) : List Char → Option (String × Cursor)
  | [] => none
  | c :: rest =>
    let next := position.after version c
    match state with
    | .escaped =>
      match escapeWidth? c, escape? c with
      | some width, _ => quoted version isDouble indent (.hex width []) read next rest
      | none, some e => quoted version isDouble indent (.words .none) (e :: read) next rest
      | none, none =>
        if isBreak version c then
          quoted version isDouble indent (.words (.breaks none [])) read next rest
        else none
    | .hex left digits =>
      if 1 < left then quoted version isDouble indent (.hex (left - 1) (c :: digits)) read next rest
      else
        match (Text.numeral? 16 (c :: digits).reverse).bind Text.charOf? with
        | some e => quoted version isDouble indent (.words .none) (e :: read) next rest
        | none => none
    | .doubled => quoted version isDouble indent (.words .none) ('\'' :: read) next rest
    | .words gap =>
      let closes := c = (if isDouble then '"' else '\'')
      if isSpace version c then
        if isTabInMargin version indent gap position.column c then none
        else quoted version isDouble indent (.words (gap.push version c)) read next rest
      else if closes && gap = .breaks none [] && position.column = 0 then
        some (String.ofList read.reverse, ⟨next, rest⟩)
      else if ! mayGoOn version indent gap ⟨position, c :: rest⟩ then none
      else
        let read := gap.text.reverse ++ read
        if closes then
          if ! isDouble && rest.head? = some '\'' then
            quoted version isDouble indent .doubled read next rest
          else some (String.ofList read.reverse, ⟨next, rest⟩)
        else if isDouble && c = '\\' then quoted version isDouble indent .escaped read next rest
        else quoted version isDouble indent (.words .none) (c :: read) next rest

/-- Reads a scalar between quotation marks. -/
def quoted? (version : Version) (indent : Int) (cursor : Cursor) :
    Option (Style × String × Cursor) :=
  let isDouble := cursor.rest.head? = some '"'
  let inside := cursor.skip version 1
  (quoted version isDouble indent (.words .none) [] inside.position inside.rest).map
    fun (text, cursor) => (if isDouble then .double else .single, text, cursor)

end ScriptedChat.Yaml
