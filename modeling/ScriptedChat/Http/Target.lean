import ScriptedChat.Text.Search
import ScriptedChat.Text.Utf8

/-!
# Request targets

The target of a request is written in one of four forms: a path with an optional query, an absolute
address, an authority alone, or an asterisk. A fragment at the end does not belong to the target.

* `Target`: the four forms.
* `Target.read?`: the target that a text denotes.
* `Target.path`: the path, which an authority does not have.
* `Target.url`: the absolute address, where the host is known.
-/

namespace ScriptedChat.Http

/-- What a request is addressed to. -/
inductive Target where
  | origin (path : String) (query : Option String)
  | absolute (scheme authority path : String) (query : Option String)
  | authority (text : String)
  | asterisk
  deriving DecidableEq, Repr, Inhabited

/-! ## Characters -/

/-- Letters and digits without accents. -/
def isAlphanumeric (c : Char) : Bool :=
  ('a' ≤ c && c ≤ 'z') || ('A' ≤ c && c ≤ 'Z') || ('0' ≤ c && c ≤ '9')

/-- The characters of a scheme. -/
def isSchemeChar (c : Char) : Bool :=
  isAlphanumeric c || ['+', '-', '.', '~'].contains c

/-- The characters of an authority, but for the percent sign. -/
def isAuthorityChar (c : Char) : Bool :=
  isAlphanumeric c || "!$&'()*+,-.:;=@[]_~".toList.contains c

/-- The characters after which an authority ends. -/
def endsAuthority (c : Char) : Bool :=
  c = '/' || c = '?' || c = '#'

/-- Characters that may stand in a path as they are. Quotation marks, braces and what is not ASCII should
be encoded there, but are let through. -/
def isPathChar (c : Char) : Bool :=
  let n := c.toNat
  n == 0x21 || n == 0x22 || (0x24 ≤ n && n ≤ 0x3B) || n == 0x3D || (0x40 ≤ n && n ≤ 0x5F)
    || (0x61 ≤ n && n ≤ 0x7E) || 0x80 ≤ n

/-- Characters that may stand in a query as they are. -/
def isQueryChar (c : Char) : Bool :=
  let n := c.toNat
  n == 0x21 || (0x24 ≤ n && n ≤ 0x3B) || n == 0x3D || (0x3F ≤ n && n ≤ 0x7E) || 0x80 ≤ n

/-! ## Parts -/

/-- The text without its fragment. -/
def dropFragment (text : List Char) : List Char :=
  text.takeWhile (· ≠ '#')

/-- A path and its query. -/
def pathAndQuery? (text : List Char) : Option (String × Option String) :=
  let text := dropFragment text
  let path := text.takeWhile (· ≠ '?')
  if ! path.all isPathChar then none
  else
    match text.dropWhile (· ≠ '?') with
    | [] => some (String.ofList path, none)
    | _ :: query =>
      if query.all isQueryChar then some (String.ofList path, some (String.ofList query)) else none

/-- What has been seen of an authority. -/
structure AuthorityScan where
  /-- colons that may introduce a port -/
  colons : Nat
  opened : Bool
  closed : Bool
  /-- whether there is a percent sign outside a user's name and an address in brackets -/
  percent : Bool

/-- A scan after one more character; `none` where the character cannot stand there. -/
def AuthorityScan.next? (scan : AuthorityScan) (c : Char) : Option AuthorityScan :=
  if c = ':' then
    if scan.colons < 8 then some { scan with colons := scan.colons + 1 } else none
  else if c = '[' then
    if scan.percent || scan.opened then none else some { scan with opened := true }
  else if c = ']' then
    if ! scan.opened || scan.closed then none
    else some { scan with closed := true, colons := 0, percent := false }
  else if c = '@' then some { scan with colons := 0, percent := false }
  else if c = '%' then some { scan with percent := true }
  else if isAuthorityChar c then some scan
  else none

/-- Whether a text is an authority: a host with an optional port, perhaps with a user before it. -/
def isAuthority (text : List Char) : Bool :=
  let start : AuthorityScan := { colons := 0, opened := false, closed := false, percent := false }
  match text.foldlM AuthorityScan.next? start with
  | none => false
  | some scan =>
    scan.opened == scan.closed && scan.colons ≤ 1 && ! scan.percent && text.getLast? ≠ some '@'

/-! ## Reading -/

/-- What the beginning of a target says about its scheme. -/
inductive SchemeReading where
  | absent
  | tooLong
  | present (scheme : String) (rest : List Char)

/-- The separator after a scheme. -/
def schemeEnd : List Char := "://".toList

/-- The two common schemes are written in lower case, whatever the target says. -/
def schemeName (scheme : List Char) : String :=
  let lower := String.ofList (scheme.map Char.toLower)
  if lower = "http" || lower = "https" then lower else String.ofList scheme

/-- The scheme of a target. -/
def readScheme (text : List Char) : SchemeReading :=
  let scheme := text.takeWhile isSchemeChar
  match Text.afterFront? schemeEnd (text.dropWhile isSchemeChar) with
  | none => .absent
  | some rest =>
    if text.length ≤ 3 then .absent
    else if 64 < scheme.length then .tooLong
    else .present (schemeName scheme) rest

namespace Target

/-- The greatest number of bytes in a target. -/
def maxLength : Nat := 65534

/-- The path of an absolute address, which is never empty. -/
def rootedPath (path : String) : String :=
  if path = "" then "/" else path

/-- The target that a text after its scheme denotes. -/
def ofScheme? (scheme : String) (text : List Char) : Option Target :=
  let authority := text.takeWhile (! endsAuthority ·)
  if authority.isEmpty || ! isAuthority authority then none
  else
    (pathAndQuery? (text.dropWhile (! endsAuthority ·))).map fun (path, query) =>
      .absolute scheme (String.ofList authority) (rootedPath path) query

/-- The target that a text denotes. -/
def read? (text : String) : Option Target :=
  if maxLength < text.utf8ByteSize then none
  else
    match text.toList with
    | [] => none
    | ['*'] => some .asterisk
    | '/' :: rest =>
      (pathAndQuery? ('/' :: rest)).map fun (path, query) => .origin path query
    | chars =>
      match readScheme chars with
      | .tooLong => none
      | .present scheme rest => ofScheme? scheme rest
      | .absent => if isAuthority chars then some (.authority text) else none

/-! ## Parts of a target -/

/-- The path of a target; an authority has none. -/
def path : Target → String
  | .origin path _ => path
  | .absolute _ _ path _ => path
  | .authority _ => ""
  | .asterisk => "*"

/-- A query after its mark. -/
def queryText : Option String → String
  | none => ""
  | some query => "?" ++ query

/-- The absolute address of a target, on the given host unless the target names one. -/
def url (host : String) : Target → String
  | .origin path query => "http://" ++ host ++ path ++ queryText query
  | .absolute scheme named path query =>
    scheme ++ "://" ++ named ++ path ++ queryText query
  | .authority _ => "http://" ++ host ++ "/"
  | .asterisk => "http://" ++ host ++ "*"

end Target

end ScriptedChat.Http
