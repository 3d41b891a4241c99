import ScriptedChat.Failure
import ScriptedChat.Http.Target
import ScriptedChat.Json.Printer

/-!
# Requests

* `Header`: a name in lower case with the bytes of its value.
* `Request`: a request as the endpoints see it.
* `Request.url`: the absolute address that was asked for.
* `Request.postJson`: a request that posts a JSON value.

The simulator's `InboundRequest` is `Request`; its `url` and `post_json` are `Request.url` and
`Request.postJson`.
-/

namespace ScriptedChat.Http

/-- A header. -/
structure Header where
  /-- the name, in lower case -/
  name : String
  value : List UInt8
  deriving DecidableEq, Repr, Inhabited

/-- A text with all letters between A and Z in lower case. -/
def lowerCase (text : String) : String :=
  String.ofList (text.toList.map Char.toLower)

/-- The header with a name in any case. -/
def Header.named (name : String) (value : List UInt8) : Header :=
  { name := lowerCase name, value }

/-- A byte of plain text: a visible character, a space or a tab. -/
def isPlainByte (b : UInt8) : Bool :=
  (32 ≤ b.toNat && b.toNat < 127) || b.toNat = 9

/-- The value of a header, if it is plain text. -/
def Header.plainText? (header : Header) : Option String :=
  if header.value.all isPlainByte then
    some (String.ofList (header.value.map fun b => Char.ofNat b.toNat))
  else none

/-- A request. -/
structure Request where
  method : String
  target : Target
  /-- the headers in the order in which they were sent -/
  headers : List Header
  body : List UInt8
  /-- why the body could not be read -/
  bodyFault : Option String
  deriving DecidableEq, Repr, Inhabited

namespace Request

def path (request : Request) : String := request.target.path

/-- The first header with the given name. -/
def header? (name : String) (request : Request) : Option Header :=
  request.headers.find? fun header => header.name == name

/-- The host that the request was sent to. -/
def host (request : Request) : String :=
  ((request.header? "host").bind Header.plainText?).getD "localhost"

/-- The absolute address that was asked for. -/
def url (request : Request) : String :=
  request.target.url request.host

/-- The request whose body could not be read. -/
def withBodyFault (message : String) (request : Request) : Request :=
  { request with body := [], bodyFault := some message }

/-- The failure of an endpoint that does not answer the request. -/
def decline (request : Request) : Failure :=
  .unrecognizedEndpoint request.method request.path

/-- A request that posts a value. -/
def postJson (path : String) (payload : Json) : Except Failure Request :=
  match Target.read? path with
  | none => .error (.malformedRequest ("invalid request path: " ++ path))
  | some target =>
    .ok
      { method := "POST"
        target
        headers := [.named "content-type" (Utf8.bytes "application/json")]
        body := Utf8.encode payload.chars
        bodyFault := none }

end Request

end ScriptedChat.Http
