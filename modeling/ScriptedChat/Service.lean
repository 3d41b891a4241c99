import ScriptedChat.Endpoint

/-!
# The service

What a server does with a request: it answers questions about its health itself, limits the size of
bodies, gives every request an identifier, and hands all other requests to the endpoints. It can let pages
from everywhere read its answers.

* `Response`: an answer with its headers.
* `Service.respond`: the answer to a request.
* `Service.address`: where the server listens.

The simulator's `build_app`, `simulate` and `health` are `Service.respond`, and its `bind_addr` is
`Service.address`.
-/

namespace ScriptedChat

/-- An answer with its headers. -/
structure Response where
  status : Nat
  headers : List (String × String)
  body : String
  deriving DecidableEq, Repr, Inhabited

namespace Service

/-- Where the server listens. -/
def address (settings : Settings) : String :=
  settings.server.host ++ ":" ++ Text.natText settings.server.port.toNat

/-- The methods that the question about the health can have. -/
def healthMethods : List (String × String) := [("allow", "GET,HEAD")]

/-- The answer to the question about the health. -/
def health (request : Http.Request) : Response :=
  if request.method = "GET" || request.method = "HEAD" then
    { status := 200, headers := [("content-type", "text/plain; charset=utf-8")], body := "OK" }
  else { status := 405, headers := healthMethods, body := "" }

/-- Whether a request asks about the health. -/
def asksHealth (request : Http.Request) : Bool :=
  request.path == "/health"

/-- The request without a body that is too long. -/
def limited (settings : Settings) (request : Http.Request) : Http.Request :=
  let limit := settings.server.maxBodySize.toNat
  if limit < request.body.length then
    request.withBodyFault
      ("could not read request body (limit " ++ Text.natText limit
        ++ " bytes): length limit exceeded")
  else request

/-- The answer of the endpoints, if it can be computed. -/
def simulated (settings : Settings) (fresh : Fresh) (request : Http.Request) : Option Response :=
  (dispatch settings fresh (limited settings request) Endpoint.all).map fun reply =>
    { status := reply.status
      headers := [("content-type", reply.body.contentType), ("cache-control", "no-cache")]
      body := reply.text }

/-- The name of the header with the identifier of a request. -/
def idHeader : String := "x-request-id"

/-- The request with an identifier: its own, or else the given one. -/
def identified (id : String) (request : Http.Request) : Http.Request :=
  if (request.header? idHeader).isSome then request
  else { request with headers := request.headers ++ [.named idHeader (Utf8.bytes id)] }

/-- The answer with the identifier of its request. -/
def routed (settings : Settings) (fresh : Fresh) (request : Http.Request) : Option Response := do
  let response ←
    if asksHealth request then some (health request) else simulated settings fresh request
  let id := (request.header? idHeader).map fun header => (idHeader, Utf8.decodeLossy header.value)
  return { response with
    headers := response.headers ++ id.toList
    body := if request.method = "HEAD" then "" else response.body }

/-- The header that lets pages from everywhere read an answer. -/
def openHeader : String × String := ("access-control-allow-origin", "*")

/-- The answer to a request, if it can be computed; `id` is its identifier if it has none. A server that is
open to all pages answers every question about its options itself. -/
def respond (settings : Settings) (fresh : Fresh) (id : String) (request : Http.Request) :
    Option Response :=
  if ! settings.server.corsEnabled then routed settings fresh (identified id request)
  else if request.method = "OPTIONS" then
    some
      { status := 200
        headers := openHeader :: if asksHealth request then healthMethods else []
        body := "" }
  else
    (routed settings fresh (identified id request)).map fun response =>
      { response with headers := openHeader :: response.headers }

end Service

end ScriptedChat
