import ScriptedChat.Chat.Echo
import ScriptedChat.Completion.Stream
import ScriptedChat.Http.Reply
import ScriptedChat.Message.Stream
import ScriptedChat.Turn

/-!
# Endpoints

An endpoint answers chat requests in one of two forms, as chat completions or as messages. Endpoints stand
in a row: one that does not answer a request leaves it to the next, and a request that none answers is not
found.

* `Endpoint`, `Endpoint.accepts`: the two endpoints, and the requests that they answer.
* `Endpoint.prepare`: the plan that answers a chat request, with its echoes replaced.
* `Endpoint.reply?`: the reply to a chat request.
* `Endpoint.answer`: the reply to a request.
* `Endpoint.errorReply`: the reply to a request that has failed.
* `dispatch`: the reply of the first endpoint in a row that answers.

A reply is missing where a number of 64 bits on the way to it cannot be computed.

The simulator's `matches`, `prepare`, `dispatch` and `error_response` of a dispatcher are
`Endpoint.accepts`, `Endpoint.prepare`, `Endpoint.answer` and `Endpoint.errorReply`, and its
`DispatcherChain.dispatch` is `dispatch`.
-/

namespace ScriptedChat

/-- The form in which an endpoint answers. -/
inductive Endpoint where
  | completion
  | message
  deriving DecidableEq, Repr, Inhabited

/-- What is new in every answer. -/
structure Fresh where
  /-- the end of the answer's identifier -/
  id : String
  /-- seconds since the beginning of 1970 -/
  created : Int
  deriving Repr, Inhabited

namespace Endpoint

/-- The path of an endpoint, or its end. -/
def suffix : Endpoint → String
  | .completion => "/chat/completions"
  | .message => "/messages"

/-- A text without the slashes at its end. -/
def dropSlashes (text : String) : String :=
  String.ofList (text.toList.reverse.dropWhile (· = '/')).reverse

/-- Whether a path leads to an endpoint. Only the endpoint for completions can be bound to one path. -/
def isAt (settings : Settings) (endpoint : Endpoint) (path : String) : Bool :=
  match endpoint, settings.completion.basePath with
  | .completion, some base => path == dropSlashes base ++ endpoint.suffix
  | _, _ => (Text.beforeBack? endpoint.suffix.toList path.toList).isSome

/-- Whether an endpoint answers requests with a method to a path. -/
def accepts (settings : Settings) (endpoint : Endpoint) (method path : String) : Bool :=
  method == "POST" && isAt settings endpoint path

/-- The beginning of an answer's identifier. -/
def idMark : Endpoint → String
  | .completion => "chatcmpl-"
  | .message => "msg_"

/-- The model of a request that names none. -/
def defaultModel (settings : Settings) : Endpoint → String
  | .completion => settings.completion.defaultModel
  | .message => settings.message.defaultModel

/-- The plan that answers a chat request, if it can be computed. -/
def prepare (settings : Settings) (request : Http.Request) (chat : Chat) : Option Plan :=
  (Turn.select? settings.fallback chat.messages).map fun turn =>
    turn.plan.resolve (chat.echoText request)

/-- The marks of the answer to a chat request. -/
def stamp (settings : Settings) (fresh : Fresh) (endpoint : Endpoint) (chat : Chat) : Stamp where
  id := endpoint.idMark ++ fresh.id
  model := chat.model.getD (endpoint.defaultModel settings)
  created := fresh.created
  usage := settings.usage
  includeUsage := chat.includeUsage

/-- A plan in the form of the endpoint, as one document, if that can be computed. -/
def document? (endpoint : Endpoint) (plan : Plan) (stamp : Stamp) : Option Json :=
  match endpoint with
  | .completion => Completion.document? plan stamp
  | .message => some (Message.document plan stamp)

/-- What the producer of a stream does that shows a plan in the form of the endpoint. -/
def acts (settings : StreamSettings) (endpoint : Endpoint) (plan : Plan) (stamp : Stamp) :
    List EventStream.Act :=
  match endpoint with
  | .completion => Completion.acts settings plan stamp
  | .message => Message.acts settings plan stamp

/-- The reply to a chat request. There is none where a number on the way to it cannot be computed; a stream
has begun by then, so it breaks off. -/
def reply? (settings : Settings) (fresh : Fresh) (request : Http.Request) (endpoint : Endpoint)
    (chat : Chat) : Option Http.Reply := do
  let plan ← prepare settings request chat
  let stamp := endpoint.stamp settings fresh chat
  if chat.stream then
    let frames := EventStream.written (endpoint.acts settings.stream plan stamp)
    return .ok (.stream settings.stream frames)
  else
    return .ok (.json (← endpoint.document? plan stamp))

/-- The reply to a request, if it can be computed. -/
def answer (settings : Settings) (fresh : Fresh) (request : Http.Request) (endpoint : Endpoint) :
    Except Failure (Option Http.Reply) := do
  if endpoint.accepts settings request.method request.path then
    return endpoint.reply? settings fresh request (← Chat.read request)
  else
    throw request.decline

/-- The body of a reply to a request that has failed. -/
def errorJson (endpoint : Endpoint) (failure : Failure) : Json :=
  match endpoint with
  | .completion =>
    .object
      [("error", .object
        [("message", .str failure.message),
         ("type", .str "invalid_request_error"),
         ("param", .null),
         ("code", .null)])]
  | .message =>
    .object
      [("type", .str "error"),
       ("error", .object
        [("type", .str "invalid_request_error"), ("message", .str failure.message)])]

/-- The reply to a request that has failed. -/
def errorReply (endpoint : Endpoint) (failure : Failure) : Http.Reply :=
  { status := failure.status, body := .json (endpoint.errorJson failure) }

/-- All endpoints, in the order in which they are asked. -/
def all : List Endpoint := [.completion, .message]

end Endpoint

/-- The reply to a request that no endpoint answers. -/
def notFound (request : Http.Request) : Http.Reply :=
  { status := 404, body := .text request.decline.message }

/-- The reply of the first endpoint that answers the request, if it can be computed. -/
def dispatch (settings : Settings) (fresh : Fresh) (request : Http.Request) :
    List Endpoint → Option Http.Reply
  | [] => some (notFound request)
  | endpoint :: endpoints =>
    match endpoint.answer settings fresh request with
    | .ok reply => reply
    | .error failure =>
      if failure.isDeclined then dispatch settings fresh request endpoints
      else some (endpoint.errorReply failure)

end ScriptedChat
