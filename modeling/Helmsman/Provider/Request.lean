import Helmsman.Chat.Message
import Helmsman.Provider.Config
import Helmsman.Provider.Error
import Helmsman.Tools.Catalog
import Helmsman.Web.Url
/-!
# Requests to the model

A completion is asked for with one request: the conversation, the tools if there are any, and whether the answer is to
come as a stream. A request that cannot be written, for want of a usable address or key, is never sent.
-/

namespace Helmsman

/-- Where completions are asked for, and what gets a request in. -/
structure Endpoint where
  url : Url
  authorization : String
  deriving Repr, DecidableEq

namespace Endpoint

def address (endpoint : String) : String :=
  String.ofList (endpoint.toList.reverse.dropWhile (· == '/')).reverse ++ "/chat/completions"

def fitsHeader (s : String) : Bool := s.toList.all fun c => c == '\t' || (0x20 ≤ c.toNat && c.toNat != 0x7f)

private def unwritten (reason : String) : ProviderError := .request ("builder error" ++ reason)

private def badScheme (u : Url) : ProviderError := unwritten (" for url (" ++ u.text ++ "): URL scheme is not allowed")

/-- The endpoint of a connection, or why no request to it can be written. -/
def ofConfig (c : AiConfig) : Except ProviderError Endpoint :=
  match Url.read (address c.endpoint) with
  | .error e => .error (unwritten (": " ++ e.message))
  | .ok url =>
    let authorization := "Bearer " ++ c.apiKey
    if !url.hasHost then .error (badScheme url)
    else if !fitsHeader authorization then .error (unwritten ": failed to parse header value")
    else if url.scheme != "http" && url.scheme != "https" then .error (badScheme url)
    else .ok ⟨url, authorization⟩

end Endpoint

structure ModelRequest where
  endpoint : Endpoint
  accept : String
  body : Json
  deriving Repr

namespace ModelRequest

/-- What a request holds, and what a completion that comes whole is sent as. -/
def contentType : String := "application/json"

/-- What a completion that comes piece by piece is sent as. -/
def streamType : String := "text/event-stream"

def line (r : ModelRequest) : String := "POST " ++ r.endpoint.url.target ++ " HTTP/1.1"

/-- The body in canonical order. Tools are mentioned only if there are any. -/
def payload (model : String) (messages : List Message) (tools : List Tool) (stream : Bool) : Json :=
  .ofMembers ([("model", .string model), ("messages", .array (messages.map fun m => m.toJson.canonical)),
    ("stream", .bool stream)] ++ if tools.isEmpty then [] else [("tools", .array (tools.map Tool.spec))])

def stream (e : Endpoint) (model : String) (messages : List Message) (tools : List Tool) : ModelRequest :=
  ⟨e, streamType, payload model messages tools true⟩

def whole (e : Endpoint) (model : String) (messages : List Message) : ModelRequest :=
  ⟨e, contentType, payload model messages [] false⟩

end ModelRequest

end Helmsman
