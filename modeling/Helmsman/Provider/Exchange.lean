import Helmsman.Provider.Request
import Helmsman.Reply.Model
import Helmsman.Stream.Body
/-!
# What comes of a request

A request reaches the endpoint or it does not, and an endpoint that is reached answers or stays silent. A status that is
no success is an error with the body for its text. Otherwise the body is a stream of events, or one whole completion.
Left out are bodies of errors that announce another encoding than UTF-8, and the queue between whoever reads a stream
and the reply: how many events it holds decides nothing but when they are read.
-/

namespace Helmsman

structure ModelResponse where
  status : Nat := 200
  /-- The body in the pieces in which it arrives. -/
  body : List Octets := []
  ending : BodyEnd := .complete
  deriving Repr, DecidableEq

inductive Exchange
  | unreachable (reason : String)
  | silent
  | answered (r : ModelResponse)
  deriving Repr, DecidableEq

/-- The network between here and the endpoint: what comes of each request that is sent, counted from 0. -/
abbrev Network := Nat → Exchange

namespace Exchange

def arrives : Exchange → Bool
  | .unreachable _ => false
  | _ => true

def unreached (e : Endpoint) (reason : String) : ProviderError :=
  .request ("error sending request for url (" ++ e.url.text ++ "): " ++ reason)

def isSuccess (status : Nat) : Bool := 200 ≤ status && status < 300

/-- What is said of a status that is no success, as soon as the body is over. One that breaks off counts as empty. -/
def refusal? (r : ModelResponse) : Option ProviderError :=
  match r.ending with
  | .complete => some (.status r.status (Utf8.decodeLossy r.body.flatten))
  | .broken _ => some (.status r.status "")
  | .silent => none

/-- The stream of a body. After it nothing more comes, or the stream is over. -/
def beats (f : Feed) : List Beat := f.events.map .event ++ if f.silent then [.silence] else []

def opening (x : Exchange) (e : Endpoint) : Opening :=
  match x with
  | .unreachable reason => .refusal (unreached e reason)
  | .silent => .never
  | .answered r =>
    if isSuccess r.status then ⟨some 0, .ok (beats (Body.feed r.body r.ending))⟩
    else (refusal? r).elim .never .refusal

end Exchange

namespace Completion

open Json Json.Shape

def completionShape : Shape :=
  .record "CompletionResponse"
    [fallback "choices" (.list (.record "CompletionChoice" [required "message" Message.shape])) (.array [])]

def undecodable (reason : String) : ProviderError := .malformed ("error decoding response body: " ++ reason)

def read (body : Octets) : Except ProviderError Message :=
  match readText completionShape body with
  | .error f => .error (undecodable (f.message body))
  | .ok j =>
    match (j.getD "choices").items with
    | first :: _ => .ok (Message.ofJson (first.getD "message"))
    | [] => .error (.malformed "LLM returned no choices")

/-- What a request for a whole completion leads to, unless it leads to nothing. -/
def result? (x : Exchange) (e : Endpoint) : Option (Except ProviderError Message) :=
  match x with
  | .unreachable reason => some (.error (Exchange.unreached e reason))
  | .silent => none
  | .answered r =>
    if !Exchange.isSuccess r.status then (Exchange.refusal? r).map .error
    else
      match r.ending with
      | .complete => some (read r.body.flatten)
      | .broken reason => some (.error (undecodable reason))
      | .silent => none

end Completion

/-- The model behind a connection: each round sends one request, and one that cannot be written is refused. -/
def AiConfig.answers (c : AiConfig) (network : Network) : Model := fun round =>
  match Endpoint.ofConfig c with
  | .error e => .refusal e
  | .ok e => (network round).opening e

end Helmsman
