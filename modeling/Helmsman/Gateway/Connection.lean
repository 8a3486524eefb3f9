import Helmsman.Gateway.State
/-!
# The settings of the connection

The settings can be looked at, replaced and tried out. Whoever looks sees a mask for the key. A mask that is sent back
keeps the stored key when the settings are replaced, and in a trial so does an empty key. A trial fills in what its
request leaves blank, asks the model for one short completion, and changes nothing.
-/

namespace Helmsman.Gateway

open Json Json.Shape

def showConfig (state : State) : Response := .json 200 state.config.masked.toJson

/-- The settings that replace the stored ones: a mask stands for the stored key. -/
def replacement (stored update : AiConfig) : AiConfig :=
  if update.apiKey = AiConfig.mask then { update with apiKey := stored.apiKey } else update

def replaceConfig (state : State) (r : Request) : Response × State :=
  match r.read AiConfig.shape with
  | .error e => (.unreadable e, state)
  | .ok body =>
    let update := AiConfig.ofJson body
    match update.backend with
    | .error e => (.badRequest e.message, state)
    | .ok _ =>
      let state := { state with config := replacement state.config update }
      (showConfig state, state)

namespace Trial

def shape : Shape :=
  .record "ConnectionTestRequest" [fallback "provider" .text (.string ""), fallback "endpoint" .text (.string ""),
    fallback "api_key" .text (.string ""), fallback "model" .text (.string "")]

def question : String := "Hi, reply with just 'ok'."

def missingKey : String := "An API key is required"

def orElse (value otherwise : String) : String := if Text.isBlankText value then otherwise else value

/-- The settings that are tried: those given, the stored backend and key where none are given, and the usual endpoint
and model. -/
def config (stored : AiConfig) (body : Json) : AiConfig where
  provider := orElse (body.getD "provider").text stored.provider
  endpoint := orElse (body.getD "endpoint").text AiConfig.defaultEndpoint
  apiKey :=
    let key := (body.getD "api_key").text
    if key.isEmpty || key = AiConfig.mask then stored.apiKey else key
  model := orElse (body.getD "model").text AiConfig.defaultModel
  enabled := true

/-- What is said of the outcome. A trial that leads to nothing is given up after a while. -/
def report : Option (Except ProviderError Message) → Json
  | some (.ok _) => .object [("success", .bool true), ("message", .string "Connection succeeded")]
  | some (.error e) => .object [("success", .bool false), ("message", .string ("Connection failed: " ++ e.message))]
  | none => .object [("success", .bool false), ("message", .string "Connection failed: timed out")]

/-- Asks for the completion, and tells which request the endpoint receives. -/
def ask (network : Network) (c : AiConfig) : Option (Except ProviderError Message) × List ModelRequest :=
  match Endpoint.ofConfig c with
  | .error e => (some (.error e), [])
  | .ok e =>
    let exchange := network 0
    (Completion.result? exchange e,
      if exchange.arrives then [.whole e c.model [.user question]] else [])

end Trial

def tryConnection (g : Gateway) (state : State) (r : Request) : Response × State :=
  match r.read Trial.shape with
  | .error e => (.unreadable e, state)
  | .ok body =>
    let c := Trial.config state.config body
    if c.apiKey.isEmpty then (.badRequest Trial.missingKey, state)
    else
      match c.checkConnection with
      | .error e => (.badRequest e.message, state)
      | .ok () =>
        let (outcome, sent) := Trial.ask (g.networkFrom state) c
        (.json 200 (Trial.report outcome), { state with received := state.received ++ sent })

end Helmsman.Gateway
