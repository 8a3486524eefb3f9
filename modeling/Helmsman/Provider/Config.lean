import Helmsman.Json.Shape
import Helmsman.Text.Blank
/-!
# The connection to a model

Where the model is, how to get in, and whether the assistant may be used at all. Every supported backend speaks the same
protocol, so the backend's name only has to be a known one. The key never leaves: whoever asks for the settings gets a
mask in its place, and a mask that comes back stands for the key that is stored.
-/

namespace Helmsman

open Json Json.Shape

inductive Backend
  | openAi
  | azure
  | ollama
  | deepSeek
  | custom
  deriving Repr, DecidableEq, Inhabited

namespace Backend

def name : Backend → String
  | .openAi => "openai"
  | .azure => "azure"
  | .ollama => "ollama"
  | .deepSeek => "deepseek"
  | .custom => "custom"

def all : List Backend := [.openAi, .azure, .ollama, .deepSeek, .custom]

/-- Names are told apart without regard to the case of ASCII letters and to blanks around them. -/
def ofName? (s : String) : Option Backend := all.find? fun b => b.name == (Text.trim s).map Char.toLower

end Backend

inductive ConfigError
  | disabled
  | missingApiKey
  | missingEndpoint
  | unsupportedProvider (name : String)
  deriving Repr, DecidableEq

def ConfigError.message : ConfigError → String
  | .disabled => "AI assistant is not enabled"
  | .missingApiKey => "AI assistant has no API key configured"
  | .missingEndpoint => "AI assistant has no endpoint configured"
  | .unsupportedProvider name => "Unsupported AI provider: " ++ name

structure AiConfig where
  provider : String := "openai"
  endpoint : String := "https://api.openai.com/v1"
  apiKey : String := ""
  model : String := "gpt-4o"
  enabled : Bool := false
  deriving Repr, DecidableEq, Inhabited

namespace AiConfig

def defaultEndpoint : String := ({} : AiConfig).endpoint
def defaultModel : String := ({} : AiConfig).model

def mask : String := "******"

def toJson (c : AiConfig) : Json :=
  .object [("provider", .string c.provider), ("endpoint", .string c.endpoint), ("api_key", .string c.apiKey),
    ("model", .string c.model), ("enabled", .bool c.enabled)]

/-- Every field may be left out. -/
def shape : Shape :=
  let c : AiConfig := {}
  .record "AiConfig" [fallback "provider" .text (.string c.provider), fallback "endpoint" .text (.string c.endpoint),
    fallback "api_key" .text (.string c.apiKey), fallback "model" .text (.string c.model),
    fallback "enabled" .flag (.bool c.enabled)]

def ofJson (j : Json) : AiConfig where
  provider := (j.getD "provider").text
  endpoint := (j.getD "endpoint").text
  apiKey := (j.getD "api_key").text
  model := (j.getD "model").text
  enabled := (j.getD "enabled").flag

def ofValue (j : Json) : Except Mismatch AiConfig := (readValue shape j).map ofJson

def ofText (text : Octets) : Except Fault AiConfig := (readText shape text).map ofJson

def backend (c : AiConfig) : Except ConfigError Backend :=
  match Backend.ofName? c.provider with
  | some b => .ok b
  | none => .error (.unsupportedProvider c.provider)

/-- Whether the settings are enough to reach a model. -/
def checkConnection (c : AiConfig) : Except ConfigError Unit := do
  discard c.backend
  if Text.isBlankText c.endpoint then throw .missingEndpoint
  if c.apiKey.isEmpty then throw .missingApiKey

/-- Whether the settings are enough to answer a conversation. -/
def check (c : AiConfig) : Except ConfigError Unit := do
  if !c.enabled then throw .disabled
  c.checkConnection

def masked (c : AiConfig) : AiConfig := { c with apiKey := if c.apiKey.isEmpty then "" else mask }

end AiConfig

end Helmsman
