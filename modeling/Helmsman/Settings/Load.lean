import Helmsman.Provider.Config
import Helmsman.Settings.Chat
import Helmsman.Settings.Layer
import Helmsman.Toml.Reader
import Helmsman.Web.Address
/-!
# Settings

The settings of the program come from one file and, laid over it, from the environment; what neither names has a
fallback. A file that the environment names has to be there, and its name may leave out its ending. The usual file may
be missing.

Files are written in TOML. Other notations, which a file could have under other endings, are left out.
-/

namespace Helmsman

structure Settings where
  host : String := "127.0.0.1"
  port : Nat := 8080
  ai : AiConfig := {}
  chat : ChatSettings := {}
  snapshotPath : Option String := none
  deriving Repr, DecidableEq, Inhabited

inductive SettingsError
  | noFile (name : String)
  | noToml (name : String)
  | unusable (path : String)
  deriving Repr, DecidableEq

namespace Settings

/-- The fields of one section and what each of them is to be. -/
structure Section where
  name : String
  fields : List (String × Setting)

/-- A section: its fields by name, or in the order of their names. -/
def sectionOf (name : String) (names : List String) (root : Entries) : Except SettingsError Section :=
  match root.lookup name with
  | none => .ok ⟨name, []⟩
  | some s =>
    match s.fields? names with
    | some fields => .ok ⟨name, fields⟩
    | none => .error (.unusable name)

namespace Section

def read? {α : Type} (convert : Setting → Option α) (s : Section) (field : String) :
    Except SettingsError (Option α) :=
  match s.fields.lookup field with
  | none => .ok none
  | some value =>
    match convert value with
    | some a => .ok (some a)
    | none => .error (.unusable (s.name ++ "." ++ field))

def read {α : Type} (convert : Setting → Option α) (s : Section) (field : String) (otherwise : α) :
    Except SettingsError α :=
  (read? convert s field).map (·.getD otherwise)

def text (s : Section) (field otherwise : String) : Except SettingsError String :=
  s.read Setting.toText? field otherwise

def count (bound : Nat) (s : Section) (field : String) (otherwise : Nat) : Except SettingsError Nat :=
  s.read (Setting.toCount? bound) field otherwise

end Section

def ofEntries (root : Entries) : Except SettingsError Settings := do
  let fallbacks : Settings := {}
  let server ← sectionOf "server" ["host", "port"] root
  let ai ← sectionOf "ai" ["provider", "endpoint", "api_key", "model", "enabled"] root
  let chat ← sectionOf "chat" ["max_rounds", "timeout_secs", "channel_capacity", "heartbeat_ms", "system_prompt"] root
  let cluster ← sectionOf "cluster" ["snapshot_path"] root
  return {
    host := ← server.text "host" fallbacks.host
    port := ← server.count Word.unsigned16 "port" fallbacks.port
    ai := {
      provider := ← ai.text "provider" fallbacks.ai.provider
      endpoint := ← ai.text "endpoint" fallbacks.ai.endpoint
      apiKey := ← ai.text "api_key" fallbacks.ai.apiKey
      model := ← ai.text "model" fallbacks.ai.model
      enabled := ← ai.read Setting.toFlag? "enabled" fallbacks.ai.enabled }
    chat := {
      maxRounds := ← chat.count Word.unsigned64 "max_rounds" fallbacks.chat.maxRounds
      timeoutSeconds := ← chat.count Word.unsigned64 "timeout_secs" fallbacks.chat.timeoutSeconds
      channelCapacity := ← chat.count Word.unsigned64 "channel_capacity" fallbacks.chat.channelCapacity
      heartbeatMilliseconds := ← chat.count Word.unsigned64 "heartbeat_ms" fallbacks.chat.heartbeatMilliseconds
      systemPrompt := ← chat.read? Setting.toText? "system_prompt" }
    snapshotPath := ← cluster.read? Setting.toText? "snapshot_path" }

/-- The files there are: their names and texts. -/
abbrev Files := List (String × String)

def fileVariable : String := "POLARIS_CONFIG"
def usualFile : String := "polaris.toml"
def fileEnding : String := ".toml"

/-- A name without the steps that stay where they are. -/
def directName (name : String) : String := "/".intercalate ((Text.parts '/' name).filter fun step => step != ".")

/-- The text of a file whose name may leave out its ending. -/
def find? (files : Files) (path : String) : Option String :=
  let name := directName path
  let longer := files.lookup (name ++ fileEnding)
  if name.endsWith fileEnding then (files.lookup name).or longer else longer

def ofFile (environment : List (String × String)) (files : Files) : Except SettingsError Entries :=
  let name := environment.lookup fileVariable
  match find? files (name.getD usualFile), name with
  | none, none => .ok []
  | none, some name => .error (.noFile name)
  | some text, _ =>
    match Toml.read? text with
    | some entries => .ok entries
    | none => .error (.noToml (name.getD usualFile))

/-- The settings that variables and files add up to. -/
def load (environment : List (String × String)) (files : Files) : Except SettingsError Settings := do
  let file ← ofFile environment files
  ofEntries (overlayLayer (ofEnvironment environment) (overlayLayer file []))

/-- The address to listen at, if the host is one: octets, or words in brackets with a zone behind them. -/
def listenAddress? (s : Settings) : Option String :=
  let port := ":" ++ Decimal.ofNat s.port
  match s.host.toList with
  | '[' :: rest =>
    if rest.getLast? == some ']' then
      let (words, zone) := rest.dropLast.span (· != '%')
      match Address.readEight? words, zone with
      | some eight, [] => some ("[" ++ Address.shownWords eight ++ "]" ++ port)
      | some eight, _ :: digits => do
        let n ← Decimal.readNat? Word.unsigned32 (String.ofList digits)
        if digits.head? == some '+' then none
        else
          let shown := if n = 0 then "" else "%" ++ Decimal.ofNat n
          some ("[" ++ Address.shownWords eight ++ shown ++ "]" ++ port)
      | none, _ => none
    else none
  | cs => (Address.readOctets? cs).map fun four => Address.octetsText four ++ port

end Settings

end Helmsman
