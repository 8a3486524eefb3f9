import Helmsman.Cluster.Store
import Helmsman.Text.Blank
/-!
# Arguments of a call

The model writes the arguments of a call as the text of a JSON object. Only a text that is no object at all is
refused: blank text and `null` count as an empty object, and a key that is missing or has a value of another kind
counts as empty, zero or false. A replica count may come as a fraction or as a text. Which keys matter depends on the
call: a form names them.
-/

namespace Helmsman

inductive ToolError
  | unknownTool (name : String)
  | invalidArguments (reason : String)
  | cluster (e : ClusterError)
  | cancelled
  deriving Repr, DecidableEq

def ToolError.message : ToolError → String
  | .unknownTool name => "Unknown tool: " ++ name
  | .invalidArguments reason => "Invalid tool arguments: " ++ reason
  | .cluster e => e.message
  | .cancelled => "Tool execution cancelled"

/-- The members of the object that a text holds. -/
structure Arguments where
  members : List (String × Json)
  deriving Repr, Inhabited

namespace Arguments

def decode (raw : String) : Except ToolError Arguments :=
  if Text.isBlankText raw then .ok ⟨[]⟩
  else
    let text := Utf8.encode raw
    match Json.read text with
    | .error f => .error (.invalidArguments ("failed to parse arguments: " ++ f.message text))
    | .ok j =>
      match j.canonical with
      | .null => .ok ⟨[]⟩
      | .object members => .ok ⟨members⟩
      | other => .error (.invalidArguments ("expected a JSON object, got " ++ other.render))

def get (a : Arguments) (key : String) : Json := (Json.lookup key a.members).getD .null

def text (a : Arguments) (key : String) : String := (a.get key).text

def filter (a : Arguments) (key : String) : Option String :=
  let s := a.text key
  if s.isEmpty then none else some s

/-- A number, or a text that spells one, without its fraction and within 32 bits. -/
def int32 (a : Arguments) (key : String) : Int :=
  let number : Option Binary64 := match a.get key with
    | .number n => some n.toBinary64
    | .string s => Decimal.readBinary64? (Text.trim s)
    | _ => none
  match number.bind Binary64.trunc? with
  | some n => max Word.lowest32 (min n Word.highest32)
  | none => 0

def ns (a : Arguments) : String := a.text "namespace"
def name (a : Arguments) : String := a.text "name"
def container (a : Arguments) : String := a.text "container"
def resourceName (a : Arguments) : String := a.text "resource_name"
def replicas (a : Arguments) : Int := a.int32 "replicas"

/-- Only the truth value itself confirms. -/
def confirmed (a : Arguments) : Bool := (a.get "confirmed").flag

/-- The namespace to look in, or all of them. -/
def nsFilter (a : Arguments) : Option String := a.filter "namespace"
def containerFilter (a : Arguments) : Option String := a.filter "container"
def resourceFilter (a : Arguments) : Option String := a.filter "resource_name"

/-! ### Forms -/

/-- The kind of value that a field asks for. -/
inductive Kind
  | text
  | count
  | flag
  deriving Repr, DecidableEq

/-- What a field holds once it is read. -/
inductive Value
  | text (s : String)
  | count (n : Int)
  | flag (b : Bool)
  deriving Repr, DecidableEq

/-- The fields that are read together from the arguments of a call: their keys, each with the kind of its value. -/
abbrev Form := List (String × Kind)

def field (a : Arguments) (key : String) : Kind → Value
  | .text => .text (a.text key)
  | .count => .count (a.int32 key)
  | .flag => .flag (a.get key).flag

def fill (a : Arguments) (form : Form) : List Value := form.map fun f => a.field f.1 f.2

namespace Form

/-- The values of a form in a text. -/
def read (form : Form) (raw : String) : Except ToolError (List Value) := (decode raw).map (·.fill form)

def place : Form := [("namespace", .text)]
def resource : Form := [("namespace", .text), ("name", .text)]
def node : Form := [("name", .text)]
def logs : Form := [("namespace", .text), ("name", .text), ("container", .text)]
def events : Form := [("namespace", .text), ("resource_name", .text)]
def scaling : Form := [("namespace", .text), ("name", .text), ("replicas", .count)]

/-- What every change asks for besides its own fields. -/
def confirmation : Form := [("confirmed", .flag)]

end Form

end Arguments

end Helmsman
