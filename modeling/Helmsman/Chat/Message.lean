import Helmsman.Json.Shape
/-!
# Messages

The turns of a conversation with the model, in the one form that the model's endpoint, the console and the history
share. A message may ask for tools to be called, and a tool's answer names the call that it answers.
-/

namespace Helmsman

open Json Json.Shape

inductive Role
  | system
  | user
  | assistant
  | tool
  deriving Repr, DecidableEq, Inhabited

namespace Role

def name : Role → String
  | .system => "system"
  | .user => "user"
  | .assistant => "assistant"
  | .tool => "tool"

def all : List Role := [.system, .user, .assistant, .tool]

def ofName? (s : String) : Option Role := all.find? fun r => r.name == s

end Role

/-- A call that the model asks for. The arguments are raw text, as they were put together from a stream. -/
structure ToolCall where
  id : String
  kind : String
  name : String
  arguments : String
  deriving Repr, DecidableEq, Inhabited

namespace ToolCall

def function (id name arguments : String) : ToolCall := ⟨id, "function", name, arguments⟩

def shape : Shape :=
  .record "ToolCall" [required "id" .text, fallback "type" .text (.string "function"),
    required "function" (.record "FunctionCall" [fallback "name" .text (.string ""),
      fallback "arguments" .text (.string "")])]

def ofJson (j : Json) : ToolCall :=
  let function := j.getD "function"
  ⟨(j.getD "id").text, (j.getD "type").text, (function.getD "name").text, (function.getD "arguments").text⟩

def toJson (c : ToolCall) : Json :=
  .object [("id", .string c.id), ("type", .string c.kind),
    ("function", .object [("name", .string c.name), ("arguments", .string c.arguments)])]

end ToolCall

structure Message where
  role : Role
  content : String
  toolCalls : List ToolCall := []
  toolCallId : Option String := none
  deriving Repr, DecidableEq, Inhabited

namespace Message

def system (content : String) : Message := { role := .system, content }
def user (content : String) : Message := { role := .user, content }
def assistant (content : String) : Message := { role := .assistant, content }

def tool (callId content : String) : Message := { role := .tool, content, toolCallId := some callId }

def hasToolCalls (m : Message) : Bool := !m.toolCalls.isEmpty

/-- A turn that only calls tools may have `null` for its content. -/
def shape : Shape :=
  .record "Message" [required "role" (.choice (Role.all.map Role.name)), nullable "content" .text (.string ""),
    fallback "tool_calls" (.list ToolCall.shape) (.array []), nullable "tool_call_id" .text .null]

def ofJson (j : Json) : Message where
  role := (Role.ofName? (j.getD "role").text).getD .user
  content := (j.getD "content").text
  toolCalls := (j.getD "tool_calls").items.map ToolCall.ofJson
  toolCallId := (j.getD "tool_call_id").string?

/-- Calls and the answered call are left out where there are none. -/
def toJson (m : Message) : Json :=
  let calls := if m.toolCalls.isEmpty then [] else [("tool_calls", .array (m.toolCalls.map ToolCall.toJson))]
  let answered := m.toolCallId.elim [] fun id => [("tool_call_id", .string id)]
  .object ([("role", .string m.role.name), ("content", .string m.content)] ++ calls ++ answered)

def listShape : Shape := .list shape

def listOfJson (j : Json) : List Message := j.items.map ofJson

def listOfValue (j : Json) : Except Mismatch (List Message) := (readValue listShape j).map listOfJson

def listOfText (text : Octets) : Except Fault (List Message) := (readText listShape text).map listOfJson

end Message

end Helmsman
