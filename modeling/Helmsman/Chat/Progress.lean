import Helmsman.Json.Reader
import Helmsman.Text.Blank
/-!
# Progress events

What the console is told while a reply is under way: text as it arrives, each tool call and its result, an error if
there is one, and at the very end that the reply is done.
-/

namespace Helmsman

/-- Raw text as a value: an object or an array stands for itself, and everything else becomes a string. -/
def embedJson (raw : String) : Json :=
  let trimmed := Text.trim raw
  let asText : Json := .string trimmed
  match trimmed.toList with
  | c :: _ => if c == '\x7b' || c == '[' then (Json.parse trimmed).toOption.getD asText else asText
  | [] => asText

inductive Progress
  | content (text : String)
  | toolCall (id name : String) (arguments : Json)
  | toolResult (id name : String) (result : Json)
  | error (message : String)
  | done
  deriving Repr, Inhabited

namespace Progress

def ofToolCall (id name raw : String) : Progress := .toolCall id name (embedJson raw)

def ofToolResult (id name raw : String) : Progress := .toolResult id name (embedJson raw)

def name : Progress → String
  | .content _ => "content"
  | .toolCall .. => "tool_call"
  | .toolResult .. => "tool_result"
  | .error _ => "error"
  | .done => "done"

/-- The payload, in canonical order. -/
def data : Progress → Json
  | .content text => .ofMembers [("content", .string text)]
  | .toolCall id name arguments =>
    .ofMembers [("id", .string id), ("name", .string name), ("arguments", arguments)]
  | .toolResult id name result => .ofMembers [("id", .string id), ("name", .string name), ("result", result)]
  | .error message => .ofMembers [("error", .string message)]
  | .done => .ofMembers []

def frame (p : Progress) : String := "event: " ++ p.name ++ "\ndata: " ++ p.data.render ++ "\n\n"

end Progress

end Helmsman
