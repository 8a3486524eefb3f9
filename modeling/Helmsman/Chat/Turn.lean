import Helmsman.Chat.Message
import Helmsman.Stream.Event
/-!
# A turn of the model

What one stream has brought so far: the text, the calls in the order in which they were opened, the call that fragments
without an id continue, and the first reason to stop. The calls count only if the model stopped in order to have them
run.
-/

namespace Helmsman

structure Turn where
  content : String := ""
  calls : List ToolCall := []
  /-- The place of the open call. -/
  current : Option Nat := none
  reason : Option String := none
  deriving Repr, DecidableEq, Inhabited

namespace Turn

/-- The reason with which a model asks for its calls to be run. -/
def toolCallsReason : String := "tool_calls"

def pushText (t : Turn) (text : String) : Turn := { t with content := t.content ++ text }

def extend (c : ToolCall) (name arguments : String) : ToolCall :=
  { c with name := c.name ++ name, arguments := c.arguments ++ arguments }

def extendAt (t : Turn) (i : Nat) (f : CallFragment) : List ToolCall :=
  t.calls.modify i fun c => extend c f.name f.arguments

/-- The turn with one more fragment, and whether the fragment belongs to any call. -/
def merge (t : Turn) (f : CallFragment) : Turn × Bool :=
  match f.id with
  | some id =>
    match t.calls.findIdx? fun c => c.id == id with
    | some i => ({ t with calls := t.extendAt i f, current := some i }, true)
    | none =>
      ({ t with calls := t.calls ++ [.function id f.name f.arguments], current := some t.calls.length }, true)
  | none =>
    match t.current with
    | some i => ({ t with calls := t.extendAt i f }, true)
    | none => (t, false)

/-- Only the first reason counts. -/
def finish (t : Turn) (reason : String) : Turn := { t with reason := some (t.reason.getD reason) }

def requestsTools (t : Turn) : Bool := t.reason == some toolCallsReason && !t.calls.isEmpty

def toMessage (t : Turn) : Message :=
  { Message.assistant t.content with toolCalls := if t.requestsTools then t.calls else [] }

end Turn

end Helmsman
