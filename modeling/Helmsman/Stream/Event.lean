import Helmsman.Json.Shape
import Helmsman.Provider.Error
import Helmsman.Text.Blank
/-!
# Events of a stream

A line of the stream that begins with `data:` carries a chunk or the mark that ends the stream, and a chunk carries
some of the answer: text, fragments of tool calls, the reason why the model stops. Every other line is passed over, and
so is a chunk that cannot be read.
-/

namespace Helmsman

open Json Json.Shape

/-- A fragment of a tool call. One with an id opens a call, one without continues the call that is open. -/
structure CallFragment where
  id : Option String
  name : String
  arguments : String
  deriving Repr, DecidableEq, Inhabited

inductive StreamEvent
  | text (text : String)
  | call (fragment : CallFragment)
  | finish (reason : String)
  | done
  | error (e : ProviderError)
  deriving Repr, DecidableEq

inductive DataLine
  | data (payload : String)
  | done
  deriving Repr, DecidableEq

namespace DataLine

def mark : List Char := "data:".toList
def doneMark : List Char := "[DONE]".toList

/-- What a line carries, if anything. One blank behind the colon does not belong to the payload. -/
def ofLine? (line : String) : Option DataLine :=
  let cs := line.toList
  if mark.isPrefixOf cs then
    let payload := match cs.drop mark.length with
      | ' ' :: rest => rest
      | rest => rest
    let trimmed := Text.trimChars payload
    if trimmed = doneMark then some .done
    else if trimmed.isEmpty then none
    else some (.data (String.ofList payload))
  else none

end DataLine

namespace Chunk

def functionShape : Shape := .record "ChunkFunction" [optional "name" .text, optional "arguments" .text]

def callShape : Shape := .record "ChunkToolCall" [optional "id" .text, optional "function" functionShape]

def deltaShape : Shape :=
  .record "ChunkDelta" [optional "content" .text, nullable "tool_calls" (.list callShape) .null]

def choiceShape : Shape :=
  .record "ChunkChoice" [fallback "delta" deltaShape (.object []), optional "finish_reason" .text]

def shape : Shape := .record "ChatChunk" [fallback "choices" (.list choiceShape) (.array [])]

/-- A text that is there and not empty. -/
private def filled? (j : Json) : Option String := j.string?.filter fun s => !s.isEmpty

private def fragment (call : Json) : StreamEvent :=
  let function := call.getD "function"
  .call ⟨filled? (call.getD "id"), (function.getD "name").text, (function.getD "arguments").text⟩

/-- The events of a chunk: those of its first choice, text first, then calls, then the reason to stop. -/
def events (chunk : Json) : List StreamEvent :=
  match (chunk.getD "choices").items with
  | [] => []
  | first :: _ =>
    let delta := first.getD "delta"
    ((filled? (delta.getD "content")).map StreamEvent.text).toList
      ++ (delta.getD "tool_calls").items.map fragment
      ++ ((filled? (first.getD "finish_reason")).map StreamEvent.finish).toList

/-- The events of a payload, if it is a chunk at all. -/
def parse (payload : String) : Except ProviderError (List StreamEvent) :=
  let text := Utf8.encode payload
  match readText shape text with
  | .ok chunk => .ok (events chunk)
  | .error f => .error (.malformed (f.message text))

end Chunk

end Helmsman
