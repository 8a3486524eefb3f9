import Helmsman.Chat.Turn
import Helmsman.Prompt
import Helmsman.Reply.Course
import Helmsman.Reply.Model
/-!
# A reply

A reply answers a conversation. It asks the model with the system prompt and the history; as long as the model wants
tools to be called, it calls them and asks again with the model's turn and the answers behind what was asked before.
A tool that fails is an answer like any other. A reply ends with one last step that says so, and with one before it that
says why if anything but the model or the caller ended it. Only a reply that breaks down makes no last step: one whose
deadline lies beyond what the clock can tell, and one that runs a call that breaks down.
-/

namespace Helmsman

/-- Everything that a reply depends on, apart from the store. -/
structure Assignment where
  scope : Scope
  history : List Message
  model : Model
  prompt : Prompt.Source := .builtIn
  maxRounds : Nat := 10
  limits : Limits := {}
  /-- How long the caller takes for each step, counted from 0. -/
  pace : Nat → Nat := fun _ => 0
  now : Instant
  /-- What the clock that measures the time for the reply tells when it starts, in milliseconds. -/
  clock : Nat := 0

/-- From this time on the clock tells no time: it counts its seconds in 63 bits. -/
def clockEnd : Nat := 9223372036854775808000

/-- Whether there is a time on the clock for the deadline, if the reply has one. -/
def Assignment.datable (a : Assignment) : Bool := a.limits.deadline.all fun timeout => a.clock + timeout < clockEnd

namespace Reply

def roundLimitMessage : String := "tool call round limit exceeded"
def deadlineMessage : String := "request deadline exceeded"

/-- The time for a reply unless told otherwise, in milliseconds. -/
def defaultTimeout : Nat := 120000

def resultText : Except ToolError String → String
  | .ok text => text
  | .error e => (Json.ofMembers [("error", .string e.message)]).render

variable (a : Assignment)

/-- Fixes the time of the deadline. -/
def schedule : Act Unit := if a.datable then return () else throw .crashed

def opening : Act (List Message) :=
  match Prompt.system a.prompt a.scope.cluster with
  | .ok text => return .system text :: a.history
  | .error f => throw (.failed (Prompt.failureMessage f))

/-- Asks the model. A model that has been called off counts as called off by the caller. -/
def request (round : Nat) (messages : List Message) : Act (List Beat) := do
  Act.pause a.limits (some 0)
  Act.ask messages
  let answer := a.model round
  Act.pause a.limits answer.wait
  match answer.outcome with
  | .ok beats => return beats
  | .error .cancelled => throw (.interrupted .cancelled)
  | .error e => throw (.failed e.message)

/-- Follows a stream up to a reason to stop, to the mark of its end, or to its end. -/
def listen : List Beat → Turn → Act Turn
  | [], t => do
    Act.pause a.limits (some 0)
    return t
  | .wait time :: rest, t => do
    Act.pause a.limits (some time)
    listen rest t
  | .silence :: _, t => do
    Act.pause a.limits none
    return t
  | .event e :: rest, t => do
    Act.pause a.limits (some 0)
    match e with
    | .text text =>
      Act.emit a.pace (.content text)
      listen rest (t.pushText text)
    | .call fragment => listen rest (t.merge fragment).1
    | .finish reason => return t.finish reason
    | .done => return t
    | .error e => throw (.failed e.message)

/-- Runs the calls in order and gives the messages that answer them. -/
def answerCalls : List ToolCall → Act (List Message)
  | [] => return []
  | call :: rest => do
    Act.emit a.pace (.call call)
    Act.pause a.limits (some 0)
    let text := resultText (← Act.execute a.now a.scope call)
    Act.emit a.pace (.result call text)
    return .tool call.id text :: (← answerCalls rest)

/-- One round: the conversation with which the reply goes on, or none if the model wants no more of it. -/
def round (n : Nat) (messages : List Message) : Act (Option (List Message)) := do
  let turn ← listen a (← request a n messages) {}
  if turn.requestsTools then
    return some (messages ++ turn.toMessage :: (← answerCalls a turn.calls))
  else return none

/-- All rounds from one on, of which so many are left. -/
def rounds : (left n : Nat) → List Message → Act Unit
  | 0, _, _ => throw (.failed roundLimitMessage)
  | left + 1, n, messages => do
    match ← round a n messages with
    | some messages => rounds left (n + 1) messages
    | none => return

def conversation : Act Unit := do
  schedule a
  rounds a a.maxRounds 0 (← opening a)

/-- Where a reply stands when it goes no further, and why unless the model wants no more of it. -/
def ending (e : Estate) : Option Halt × Course :=
  match conversation a (.start e) with
  | .ok _ c => (none, c)
  | .error halt c => (some halt, c)

/-- The last steps of a reply. One that waits for ever or breaks down makes none. -/
def closing : Option Halt → List Step
  | none | some (.interrupted .cancelled) => [.done]
  | some (.interrupted .deadline) => [.failure deadlineMessage, .done]
  | some (.failed message) => [.failure message, .done]
  | some .stuck | some .crashed => []

def close (halt : Option Halt) (c : Course) : Course := (closing halt).foldl (Course.emit a.pace) c

def course (e : Estate) : Course := close a (ending a e).1 (ending a e).2

end Reply

end Helmsman
