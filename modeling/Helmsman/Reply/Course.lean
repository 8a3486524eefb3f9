import Helmsman.Chat.Message
import Helmsman.Chat.Progress
import Helmsman.Tools.Executor
/-!
# The course of a reply

A reply goes step by step, and each step is on record together with all that the reply had brought about when it was
made: the store, the audit records, the requests to the model and the time. The caller may take time for a step, and
the reply goes on only then. Between its steps a reply waits, and only while it waits can it be stopped. `pause` is that
wait. Of what would end it, the first in time does, and of two at one time the caller's cancellation goes before the
deadline and the deadline before what was waited for. What strikes while the caller takes a step is noticed by the next
wait.
-/

namespace Helmsman

/-- What a reply lets its caller know. A call comes with the arguments as the model wrote them. -/
inductive Step
  | content (text : String)
  | call (c : ToolCall)
  | result (c : ToolCall) (text : String)
  | failure (message : String)
  | done
  deriving Repr, DecidableEq

def Step.progress : Step → Progress
  | .content text => .content text
  | .call c => .ofToolCall c.id c.name c.arguments
  | .result c text => .ofToolResult c.id c.name text
  | .failure message => .error message
  | .done => .done

/-- What a reply has brought about: the requests are those to the model, in order, and the clock counts milliseconds
from the start of the reply. -/
structure Standing where
  estate : Estate
  requests : List (List Message) := []
  clock : Nat := 0
  deriving Repr, DecidableEq

structure Moment where
  step : Step
  standing : Standing
  deriving Repr, DecidableEq

/-- How things stand, and all steps so far in order. -/
structure Course where
  standing : Standing
  moments : List Moment := []
  deriving Repr, DecidableEq

namespace Course

def start (e : Estate) : Course := { standing := { estate := e } }

def steps (c : Course) : List Step := c.moments.map Moment.step

/-- The step is made, and then the time passes that the caller takes for it. Steps are counted from 0. -/
def emit (pace : Nat → Nat) (c : Course) (s : Step) : Course where
  standing := { c.standing with clock := c.standing.clock + pace c.moments.length }
  moments := c.moments ++ [⟨s, c.standing⟩]

end Course

/-- When the caller calls a reply off: right behind a number of steps, or at a time. -/
inductive Cancellation
  | never
  | behind (steps : Nat)
  | atTime (milliseconds : Nat)
  deriving Repr, DecidableEq, Inhabited

/-- The time of the cancellation, as far as it is settled. No step is made during a wait. -/
def Cancellation.time? (course : Course) : Cancellation → Option Nat
  | .never => none
  | .behind n => if n ≤ course.moments.length then some course.standing.clock else none
  | .atTime t => some t

structure Limits where
  cancellation : Cancellation := .never
  /-- The time by which the reply has to be complete, if there is one. -/
  deadline : Option Nat := none
  deriving Repr, DecidableEq, Inhabited

inductive Interrupt
  | cancelled
  | deadline
  deriving Repr, DecidableEq

inductive Halt
  | interrupted (i : Interrupt)
  | failed (message : String)
  /-- It waits for what never comes. -/
  | stuck
  /-- It breaks down, and nobody is told. -/
  | crashed
  deriving Repr, DecidableEq

namespace Limits

/-- The interrupt that strikes next, and when. One whose time is past strikes at once. -/
def next? (l : Limits) (c : Course) : Option (Nat × Interrupt) :=
  let cancelled := (l.cancellation.time? c).map (max c.standing.clock)
  let late := l.deadline.map (max c.standing.clock)
  match cancelled, late with
  | some t, some d => if t ≤ d then some (t, .cancelled) else some (d, .deadline)
  | some t, none => some (t, .cancelled)
  | none, some d => some (d, .deadline)
  | none, none => none

end Limits

/-- A part of a reply takes its course from where it stands, and ends with a value or with a reason to go no
further. -/
abbrev Act := EStateM Halt Course

namespace Act

def passUntil (time : Nat) : Act Unit := modify fun c => { c with standing := { c.standing with clock := time } }

/-- Waits for what takes the given time, or for what never comes, unless an interrupt strikes first. -/
def pause (l : Limits) (wait : Option Nat) : Act Unit := do
  let course ← get
  let arrival := wait.map (course.standing.clock + ·)
  match l.next? course, arrival with
  | some (time, interrupt), some arrival =>
    if time ≤ arrival then
      passUntil time
      throw (.interrupted interrupt)
    else passUntil arrival
  | some (time, interrupt), none =>
    passUntil time
    throw (.interrupted interrupt)
  | none, some arrival => passUntil arrival
  | none, none => throw .stuck

def emit (pace : Nat → Nat) (s : Step) : Act Unit := modify fun c => c.emit pace s

def ask (messages : List Message) : Act Unit :=
  modify fun c => { c with standing := { c.standing with requests := c.standing.requests ++ [messages] } }

/-- Runs a call. One that breaks down takes the reply down with it. -/
def execute (now : Instant) (scope : Scope) (call : ToolCall) : Act (Except ToolError String) := do
  let course ← get
  let (answer, estate) := course.standing.estate.execute now scope call.name call.arguments false
  set { course with standing := { course.standing with estate } }
  match answer with
  | .ok text => return .ok text
  | .error (.tool e) => return .error e
  | .error .overflow => throw .crashed

end Act

end Helmsman
