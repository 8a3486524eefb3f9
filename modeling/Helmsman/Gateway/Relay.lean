import Helmsman.Reply.Course
import Helmsman.Settings.Chat
/-!
# Passing a reply on

Each step of a reply is passed on as a frame, as soon as the listener has room for it. While no step is made, the relay
looks at every heartbeat whether there is still somebody who listens. If there is nobody, then or when the frame is
passed on, the reply is given up where it stands.
-/

namespace Helmsman.Gateway

/-- Somebody who listens to the end, or until a time. -/
structure Listener where
  leaves : Option Nat := none
  deriving Repr, DecidableEq

def Listener.present (l : Listener) (time : Nat) : Bool := l.leaves.all fun t => time < t

/-- Whether the listener is found there at all heartbeats from one time until a step is made at another. A step that is
made at a heartbeat goes before it. -/
def awaits (c : ChatSettings) (l : Listener) (time made : Nat) : Bool :=
  if made ≤ time + c.heartbeat then true
  else l.present (time + c.heartbeat) && awaits c l (time + c.heartbeat) made
termination_by made - time
decreasing_by
  have := c.heartbeat_pos
  omega

/-- The frames that are passed on from a time on, to a listener who takes so long for each. -/
def relay (c : ChatSettings) (l : Listener) (pace : Nat → Nat) (time : Nat) : List Moment → List String
  | [] => []
  | m :: rest =>
    let taken := m.standing.clock + pace 0
    if awaits c l time m.standing.clock && l.present taken then
      m.step.progress.frame :: relay c l (fun n => pace (n + 1)) taken rest
    else []

end Helmsman.Gateway
