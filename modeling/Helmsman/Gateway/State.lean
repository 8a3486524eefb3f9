import Helmsman.Provider.Exchange
import Helmsman.Reply.Loop
import Helmsman.Gateway.Http
import Helmsman.Settings.Chat
/-!
# What the gateway keeps

A gateway has fixed settings for conversations and one way to the model. What changes while it runs are the settings
of the connection, the store with its audit records, and the requests that have reached the model's endpoint. It has no
say in how fast those who listen are, nor in what its clocks tell.
-/

namespace Helmsman

structure Gateway where
  chat : ChatSettings := {}
  prompt : Prompt.Source := .builtIn
  network : Network
  /-- How long whoever listens to a conversation takes for each frame, by the time at which the conversation begins. -/
  pace : Instant → Nat → Nat := fun _ _ => 0
  /-- What the clock that measures the time for replies tells at a time, in milliseconds. -/
  clock : Instant → Nat := fun _ => 0

namespace Gateway

structure State where
  config : AiConfig
  estate : Estate
  /-- The requests that the endpoint has received, in order. -/
  received : List ModelRequest := []
  deriving Repr

/-- The network as seen by requests that come after those already received. -/
def networkFrom (g : Gateway) (state : State) : Network := fun n => g.network (state.received.length + n)

end Gateway

end Helmsman
