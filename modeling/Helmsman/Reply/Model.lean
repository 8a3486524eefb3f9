import Helmsman.Stream.Event
/-!
# The model as a reply meets it

In each round a reply asks the model once. The model takes its time and then either refuses or opens a stream, and a
stream is a list of beats: events, spans of time, and the silence after which nothing more comes. A stream is over when
its beats are.
-/

namespace Helmsman

inductive Beat
  | event (e : StreamEvent)
  | wait (milliseconds : Nat)
  | silence
  deriving Repr, DecidableEq

/-- What comes of asking: how long it takes, for ever if no time is given, and what it leads to. -/
structure Opening where
  wait : Option Nat := some 0
  outcome : Except ProviderError (List Beat)

namespace Opening

def stream (events : List StreamEvent) : Opening := ⟨some 0, .ok (events.map .event)⟩

def refusal (e : ProviderError) : Opening := ⟨some 0, .error e⟩

def never : Opening := ⟨none, .ok []⟩

end Opening

/-- What a model does in each round, counted from 0. -/
abbrev Model := Nat → Opening

namespace Model

/-- The rounds of a list, and behind them always the same. -/
def ofList (rounds : List Opening) (afterwards : Opening) : Model := fun n => rounds[n]?.getD afterwards

end Model

end Helmsman
