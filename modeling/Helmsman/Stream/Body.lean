import Helmsman.Stream.Decoder
import Helmsman.Stream.Event
/-!
# The events of a response

A response that streams a completion is a sequence of pieces and a way of ending. Its lines are taken in order until
the mark that ends the stream; only the first reason to stop is passed on. A body that ends without the mark counts as
done too, one that breaks off ends with an error, and one that falls silent leaves whoever listens waiting.
-/

namespace Helmsman

inductive BodyEnd
  | complete
  | broken (reason : String)
  | silent
  deriving Repr, DecidableEq

/-- Events in the order of their arrival, and whether nothing more ever comes after them. -/
structure Feed where
  events : List StreamEvent
  silent : Bool := false
  deriving Repr, DecidableEq

namespace Body

/-- The events to pass on, whether a reason to stop has been among them, and whether the stream is at its end. -/
structure Intake where
  events : List StreamEvent := []
  finished : Bool := false
  stopped : Bool := false
  deriving Repr, DecidableEq

/-- The events without any reason to stop but the first. -/
def firstFinish : Bool → List StreamEvent → List StreamEvent × Bool
  | finished, [] => ([], finished)
  | finished, .finish reason :: rest =>
    let (kept, after) := firstFinish true rest
    (if finished then kept else .finish reason :: kept, after)
  | finished, e :: rest =>
    let (kept, after) := firstFinish finished rest
    (e :: kept, after)

def line (p : Intake) (text : String) : Intake :=
  if p.stopped then p
  else
    match DataLine.ofLine? text with
    | none => p
    | some .done => { p with events := p.events ++ [.done], stopped := true }
    | some (.data payload) =>
      match Chunk.parse payload with
      | .error _ => p
      | .ok events =>
        let (kept, finished) := firstFinish p.finished events
        { p with events := p.events ++ kept, finished }

def lines (p : Intake) (texts : List String) : Intake := texts.foldl line p

/-- All pieces in order, and the decoder behind the last one. -/
def pieces (d : LineDecoder) (p : Intake) : List Octets → LineDecoder × Intake
  | [] => (d, p)
  | piece :: rest =>
    if p.stopped then (d, p)
    else
      match d.push piece with
      | (.ok texts, d) => pieces d (lines p texts) rest
      | (.error e, d) => (d, { p with events := p.events ++ [.error e], stopped := true })

def feed (body : List Octets) (ending : BodyEnd) : Feed :=
  let (d, p) := pieces { limit := LineDecoder.maxLine } {} body
  if p.stopped then ⟨p.events, false⟩
  else
    match ending with
    | .silent => ⟨p.events, true⟩
    | .broken reason => ⟨p.events ++ [.error (.stream reason)], false⟩
    | .complete =>
      let p := lines p d.finish.1.toList
      ⟨if p.stopped then p.events else p.events ++ [.done], false⟩

end Body

end Helmsman
