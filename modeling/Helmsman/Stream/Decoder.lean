import Helmsman.Provider.Error
import Helmsman.Text.Utf8
/-!
# Lines of a stream

A stream arrives in pieces that are cut anywhere. The decoder holds the one line that is still open and hands out each
line as soon as its line feed arrives. No line may be longer than a limit, its ending not counted: a carriage return
at the end of what is held counts as part of an ending that has yet to arrive. When a line is too long, the piece that
made it so is lost, and the decoder starts afresh.
-/

namespace Helmsman

structure LineDecoder where
  limit : Nat
  buffer : Octets := []
  deriving Repr, DecidableEq

namespace LineDecoder

def lineFeed : UInt8 := 10
def carriageReturn : UInt8 := 13

/-- The longest line accepted from an endpoint. -/
def maxLine : Nat := 1024 * 1024

def parts (bytes : Octets) : List Octets :=
  let step (state : Octets × List Octets) (b : UInt8) : Octets × List Octets :=
    if b == lineFeed then ([], (b :: state.1).reverse :: state.2) else (b :: state.1, state.2)
  let (current, finished) := bytes.foldl step ([], [])
  (if current.isEmpty then finished else current.reverse :: finished).reverse

/-- Whether what is held ends in a carriage return once a part follows, a line feed left aside. -/
def endsInReturn (buffer part : Octets) : Bool :=
  let tail := if part.getLast? == some lineFeed then part.dropLast else part
  match tail.getLast? with
  | some b => b == carriageReturn
  | none => part.length == 1 && buffer.getLast? == some carriageReturn

/-- The length of the open line once a part follows, its ending not counted. -/
def contentLength (buffer part : Octets) : Nat :=
  buffer.length + part.length - (if part.getLast? == some lineFeed then 1 else 0)
    - (if endsInReturn buffer part then 1 else 0)

def lineText (bytes : Octets) : String :=
  let cs := (Utf8.decodeLossy bytes).toList
  String.ofList (cs.reverse.dropWhile fun c => c == '\n' || c == '\r').reverse

/-- What a push hands out: lines, or that one was longer than the limit. -/
abbrev Pushed := Except ProviderError (List String)

/-- Parts taken one after the other; the lines so far are in reverse. -/
def takeParts (d : LineDecoder) (lines : List String) : List Octets → Pushed × LineDecoder
  | [] => (.ok lines.reverse, d)
  | part :: rest =>
    if d.limit < contentLength d.buffer part then (.error (.lineTooLong d.limit), { d with buffer := [] })
    else
      let held := d.buffer ++ part
      if held.getLast? == some lineFeed then takeParts { d with buffer := [] } (lineText held :: lines) rest
      else takeParts { d with buffer := held } lines rest

def push (d : LineDecoder) (bytes : Octets) : Pushed × LineDecoder := d.takeParts [] (parts bytes)

/-- The line that is open when the stream ends, unless it is empty. -/
def finish (d : LineDecoder) : Option String × LineDecoder :=
  if d.buffer.isEmpty then (none, d) else (some (lineText d.buffer), { d with buffer := [] })

end LineDecoder

end Helmsman
