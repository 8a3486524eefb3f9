import Helmsman.Text.Utf8
/-!
# Parts and lines of a text

Marks divide a text into parts, and a part may be empty. A line ends at a line feed, and a carriage return right before
it belongs to the ending. What follows the last line feed is a line of its own unless it is empty.
-/

namespace Helmsman.Text

/-- What stands between the marks of a text, in front of the first and behind the last. -/
def parts (mark : Char) (s : String) : List String := (s.toList.splitOn mark).map String.ofList

/-- The open line and the finished ones, both latest first. -/
structure LineState where
  current : List Char := []
  finished : List (List Char) := []

def LineState.step (s : LineState) (c : Char) : LineState :=
  if c == '\n' then
    let line := match s.current with
      | '\r' :: rest => rest
      | line => line
    ⟨[], line.reverse :: s.finished⟩
  else ⟨c :: s.current, s.finished⟩

def LineState.close (s : LineState) : List (List Char) :=
  (if s.current.isEmpty then s.finished else s.current.reverse :: s.finished).reverse

def lines (s : String) : List String := (s.toList.foldl LineState.step {}).close.map String.ofList

/-- The last `count` lines, joined by line feeds. -/
def tail (count : Nat) (s : String) : String :=
  let all := lines s
  "\n".intercalate (all.drop (all.length - count))

/-- The longest beginning that takes no more than `limit` octets. -/
def takeOctets (limit : Nat) (s : String) : String :=
  let step (state : Nat × Bool × List Char) (c : Char) : Nat × Bool × List Char :=
    let (size, closed, taken) := state
    if closed || limit < size + c.utf8Size then (size, true, taken) else (size + c.utf8Size, false, c :: taken)
  String.ofList (s.toList.foldl step (0, false, [])).2.2.reverse

end Helmsman.Text
