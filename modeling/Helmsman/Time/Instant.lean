import Helmsman.Time.Calendar
import Helmsman.Number.Decimal
import Helmsman.Text.Blank
/-!
# Instants

A moment in universal time, to the nanosecond. A leap second is the second before it with more than a whole second of
nanoseconds, so it keeps its place in the order of instants. Instants are read from RFC 3339 with any offset and always
written in universal time.
-/

namespace Helmsman

structure Instant where
  /-- Days since the first of January 1970. -/
  day : Int
  second : Nat
  nano : Nat
  deriving Repr, DecidableEq, Inhabited

namespace Instant

def secondsPerDay : Nat := 86400
def nanosPerSecond : Nat := 1000000000

/-- The years that a date may lie in. -/
def leastYear : Int := -262143
def greatestYear : Int := 262142

inductive Fault
  | outOfRange
  | impossible
  | invalid
  | tooShort
  | tooLong
  deriving Repr, DecidableEq

def Fault.message : Fault → String
  | .outOfRange => "input is out of range"
  | .impossible => "no possible date and time matching input"
  | .invalid => "input contains invalid characters"
  | .tooShort => "premature end of input"
  | .tooLong => "trailing input"

/-! ### Reading -/

abbrev Step (α : Type) := Except Fault (α × List Char)

/-- A number of at least one digit and at most `width` of them. -/
def digits (width : Nat) (cs : List Char) : Step Nat :=
  match cs with
  | [] => .error .tooShort
  | c :: _ =>
    if Decimal.isDigit c then
      let taken := (cs.take width).takeWhile Decimal.isDigit
      .ok (Decimal.digitsValue taken, cs.drop taken.length)
    else .error .invalid

def twoDigits (low high : Nat) (cs : List Char) : Step Nat :=
  match digits 2 (Text.dropBlanks cs) with
  | .error f => .error f
  | .ok (n, rest) => if low ≤ n ∧ n ≤ high then .ok (n, rest) else .error .outOfRange

/-- Four digits, or any number of them behind a sign. -/
def yearDigits (cs : List Char) : Step Int :=
  let inRange (n : Int) (rest : List Char) : Step Int :=
    if Word.lowest32 ≤ n ∧ n ≤ Word.highest32 then .ok (n, rest) else .error .outOfRange
  match Text.dropBlanks cs with
  | '-' :: cs => (digits cs.length cs).bind fun (n, rest) => inRange (-(n : Int)) rest
  | '+' :: cs => (digits cs.length cs).bind fun (n, rest) => inRange n rest
  | cs => (digits 4 cs).bind fun (n, rest) => inRange n rest

/-- One character, blanks in front of it allowed. -/
def mark (c : Char) (cs : List Char) : Except Fault (List Char) :=
  match Text.dropBlanks cs with
  | [] => .error .tooShort
  | d :: rest => if d == c then .ok rest else .error .invalid

/-- A fraction of a second in nanoseconds. Digits beyond the ninth are dropped. -/
def fraction (cs : List Char) : Step Nat :=
  match cs with
  | '.' :: cs =>
    match digits 9 cs with
    | .error f => .error f
    | .ok (n, rest) =>
      .ok (n * tenTo (9 - (cs.length - rest.length)), rest.dropWhile Decimal.isDigit)
  | cs => .ok (0, cs)

private def bothDigits (a b : Char) : Option Nat :=
  if Decimal.isDigit a && Decimal.isDigit b then some (10 * Decimal.digitValue a + Decimal.digitValue b) else none

/-- The digits of an offset: hours, then perhaps colons or blanks, and minutes. -/
private def offsetDigits (negative : Bool) (cs : List Char) : Step Int :=
  match cs with
  | a :: b :: rest =>
    match bothDigits a b with
    | none => .error .invalid
    | some hours =>
      match rest.dropWhile fun c => c == ':' || Text.isBlank c with
      | a :: b :: rest =>
        match bothDigits a b with
        | none => .error .invalid
        | some minutes =>
          if 60 ≤ minutes then .error .outOfRange
          else
            let seconds : Int := hours * 3600 + minutes * 60
            .ok (if negative then -seconds else seconds, rest)
      | _ => .error .tooShort
  | _ => .error .tooShort

/-- The distance from universal time in seconds. -/
def offset (cs : List Char) : Step Int :=
  match cs with
  | [] => .error .tooShort
  | c :: rest =>
    if (cs.take 3).map Char.toUpper = ['U', 'T', 'C'] then .ok (0, cs.drop 3)
    else if c == 'Z' || c == 'z' then .ok (0, rest)
    else if c == '+' then offsetDigits false rest
    else if c == '-' || c == '\u2212' then offsetDigits true rest
    else .error .invalid

/-- The instant of a local date and time. A sixtieth second is a leap second. -/
def ofLocal (date : Date) (hour minute second nano : Nat) (offset : Int) : Except Fault Instant :=
  if !date.isValid || date.year < leastYear || greatestYear < date.year then .error .outOfRange
  else if secondsPerDay ≤ offset.natAbs then .error .outOfRange
  else
    let leap := second == 60
    let local_ : Int := date.toDays * secondsPerDay + hour * 3600 + minute * 60 + (if leap then 59 else second)
    let universal := local_ - offset
    let day := universal / secondsPerDay
    let year := (Date.ofDays day).year
    if year < leastYear || greatestYear < year then .error .impossible
    else .ok ⟨day, (universal % secondsPerDay).toNat, if leap then nano + nanosPerSecond else nano⟩

/-- An instant at the front of some characters. -/
def ofChars (cs : List Char) : Except Fault Instant := do
  let (year, cs) ← yearDigits cs
  let cs ← mark '-' cs
  let (month, cs) ← twoDigits 1 12 cs
  let cs ← mark '-' cs
  let (day, cs) ← twoDigits 1 31 cs
  let cs ← match cs with
    | [] => .error .tooShort
    | c :: rest => if c == 'T' || c == 't' || c == ' ' then .ok rest else .error .invalid
  let (hour, cs) ← twoDigits 0 23 cs
  let cs ← mark ':' cs
  let (minute, cs) ← twoDigits 0 59 cs
  let cs ← mark ':' cs
  let (second, cs) ← twoDigits 0 60 cs
  let (nano, cs) ← fraction cs
  let (seconds, cs) ← offset (Text.dropBlanks cs)
  if !(Text.dropBlanks cs).isEmpty then throw .tooLong
  ofLocal ⟨year, month, day⟩ hour minute second nano seconds

def parse (s : String) : Except Fault Instant := ofChars s.toList

def faultText (s : String) : Option String :=
  match parse s with
  | .ok _ => none
  | .error f => some f.message

/-! ### Writing -/

/-- Years outside four digits carry a sign. -/
def yearText (year : Int) : String :=
  if 0 ≤ year ∧ year ≤ 9999 then Decimal.padded 4 year.natAbs
  else (if year < 0 then "-" else "+") ++ Decimal.padded 4 year.natAbs

/-- The fewest groups of three digits that lose nothing. -/
def fractionText (nano : Nat) : String :=
  if nano = 0 then ""
  else if nano % 1000000 = 0 then "." ++ Decimal.padded 3 (nano / 1000000)
  else if nano % 1000 = 0 then "." ++ Decimal.padded 6 (nano / 1000)
  else "." ++ Decimal.padded 9 nano

/-- An instant with a chosen spelling of universal time behind it. -/
def textWith (zone : String) (t : Instant) : String :=
  let date := Date.ofDays t.day
  let second := t.second % 60 + t.nano / nanosPerSecond
  yearText date.year ++ "-" ++ Decimal.padded 2 date.month ++ "-" ++ Decimal.padded 2 date.day ++ "T"
    ++ Decimal.padded 2 (t.second / 3600) ++ ":" ++ Decimal.padded 2 (t.second / 60 % 60) ++ ":"
    ++ Decimal.padded 2 second ++ fractionText (t.nano % nanosPerSecond) ++ zone

def text (t : Instant) : String := textWith "Z" t

/-! ### Ages -/

/-- Whole seconds from one instant to another, rounded down. A leap second between them counts. -/
def secondsSince (now created : Instant) : Int :=
  let seconds : Int := now.second - created.second
  let leap : Int :=
    if created.second < now.second ∧ nanosPerSecond ≤ created.nano then 1
    else if now.second < created.second ∧ nanosPerSecond ≤ now.nano then -1
    else 0
  let nanos : Int := now.nano - created.nano
  (now.day - created.day) * secondsPerDay + seconds + leap + nanos / nanosPerSecond

/-- The age of something in its largest whole unit. What was created later is no time old. -/
def age (created now : Instant) : String :=
  let seconds := (secondsSince now created).toNat
  if 365 * secondsPerDay ≤ seconds then Decimal.ofNat (seconds / (365 * secondsPerDay)) ++ "y"
  else if secondsPerDay ≤ seconds then Decimal.ofNat (seconds / secondsPerDay) ++ "d"
  else if 3600 ≤ seconds then Decimal.ofNat (seconds / 3600) ++ "h"
  else if 60 ≤ seconds then Decimal.ofNat (seconds / 60) ++ "m"
  else Decimal.ofNat seconds ++ "s"

end Instant

end Helmsman
