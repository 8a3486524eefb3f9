import Helmsman.Settings.Value
import Helmsman.Time.Calendar
/-!
# Scalars of TOML

Numbers, truth values and dates, as they are written without quotes. Digits may be grouped by single underscores, and
no number starts with a needless zero. A date or a time is a text, in the one form that a moment has.
-/

namespace Helmsman.Toml

/-- Digits without the underscores between them. -/
def ungrouped? (isDigit : Char → Bool) : List Char → Option (List Char)
  | [] => none
  | [c] => if isDigit c then some [c] else none
  | c :: '_' :: rest => if isDigit c then (ungrouped? isDigit rest).map (c :: ·) else none
  | c :: rest => if isDigit c then (ungrouped? isDigit rest).map (c :: ·) else none

def baseDigit? (base : Nat) (c : Char) : Option Nat :=
  let value := if Decimal.isDigit c then some (Decimal.digitValue c)
    else if 'a' ≤ c && c ≤ 'f' then some (c.toNat - 'a'.toNat + 10)
    else if 'A' ≤ c && c ≤ 'F' then some (c.toNat - 'A'.toNat + 10)
    else none
  value.filter (· < base)

def based? (base : Nat) (cs : List Char) : Option Int := do
  let digits ← ungrouped? (fun c => (baseDigit? base c).isSome) cs
  return ((digits.filterMap (baseDigit? base)).foldl (fun n d => base * n + d) 0 : Nat)

/-- Decimal digits without a needless zero in front. -/
def whole? (cs : List Char) : Option (List Char) := do
  let digits ← ungrouped? Decimal.isDigit cs
  if digits.head? == some '0' && cs.length != 1 then none else some digits

def signed? (cs : List Char) : Option Int :=
  let (negative, digits) := Decimal.splitSign cs
  (whole? digits).map fun ds => if negative then -(Decimal.digitsValue ds : Int) else Decimal.digitsValue ds

def integer? (cs : List Char) : Option Int :=
  let n := match cs with
    | '0' :: 'x' :: rest => based? 16 rest
    | '0' :: 'o' :: rest => based? 8 rest
    | '0' :: 'b' :: rest => based? 2 rest
    | cs => signed? cs
  n.filter fun n => Word.lowest64 ≤ n && n ≤ Word.highest64

/-- The exponent of a number, mark and sign included, without underscores. -/
def exponent? : List Char → Option (List Char)
  | [] => some []
  | mark :: rest =>
    if mark == 'e' || mark == 'E' then
      let digits := match rest with
        | '+' :: ds | '-' :: ds => ds
        | ds => ds
      let sign := rest.take (rest.length - digits.length)
      (ungrouped? Decimal.isDigit digits).map fun ds => mark :: sign ++ ds
    else none

/-- A number with a point or an exponent. One that is too large is no number. -/
def decimal? (cs : List Char) : Option Binary64 := do
  let (negative, rest) := Decimal.splitSign cs
  match String.ofList rest with
  | "inf" => return .infinite negative
  | "nan" => return .nan
  | _ =>
    let isMark (c : Char) : Bool := c == 'e' || c == 'E'
    let front ← whole? (rest.takeWhile fun c => c != '.' && !isMark c)
    let behind := rest.dropWhile fun c => c != '.' && !isMark c
    let (places, power) := match behind with
      | '.' :: r => (some (r.takeWhile fun c => !isMark c), r.dropWhile fun c => !isMark c)
      | r => (none, r)
    if behind.isEmpty then none
    let places ← places.elim (some []) fun p => (ungrouped? Decimal.isDigit p).map ('.' :: ·)
    let power ← exponent? power
    let x ← Decimal.readBinary64? (String.ofList (front ++ places ++ power))
    match negative, x with
    | false, .infinite _ => none
    | true, x => some x.neg
    | false, x => some x

/-- A number of so many digits between two bounds, and what follows it. -/
def number? (count low high : Nat) (cs : List Char) : Option (Nat × List Char) :=
  let digits := cs.take count
  let n := Decimal.digitsValue digits
  let fits := digits.length = count && digits.all Decimal.isDigit && low ≤ n && n ≤ high
  if fits then some (n, cs.drop count) else none

def mark? (c : Char) : List Char → Option (List Char)
  | d :: rest => if c == d then some rest else none
  | [] => none

def date? (cs : List Char) : Option (String × List Char) := do
  let (year, cs) ← number? 4 0 9999 cs
  let (month, cs) ← number? 2 1 12 (← mark? '-' cs)
  let (day, cs) ← number? 2 1 (Date.daysInMonth year month) (← mark? '-' cs)
  return (Decimal.padded 4 year ++ "-" ++ Decimal.padded 2 month ++ "-" ++ Decimal.padded 2 day, cs)

/-- The fraction of a second: nine places at most, and none that are zero at its end. -/
def fraction? : List Char → Option (String × List Char)
  | '.' :: rest =>
    let digits := rest.takeWhile Decimal.isDigit
    let shown := ((digits.take 9).reverse.dropWhile (· == '0')).reverse
    if digits.isEmpty then none
    else some (if shown.isEmpty then "" else String.ofList ('.' :: shown), rest.dropWhile Decimal.isDigit)
  | rest => some ("", rest)

def time? (cs : List Char) : Option (String × List Char) := do
  let (hour, cs) ← number? 2 0 23 cs
  let (minute, cs) ← number? 2 0 59 (← mark? ':' cs)
  let (second, cs) ← number? 2 0 60 (← mark? ':' cs)
  let (fraction, cs) ← fraction? cs
  return (Decimal.padded 2 hour ++ ":" ++ Decimal.padded 2 minute ++ ":" ++ Decimal.padded 2 second ++ fraction, cs)

/-- The distance from universal time and its text. No distance at all has no sign but a plus. -/
def offset? : List Char → Option String
  | [] => some ""
  | ['Z'] | ['z'] => some "Z"
  | sign :: cs => do
    let (hour, cs) ← number? 2 0 23 cs
    let (minute, cs) ← number? 2 0 59 (← mark? ':' cs)
    let shown := if hour = 0 && minute = 0 then '+' else sign
    if cs.isEmpty && (sign == '+' || sign == '-') then
      some (String.singleton shown ++ Decimal.padded 2 hour ++ ":" ++ Decimal.padded 2 minute)
    else none

/-- A moment: a date, a time, or both with the letter `T` between them. -/
def moment? (cs : List Char) : Option String :=
  match date? cs with
  | some (date, []) => some date
  | some (date, mark :: cs) =>
    if mark == 'T' || mark == 't' || mark == ' ' then do
      let (time, cs) ← time? cs
      return date ++ "T" ++ time ++ (← offset? cs)
    else none
  | none =>
    match time? cs with
    | some (time, []) => some time
    | _ => none

def scalar? (cs : List Char) : Option Setting :=
  match String.ofList cs with
  | "true" => some (.flag true)
  | "false" => some (.flag false)
  | _ =>
    ((integer? cs).map Setting.integer).or (((decimal? cs).map Setting.decimal).or ((moment? cs).map Setting.text))

end Helmsman.Toml
