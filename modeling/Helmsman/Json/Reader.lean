import Helmsman.Json.Scan
/-!
# Reading JSON

`Json.read` reads one value and nothing behind it but blanks. The value keeps its members as they were written; ask
for `canonical` where keys have to be unique. At most 127 arrays and objects may be open at one time. The recursion is
on a number of steps that the length of the text bounds, since every step takes an octet.
-/

namespace Helmsman.Json

/-- How deep arrays and objects may be nested, with the step that is refused. -/
def depthLimit : Nat := 128

def scalar (bs : Octets) : Reading Json :=
  match bs with
  | [] => .error (.next .unfinishedValue [])
  | b :: rest =>
    if b == 0x6E then (word wordUll rest).map fun r => (.null, r)
    else if b == 0x74 then (word wordRue rest).map fun r => (.bool true, r)
    else if b == 0x66 then (word wordAlse rest).map fun r => (.bool false, r)
    else if b == 0x2D then (scanNumber true rest).map fun (n, r) => (.number n, r)
    else if isDigit b then (scanNumber false bs).map fun (n, r) => (.number n, r)
    else if b == 0x22 then (scanString rest).map fun (s, r) => (.string s, r)
    else .error (.next .expectedValue bs)

/-- The octets at the start of the next item, or the end of the list. Before the first item no comma is taken. -/
def nextItem (first : Bool) (bs : Octets) : Reading Bool :=
  match skipSpace bs with
  | [] => .error (.next .unfinishedList [])
  | b :: rest =>
    if b == 0x5D then .ok (false, rest)
    else if first then .ok (true, b :: rest)
    else if b == 0x2C then
      match skipSpace rest with
      | [] => .error (.next .unfinishedValue [])
      | c :: rest => if c == 0x5D then .error (.next .trailingComma (c :: rest)) else .ok (true, c :: rest)
    else .error (.next .expectedListEnd (b :: rest))

/-- The key of the next member, or `none` at the end of the object, whose brace is left to be read. -/
def nextKey (first : Bool) (bs : Octets) : Reading (Option String) :=
  match skipSpace bs with
  | [] => .error (.next .unfinishedObject [])
  | b :: rest =>
    if b == 0x7D then .ok (none, b :: rest)
    else if first then
      if b == 0x22 then (scanString rest).map fun (s, r) => (some s, r)
      else .error (.next .keyNotString (b :: rest))
    else if b == 0x2C then
      match skipSpace rest with
      | [] => .error (.next .unfinishedValue [])
      | c :: rest =>
        if c == 0x22 then (scanString rest).map fun (s, r) => (some s, r)
        else if c == 0x7D then .error (.next .trailingComma (c :: rest))
        else .error (.next .keyNotString (c :: rest))
    else .error (.next .expectedObjectEnd (b :: rest))

def colon (bs : Octets) : Except Fault Octets :=
  match skipSpace bs with
  | [] => .error (.next .unfinishedObject [])
  | b :: rest => if b == 0x3A then .ok rest else .error (.next .expectedColon (b :: rest))

mutual

def valueFrom (steps depth : Nat) (bs : Octets) : Reading Json :=
  match steps with
  | 0 => .error (.here .unfinishedValue bs)
  | steps + 1 =>
    match skipSpace bs with
    | [] => .error (.next .unfinishedValue [])
    | b :: rest =>
      if b == 0x5B then
        if depth ≤ 1 then .error (.next .tooDeep (b :: rest)) else itemsFrom steps (depth - 1) [] rest
      else if b == 0x7B then
        if depth ≤ 1 then .error (.next .tooDeep (b :: rest)) else membersFrom steps (depth - 1) [] rest
      else scalar (b :: rest)

/-- The items of an array, those already read in reverse. -/
def itemsFrom (steps depth : Nat) (read : List Json) (bs : Octets) : Reading Json :=
  match steps with
  | 0 => .error (.here .unfinishedValue bs)
  | steps + 1 =>
    match nextItem read.isEmpty bs with
    | .error f => .error f
    | .ok (false, rest) => .ok (.array read.reverse, rest)
    | .ok (true, rest) =>
      match valueFrom steps depth rest with
      | .error f => .error f
      | .ok (j, rest) => itemsFrom steps depth (j :: read) rest

/-- The members of an object, those already read in reverse. -/
def membersFrom (steps depth : Nat) (read : List (String × Json)) (bs : Octets) : Reading Json :=
  match steps with
  | 0 => .error (.here .unfinishedValue bs)
  | steps + 1 =>
    match nextKey read.isEmpty bs with
    | .error f => .error f
    | .ok (none, rest) => .ok (.object read.reverse, rest.drop 1)
    | .ok (some key, rest) =>
      match colon rest with
      | .error f => .error f
      | .ok rest =>
        match valueFrom steps depth rest with
        | .error f => .error f
        | .ok (j, rest) => membersFrom steps depth ((key, j) :: read) rest

end

/-- More steps than any value of this length can take. -/
def stepsFor (bs : Octets) : Nat := 2 * bs.length + 2

/-- Nothing but blanks may follow a text's value. -/
def atEnd (bs : Octets) : Except Fault Unit :=
  match skipSpace bs with
  | [] => .ok ()
  | rest => .error (.next .trailingCharacters rest)

def read (text : Octets) : Except Fault Json := do
  let (j, rest) ← valueFrom (stepsFor text) depthLimit text
  atEnd rest
  return j

/-- The value of a text in canonical form. -/
def parse (s : String) : Except Fault Json := (read (Utf8.encode s)).map canonical

/-! ### Values that nobody asks for -/

/-- The brackets that are open around a value, innermost first. `true` stands for a list. -/
abbrev Frames := List Bool

mutual

/-- A value of no interest, inside the open brackets. Depth does not matter here. -/
def skipFrom (steps : Nat) (frames : Frames) (bs : Octets) : Except Fault Octets :=
  match steps with
  | 0 => .error (.here .unfinishedValue bs)
  | steps + 1 =>
    match skipSpace bs with
    | [] => .error (.next .unfinishedValue [])
    | b :: rest =>
      if b == 0x5B then skipAfter steps (true :: frames) false rest
      else if b == 0x7B then skipAfter steps (false :: frames) false rest
      else
        let skipped : Except Fault Octets :=
          if b == 0x6E then word wordUll rest
          else if b == 0x74 then word wordRue rest
          else if b == 0x66 then word wordAlse rest
          else if b == 0x2D then skipNumber rest
          else if isDigit b then skipNumber (b :: rest)
          else if b == 0x22 then skipString rest
          else .error (.next .expectedValue (b :: rest))
        match skipped with
        | .error f => .error f
        | .ok rest => skipAfter steps frames true rest

/-- From behind a value, or behind an opening bracket, to the next value or the end of the outermost one. -/
def skipAfter (steps : Nat) (frames : Frames) (comma : Bool) (bs : Octets) : Except Fault Octets :=
  match steps with
  | 0 => .error (.here .unfinishedValue bs)
  | steps + 1 =>
    match frames with
    | [] => .ok bs
    | list :: outer =>
      match skipSpace bs with
      | [] => .error (.next (if list then .unfinishedList else .unfinishedObject) [])
      | b :: rest =>
        if comma && b == 0x2C then skipMember steps frames rest
        else if b == (if list then 0x5D else 0x7D) then skipAfter steps outer true rest
        else if comma then .error (.next (if list then .expectedListEnd else .expectedObjectEnd) (b :: rest))
        else skipMember steps frames (b :: rest)

/-- In an object the key comes first. -/
def skipMember (steps : Nat) (frames : Frames) (bs : Octets) : Except Fault Octets :=
  match steps with
  | 0 => .error (.here .unfinishedValue bs)
  | steps + 1 =>
    if frames.head? == some true then skipFrom steps frames bs
    else
      match skipSpace bs with
      | [] => .error (.next .unfinishedObject [])
      | b :: rest =>
        if b == 0x22 then
          match skipString rest with
          | .error f => .error f
          | .ok rest =>
            match colon rest with
            | .error f => .error f
            | .ok rest => skipFrom steps frames rest
        else .error (.next .keyNotString (b :: rest))

end

def skip (bs : Octets) : Except Fault Octets := skipFrom (4 * bs.length + 4) [] bs

end Helmsman.Json
