import Helmsman.Number.Shortest
/-!
# JSON values

A value keeps the members of an object as a list, in the order and with the repetitions they were written in. Most of
the program wants the canonical form instead: members sorted by key, the last of several with one key kept. It is what
`canonical` produces and what every value built at run time is in; a record written for the wire keeps its own order.
-/

namespace Helmsman

/-- Whole numbers that fit 64 bits stay whole; every other number is a floating point number. -/
inductive Number
  | int (n : Int)
  | float (x : Binary64)
  deriving Repr, DecidableEq, Inhabited

def Number.toBinary64 : Number → Binary64
  | .int n => .ofInt n
  | .float x => x

inductive Json
  | null
  | bool (b : Bool)
  | number (n : Number)
  | string (s : String)
  | array (items : List Json)
  | object (members : List (String × Json))
  deriving Repr, Inhabited

namespace Json

def ofInt (n : Int) : Json := .number (.int n)
def ofNat (n : Nat) : Json := .number (.int n)

/-- Members sorted by key, with one more. -/
def insertMember (key : String) (value : Json) : List (String × Json) → List (String × Json)
  | [] => [(key, value)]
  | (k, v) :: rest =>
    if key < k then (key, value) :: (k, v) :: rest
    else if k < key then (k, v) :: insertMember key value rest
    else (key, value) :: rest

/-- The members sorted by key, the last of each key. -/
def sortMembers (members : List (String × Json)) : List (String × Json) :=
  members.foldl (fun sorted m => insertMember m.1 m.2 sorted) []

/-- An object with its members in canonical order. -/
def ofMembers (members : List (String × Json)) : Json := .object (sortMembers members)

mutual

/-- The same value with every object in canonical order. -/
def canonical : Json → Json
  | .array items => .array (canonicalItems items)
  | .object members => .object (sortMembers (canonicalMembers members))
  | j => j

def canonicalItems : List Json → List Json
  | [] => []
  | j :: rest => canonical j :: canonicalItems rest

def canonicalMembers : List (String × Json) → List (String × Json)
  | [] => []
  | (k, j) :: rest => (k, canonical j) :: canonicalMembers rest

end

def lookup (key : String) (members : List (String × Json)) : Option Json :=
  (members.reverse.find? fun m => m.1 == key).map (·.2)

def get? (j : Json) (key : String) : Option Json :=
  match j with
  | .object members => lookup key members
  | _ => none

/-- A member of an object, `null` where there is none. -/
def getD (j : Json) (key : String) : Json := (j.get? key).getD .null

def string? : Json → Option String
  | .string s => some s
  | _ => none

def bool? : Json → Option Bool
  | .bool b => some b
  | _ => none

def int? : Json → Option Int
  | .number (.int n) => some n
  | _ => none

def items? : Json → Option (List Json)
  | .array items => some items
  | _ => none

def members? : Json → Option (List (String × Json))
  | .object members => some members
  | _ => none

def isNull : Json → Bool
  | .null => true
  | _ => false

/-- The text of a string, empty for every other value. -/
def text (j : Json) : String := j.string?.getD ""

/-- The truth value, false for every other value. -/
def flag (j : Json) : Bool := j.bool?.getD false

/-- The whole number, zero for every other value. -/
def int (j : Json) : Int := j.int?.getD 0

/-- The items of an array, none for every other value. -/
def items (j : Json) : List Json := j.items?.getD []

/-- The members of an object, none for every other value. -/
def members (j : Json) : List (String × Json) := j.members?.getD []

def present? : Json → Option Json
  | .null => none
  | j => some j

def ofText? (s : Option String) : Json := s.elim .null .string

end Json

end Helmsman
