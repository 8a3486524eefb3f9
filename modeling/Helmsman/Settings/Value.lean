import Helmsman.Number.Decimal
import Helmsman.Number.Shortest
/-!
# Values of settings

What a file or the environment says a setting is. A value is not bound to the type that it was written with: each kind
of setting accepts every value that can be understood as one of its own.
-/

namespace Helmsman

inductive Setting
  | text (s : String)
  | integer (n : Int)
  | decimal (x : Binary64)
  | flag (b : Bool)
  | list (items : List Setting)
  | table (entries : List (String × Setting))
  deriving Repr, Inhabited

namespace Setting

def affirmations : List String := ["true", "on", "yes"]
def negations : List String := ["false", "off", "no"]

def flagText (b : Bool) : String := if b then "true" else "false"

def toText? : Setting → Option String
  | .text s => some s
  | .integer n => some (Decimal.ofInt n)
  | .decimal x => some (DecimalStyle.plain.write x)
  | .flag b => some (flagText b)
  | .list _ | .table _ => none

/-- The value as a yes or no: every number but zero is a yes. -/
def toFlag? : Setting → Option Bool
  | .text s =>
    let word := s.toLower
    if word == "1" || affirmations.contains word then some true
    else if word == "0" || negations.contains word then some false
    else none
  | .integer n => some (n != 0)
  | .decimal x => some (!x.isZero)
  | .flag b => some b
  | .list _ | .table _ => none

/-- A decimal as the nearest count that there is. -/
def roundedCount (x : Binary64) : Nat :=
  match x, x.round? with
  | _, some n => min n.toNat Word.unsigned64
  | .infinite false, none => Word.unsigned64
  | _, none => 0

/-- The value as a count up to a bound. -/
def toCount? (bound : Nat) (s : Setting) : Option Nat :=
  let count := match s with
    | .text s =>
      let word := s.toLower
      if affirmations.contains word then some 1
      else if negations.contains word then some 0
      else Decimal.readNat? Word.unsigned64 s
    | .integer n => if 0 ≤ n then some n.toNat else none
    | .decimal x => some (roundedCount x)
    | .flag b => some b.toNat
    | .list _ | .table _ => none
  count.filter (· ≤ bound)

/-- What a text that was written without a type is taken for: a yes or no, a whole number, a decimal, or a text. -/
def ofUntyped (s : String) : Setting :=
  match s.toLower with
  | "true" => .flag true
  | "false" => .flag false
  | _ =>
    match Decimal.readInt? Word.lowest64 Word.highest64 s with
    | some n => .integer n
    | none =>
      match Decimal.readBinary64? s with
      | some x => .decimal x
      | none => .text s

def entries : Setting → List (String × Setting)
  | .table entries => entries
  | _ => []

/-- The fields of a record, by name or in order. -/
def fields? (names : List String) : Setting → Option (List (String × Setting))
  | .table entries => some entries
  | .list items => some (names.zip items)
  | _ => none

end Setting

end Helmsman
