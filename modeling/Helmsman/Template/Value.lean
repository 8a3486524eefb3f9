import Helmsman.Json.Basic
import Helmsman.Template.Syntax
import Helmsman.Text.UpperCase
/-!
# Values in a template

How a JSON value is written into a text, when it counts as true, when two values are equal, where a path leads, and
what the filters and the arithmetic make of it.
-/

namespace Helmsman.Template

open Json

/-- Why a template cannot be rendered: nothing is known beyond that. -/
inductive Fault
  | unknownPath
  | unknownFilter
  | unknownFunction
  | missingArgument
  | wrongKind
  | outOfBounds
  | notComparable
  | notIterable
  deriving Repr, DecidableEq

def numberText : Number → String
  | .int n => Decimal.ofInt n
  | .float x => DecimalStyle.plain.write x

mutual

/-- A value as text: nothing for `null`, and no more than a mark for an object. -/
def written : Json → String
  | .null => ""
  | .bool b => if b then "true" else "false"
  | .number n => numberText n
  | .string s => s
  | .array items => "[" ++ ", ".intercalate (writtenItems items) ++ "]"
  | .object _ => "[object]"

def writtenItems : List Json → List String
  | [] => []
  | j :: rest => written j :: writtenItems rest

end

def isTrue : Json → Bool
  | .null => false
  | .bool b => b
  | .number (.int n) => n != 0
  | .number (.float x) => !x.isZero && !x.isNaN
  | .string s => !s.isEmpty
  | .array items => !items.isEmpty
  | .object members => !members.isEmpty

mutual

/-- Equality of canonical values. Whole and floating point numbers differ. -/
def same : Json → Json → Bool
  | .null, .null => true
  | .bool a, .bool b => a == b
  | .number (.int m), .number (.int n) => m == n
  | .number (.float x), .number (.float y) => x.compare? y == some .eq
  | .string s, .string t => s == t
  | .array l, .array m => sameItems l m
  | .object l, .object m => sameMembers l m
  | _, _ => false

def sameItems : List Json → List Json → Bool
  | [], [] => true
  | a :: l, b :: m => same a b && sameItems l m
  | _, _ => false

def sameMembers : List (String × Json) → List (String × Json) → Bool
  | [], [] => true
  | (j, a) :: l, (k, b) :: m => j == k && same a b && sameMembers l m
  | _, _ => false

end

/-- Two values side by side: numbers by their size, and never a number and something else. -/
def equal (a b : Json) : Bool :=
  match a, b with
  | .number m, .number n => m.toBinary64.compare? n.toBinary64 == some .eq
  | .number _, _ => false
  | _, .number _ => false
  | a, b => same a b

/-- Whether two values differ. A number does not even differ from something that is none. -/
def differ (a b : Json) : Bool :=
  match a, b with
  | .number m, .number n => m.toBinary64.compare? n.toBinary64 != some .eq
  | .number _, _ => false
  | _, .number _ => false
  | a, b => !same a b

/-- An index without sign and without needless zeros. -/
def index? (key : String) : Option Nat :=
  let cs := key.toList
  if cs.head? = some '+' ∨ (cs.head? = some '0' ∧ cs.length ≠ 1) then none else Decimal.readNat? Word.unsigned64 key

def enter? (key : String) : Json → Option Json
  | .object members => lookup key members
  | .array items => (index? key).bind fun i => items[i]?
  | _ => none

def follow? (j : Json) (keys : List String) : Option Json := keys.foldlM (fun j key => enter? key j) j

/-! ### Arithmetic -/

def inInt64 (n : Int) : Bool := Word.lowest64 ≤ n && n ≤ Word.highest64

/-- Whole numbers stay whole and have to stay in bounds. -/
def wholeOr (m n : Number) (onInt : Int → Int → Int) (onFloat : Binary64 → Binary64 → Binary64) :
    Except Fault (Option Number) :=
  match m, n with
  | .int a, .int b =>
    if inInt64 a && inInt64 b then
      if inInt64 (onInt a b) then .ok (some (.int (onInt a b))) else .error .outOfBounds
    else if 0 ≤ a ∧ 0 ≤ b ∧ !inInt64 a ∧ !inInt64 b then
      if 0 ≤ onInt a b ∧ onInt a b ≤ Word.unsigned64 then .ok (some (.int (onInt a b))) else .error .outOfBounds
    else float
  | _, _ => float
where
  float : Except Fault (Option Number) :=
    let x := onFloat m.toBinary64 n.toBinary64
    .ok (if x.isFinite then some (.float x) else none)

/-- The result, or nothing where it is no number. -/
def Arithmetic.apply (op : Arithmetic) (m n : Number) : Except Fault (Option Number) :=
  match op with
  | .add => wholeOr m n (· + ·) Binary64.add
  | .sub => wholeOr m n (· - ·) fun x y => x.add y.neg
  | .mul => wholeOr m n (· * ·) Binary64.mul
  | .div =>
    let x := m.toBinary64.div n.toBinary64
    .ok (if x.isFinite then some (.float x) else none)
  | .rem =>
    match m, n with
    | .int _, .int 0 => .error .outOfBounds
    | m, n => wholeOr m n Int.tmod Binary64.rem

def Comparison.ordered (op : Comparison) (o : Ordering) : Bool :=
  match op with
  | .lt => o == .lt
  | .le => o != .gt
  | .gt => o == .gt
  | .ge => o != .lt
  | .eq => o == .eq
  | .ne => o != .eq

/-! ### Filters -/

def replaceEscapes : List Char → List Char
  | '\\' :: 'n' :: rest => '\n' :: replaceEscapes rest
  | '\\' :: 't' :: rest => '\t' :: replaceEscapes rest
  | c :: rest => c :: replaceEscapes rest
  | [] => []

/-- What a filter makes of a value, its arguments being looked up by name. -/
def applyFilter (name : String) (argument? : String → Option Json) (j : Json) : Except Fault Json :=
  match name with
  | "upper" =>
    match j with
    | .string s => .ok (.string (Text.upper s))
    | _ => .error .wrongKind
  | "length" =>
    match j with
    | .string s => .ok (.ofNat s.length)
    | .array items => .ok (.ofNat items.length)
    | .object members => .ok (.ofNat members.length)
    | _ => .error .wrongKind
  | "join" =>
    match j, argument? "sep" with
    | .array items, none => .ok (.string ("".intercalate (items.map written)))
    | .array items, some (.string sep) =>
      .ok (.string ((String.ofList (replaceEscapes sep.toList)).intercalate (items.map written)))
    | _, _ => .error .wrongKind
  | _ => .error .unknownFilter

end Helmsman.Template
