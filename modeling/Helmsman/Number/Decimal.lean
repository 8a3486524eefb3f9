import Helmsman.Number.Binary64
/-!
# Decimal digits

Whole numbers as digits, and the decimal spelling of a floating point number: sign, digits with at most one point,
and an exponent, each of them optional as long as one digit is there. Underscores, other bases and a bare point are
no numbers. Infinity and the value that is no number have spellings too, in any case.
-/

namespace Helmsman.Decimal

def isDigit (c : Char) : Bool := '0' ≤ c && c ≤ '9'

def digitValue (c : Char) : Nat := c.toNat - '0'.toNat

def digitsValue (cs : List Char) : Nat := cs.foldl (fun n c => 10 * n + digitValue c) 0

def ofNat (n : Nat) : String := String.ofList (Nat.toDigits 10 n)

def ofInt (n : Int) : String := if n < 0 then "-" ++ ofNat n.natAbs else ofNat n.natAbs

/-- Digits of fixed width, with zeros in front. -/
def padded (width n : Nat) : String :=
  let digits := Nat.toDigits 10 n
  String.ofList (List.replicate (width - digits.length) '0' ++ digits)

/-- A sign in front, which only a minus turns. -/
def splitSign : List Char → Bool × List Char
  | '-' :: cs => (true, cs)
  | '+' :: cs => (false, cs)
  | cs => (false, cs)

/-- A whole number between two bounds: digits with an optional sign, nothing else. -/
def readInt? (low high : Int) (s : String) : Option Int :=
  let (negative, digits) := splitSign s.toList
  if digits.isEmpty || !digits.all isDigit then none
  else
    let n : Int := digitsValue digits
    let n := if negative then -n else n
    if low ≤ n ∧ n ≤ high then some n else none

/-- A whole number that has no minus sign, up to a bound. -/
def readNat? (high : Nat) (s : String) : Option Nat :=
  let digits := match s.toList with
    | '+' :: cs => cs
    | cs => cs
  if digits.isEmpty || !digits.all isDigit then none
  else if digitsValue digits ≤ high then some (digitsValue digits) else none

structure Scientific where
  significand : Nat
  exponent : Int
  deriving Repr, DecidableEq

/-- An exponent whose digits may be missing only together with its mark. -/
def readExponent? : List Char → Option Int
  | [] => some 0
  | c :: cs =>
    if c = 'e' ∨ c = 'E' then
      let (negative, digits) := splitSign cs
      if digits.isEmpty || !digits.all isDigit then none
      else some (if negative then -(digitsValue digits : Int) else digitsValue digits)
    else none

def readScientific? (cs : List Char) : Option Scientific :=
  let whole := cs.takeWhile isDigit
  let rest := cs.dropWhile isDigit
  let (places, rest) := match rest with
    | '.' :: r => (r.takeWhile isDigit, r.dropWhile isDigit)
    | r => ([], r)
  if whole.isEmpty && places.isEmpty then none
  else (readExponent? rest).map fun e => ⟨digitsValue (whole ++ places), e - places.length⟩

/-- The nearest floating point value. An exponent far out of reach is decided by the number of digits alone, so that
no power of that size is ever built. -/
def Scientific.toBinary64 (negative : Bool) (d : Scientific) : Binary64 :=
  let size : Int := (d.significand.log2 : Int) / 3 + 2
  if d.significand = 0 then .zero negative
  else if 400 < d.exponent then .infinite negative
  else if d.exponent + size < -400 then .zero negative
  else .ofDecimal negative d.significand d.exponent

def readBinary64? (s : String) : Option Binary64 :=
  let (negative, cs) := splitSign s.toList
  match String.ofList (cs.map Char.toLower) with
  | "inf" | "infinity" => some (.infinite negative)
  | "nan" => some .nan
  | _ => (readScientific? cs).map (·.toBinary64 negative)

end Helmsman.Decimal
