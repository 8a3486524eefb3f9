import Helmsman.Number.Word
/-!
# Binary floating point, exactly

A number of sixty-four bits is a sign, a whole mantissa below 2^53 and a power of two, so every operation is a whole
number computation followed by one rounding. The only place that rounds is `ofRatio`, to the nearest value and to the
even mantissa in a tie; products, quotients, sums and decimals all reach it with the exact result.
-/

namespace Helmsman

/-- The value is ±mantissa · 2^exponent. The mantissa is below 2^53 and the exponent at least -1074. -/
inductive Binary64
  | finite (negative : Bool) (mantissa : Nat) (exponent : Int)
  | infinite (negative : Bool)
  | nan
  deriving Repr, DecidableEq, Inhabited

namespace Binary64

/-- The least significand of a number that is not very small. -/
def leastNormal : Nat := 4503599627370496

def leastExponent : Int := -1074
def greatestExponent : Int := 971

def zero (negative : Bool) : Binary64 := .finite negative 0 leastExponent

/-- The quotient rounded to the nearest whole number, a tie to the even one. -/
def roundDiv (num den : Nat) : Nat :=
  let q := num / den
  let r := num % den
  if 2 * r < den then q else if den < 2 * r then q + 1 else q + q % 2

/-- `num / den` in units of 2^exponent, rounded. -/
def scaled (num den : Nat) (exponent : Int) : Nat :=
  if 0 ≤ exponent then roundDiv num (den <<< exponent.toNat) else roundDiv (num <<< (-exponent).toNat) den

/-- `num / den` in units of 2^exponent, rounded down. -/
def scaledFloor (num den : Nat) (exponent : Int) : Nat :=
  if 0 ≤ exponent then num / (den <<< exponent.toNat) else (num <<< (-exponent).toNat) / den

/-- The value nearest to ±num / den. -/
def ofRatio (negative : Bool) (num den : Nat) : Binary64 :=
  if num = 0 then zero negative
  else
    let guess : Int := (num.log2 : Int) - den.log2 - 52
    let exponent := if leastNormal ≤ scaledFloor num den guess then guess else guess - 1
    let exponent := max exponent leastExponent
    let m := scaled num den exponent
    let (m, exponent) := if m = 2 * leastNormal then (leastNormal, exponent + 1) else (m, exponent)
    if greatestExponent < exponent then .infinite negative else .finite negative m exponent

/-- The value nearest to ±num / den · 2^shift. -/
def ofScaledRatio (negative : Bool) (num den : Nat) (shift : Int) : Binary64 :=
  if 0 ≤ shift then ofRatio negative (num <<< shift.toNat) den
  else ofRatio negative num (den <<< (-shift).toNat)

def ofNat (n : Nat) : Binary64 := ofRatio false n 1
def ofInt (n : Int) : Binary64 := ofRatio (decide (n < 0)) n.natAbs 1

/-- The value nearest to ±significand · 10^exponent. -/
def ofDecimal (negative : Bool) (significand : Nat) (exponent : Int) : Binary64 :=
  if 0 ≤ exponent then ofRatio negative (significand * tenTo exponent.toNat) 1
  else ofRatio negative significand (tenTo (-exponent).toNat)

def neg : Binary64 → Binary64
  | .finite s m e => .finite (!s) m e
  | .infinite s => .infinite (!s)
  | .nan => .nan

def isFinite : Binary64 → Bool
  | .finite .. => true
  | _ => false

def isInfinite : Binary64 → Bool
  | .infinite _ => true
  | _ => false

def isNaN : Binary64 → Bool
  | .nan => true
  | _ => false

def isZero : Binary64 → Bool
  | .finite _ m _ => m == 0
  | _ => false

def mul : Binary64 → Binary64 → Binary64
  | .finite s m e, .finite t n f => ofScaledRatio (s ^^ t) (m * n) 1 (e + f)
  | .finite s m _, .infinite t => if m = 0 then .nan else .infinite (s ^^ t)
  | .infinite s, .finite t n _ => if n = 0 then .nan else .infinite (s ^^ t)
  | .infinite s, .infinite t => .infinite (s ^^ t)
  | _, _ => .nan

def div : Binary64 → Binary64 → Binary64
  | .finite s m e, .finite t n f =>
    if n = 0 then (if m = 0 then .nan else .infinite (s ^^ t)) else ofScaledRatio (s ^^ t) m n (e - f)
  | .finite s _ _, .infinite t => zero (s ^^ t)
  | .infinite s, .finite t _ _ => .infinite (s ^^ t)
  | _, _ => .nan

/-- The whole number of units of 2^exponent in a finite value whose own exponent is no less. -/
private def units (negative : Bool) (mantissa : Nat) (own exponent : Int) : Int :=
  let n : Int := (mantissa <<< (own - exponent).toNat : Nat)
  if negative then -n else n

def add : Binary64 → Binary64 → Binary64
  | .finite s m e, .finite t n f =>
    let least := min e f
    let sum := units s m e least + units t n f least
    if sum = 0 then zero (s && t) else ofScaledRatio (decide (sum < 0)) sum.natAbs 1 least
  | .finite .., .infinite t => .infinite t
  | .infinite s, .finite .. => .infinite s
  | .infinite s, .infinite t => if s = t then .infinite s else .nan
  | _, _ => .nan

/-- What a division toward zero leaves, with the sign of the dividend. It is always exact. -/
def rem : Binary64 → Binary64 → Binary64
  | .finite s m e, .finite t n f =>
    let least := min e f
    let divisor := units t n f least
    if divisor = 0 then .nan
    else
      let left := (units s m e least).tmod divisor
      if left = 0 then zero s else ofScaledRatio s left.natAbs 1 least
  | .finite s m e, .infinite _ => .finite s m e
  | _, _ => .nan

/-- Numbers compare by value; nothing compares with what is not a number. -/
def compare? : Binary64 → Binary64 → Option Ordering
  | .finite s m e, .finite t n f =>
    let least := min e f
    some (compare (units s m e least) (units t n f least))
  | .finite .., .infinite t => some (if t then .gt else .lt)
  | .infinite s, .finite .. => some (if s then .lt else .gt)
  | .infinite s, .infinite t => some (if s = t then .eq else if s then .lt else .gt)
  | _, _ => none

/-- The whole part, toward zero. Only finite values have one. -/
def trunc? : Binary64 → Option Int
  | .finite s m e =>
    let n : Nat := if 0 ≤ e then m <<< e.toNat else m >>> (-e).toNat
    some (if s then -(n : Int) else n)
  | _ => none

/-- The nearest whole number, a half away from zero. Only finite values have one. -/
def round? : Binary64 → Option Int
  | .finite s m e =>
    let n : Nat := if 0 ≤ e then m <<< e.toNat else (m + (1 <<< ((-e).toNat - 1))) >>> (-e).toNat
    some (if s then -(n : Int) else n)
  | _ => none

example : ofNat (2 * leastNormal + 1) = .finite false leastNormal 1 := by decide +kernel
example : ofDecimal false 1 (-1) = .finite false 7205759403792794 (-56) := by decide +kernel
example : ofDecimal false 5 (-324) = .finite false 1 (-1074) := by decide +kernel
example : ofDecimal false 18 308 = .infinite false := by decide +kernel
example : ofDecimal true 0 7 = zero true := by decide +kernel

end Binary64

end Helmsman
