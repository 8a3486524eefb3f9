import Helmsman.Json.Fault
/-!
# The smallest pieces of a JSON text

Blanks, words, strings and numbers, each read off the front of the octets. A string is read by a machine that looks at
one octet at a time, so that its recursion is the list's own. A number keeps as many digits as fit in 64 bits; what is
beyond them only moves the power of ten, and the product with that power is rounded once more.
-/

namespace Helmsman.Json

/-- A value read from the front of the octets, and what follows it. -/
abbrev Reading (α : Type) := Except Fault (α × Octets)

def isSpace (b : UInt8) : Bool := b == 0x20 || b == 0x0A || b == 0x0D || b == 0x09

def skipSpace (bs : Octets) : Octets := bs.dropWhile isSpace

/-- The letters of a word whose first letter has been read. -/
def word : List UInt8 → Octets → Except Fault Octets
  | [], bs => .ok bs
  | _ :: _, [] => .error (.here .unfinishedValue [])
  | l :: ls, b :: bs => if b == l then word ls bs else .error (.here .expectedIdent bs)

def wordUll : List UInt8 := [0x75, 0x6C, 0x6C]
def wordRue : List UInt8 := [0x72, 0x75, 0x65]
def wordAlse : List UInt8 := [0x61, 0x6C, 0x73, 0x65]

/-! ### Strings -/

/-- Where the reader stands inside a string. Four hexadecimal digits are judged together, once all are read. -/
inductive Escape
  | outside
  | slash
  | hex (high : Option Nat) (digits : List UInt8)
  | secondSlash (high : Nat)
  | secondMark (high : Nat)
  deriving Repr, DecidableEq

def hexValue? (b : UInt8) : Option Nat :=
  let n := b.toNat
  if 0x30 ≤ n ∧ n ≤ 0x39 then some (n - 0x30)
  else if 0x41 ≤ n ∧ n ≤ 0x46 then some (n - 0x37)
  else if 0x61 ≤ n ∧ n ≤ 0x66 then some (n - 0x57)
  else none

def hexNumber? : List UInt8 → Option Nat
  | [] => some 0
  | b :: bs =>
    match hexValue? b, hexNumber? bs with
    | some d, some n => some (16 * n + d)
    | _, _ => none

def shortEscape? (b : UInt8) : Option UInt8 :=
  if b == 0x22 || b == 0x5C || b == 0x2F then some b
  else if b == 0x62 then some 0x08
  else if b == 0x66 then some 0x0C
  else if b == 0x6E then some 0x0A
  else if b == 0x72 then some 0x0D
  else if b == 0x74 then some 0x09
  else none

def isHigh (n : Nat) : Bool := 0xD800 ≤ n && n ≤ 0xDBFF
def isLow (n : Nat) : Bool := 0xDC00 ≤ n && n ≤ 0xDFFF

/-- A character put in front of octets that are kept in reverse. -/
def pushCode (n : Nat) (read : Octets) : Octets := (String.utf8EncodeChar (Char.ofNat n)).reverse ++ read

/-- The octets of a string up to its closing quote, in reverse. -/
def stringFrom (read : Octets) : Escape → Octets → Reading Octets
  | _, [] => .error (.here .unfinishedString [])
  | .outside, b :: bs =>
    if b == 0x22 then .ok (read, bs)
    else if b == 0x5C then stringFrom read .slash bs
    else if b < 0x20 then .error (.here .controlCharacter bs)
    else stringFrom (b :: read) .outside bs
  | .slash, b :: bs =>
    match shortEscape? b with
    | some c => stringFrom (c :: read) .outside bs
    | none =>
      if b == 0x75 then stringFrom read (.hex none []) bs else .error (.here .invalidEscape bs)
  | .hex high digits, b :: bs =>
    if digits.length < 3 then stringFrom read (.hex high (b :: digits)) bs
    else
      match hexNumber? (b :: digits), high with
      | none, _ => .error (.here .invalidEscape bs)
      | some n, none =>
        if isLow n then .error (.here .loneSurrogate bs)
        else if isHigh n then stringFrom read (.secondSlash n) bs
        else stringFrom (pushCode n read) .outside bs
      | some n, some h =>
        if isLow n then stringFrom (pushCode ((h - 0xD800) * 0x400 + (n - 0xDC00) + 0x10000) read) .outside bs
        else .error (.here .loneSurrogate bs)
  | .secondSlash h, b :: bs =>
    if b == 0x5C then stringFrom read (.secondMark h) bs else .error (.here .truncatedEscape bs)
  | .secondMark h, b :: bs =>
    if b == 0x75 then stringFrom read (.hex (some h) []) bs else .error (.here .truncatedEscape bs)

def scanString (bs : Octets) : Reading String :=
  match stringFrom [] .outside bs with
  | .error f => .error f
  | .ok (read, rest) =>
    match Utf8.decode? read.reverse with
    | some s => .ok (s, rest)
    | none => .error (.here .invalidCodePoint rest)

/-- A string that nobody asks for: its escapes must be spelled well, and what they stand for does not matter. -/
def skipStringFrom : Escape → Octets → Except Fault Octets
  | _, [] => .error (.here .unfinishedString [])
  | .slash, b :: bs =>
    if (shortEscape? b).isSome then skipStringFrom .outside bs
    else if b == 0x75 then skipStringFrom (.hex none []) bs
    else .error (.here .invalidEscape bs)
  | .hex high digits, b :: bs =>
    if digits.length < 3 then skipStringFrom (.hex high (b :: digits)) bs
    else if (hexNumber? (b :: digits)).isSome then skipStringFrom .outside bs
    else .error (.here .invalidEscape bs)
  | _, b :: bs =>
    if b == 0x22 then .ok bs
    else if b == 0x5C then skipStringFrom .slash bs
    else if b < 0x20 then .error (.here .controlCharacter (b :: bs))
    else skipStringFrom .outside bs

def skipString (bs : Octets) : Except Fault Octets := skipStringFrom .outside bs

/-! ### Numbers -/

def isDigit (b : UInt8) : Bool := 0x30 ≤ b && b ≤ 0x39

def digitValue (b : UInt8) : Nat := b.toNat - 0x30

def greatestSignificand : Nat := Word.unsigned64

def greatestExponent : Nat := 2147483647

/-- Digits taken into a significand as long as it stays within 64 bits, and how many they were. -/
def significand (sig count : Nat) : Octets → Nat × Nat × Octets
  | [] => (sig, count, [])
  | b :: bs =>
    if isDigit b && sig * 10 + digitValue b ≤ greatestSignificand then
      significand (sig * 10 + digitValue b) (count + 1) bs
    else (sig, count, b :: bs)

def startsWithDigit : Octets → Bool
  | [] => false
  | b :: _ => isDigit b

def skipDigits (bs : Octets) : Octets := bs.dropWhile isDigit

def isExponentMark (b : UInt8) : Bool := b == 0x65 || b == 0x45

/-- The greatest power of ten that one step can divide by or multiply with. -/
def powerStep : Nat := 308

/-- A division by a large power of ten goes in steps, each rounded. Two steps leave nothing of any significand. -/
def scaleDown : Nat → Binary64 → Nat → Binary64
  | 0, f, _ => f
  | steps + 1, f, power =>
    if power ≤ powerStep then f.div (.ofNat (tenTo power))
    else if f.isZero then f
    else scaleDown steps (f.div (.ofNat (tenTo powerStep))) (power - powerStep)

def floatFrom (negative : Bool) (sig : Nat) (exponent : Int) (rest : Octets) : Reading Number :=
  let sign (f : Binary64) : Number := .float (if negative then f.neg else f)
  let f := Binary64.ofNat sig
  if exponent < 0 then .ok (sign (scaleDown 4 f exponent.natAbs), rest)
  else if powerStep < exponent then
    if f.isZero then .ok (sign f, rest) else .error (.here .numberOutOfRange rest)
  else
    let product := f.mul (.ofNat (tenTo exponent.natAbs))
    if product.isInfinite then .error (.here .numberOutOfRange rest) else .ok (sign product, rest)

/-- Digits of an exponent; reading stops behind the digit that no longer fits, with `none`. -/
def exponentDigits (e : Nat) : Octets → Option Nat × Octets
  | [] => (some e, [])
  | b :: bs =>
    if isDigit b then
      if e * 10 + digitValue b ≤ greatestExponent then exponentDigits (e * 10 + digitValue b) bs else (none, bs)
    else (some e, b :: bs)

/-- Exponents stop at the bounds of 32 bits. -/
def saturate (e : Int) : Int := max (-(greatestExponent : Int) - 1) (min e greatestExponent)

/-- A number from behind the mark of its exponent on. -/
def exponentFrom (negative : Bool) (sig : Nat) (start : Int) (bs : Octets) : Reading Number :=
  let (down, bs) := match bs with
    | 0x2D :: bs => (true, bs)
    | 0x2B :: bs => (false, bs)
    | bs => (false, bs)
  match bs with
  | [] => .error (.here .unfinishedValue [])
  | b :: bs =>
    if isDigit b then
      match exponentDigits (digitValue b) bs with
      | (some e, rest) => floatFrom negative sig (saturate (if down then start - e else start + e)) rest
      | (none, rest) =>
        if sig ≠ 0 ∧ !down then .error (.here .numberOutOfRange rest)
        else .ok (.float (.zero negative), skipDigits rest)
    else .error (.here .invalidNumber bs)

/-- A number from behind its digits on: an exponent may follow. -/
def afterDigits (negative : Bool) (sig : Nat) (exponent : Int) (bs : Octets) : Reading Number :=
  match bs with
  | b :: rest =>
    if isExponentMark b then exponentFrom negative sig exponent rest else floatFrom negative sig exponent bs
  | [] => floatFrom negative sig exponent []

/-- A number from behind its point on. -/
def placesFrom (negative : Bool) (sig : Nat) (exponent : Int) (bs : Octets) : Reading Number :=
  let (sig, count, rest) := significand sig 0 bs
  if startsWithDigit rest then afterDigits negative sig (exponent - count) (skipDigits rest)
  else if count = 0 then
    match rest with
    | [] => .error (.next .unfinishedValue [])
    | _ => .error (.next .invalidNumber rest)
  else afterDigits negative sig (exponent - count) rest

/-- The whole number, unless it is too small for 64 bits or a zero with a sign. -/
def wholeNumber (negative : Bool) (sig : Nat) : Number :=
  if !negative then .int sig
  else if 0 < sig ∧ sig ≤ 9223372036854775808 then .int (-(sig : Int))
  else .float (Binary64.ofNat sig).neg

/-- A number whose whole digits gave `sig`, the last `exponent` of them not counted in. -/
def afterWhole (negative : Bool) (sig exponent : Nat) (long : Bool) (bs : Octets) : Reading Number :=
  match bs with
  | [] => if long then floatFrom negative sig exponent [] else .ok (wholeNumber negative sig, [])
  | b :: rest =>
    if b == 0x2E then placesFrom negative sig exponent rest
    else if isExponentMark b then exponentFrom negative sig exponent rest
    else if long then floatFrom negative sig exponent bs
    else .ok (wholeNumber negative sig, bs)

/-- A number whose minus sign, if any, has been read. -/
def scanNumber (negative : Bool) (bs : Octets) : Reading Number :=
  match bs with
  | [] => .error (.here .unfinishedValue [])
  | b :: rest =>
    if b == 0x30 then
      if startsWithDigit rest then .error (.next .invalidNumber rest) else afterWhole negative 0 0 false rest
    else if isDigit b then
      let (sig, _, rest) := significand (digitValue b) 1 rest
      let more := rest.takeWhile isDigit
      afterWhole negative sig more.length (!more.isEmpty) (skipDigits rest)
    else .error (.here .invalidNumber rest)

/-- The exponent of a number that nobody asks for. -/
def skipExponent (bs : Octets) : Except Fault Octets :=
  let bs := match bs with
    | 0x2D :: bs => bs
    | 0x2B :: bs => bs
    | bs => bs
  match bs with
  | [] => .error (.here .invalidNumber [])
  | b :: bs => if isDigit b then .ok (skipDigits bs) else .error (.here .invalidNumber bs)

/-- A number that nobody asks for: its size does not matter. -/
def skipNumber (bs : Octets) : Except Fault Octets :=
  let after (bs : Octets) : Except Fault Octets :=
    match bs with
    | [] => .ok []
    | b :: rest => if isExponentMark b then skipExponent rest else .ok bs
  let whole : Except Fault Octets :=
    match bs with
    | [] => .error (.here .invalidNumber [])
    | b :: rest =>
      if b == 0x30 then if startsWithDigit rest then .error (.next .invalidNumber rest) else .ok rest
      else if isDigit b then .ok (skipDigits rest)
      else .error (.here .invalidNumber rest)
  whole.bind fun rest =>
    match rest with
    | 0x2E :: places =>
      if startsWithDigit places then after (skipDigits places) else .error (.next .invalidNumber places)
    | _ => after rest

end Helmsman.Json
