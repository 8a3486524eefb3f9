import Helmsman.Text.Utf8
/-!
# Percent encoding

A character that a place in an address has no room for is written as the octets of its UTF-8 form, each as a percent
sign and two hexadecimal digits. What is not ASCII is always written that way.
-/

namespace Helmsman.Percent

def hexDigit (n : Nat) : Char := if n < 10 then Char.ofNat (0x30 + n) else Char.ofNat (0x41 + n - 10)

def hexDigitValue? (b : UInt8) : Option Nat :=
  let n := b.toNat
  if 0x30 ≤ n ∧ n ≤ 0x39 then some (n - 0x30)
  else if 0x41 ≤ n ∧ n ≤ 0x46 then some (n - 0x41 + 10)
  else if 0x61 ≤ n ∧ n ≤ 0x66 then some (n - 0x61 + 10)
  else none

def encodeOctet (b : UInt8) : List Char := ['%', hexDigit (b.toNat / 16), hexDigit (b.toNat % 16)]

/-- A control character, or none of ASCII. -/
def isControl (c : Char) : Bool := c.toNat < 0x20 || 0x7f ≤ c.toNat

/-- Encodes the control characters and those of a set. -/
def encodeChar (set : List Char) (c : Char) : List Char :=
  if isControl c || set.contains c then (String.utf8EncodeChar c).flatMap encodeOctet else [c]

def encode (set : List Char) (cs : List Char) : List Char := cs.flatMap (encodeChar set)

/-- The octet that three octets stand for. -/
def escaped? (sign high low : UInt8) : Option UInt8 :=
  if sign == 0x25 then do
    let h ← hexDigitValue? high
    let l ← hexDigitValue? low
    some (UInt8.ofNat (16 * h + l))
  else none

/-- A percent sign that is not followed by two digits stands for itself. -/
def decode : Octets → Octets
  | a :: b :: c :: rest =>
    match escaped? a b c with
    | some octet => octet :: decode rest
    | none => a :: decode (b :: c :: rest)
  | short => short

end Helmsman.Percent
