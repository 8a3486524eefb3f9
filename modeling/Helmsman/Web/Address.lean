import Helmsman.Number.Decimal
/-!
# Addresses of the network

An address is four octets or eight words of sixteen bits. Octets are written in decimal with dots between them, words in
hexadecimal with colons, and the longest run of at least two words that are zero is left out. The last two words may
also be written as four octets.
-/

namespace Helmsman

inductive Address
  | octets (four : List Nat)
  | words (eight : List Nat)
  deriving Repr, DecidableEq, Inhabited

namespace Address

/-- The parts between separators, which are never none. -/
def split (separates : Char → Bool) : List Char → List (List Char)
  | [] => [[]]
  | c :: rest =>
    if separates c then [] :: split separates rest
    else
      match split separates rest with
      | first :: more => (c :: first) :: more
      | [] => [[c]]

def octetsText (four : List Nat) : String := ".".intercalate (four.map Decimal.ofNat)

def wordText (n : Nat) : String := String.ofList (Nat.toDigits 16 n)

/-- How many words from the first one on are zero. -/
def zeros (words : List Nat) : Nat := (words.takeWhile (· == 0)).length

/-- Where the longest run of zeros begins, the first of several, and its length. -/
def longestZeros (words : List Nat) : Nat × Nat :=
  (List.range words.length).foldl (fun best place =>
    let run := zeros (words.drop place)
    if best.2 < run then (place, run) else best) (0, 0)

def colons (words : List Nat) : String := ":".intercalate (words.map wordText)

def wordsText (words : List Nat) : String :=
  let (place, run) := longestZeros words
  if 1 < run then colons (words.take place) ++ "::" ++ colons (words.drop (place + run)) else colons words

/-- Words whose last two stand for octets are shown with the octets. -/
def shownWords : List Nat → String
  | [0, 0, 0, 0, 0, 65535, high, low] => "::ffff:" ++ octetsText [high / 256, high % 256, low / 256, low % 256]
  | eight => wordsText eight

def readOctet? (cs : List Char) : Option Nat :=
  if cs.isEmpty || 3 < cs.length || !cs.all Decimal.isDigit || (cs.head? == some '0' && 1 < cs.length) then none
  else
    let n := Decimal.digitsValue cs
    if n < 256 then some n else none

/-- Four octets without leading zeros. -/
def readOctets? (cs : List Char) : Option (List Nat) :=
  let parts := split (· == '.') cs
  if parts.length = 4 then parts.mapM readOctet? else none

def hexValue? (c : Char) : Option Nat :=
  if Decimal.isDigit c then some (Decimal.digitValue c)
  else if 'a' ≤ c && c ≤ 'f' then some (c.toNat - 'a'.toNat + 10)
  else if 'A' ≤ c && c ≤ 'F' then some (c.toNat - 'A'.toNat + 10)
  else none

def readWord? (cs : List Char) : Option Nat :=
  if cs.isEmpty || 4 < cs.length then none else (cs.mapM hexValue?).map (List.foldl (fun n d => 16 * n + d) 0)

/-- Words with colons between them, of which the last may be two words written as octets. -/
def readWords? (octetsAllowed : Bool) (cs : List Char) : Option (List Nat) :=
  if cs.isEmpty then some []
  else
    let parts := split (· == ':') cs
    match parts.getLast? with
    | none => none
    | some last =>
      if octetsAllowed && last.contains '.' then do
        let front ← parts.dropLast.mapM readWord?
        match ← readOctets? last with
        | [a, b, c, d] => some (front ++ [256 * a + b, 256 * c + d])
        | _ => none
      else parts.mapM readWord?

def cutAtPair : List Char → Option (List Char × List Char)
  | ':' :: ':' :: rest => some ([], rest)
  | c :: rest => (cutAtPair rest).map fun (front, back) => (c :: front, back)
  | [] => none

/-- Eight words, of which one run of zeros may be left out. -/
def readEight? (cs : List Char) : Option (List Nat) :=
  match cutAtPair cs with
  | none => (readWords? true cs).filter fun words => words.length = 8
  | some (front, back) => do
    let front ← readWords? false front
    let back ← readWords? true back
    if front.length + back.length < 8 then
      some (front ++ List.replicate (8 - front.length - back.length) 0 ++ back)
    else none

end Address

end Helmsman
