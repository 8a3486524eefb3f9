/-!
# UTF-8, written and read

A text is written as octets by `encode`. Reading goes through one machine, `scan`, which turns any octets into
characters and, where no character can be read, one gap for each longest piece that still was the start of one. The
two readers differ only in what they do with a gap: `decode?` refuses the octets, `decodeLossy` puts the replacement
character there. Since the machine takes one octet at a time, the cut of the octets into pieces cannot matter.
-/

namespace Helmsman

/-- Raw octets, as they come from a network or a file. -/
abbrev Octets := List UInt8

namespace Utf8

def encode (s : String) : Octets := s.toList.flatMap String.utf8EncodeChar

/-- A character whose first octets are read: how many octets follow the next one, the bounds of the next one, and
the bits collected so far. -/
structure Pending where
  owed : Nat
  low : Nat
  high : Nat
  bits : Nat
  deriving Repr, DecidableEq

/-- What an octet is at the start of a character. -/
inductive Lead
  | whole (c : Char)
  | opening (p : Pending)
  | never
  deriving Repr, DecidableEq

/-- The bounds on the second octet keep out overlong forms, surrogates and values above the last character. -/
def lead (b : Nat) : Lead :=
  if b < 0x80 then .whole (Char.ofNat b)
  else if b < 0xC2 then .never
  else if b < 0xE0 then .opening ⟨0, 0x80, 0xBF, b - 0xC0⟩
  else if b = 0xE0 then .opening ⟨1, 0xA0, 0xBF, 0⟩
  else if b = 0xED then .opening ⟨1, 0x80, 0x9F, 0xD⟩
  else if b < 0xF0 then .opening ⟨1, 0x80, 0xBF, b - 0xE0⟩
  else if b = 0xF0 then .opening ⟨2, 0x90, 0xBF, 0⟩
  else if b < 0xF4 then .opening ⟨2, 0x80, 0xBF, b - 0xF0⟩
  else if b = 0xF4 then .opening ⟨2, 0x80, 0x8F, 4⟩
  else .never

/-- Everything read so far, latest first, and the character that is still open. -/
structure State where
  read : List (Option Char) := []
  pending : Option Pending := none
  deriving Repr, DecidableEq

def State.open (s : List (Option Char)) (b : Nat) : State :=
  match lead b with
  | .whole c => ⟨some c :: s, none⟩
  | .opening p => ⟨s, some p⟩
  | .never => ⟨none :: s, none⟩

def State.step (s : State) (octet : UInt8) : State :=
  let b := octet.toNat
  match s.pending with
  | none => State.open s.read b
  | some p =>
    if p.low ≤ b ∧ b ≤ p.high then
      let bits := p.bits * 64 + (b - 0x80)
      match p.owed with
      | 0 => ⟨some (Char.ofNat bits) :: s.read, none⟩
      | n + 1 => ⟨s.read, some ⟨n, 0x80, 0xBF, bits⟩⟩
    else State.open (none :: s.read) b

/-- A character that the octets leave open is a gap too. -/
def State.close (s : State) : List (Option Char) :=
  (match s.pending with
    | none => s.read
    | some _ => none :: s.read).reverse

/-- The characters of the octets in order, `none` for each longest piece that begins no character. -/
def scan (octets : Octets) : List (Option Char) := (octets.foldl State.step ⟨[], none⟩).close

/-- The text of well-formed octets. -/
def decode? (octets : Octets) : Option String := ((scan octets).mapM id).map String.ofList

/-- The text of any octets, with a replacement character for each gap. -/
def decodeLossy (octets : Octets) : String := String.ofList ((scan octets).map fun c => c.getD '\ufffd')

def size (s : String) : Nat := s.utf8ByteSize

end Utf8

end Helmsman
