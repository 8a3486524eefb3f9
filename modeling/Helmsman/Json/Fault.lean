import Helmsman.Json.Printer
import Helmsman.Text.Utf8
import Helmsman.Text.Debug
/-!
# What can be wrong with a JSON text

A fault of the text has a place, counted in lines and octets. A value of the wrong shape has none by itself; it takes
the place the reader has reached when the text is read in one go, and none when an already read value is examined.
-/

namespace Helmsman.Json

inductive Mismatch
  | wrongType (found : String) (expected : String)
  | wrongValue (found : String) (expected : String)
  | wrongLength (found : Nat) (expected : String)
  | unknownVariant (found : String) (variants : List String)
  | missingField (name : String)
  | duplicateField (name : String)
  | other (message : String)
  deriving Repr, DecidableEq

private def ticked (s : String) : String := "`" ++ s ++ "`"

private def oneOf : List String → String
  | [] => "there are no variants"
  | [a] => "expected " ++ ticked a
  | [a, b] => "expected " ++ ticked a ++ " or " ++ ticked b
  | names => "expected one of " ++ ", ".intercalate (names.map ticked)

def Mismatch.message : Mismatch → String
  | .wrongType found expected => "invalid type: " ++ found ++ ", expected " ++ expected
  | .wrongValue found expected => "invalid value: " ++ found ++ ", expected " ++ expected
  | .wrongLength n expected => "invalid length " ++ Decimal.ofNat n ++ ", expected " ++ expected
  | .unknownVariant found variants => "unknown variant " ++ ticked found ++ ", " ++ oneOf variants
  | .missingField name => "missing field " ++ ticked name
  | .duplicateField name => "duplicate field " ++ ticked name
  | .other message => message

/-- How a value is named where another kind of value was expected. -/
def kindText : Json → String
  | .null => "null"
  | .bool b => "boolean " ++ ticked (if b then "true" else "false")
  | .number (.int n) => "integer " ++ ticked (Decimal.ofInt n)
  | .number (.float x) => "floating point " ++ ticked (floatStyle.write x)
  | .string s => "string " ++ Text.debug s
  | .array _ => "sequence"
  | .object _ => "map"

inductive Reason
  | unfinishedList
  | unfinishedObject
  | unfinishedString
  | unfinishedValue
  | expectedColon
  | expectedListEnd
  | expectedObjectEnd
  | expectedIdent
  | expectedValue
  | invalidEscape
  | invalidNumber
  | numberOutOfRange
  | invalidCodePoint
  | controlCharacter
  | keyNotString
  | loneSurrogate
  | trailingComma
  | trailingCharacters
  | truncatedEscape
  | tooDeep
  | mismatch (m : Mismatch)
  deriving Repr, DecidableEq

def Reason.message : Reason → String
  | .unfinishedList => "EOF while parsing a list"
  | .unfinishedObject => "EOF while parsing an object"
  | .unfinishedString => "EOF while parsing a string"
  | .unfinishedValue => "EOF while parsing a value"
  | .expectedColon => "expected " ++ ticked ":"
  | .expectedListEnd => "expected " ++ ticked "," ++ " or " ++ ticked "]"
  | .expectedObjectEnd => "expected " ++ ticked "," ++ " or " ++ ticked "\x7d"
  | .expectedIdent => "expected ident"
  | .expectedValue => "expected value"
  | .invalidEscape => "invalid escape"
  | .invalidNumber => "invalid number"
  | .numberOutOfRange => "number out of range"
  | .invalidCodePoint => "invalid unicode code point"
  | .controlCharacter => "control character (\\u0000-\\u001F) found while parsing a string"
  | .keyNotString => "key must be a string"
  | .loneSurrogate => "lone leading surrogate in hex escape"
  | .trailingComma => "trailing comma"
  | .trailingCharacters => "trailing characters"
  | .truncatedEscape => "unexpected end of hex escape"
  | .tooDeep => "recursion limit exceeded"
  | .mismatch m => m.message

/-- Whether the text itself is broken, and not only the shape of the value it holds. -/
def Reason.isSyntax : Reason → Bool
  | .mismatch _ => false
  | _ => true

/-- A reason and how many octets of the text were left at its place. -/
structure Fault where
  reason : Reason
  left : Nat
  deriving Repr, DecidableEq

/-- A fault behind everything that has been read. -/
def Fault.here (reason : Reason) (rest : Octets) : Fault := ⟨reason, rest.length⟩

/-- A fault at the next octet, which counts as read when there is one. -/
def Fault.next (reason : Reason) (rest : Octets) : Fault := ⟨reason, rest.length - 1⟩

/-- The line, counted from one, and the number of octets of it in front of a place. -/
def place (consumed : Octets) : Nat × Nat :=
  consumed.foldl (fun p b => if b == 10 then (p.1 + 1, 0) else (p.1, p.2 + 1)) (1, 0)

/-- The full message for a fault in a text. -/
def Fault.message (f : Fault) (text : Octets) : String :=
  let (line, column) := place (text.take (text.length - f.left))
  f.reason.message ++ " at line " ++ Decimal.ofNat line ++ " column " ++ Decimal.ofNat column

end Helmsman.Json
