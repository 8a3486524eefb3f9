import Helmsman.Json.Basic
/-!
# Writing JSON

One spelling for each value: no blanks, members in the order of the list, and in a string only the quote, the
backslash and the control characters are escaped. A floating point number has its shortest digits, always with a
point or an exponent, so that it never reads back as a whole number.
-/

namespace Helmsman.Json

def hexDigit (n : Nat) : Char := if n < 10 then Char.ofNat (48 + n) else Char.ofNat (87 + n)

def escape (c : Char) : List Char :=
  match c with
  | '"' => ['\\', '"']
  | '\\' => ['\\', '\\']
  | '\n' => ['\\', 'n']
  | '\r' => ['\\', 'r']
  | '\t' => ['\\', 't']
  | '\x08' => ['\\', 'b']
  | '\x0c' => ['\\', 'f']
  | c => if c.toNat < 0x20 then ['\\', 'u', '0', '0', hexDigit (c.toNat / 16), hexDigit (c.toNat % 16)] else [c]

def quote (s : String) : List Char := '"' :: s.toList.flatMap escape ++ ['"']

/-- Floating point numbers are written in place from 10^-5 up to below 10^16. -/
def floatStyle : DecimalStyle := ⟨-5, 15, true, true, 2, "null", "null"⟩

def numberText : Number → String
  | .int n => Decimal.ofInt n
  | .float x => floatStyle.write x

mutual

def chars : Json → List Char
  | .null => ['n', 'u', 'l', 'l']
  | .bool true => ['t', 'r', 'u', 'e']
  | .bool false => ['f', 'a', 'l', 's', 'e']
  | .number n => (numberText n).toList
  | .string s => quote s
  | .array [] => ['[', ']']
  | .array (j :: rest) => '[' :: chars j ++ itemChars rest
  | .object [] => ['\x7b', '\x7d']
  | .object ((k, j) :: rest) => '\x7b' :: quote k ++ ':' :: chars j ++ memberChars rest

def itemChars : List Json → List Char
  | [] => [']']
  | j :: rest => ',' :: chars j ++ itemChars rest

def memberChars : List (String × Json) → List Char
  | [] => ['\x7d']
  | (k, j) :: rest => ',' :: quote k ++ ':' :: chars j ++ memberChars rest

end

def render (j : Json) : String := String.ofList j.chars

example : render (ofMembers [("b", ofInt 1), ("a", .array [.null, .bool true])])
    = "\x7b\"a\":[null,true],\"b\":1\x7d" := by cbv

end Helmsman.Json
