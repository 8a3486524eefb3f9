import Helmsman.Text.Utf8
/-!
# Media types

The type and the subtype of a media type are names with a slash between them, and parameters may follow. A document is
JSON if its type is `application` and the last part of its subtype says so.
-/

namespace Helmsman

structure MediaType where
  type : String
  subtype : String
  deriving Repr, DecidableEq

namespace MediaType

def isTokenChar (c : Char) : Bool := c.isAlphanum || "!#$%&'*+-.^_|~".toList.contains c || c == Char.ofNat 0x60

/-- The rest of the parameters behind the value of one. -/
def value (quoted : Bool) : List Char → Option (List Char)
  | [] => if quoted then none else some []
  | c :: rest =>
    if quoted then if c == '"' then some (rest.drop 1) else value true rest
    else if c == ';' then some rest
    else if isTokenChar c then value false rest
    else none

/-- Whether a text is made up of parameters, each after a semicolon. -/
def areParameters : Nat → List Char → Bool
  | _, [] => true
  | 0, _ => false
  | steps + 1, cs =>
    match cs with
    | ' ' :: rest => areParameters steps rest
    | _ =>
      let (name, rest) := cs.span isTokenChar
      match name.isEmpty, rest with
      | false, '=' :: '"' :: rest => (value true rest).any (areParameters steps)
      | false, '=' :: c :: rest => c != ';' && (value false (c :: rest)).any (areParameters steps)
      | false, ['='] => true
      | _, _ => false

/-- The media type in a text, if there is nothing wrong with it. -/
def ofText? (s : String) : Option MediaType :=
  let (type, rest) := s.toList.span isTokenChar
  match type.isEmpty, rest with
  | false, '/' :: rest =>
    let (subtype, rest) := rest.span isTokenChar
    let fits := match rest with
      | [] => true
      | c :: parameters =>
        !subtype.isEmpty && (c == ';' || c == ' ') && areParameters (parameters.length + 1) parameters
    if fits then some ⟨(String.ofList type).toLower, (String.ofList subtype).toLower⟩ else none
  | _, _ => none

/-- The parts of a subtype before and behind its last plus sign, which is never its first character. -/
def parts (m : MediaType) : List String :=
  let (suffix, front) := m.subtype.toList.reverse.span (· != '+')
  if 1 < front.length then [String.ofList front.tail.reverse, String.ofList suffix.reverse] else [m.subtype]

def isJson (m : MediaType) : Bool := m.type == "application" && m.parts.contains "json"

end MediaType

end Helmsman
