import Helmsman.Json.Reader
/-!
# The shape of a document

A shape says which JSON values a document may be: what its fields are called, which of them have to be there, and what
a field that is not there counts as. There are two readers for one shape. `check` examines a value that is already in
memory. `readText` reads a text and never builds what the shape has no place for, so that fields nobody asks for are
only skipped, a field given twice is noticed, and the first fault in the order of the text is the one reported.

Both give the value back in normal form: of an object exactly the known fields, in the shape's order and with their
fallbacks filled in. A record may also be written as an array of its fields in order.
-/

namespace Helmsman.Json

/-- What a field that is not there counts as. An optional field counts as `null` in an object only. -/
inductive Need
  | required
  | optional
  | fallback (value : Json)
  deriving Repr, Inhabited

structure Field (σ : Type) where
  name : String
  need : Need
  nullable : Bool
  shape : σ

inductive Shape
  | text
  | flag
  | integer (low high : Int) (name : String)
  /-- A text with a syntax of its own; `fault` names what is wrong with one. -/
  | spelled (expected : String) (fault : String → Option String)
  | choice (variants : List String)
  | list (item : Shape)
  /-- Any keys, the last of each. -/
  | table (item : Shape)
  | record (name : String) (fields : List (Field Shape))
  /-- The fields of a record next to those of another one, in one object. -/
  | overlay (name : String) (own base : List (Field Shape))
  /-- Records told apart by the text in one field. -/
  | tagged (name tag : String) (variants : List (String × List (Field Shape)))
  deriving Inhabited

namespace Shape

def required (name : String) (shape : Shape) : Field Shape := ⟨name, .required, false, shape⟩

def optional (name : String) (shape : Shape) : Field Shape := ⟨name, .optional, true, shape⟩

def fallback (name : String) (shape : Shape) (value : Json) : Field Shape := ⟨name, .fallback value, false, shape⟩

/-- A field whose fallback is also what `null` counts as. -/
def nullable (name : String) (shape : Shape) (value : Json) : Field Shape := ⟨name, .fallback value, true, shape⟩

def int32 : Shape := .integer Word.lowest32 Word.highest32 "i32"
def unsigned64 : Shape := .integer 0 Word.unsigned64 "u64"
def size64 : Shape := .integer 0 Word.unsigned64 "usize"

def expected : Shape → String
  | .text => "a string"
  | .flag => "a boolean"
  | .integer _ _ name => name
  | .spelled expected _ => expected
  | .choice _ => "string or map"
  | .list _ => "a sequence"
  | .table _ => "a map"
  | .record name _ => "struct " ++ name
  | .overlay name _ _ => "struct " ++ name
  | .tagged name _ _ => "internally tagged enum " ++ name

end Shape

open Shape

abbrev Members := List (String × Json)

def findField? (key : String) (fields : List (Field Shape)) : Option (Field Shape) :=
  fields.find? fun f => f.name == key

def found? (key : String) (found : Members) : Option Json := (found.find? fun m => m.1 == key).map (·.2)

/-- "1 element", "2 elements". -/
def elements (n : Nat) : String := Decimal.ofNat n ++ (if n = 1 then " element" else " elements")

/-- The fields of an object in order, each as found or as its fallback. -/
def complete (found : Members) : List (Field Shape) → Except Mismatch Members
  | [] => .ok []
  | f :: rest =>
    match found? f.name found, f.need with
    | some j, _ => (complete found rest).map ((f.name, j) :: ·)
    | none, .required => .error (.missingField f.name)
    | none, .optional => (complete found rest).map ((f.name, .null) :: ·)
    | none, .fallback j => (complete found rest).map ((f.name, j) :: ·)

/-- The fields that an array is too short for. -/
def fallbacks (count : Nat) (what : String) : List (Field Shape) → Except Mismatch Members
  | [] => .ok []
  | f :: rest =>
    match f.need with
    | .fallback j => (fallbacks (count + 1) what rest).map ((f.name, j) :: ·)
    | _ => .error (.wrongLength count what)

/-- A text or number where a shape without parts is expected. -/
def checkScalar (shape : Shape) (j : Json) : Except Mismatch Json :=
  match shape, j with
  | .text, .string s => .ok (.string s)
  | .flag, .bool b => .ok (.bool b)
  | .integer low high name, .number (.int n) =>
    if low ≤ n ∧ n ≤ high then .ok j else .error (.wrongValue (kindText j) name)
  | .spelled _ fault, .string s =>
    match fault s with
    | none => .ok j
    | some message => .error (.other message)
  | _, _ => .error (.wrongType (kindText j) shape.expected)

def checkVariant (variants : List String) (s : String) : Except Mismatch Json :=
  if variants.contains s then .ok (.string s) else .error (.unknownVariant s variants)

/-- A variant as its name, or as an object of its name and `null`. -/
def checkChoice (variants : List String) (j : Json) : Except Mismatch Json :=
  match j with
  | .string s => checkVariant variants s
  | .object [(s, value)] => do
    let chosen ← checkVariant variants s
    match value with
    | .null => return chosen
    | _ => .error (.wrongType (kindText value) "unit")
  | .object _ => .error (.wrongValue "map" "map with a single key")
  | _ => .error (.wrongType (kindText j) "string or map")

/-- The variant that a tag names. In a value that was set aside the variant's number will do as well. -/
def tagged? (buffered : Bool) (variants : List (String × List (Field Shape))) (tag : Json) :
    Except Mismatch (String × List (Field Shape)) :=
  match tag with
  | .string s =>
    match variants.find? fun v => v.1 == s with
    | some v => .ok v
    | none => .error (.unknownVariant s (variants.map (·.1)))
  | .number (.int n) =>
    if buffered && 0 ≤ n then
      match variants[n.toNat]? with
      | some v => .ok v
      | none => .error (.wrongValue (kindText tag) ("variant index 0 <= i < " ++ Decimal.ofNat variants.length))
    else .error (.wrongType (kindText tag) "variant identifier")
  | _ => .error (.wrongType (kindText tag) "variant identifier")

/-- The value of a tag that is given exactly once. -/
def theTag (tag : String) (members : Members) : Except Mismatch Json :=
  match members.filter fun m => m.1 == tag with
  | [] => .error (.missingField tag)
  | [m] => .ok m.2
  | _ => .error (.duplicateField tag)

def tooLong (buffered : Bool) (length count : Nat) : Mismatch :=
  .wrongLength length (if buffered then elements count ++ " in sequence" else "fewer elements in array")

mutual

/-- A value in the shape's normal form. `buffered` holds for values set aside until their record is known. -/
def check (buffered : Bool) (shape : Shape) (j : Json) : Except Mismatch Json :=
  match j with
  | .array items =>
    match shape with
    | .list item => (checkItems buffered item items).map .array
    | .record name fields =>
      (checkSequence buffered ("struct " ++ name ++ " with " ++ elements fields.length) fields items.length 0
        fields items).map .object
    | .tagged name tag variants =>
      match items with
      | [] => .error (.missingField tag)
      | first :: rest => do
        let (variant, fields) ← tagged? buffered variants first
        let what := "struct variant " ++ name ++ "::" ++ variant ++ " with " ++ elements fields.length
        return .object ((tag, .string variant) :: (← checkSequence true what fields rest.length 0 fields rest))
    | _ => .error (.wrongType "sequence" shape.expected)
  | .object members =>
    match shape with
    | .table item => (checkTable buffered item members).map ofMembers
    | .record _ fields => do
      return .object (← complete (← checkMembers buffered fields [] members) fields)
    | .overlay _ own base => do
      let owned ← complete (← checkMembers buffered own [] members) own
      let based ← complete (← checkMembers true base [] members) base
      return .object (based ++ owned)
    | .tagged _ tag variants => do
      let (variant, fields) ← tagged? buffered variants (← theTag tag members)
      let found ← complete (← checkMembers true fields [] members) fields
      return .object ((tag, .string variant) :: found)
    | .choice variants => checkChoice variants j
    | _ => .error (.wrongType "map" shape.expected)
  | j =>
    match shape with
    | .choice variants => checkChoice variants j
    | _ => checkScalar shape j

def checkItems (buffered : Bool) (item : Shape) : List Json → Except Mismatch (List Json)
  | [] => .ok []
  | j :: rest => do
    let j ← check buffered item j
    return j :: (← checkItems buffered item rest)

def checkTable (buffered : Bool) (item : Shape) : Members → Except Mismatch Members
  | [] => .ok []
  | (k, j) :: rest => do
    let j ← check buffered item j
    return (k, j) :: (← checkTable buffered item rest)

/-- The known members of an object, in the order of the object. -/
def checkMembers (buffered : Bool) (fields : List (Field Shape)) (found : Members) :
    Members → Except Mismatch Members
  | [] => .ok found
  | (k, j) :: rest =>
    match findField? k fields with
    | none => checkMembers buffered fields found rest
    | some f => do
      if (found? k found).isSome then .error (.duplicateField k)
      let j ← if f.nullable && j.isNull then .ok Json.null else check buffered f.shape j
      checkMembers buffered fields ((k, j) :: found) rest

/-- An array as the fields of a record in order. -/
def checkSequence (buffered : Bool) (what : String) (all : List (Field Shape)) (length count : Nat)
    (fields : List (Field Shape)) : List Json → Except Mismatch Members
  | [] => fallbacks count what fields
  | j :: rest =>
    match fields with
    | [] => .error (tooLong buffered length all.length)
    | f :: fields => do
      let j ← if f.nullable && j.isNull then .ok Json.null else check buffered f.shape j
      return (f.name, j) :: (← checkSequence buffered what all length (count + 1) fields rest)

end

/-! ### The same shapes from a text -/

def misfit (m : Mismatch) (rest : Octets) : Fault := .here (.mismatch m) rest

/-- The fault of a value of another kind. A bracket is not read; everything else is. -/
def wrongKind (expected : String) (bs : Octets) : Fault :=
  match bs with
  | [] => .next .unfinishedValue []
  | b :: rest =>
    if b == 0x5B then misfit (.wrongType "sequence" expected) (b :: rest)
    else if b == 0x7B then misfit (.wrongType "map" expected) (b :: rest)
    else
      match scalar (b :: rest) with
      | .error f => f
      | .ok (j, rest) => misfit (.wrongType (kindText j) expected) rest

/-- Once the shape of an object is found wrong, its closing brace is read if it comes next. -/
def closing (bs : Octets) : Octets :=
  match skipSpace bs with
  | [] => []
  | b :: rest => if b == 0x7D then rest else b :: rest

def endOfItems (bs : Octets) : Except Fault Octets :=
  match skipSpace bs with
  | [] => .error (.next .unfinishedList [])
  | b :: rest =>
    if b == 0x5D then .ok rest
    else if b == 0x2C then
      match skipSpace rest with
      | [] => .error (.next .trailingCharacters [])
      | c :: rest =>
        .error (.next (if c == 0x5D then .trailingComma else .trailingCharacters) (c :: rest))
    else .error (.next .trailingCharacters (b :: rest))

/-- A shape without parts. Its misfits are placed behind the value. -/
def scalarOf (shape : Shape) (bs : Octets) : Reading Json :=
  match bs with
  | [] => .error (.next .unfinishedValue [])
  | b :: rest =>
    if b == 0x5B || b == 0x7B then .error (wrongKind shape.expected (b :: rest))
    else
      match scalar (b :: rest) with
      | .error f => .error f
      | .ok (j, rest) =>
        match checkScalar shape j with
        | .ok j => .ok (j, rest)
        | .error m => .error (misfit m rest)

def variantOf (variants : List String) (bs : Octets) : Reading Json :=
  match skipSpace bs with
  | 0x22 :: rest =>
    match scanString rest with
    | .error f => .error f
    | .ok (s, rest) =>
      match checkVariant variants s with
      | .ok j => .ok (j, rest)
      | .error m => .error (misfit m rest)
  | bs => .error (wrongKind "variant identifier" bs)

/-- The `null` that stands for a variant without contents, and the brace behind it. -/
def unitAndBrace (bs : Octets) : Except Fault Octets :=
  match skipSpace bs with
  | 0x6E :: rest =>
    match word wordUll rest with
    | .error f => .error f
    | .ok rest =>
      match skipSpace rest with
      | [] => .error (.here .unfinishedObject [])
      | c :: rest => if c == 0x7D then .ok rest else .error (.here .expectedValue (c :: rest))
  | rest => .error (wrongKind "unit" rest)

def choiceOf (variants : List String) (depth : Nat) (bs : Octets) : Reading Json :=
  match bs with
  | [] => .error (.next .unfinishedValue [])
  | b :: rest =>
    if b == 0x22 then variantOf variants (b :: rest)
    else if b == 0x7B then
      if depth ≤ 1 then .error (.next .tooDeep (b :: rest))
      else
        match variantOf variants rest with
        | .error f => .error f
        | .ok (chosen, rest) =>
          match colon rest with
          | .error f => .error f
          | .ok rest => (unitAndBrace rest).map fun rest => (chosen, rest)
    else .error (.next .expectedValue (b :: rest))

mutual

/-- A value of a shape, blanks in front of it allowed. -/
def shapeFrom (steps depth : Nat) (shape : Shape) (bs : Octets) : Reading Json :=
  match steps with
  | 0 => .error (.here .unfinishedValue bs)
  | steps + 1 =>
    match skipSpace bs with
    | [] => .error (.next .unfinishedValue [])
    | b :: rest =>
      let opened (inner : Unit → Reading Json) : Reading Json :=
        if depth ≤ 1 then .error (.next .tooDeep (b :: rest)) else inner ()
      match shape with
      | .list item =>
        if b == 0x5B then opened fun _ => listFrom steps (depth - 1) item [] rest
        else .error (wrongKind shape.expected (b :: rest))
      | .table item =>
        if b == 0x7B then opened fun _ => tableFrom steps (depth - 1) item true [] rest
        else .error (wrongKind shape.expected (b :: rest))
      | .record name fields =>
        if b == 0x5B then
          let what := "struct " ++ name ++ " with " ++ elements fields.length
          opened fun _ => sequenceFrom steps (depth - 1) what true [] fields rest
        else if b == 0x7B then opened fun _ => recordFrom steps (depth - 1) fields true [] rest
        else .error (wrongKind shape.expected (b :: rest))
      | .choice variants => choiceOf variants depth (b :: rest)
      | .overlay .. | .tagged .. =>
        match valueFrom (stepsFor (b :: rest)) depth (b :: rest) with
        | .error f => .error f
        | .ok (j, rest) =>
          match check true shape j with
          | .ok j => .ok (j, rest)
          | .error m => .error (misfit m rest)
      | shape => scalarOf shape (b :: rest)

def listFrom (steps depth : Nat) (item : Shape) (read : List Json) (bs : Octets) : Reading Json :=
  match steps with
  | 0 => .error (.here .unfinishedValue bs)
  | steps + 1 =>
    match nextItem read.isEmpty bs with
    | .error f => .error f
    | .ok (false, rest) => .ok (.array read.reverse, rest)
    | .ok (true, rest) =>
      match shapeFrom steps depth item rest with
      | .error f => .error f
      | .ok (j, rest) => listFrom steps depth item (j :: read) rest

def tableFrom (steps depth : Nat) (item : Shape) (first : Bool) (read : Members) (bs : Octets) : Reading Json :=
  match steps with
  | 0 => .error (.here .unfinishedValue bs)
  | steps + 1 =>
    match nextKey first bs with
    | .error f => .error f
    | .ok (none, rest) => .ok (ofMembers read.reverse, rest.drop 1)
    | .ok (some key, rest) =>
      match colon rest with
      | .error f => .error f
      | .ok rest =>
        match shapeFrom steps depth item rest with
        | .error f => .error f
        | .ok (j, rest) => tableFrom steps depth item false ((key, j) :: read) rest

def fieldFrom (steps depth : Nat) (f : Field Shape) (bs : Octets) : Reading Json :=
  match steps with
  | 0 => .error (.here .unfinishedValue bs)
  | steps + 1 =>
    match f.nullable, skipSpace bs with
    | true, 0x6E :: rest => (word wordUll rest).map fun rest => (.null, rest)
    | _, bs => shapeFrom steps depth f.shape bs

def recordFrom (steps depth : Nat) (fields : List (Field Shape)) (first : Bool) (found : Members) (bs : Octets) :
    Reading Json :=
  match steps with
  | 0 => .error (.here .unfinishedValue bs)
  | steps + 1 =>
    match nextKey first bs with
    | .error f => .error f
    | .ok (none, rest) =>
      match complete found fields with
      | .ok members => .ok (.object members, rest.drop 1)
      | .error m => .error (misfit m (rest.drop 1))
    | .ok (some key, rest) =>
      match findField? key fields with
      | none =>
        match (colon rest).bind skip with
        | .error f => .error f
        | .ok rest => recordFrom steps depth fields false found rest
      | some f =>
        if (found? key found).isSome then .error (misfit (.duplicateField key) (closing rest))
        else
          match colon rest with
          | .error f => .error f
          | .ok rest =>
            match fieldFrom steps depth f rest with
            | .error f => .error f
            | .ok (j, rest) => recordFrom steps depth fields false ((key, j) :: found) rest

def sequenceFrom (steps depth : Nat) (what : String) (first : Bool) (found : Members) (fields : List (Field Shape))
    (bs : Octets) : Reading Json :=
  match steps with
  | 0 => .error (.here .unfinishedValue bs)
  | steps + 1 =>
    match fields with
    | [] => (endOfItems bs).map fun rest => (.object found.reverse, rest)
    | f :: fields =>
      match nextItem first bs with
      | .error f => .error f
      | .ok (false, rest) =>
        match fallbacks found.length what (f :: fields) with
        | .ok more => .ok (.object (found.reverse ++ more), rest)
        | .error m => .error (misfit m rest)
      | .ok (true, rest) =>
        match fieldFrom steps depth f rest with
        | .error f => .error f
        | .ok (j, rest) => sequenceFrom steps depth what false ((f.name, j) :: found) fields rest

end

/-- A document at the front of a text, in its shape's normal form, and what follows it. -/
def readFront (shape : Shape) (text : Octets) : Reading Json := shapeFrom (2 * stepsFor text) depthLimit shape text

def readText (shape : Shape) (text : Octets) : Except Fault Json := do
  let (j, rest) ← readFront shape text
  atEnd rest
  return j

def readValue (shape : Shape) (j : Json) : Except Mismatch Json := check false shape j

end Helmsman.Json
