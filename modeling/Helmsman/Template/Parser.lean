import Helmsman.Number.Decimal
import Helmsman.Template.Syntax
import Helmsman.Text.Blank
/-!
# Reading templates

A template is read from left to right, and the first alternative that fits is taken. Blanks may stand between the
parts of a tag and nowhere inside a path. A dash at the edge of a tag takes away all blanks of the text on that side.
There is one fault only: the text is no template.
-/

namespace Helmsman.Template

/-- What is read, and the characters behind it. -/
abbrev Parse (α : Type) := Option (α × List Char)

def isSpace (c : Char) : Bool := c == ' ' || c == '\t' || c == '\r' || c == '\n'

def skipSpace (cs : List Char) : List Char := cs.dropWhile isSpace

def exactly (word cs : List Char) : Option (List Char) :=
  if word.isPrefixOf cs then some (cs.drop word.length) else none

def word (w : String) (cs : List Char) : Option (List Char) := exactly w.toList (skipSpace cs)

def spacedWord (w : String) (cs : List Char) : Option (List Char) :=
  match word w cs with
  | some (c :: rest) => if isSpace c then some rest else none
  | _ => none

def isNameStart (c : Char) : Bool := ('a' ≤ c && c ≤ 'z') || ('A' ≤ c && c ≤ 'Z') || c == '_'
def isNameChar (c : Char) : Bool := isNameStart c || Decimal.isDigit c

def nameHere : List Char → Parse String
  | c :: rest =>
    if isNameStart c then some (String.ofList (c :: rest.takeWhile isNameChar), rest.dropWhile isNameChar) else none
  | [] => none

def name (cs : List Char) : Parse String := nameHere (skipSpace cs)

def isQuote (c : Char) : Bool := c == '"' || c == '\'' || c == '\x60'

/-- A string right here, in quotes of one of three kinds. -/
def stringHere : List Char → Parse String
  | q :: rest =>
    if isQuote q then
      match rest.dropWhile (· != q) with
      | _ :: after => some (String.ofList (rest.takeWhile (· != q)), after)
      | [] => none
    else none
  | [] => none

/-- The digits of a whole number, without needless zeros in front. -/
def wholeHere : List Char → Parse (List Char)
  | '0' :: rest => some (['0'], rest)
  | c :: rest =>
    if Decimal.isDigit c then some (c :: rest.takeWhile Decimal.isDigit, rest.dropWhile Decimal.isDigit) else none
  | [] => none

/-- A whole number right here, with a sign or without. -/
def intHere (cs : List Char) : Parse Int :=
  let (negative, digits) := match cs with
    | '-' :: rest => (true, rest)
    | cs => (false, cs)
  match wholeHere digits with
  | none => none
  | some (ds, rest) =>
    let n : Int := Decimal.digitsValue ds
    let n := if negative then -n else n
    if Word.lowest64 ≤ n ∧ n ≤ Word.highest64 then some (n, rest) else none

/-- A number with a point right here. -/
def floatHere (cs : List Char) : Parse Binary64 :=
  let (negative, digits) := match cs with
    | '-' :: rest => (true, rest)
    | cs => (false, cs)
  match wholeHere digits with
  | some (whole, '.' :: rest) =>
    let places := rest.takeWhile Decimal.isDigit
    if places.isEmpty then none
    else
      let significand := Decimal.digitsValue (whole ++ places)
      let exponent : Int := -(places.length : Int)
      some (.ofDecimal negative significand exponent, rest.dropWhile Decimal.isDigit)
  | _ => none

mutual

/-- The steps of a path right here. -/
def stepsHere (fuel : Nat) (cs : List Char) : Parse (List Step) :=
  match fuel with
  | 0 => some ([], cs)
  | fuel + 1 =>
    match stepHere fuel cs with
    | none => some ([], cs)
    | some (step, rest) => (stepsHere fuel rest).map fun (steps, rest) => (step :: steps, rest)

def stepHere (fuel : Nat) (cs : List Char) : Parse Step :=
  match fuel with
  | 0 => none
  | fuel + 1 =>
    match cs with
    | '.' :: rest =>
      let key := rest.takeWhile isNameChar
      if key.isEmpty then none else some (.key (String.ofList key), rest.dropWhile isNameChar)
    | '[' :: rest =>
      let index : Parse Step :=
        match stringHere rest with
        | some (s, rest) => some (.key s, rest)
        | none =>
          match intHere rest with
          | some (n, rest) => some (.key (Decimal.ofInt n), rest)
          | none =>
            match nameHere rest with
            | none => none
            | some (head, rest) =>
              (stepsHere fuel rest).map fun (steps, rest) => (.indirect head steps, rest)
      match index with
      | some (step, ']' :: rest) => some (step, rest)
      | _ => none
    | _ => none

end

def pathHere (fuel : Nat) (cs : List Char) : Parse Path :=
  match nameHere cs with
  | none => none
  | some (head, rest) => (stepsHere fuel rest).map fun (steps, rest) => (⟨head, steps⟩, rest)

/-- One of several words, the first that fits. -/
def oneOf {α : Type} (words : List (String × α)) (cs : List Char) : Parse α :=
  words.findSome? fun (w, a) => (word w cs).map fun rest => (a, rest)

def arithmetic : List Char → Parse Arithmetic :=
  oneOf [("+", .add), ("-", .sub), ("*", .mul), ("/", .div), ("%", .rem)]

def comparison : List Char → Parse Comparison :=
  oneOf [("==", .eq), ("!=", .ne), (">=", .ge), ("<=", .le), (">", .gt), ("<", .lt)]

def boolean : List Char → Parse Bool :=
  oneOf [("true", true), ("false", false), ("True", true), ("False", false)]

def Arithmetic.binds : Arithmetic → Nat
  | .add | .sub => 1
  | .mul | .div | .rem => 2

/-- Operands and the operations between them, joined from the left, the tighter operations first. -/
def joinMath (first : Expr) (rest : List (Arithmetic × Expr)) : Expr :=
  let join (op : Arithmetic) (l r : Expr) : Expr := .ofTerm (.math op l r)
  let step (state : Option (Arithmetic × Expr) × Expr) (next : Arithmetic × Expr) :
      Option (Arithmetic × Expr) × Expr :=
    let (outer, current) := state
    if next.1.binds = 2 then (outer, join next.1 current next.2)
    else
      match outer with
      | none => (some (next.1, current), next.2)
      | some (op, left) => (some (next.1, join op left current), next.2)
  match rest.foldl step (none, first) with
  | (none, e) => e
  | (some (op, l), r) => join op l r

/-- Operands joined by `and` before `or`, each from the left. -/
def joinLogic (first : Expr) (rest : List (Bool × Expr)) : Expr :=
  let step (state : Option Expr × Expr) (next : Bool × Expr) : Option Expr × Expr :=
    let (outer, current) := state
    if next.1 then (outer, .ofTerm (.both current next.2))
    else
      match outer with
      | none => (some current, next.2)
      | some left => (some (.ofTerm (.either left current)), next.2)
  match rest.foldl step (none, first) with
  | (none, e) => e
  | (some l, r) => .ofTerm (.either l r)

mutual

/-- Conditions joined by `and` and `or`. -/
def logic (fuel : Nat) (cs : List Char) : Parse Expr :=
  match fuel with
  | 0 => none
  | fuel + 1 =>
    match condition fuel cs with
    | none => none
    | some (first, rest) => (logicRest fuel rest).map fun (more, rest) => (joinLogic first more, rest)

def logicRest (fuel : Nat) (cs : List Char) : Parse (List (Bool × Expr)) :=
  match fuel with
  | 0 => some ([], cs)
  | fuel + 1 =>
    let op : Parse Bool :=
      match spacedWord "or" cs with
      | some rest => some (false, rest)
      | none => (spacedWord "and" cs).map fun rest => (true, rest)
    match op with
    | none => some ([], cs)
    | some (conjunction, rest) =>
      match condition fuel rest with
      | none => some ([], cs)
      | some (e, rest) => (logicRest fuel rest).map fun (more, rest) => ((conjunction, e) :: more, rest)

/-- A comparison, or a condition in parentheses. The negation in front decides, whatever stands inside. -/
def condition (fuel : Nat) (cs : List Char) : Parse Expr :=
  match fuel with
  | 0 => none
  | fuel + 1 =>
    let (negated, rest) := match spacedWord "not" cs with
      | some rest => (true, rest)
      | none => (false, cs)
    match compared fuel rest with
    | some (e, rest) => some (e.withNegation negated, rest)
    | none =>
      match word "(" rest with
      | none => none
      | some rest =>
        match logic fuel rest with
        | none => none
        | some (e, rest) => (word ")" rest).map fun rest => (e.withNegation negated, rest)

/-- One operand, or two with a comparison between them. -/
def compared (fuel : Nat) (cs : List Char) : Parse Expr :=
  match fuel with
  | 0 => none
  | fuel + 1 =>
    match operand fuel cs with
    | none => none
    | some (l, rest) =>
      match comparison rest with
      | none => some (l, rest)
      | some (op, behind) =>
        match operand fuel behind with
        | none => some (l, rest)
        | some (r, behind) => some (.ofTerm (.compare op l r), behind)

/-- A string, or a computation. -/
def operand (fuel : Nat) (cs : List Char) : Parse Expr :=
  match fuel with
  | 0 => none
  | fuel + 1 =>
    match stringHere (skipSpace cs) with
    | some (s, rest) => (filterList fuel rest).map fun (fs, rest) => (.mk false (.text s) fs, rest)
    | none =>
      match filtered fuel cs with
      | none => none
      | some (first, rest) => (filteredRest fuel rest).map fun (more, rest) => (joinMath first more, rest)

def filteredRest (fuel : Nat) (cs : List Char) : Parse (List (Arithmetic × Expr)) :=
  match fuel with
  | 0 => some ([], cs)
  | fuel + 1 =>
    match arithmetic cs with
    | none => some ([], cs)
    | some (op, rest) =>
      match filtered fuel rest with
      | none => some ([], cs)
      | some (e, rest) => (filteredRest fuel rest).map fun (more, rest) => ((op, e) :: more, rest)

/-- A computation and the filters behind it, which apply to all of it. -/
def filtered (fuel : Nat) (cs : List Char) : Parse Expr :=
  match fuel with
  | 0 => none
  | fuel + 1 =>
    match computation fuel cs with
    | none => none
    | some (e, rest) => (filterList fuel rest).map fun (fs, rest) => (.mk e.negated e.term (e.filters ++ fs), rest)

def computation (fuel : Nat) (cs : List Char) : Parse Expr :=
  match fuel with
  | 0 => none
  | fuel + 1 =>
    match atom fuel cs with
    | none => none
    | some (first, rest) => (computationRest fuel rest).map fun (more, rest) => (joinMath first more, rest)

def computationRest (fuel : Nat) (cs : List Char) : Parse (List (Arithmetic × Expr)) :=
  match fuel with
  | 0 => some ([], cs)
  | fuel + 1 =>
    match arithmetic cs with
    | none => some ([], cs)
    | some (op, rest) =>
      match atom fuel rest with
      | none => some ([], cs)
      | some (e, rest) => (computationRest fuel rest).map fun (more, rest) => ((op, e) :: more, rest)

/-- A computation in parentheses, a truth value, a function, a path or a number. -/
def atom (fuel : Nat) (cs : List Char) : Parse Expr :=
  match fuel with
  | 0 => none
  | fuel + 1 =>
    let inParentheses : Parse Expr :=
      match word "(" cs with
      | none => none
      | some rest =>
        match computation fuel rest with
        | none => none
        | some (e, rest) => (word ")" rest).map fun rest => (e, rest)
    match inParentheses with
    | some r => some r
    | none =>
      match boolean cs with
      | some (b, rest) => some (.ofTerm (.bool b), rest)
      | none =>
        match call fuel cs with
        | some ((f, _), rest) => some (.ofTerm (.call f), rest)
        | none =>
          match pathHere fuel (skipSpace cs) with
          | some (p, rest) => some (.ofTerm (.path p), rest)
          | none =>
            match floatHere (skipSpace cs) with
            | some (x, rest) => some (.ofTerm (.float x), rest)
            | none => (intHere (skipSpace cs)).map fun (n, rest) => (.ofTerm (.int n), rest)

def call (fuel : Nat) (cs : List Char) : Parse (String × List Argument) :=
  match fuel with
  | 0 => none
  | fuel + 1 =>
    match name cs with
    | none => none
    | some (f, rest) =>
      match word "(" rest with
      | none => none
      | some rest =>
        match argumentList fuel true rest with
        | none => none
        | some (arguments, rest) => (word ")" rest).map fun rest => ((f, arguments), rest)

def argumentList (fuel : Nat) (first : Bool) (cs : List Char) : Parse (List Argument) :=
  match fuel with
  | 0 => some ([], cs)
  | fuel + 1 =>
    match if first then some cs else word "," cs with
    | none => some ([], cs)
    | some rest =>
      let argument : Parse Argument :=
        match name rest with
        | none => none
        | some (key, rest) =>
          match word "=" rest with
          | none => none
          | some rest => (value fuel rest).map fun (e, rest) => (.mk key e, rest)
      match argument with
      | none => some ([], rest)
      | some (a, rest) => (argumentList fuel false rest).map fun (more, rest) => (a :: more, rest)

def filterList (fuel : Nat) (cs : List Char) : Parse (List Filter) :=
  match fuel with
  | 0 => some ([], cs)
  | fuel + 1 =>
    match word "|" cs with
    | none => some ([], cs)
    | some rest =>
      let filter : Parse Filter :=
        match call fuel rest with
        | some ((f, arguments), rest) => some (.mk f arguments, rest)
        | none => (name rest).map fun (f, rest) => (.mk f [], rest)
      match filter with
      | none => some ([], cs)
      | some (f, rest) => (filterList fuel rest).map fun (more, rest) => (f :: more, rest)

/-- A list of conditions in brackets, with filters behind it. -/
def arrayOf (fuel : Nat) (cs : List Char) : Parse Expr :=
  match fuel with
  | 0 => none
  | fuel + 1 =>
    match word "[" cs with
    | none => none
    | some rest =>
      match itemList fuel true rest with
      | none => none
      | some (items, rest) =>
        match word "]" rest with
        | none => none
        | some rest => (filterList fuel rest).map fun (fs, rest) => (.mk false (.array items) fs, rest)

def itemList (fuel : Nat) (first : Bool) (cs : List Char) : Parse (List Expr) :=
  match fuel with
  | 0 => some ([], cs)
  | fuel + 1 =>
    match if first then some cs else word "," cs with
    | none => some ([], cs)
    | some rest =>
      match condition fuel rest with
      | none => some ([], rest)
      | some (e, rest) => (itemList fuel false rest).map fun (more, rest) => (e :: more, rest)

/-- Anything that may be inserted, tested or assigned. -/
def value (fuel : Nat) (cs : List Char) : Parse Expr :=
  match fuel with
  | 0 => none
  | fuel + 1 =>
    match logic fuel cs with
    | some r => some r
    | none => arrayOf fuel cs

end

/-- The opening of a tag, with or without a dash. -/
def opening (mark : String) (cs : List Char) : Option (List Char) :=
  match exactly mark.toList cs with
  | none => none
  | some ('-' :: rest) => some rest
  | some rest => some rest

/-- The closing of a tag behind blanks, and whether it has a dash. -/
def closing (mark : String) (cs : List Char) : Parse Bool :=
  let cs := skipSpace cs
  match exactly mark.toList cs with
  | some rest => some (false, rest)
  | none => (exactly ('-' :: mark.toList) cs).map fun rest => (true, rest)

def tagOpening : String := "\x7b%"
def tagClosing : String := "%\x7d"
def insertOpening : String := "\x7b\x7b"
def insertClosing : String := "\x7d\x7d"
def commentOpening : String := "\x7b#"
def commentClosing : String := "#\x7d"

def bareTag (w : String) (cs : List Char) : Parse Bool :=
  match opening tagOpening cs with
  | none => none
  | some rest =>
    match word w rest with
    | none => none
    | some rest => closing tagClosing rest

def exprTag (fuel : Nat) (w : String) (cs : List Char) : Parse (Expr × Bool) :=
  match opening tagOpening cs with
  | none => none
  | some rest =>
    match word w rest with
    | none => none
    | some rest =>
      match value fuel rest with
      | none => none
      | some (e, rest) => (closing tagClosing rest).map fun (dash, rest) => ((e, dash), rest)

def assignTag (fuel : Nat) (w : String) (everywhere : Bool) (cs : List Char) : Parse (Node × Bool) :=
  match opening tagOpening cs with
  | none => none
  | some rest =>
    match word w rest with
    | none => none
    | some rest =>
      match name rest with
      | none => none
      | some (n, rest) =>
        match word "=" rest with
        | none => none
        | some rest =>
          match value fuel rest with
          | none => none
          | some (e, rest) => (closing tagClosing rest).map fun (dash, rest) => ((.assign everywhere n e, dash), rest)

/-- The heading of a loop: one name, or a name for the key and one for the value. -/
structure LoopHead where
  key : Option String
  value : String
  source : Expr

def loopTag (fuel : Nat) (cs : List Char) : Parse (LoopHead × Bool) :=
  match opening tagOpening cs with
  | none => none
  | some rest =>
    match word "for" rest with
    | none => none
    | some rest =>
      match name rest with
      | none => none
      | some (first, rest) =>
        let second : Parse String := (word "," rest).bind name
        let (key, value, rest) := match second with
          | some (v, rest) => (some first, v, rest)
          | none => (none, first, rest)
        match word "in" rest with
        | none => none
        | some rest =>
          let source : Parse Expr :=
            match filtered fuel rest with
            | some r => some r
            | none => arrayOf fuel rest
          match source with
          | none => none
          | some (e, rest) => (closing tagClosing rest).map fun (dash, rest) => ((⟨key, value, e⟩, dash), rest)

def insertTag (fuel : Nat) (cs : List Char) : Parse (Node × Bool) :=
  match opening insertOpening cs with
  | none => none
  | some rest =>
    match value fuel rest with
    | none => none
    | some (e, rest) => (closing insertClosing rest).map fun (dash, rest) => ((.insert e, dash), rest)

/-- The characters up to the first place where something can be read, and what is read there. -/
def upTo {α : Type} (p : List Char → Parse α) (taken : List Char) : List Char → Parse (List Char × α)
  | [] => (p []).map fun (a, rest) => ((taken.reverse, a), rest)
  | c :: cs =>
    match p (c :: cs) with
    | some (a, rest) => some ((taken.reverse, a), rest)
    | none => upTo p (c :: taken) cs

/-- The end of a comment right here. -/
def commentEnd (cs : List Char) : Parse Bool :=
  match exactly commentClosing.toList cs with
  | some rest => some (false, rest)
  | none => (exactly ('-' :: commentClosing.toList) cs).map fun rest => (true, rest)

def comment (cs : List Char) : Parse Bool :=
  match opening commentOpening cs with
  | none => none
  | some rest => (upTo commentEnd [] rest).map fun ((_, dash), rest) => (dash, rest)

def trimFront (trim : Bool) (cs : List Char) : List Char := if trim then Text.dropBlanks cs else cs
def trimBack (trim : Bool) (cs : List Char) : List Char := if trim then (Text.dropBlanks cs.reverse).reverse else cs

/-- Whether a tag that opens here has a dash. -/
def opensWithDash : List Char → Bool
  | '\x7b' :: c :: '-' :: _ => c == '%' || c == '\x7b' || c == '#'
  | _ => false

/-- Text that is kept as it stands. -/
def rawText (cs : List Char) : Parse (Node × Bool) :=
  match bareTag "raw" cs with
  | none => none
  | some (front, rest) =>
    let ending (cs : List Char) : Parse (Bool × Bool) :=
      (bareTag "endraw" cs).map fun (dash, rest) => ((opensWithDash cs, dash), rest)
    (upTo ending [] rest).map fun ((text, (back, dash)), rest) =>
      ((.text (String.ofList (trimBack back (trimFront front text))), dash), rest)

def opensTag : List Char → Bool
  | '\x7b' :: c :: _ => c == '%' || c == '\x7b' || c == '#'
  | _ => false

/-- Plain text up to the next tag. -/
def plainText (taken : List Char) : List Char → List Char × List Char
  | [] => (taken.reverse, [])
  | c :: cs => if opensTag (c :: cs) then (taken.reverse, c :: cs) else plainText (c :: taken) cs

/-- Nodes, and whether the last tag before the rest takes away blanks. -/
abbrev Body := List Node × Bool

mutual

/-- As many nodes as there are. `trim` says whether the tag in front takes away blanks. -/
def nodes (fuel : Nat) (trim : Bool) (cs : List Char) : Parse Body :=
  match fuel with
  | 0 => some (([], trim), cs)
  | fuel + 1 =>
    match cs with
    | [] => some (([], trim), [])
    | _ =>
      if opensTag cs then
        match node fuel cs with
        | none => some (([], trim), cs)
        | some ((found, dash), rest) =>
          (nodes fuel dash rest).map fun ((more, dash), rest) => ((found ++ more, dash), rest)
      else
        let (text, rest) := plainText [] cs
        let kept := trimBack (opensWithDash rest) (trimFront trim text)
        (nodes fuel false rest).map fun ((more, dash), rest) => ((.text (String.ofList kept) :: more, dash), rest)

/-- What one tag and its body stand for. A comment stands for nothing. -/
def node (fuel : Nat) (cs : List Char) : Parse Body :=
  match fuel with
  | 0 => none
  | fuel + 1 =>
    let single (r : Parse (Node × Bool)) : Parse Body := r.map fun ((n, dash), rest) => (([n], dash), rest)
    let simple : Parse Body :=
      match single (rawText cs) with
      | some r => some r
      | none =>
        match single (assignTag fuel "set" false cs) with
        | some r => some r
        | none =>
          match single (assignTag fuel "set_global" true cs) with
          | some r => some r
          | none =>
            match single (insertTag fuel cs) with
            | some r => some r
            | none => (comment cs).map fun (dash, rest) => (([], dash), rest)
    match branchNode fuel cs with
    | some r => some r
    | none =>
      match loopNode fuel cs with
      | some r => some r
      | none => simple

def branchNode (fuel : Nat) (cs : List Char) : Parse Body :=
  match fuel with
  | 0 => none
  | fuel + 1 =>
    match exprTag fuel "if" cs with
    | none => none
    | some ((e, dash), rest) =>
      match nodes fuel dash rest with
      | none => none
      | some ((body, _), rest) =>
        match moreCases fuel rest with
        | none => none
        | some (cases, rest) =>
          let otherwise : Parse (List Node) :=
            match bareTag "else" rest with
            | none => some ([], rest)
            | some (dash, rest) => (nodes fuel dash rest).map fun ((body, _), rest) => (body, rest)
          match otherwise with
          | none => none
          | some (otherwise, rest) =>
            (bareTag "endif" rest).map fun (dash, rest) =>
              (([.branch ((e, body) :: cases) otherwise], dash), rest)

def moreCases (fuel : Nat) (cs : List Char) : Parse (List (Expr × List Node)) :=
  match fuel with
  | 0 => some ([], cs)
  | fuel + 1 =>
    match exprTag fuel "elif" cs with
    | none => some ([], cs)
    | some ((e, dash), rest) =>
      match nodes fuel dash rest with
      | none => none
      | some ((body, _), rest) => (moreCases fuel rest).map fun (more, rest) => ((e, body) :: more, rest)

def loopNode (fuel : Nat) (cs : List Char) : Parse Body :=
  match fuel with
  | 0 => none
  | fuel + 1 =>
    match loopTag fuel cs with
    | none => none
    | some ((head, dash), rest) =>
      match nodes fuel dash rest with
      | none => none
      | some ((body, _), rest) =>
        let empty : Parse (List Node) :=
          match bareTag "else" rest with
          | none => some ([], rest)
          | some (dash, rest) => (nodes fuel dash rest).map fun ((body, _), rest) => (body, rest)
        match empty with
        | none => none
        | some (empty, rest) =>
          (bareTag "endfor" rest).map fun (dash, rest) =>
            (([.loop head.key head.value head.source body empty], dash), rest)

end

/-- The nodes of a template, if the text is one. -/
def parse? (source : String) : Option (List Node) :=
  let cs := source.toList
  match nodes (16 * cs.length + 64) false cs with
  | some ((found, _), []) => some found
  | _ => none

end Helmsman.Template
