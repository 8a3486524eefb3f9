import Helmsman.Toml.Scalar
import Helmsman.Toml.Tree
/-!
# Reading TOML

A file is a sequence of lines: headers that open tables, and keys with values that belong to the table opened last.
Strings have four forms, with and without escapes, on one line or on several. Arrays may spread over lines, tables
written in one place may not. There is one fault only: the text is no TOML.
Every reader gives what it has read and the characters behind it.
-/

namespace Helmsman.Toml

def isBlank (c : Char) : Bool := c == ' ' || c == '\t'

def skipBlanks (cs : List Char) : List Char := cs.dropWhile isBlank

def isLineChar (c : Char) : Bool := c == '\t' || (0x20 ≤ c.toNat && c.toNat != 0x7f)

/-- What follows the end of a line right here. -/
def lineEnd? : List Char → Option (List Char)
  | '\n' :: rest => some rest
  | '\r' :: '\n' :: rest => some rest
  | _ => none

/-- What follows a comment, if there is one. -/
def skipComment : List Char → List Char
  | '#' :: rest => rest.dropWhile isLineChar
  | cs => cs

/-- What follows blanks, comments and ends of lines. -/
def skipLines : Nat → List Char → List Char
  | 0, cs => cs
  | steps + 1, cs =>
    let behind := skipComment (skipBlanks cs)
    match lineEnd? behind with
    | some rest => skipLines steps rest
    | none => behind

/-! ### Strings -/

def codePoint? (digits : List Char) : Option Char := do
  let n := (← digits.mapM (baseDigit? 16)).foldl (fun n d => 16 * n + d) 0
  if n < 0xd800 || (0xe000 ≤ n && n < 0x110000) then some (Char.ofNat n) else none

/-- The character that an escape stands for, behind its backslash. -/
def escape? : List Char → Option (Char × List Char)
  | 'u' :: rest => if rest.length < 4 then none else (codePoint? (rest.take 4)).map fun c => (c, rest.drop 4)
  | 'U' :: rest => if rest.length < 8 then none else (codePoint? (rest.take 8)).map fun c => (c, rest.drop 8)
  | c :: rest =>
    (([('b', '\x08'), ('t', '\t'), ('n', '\n'), ('f', '\x0c'), ('r', '\r'), ('"', '"'), ('\\', '\\')] :
      List (Char × Char)).lookup c).map fun meant => (meant, rest)
  | [] => none

/-- A string on one line, behind its first quote. What is read so far is in reverse. -/
def lineString (quote : Char) (escapes : Bool) : Nat → List Char → List Char → Option (String × List Char)
  | 0, _, _ => none
  | steps + 1, read, cs =>
    match cs with
    | [] => none
    | c :: rest =>
      if c == quote then some (String.ofList read.reverse, rest)
      else if escapes && c == '\\' then
        match escape? rest with
        | some (meant, rest) => lineString quote escapes steps (meant :: read) rest
        | none => none
      else if isLineChar c then lineString quote escapes steps (c :: read) rest
      else none

def isGap (c : Char) : Bool := isBlank c || c == '\n' || c == '\r'

/-- A string on several lines, behind its first quotes. Up to two quotes may stand before the three that end it. -/
def linesString (quote : Char) (escapes : Bool) : Nat → List Char → List Char → Option (String × List Char)
  | 0, _, _ => none
  | steps + 1, read, cs =>
    match cs with
    | [] => none
    | c :: rest =>
      if c == quote then
        let run := min 5 (cs.takeWhile (· == quote)).length
        if run < 3 then linesString quote escapes steps (c :: read) rest
        else some (String.ofList (List.replicate (run - 3) quote ++ read).reverse, cs.drop run)
      else if escapes && c == '\\' then
        match lineEnd? (skipBlanks rest), escape? rest with
        | some rest, _ => linesString quote escapes steps read (rest.dropWhile isGap)
        | none, some (meant, rest) => linesString quote escapes steps (meant :: read) rest
        | none, none => none
      else
        match lineEnd? cs with
        | some rest => linesString quote escapes steps ('\n' :: read) rest
        | none => if isLineChar c then linesString quote escapes steps (c :: read) rest else none

/-- A string in any form. The end of a line right behind three quotes does not belong to it. -/
def stringHere (cs : List Char) : Option (String × List Char) :=
  let several (quote : Char) (escapes : Bool) (rest : List Char) : Option (String × List Char) :=
    linesString quote escapes (rest.length + 1) [] ((lineEnd? rest).getD rest)
  match cs with
  | '"' :: '"' :: '"' :: rest => several '"' true rest
  | '\'' :: '\'' :: '\'' :: rest => several '\'' false rest
  | '"' :: rest => lineString '"' true (rest.length + 1) [] rest
  | '\'' :: rest => lineString '\'' false (rest.length + 1) [] rest
  | _ => none

/-! ### Keys -/

def isKeyChar (c : Char) : Bool := c.isAlphanum || c == '_' || c == '-'

/-- One word of a key, bare or in quotes. -/
def wordHere (cs : List Char) : Option (String × List Char) :=
  match cs with
  | '"' :: rest => lineString '"' true (rest.length + 1) [] rest
  | '\'' :: rest => lineString '\'' false (rest.length + 1) [] rest
  | cs =>
    let word := cs.takeWhile isKeyChar
    if word.isEmpty then none else some (String.ofList word, cs.dropWhile isKeyChar)

/-- Words with dots between them: those before the last, and the last. -/
def keyFrom : Nat → List Char → Option ((List String × String) × List Char)
  | 0, _ => none
  | steps + 1, cs => do
    let (word, rest) ← wordHere (skipBlanks cs)
    match skipBlanks rest with
    | '.' :: rest =>
      let ((path, last), rest) ← keyFrom steps rest
      return ((word :: path, last), rest)
    | rest => return (([], word), rest)

/-- The most words in a key, and one more than the most brackets around a value. -/
def depthLimit : Nat := 80

def key (cs : List Char) : Option ((List String × String) × List Char) := keyFrom depthLimit cs

/-! ### Values -/

/-- A character behind the end of a scalar. -/
def endsScalar (c : Char) : Bool := isGap c || c == ',' || c == ']' || c == '\x7d' || c == '#'

/-- A scalar right here. One blank may stand between a date and a time. -/
def scalarHere (cs : List Char) : Option (Setting × List Char) :=
  let token := cs.takeWhile fun c => !endsScalar c
  let behind := cs.dropWhile fun c => !endsScalar c
  let both := match date? token, behind with
    | some (_, []), ' ' :: rest =>
      if rest.head?.any Decimal.isDigit then
        some (token ++ ' ' :: rest.takeWhile (fun c => !endsScalar c), rest.dropWhile fun c => !endsScalar c)
      else none
    | _, _ => none
  let (token, behind) := both.getD (token, behind)
  (scalar? token).map fun value => (value, behind)

mutual

/-- A value right here, within so many more brackets. -/
def valueFrom (steps depth : Nat) (cs : List Char) : Option (Setting × List Char) :=
  match steps with
  | 0 => none
  | steps + 1 =>
    match cs with
    | '[' :: rest => if depth = 0 then none else itemsFrom steps (depth - 1) [] rest
    | '\x7b' :: rest => if depth = 0 then none else membersFrom steps (depth - 1) true [] rest
    | '"' :: _ | '\'' :: _ => (stringHere cs).map fun (s, rest) => (.text s, rest)
    | _ => scalarHere cs
  termination_by structural steps

/-- The rest of an array, whose items so far are in reverse. -/
def itemsFrom (steps depth : Nat) (read : List Setting) (cs : List Char) : Option (Setting × List Char) :=
  match steps with
  | 0 => none
  | steps + 1 =>
    match skipLines cs.length cs with
    | ']' :: rest => some (.list read.reverse, rest)
    | cs => do
      let (value, rest) ← valueFrom steps depth cs
      match skipLines rest.length rest with
      | ',' :: rest => itemsFrom steps depth (value :: read) rest
      | ']' :: rest => some (.list (value :: read).reverse, rest)
      | _ => none
  termination_by structural steps

/-- The rest of a table that is written in one place. -/
def membersFrom (steps depth : Nat) (first : Bool) (read : Nodes) (cs : List Char) : Option (Setting × List Char) :=
  match steps with
  | 0 => none
  | steps + 1 =>
    match first, skipBlanks cs with
    | true, '\x7d' :: rest => some (.table [], rest)
    | _, cs => do
      let ((path, last), rest) ← key cs
      let rest ← mark? '=' (skipBlanks rest)
      let (value, rest) ← valueFrom steps depth (skipBlanks rest)
      let read ← Nodes.addAt path last value .opened read
      match skipBlanks rest with
      | ',' :: rest => membersFrom steps depth false read rest
      | '\x7d' :: rest => some (.table (Nodes.toEntries read), rest)
      | _ => none
  termination_by structural steps

end

/-! ### Lines -/

/-- The tables so far, and the path of the one that is open. -/
structure Progress where
  root : Nodes := []
  header : List String := []

/-- What follows the end of a line, behind blanks and a comment. The last line needs no end. -/
def closeLine (cs : List Char) : Option (List Char) :=
  match skipComment (skipBlanks cs) with
  | [] => some []
  | cs => lineEnd? cs

/-- The content of a line, if it has any, up to its blanks and its comment. -/
def content (p : Progress) (cs : List Char) : Option (Progress × List Char) :=
  match cs with
  | '[' :: '[' :: rest => do
    let ((path, last), rest) ← key rest
    let rest ← mark? ']' (← mark? ']' (skipBlanks rest))
    return (⟨← Nodes.openItem path last p.root, path ++ [last]⟩, rest)
  | '[' :: rest => do
    let ((path, last), rest) ← key rest
    let rest ← mark? ']' (skipBlanks rest)
    return (⟨← Nodes.openTable path last p.root, path ++ [last]⟩, rest)
  | cs =>
    if cs.isEmpty || cs.head? == some '#' || (lineEnd? cs).isSome then some (p, cs)
    else do
      let ((path, last), rest) ← key cs
      let rest ← mark? '=' (skipBlanks rest)
      let (value, rest) ← valueFrom (2 * rest.length + 2) (depthLimit - 1) (skipBlanks rest)
      return ({ p with root := ← Nodes.add p.header path last value p.root }, rest)

def linesFrom : Nat → Progress → List Char → Option Progress
  | 0, _, _ => none
  | steps + 1, p, cs => do
    let (p, rest) ← content p (skipBlanks cs)
    match ← closeLine rest with
    | [] => return p
    | rest => linesFrom steps p rest

/-- The entries of a file, if it is TOML. A mark of the byte order in front does not count. -/
def read? (text : String) : Option (List (String × Setting)) :=
  let cs := match text.toList with
    | '\ufeff' :: rest => rest
    | cs => cs
  (linesFrom (cs.length + 1) {} cs).map fun p => Nodes.toEntries p.root

end Helmsman.Toml
