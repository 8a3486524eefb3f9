import Helmsman.Web.Address
import Helmsman.Web.Percent
/-!
# Web addresses

A web address as it is sent and shown: its parts in their written form. `Url.read` brings a text into that form. It
takes out line breaks and tabs, turns letters of scheme and host to small ones, resolves the segments that stand for
this directory and the one above, leaves out the port that the scheme implies, and encodes what has to be. The user
before the host is left out too: it never is part of an address that is sent.

Not modelled is the international form of the names of hosts: a name with letters beyond ASCII is kept as it is, and one
that begins with `xn--` is not looked into. Nor is what holds for files alone, such as the letters of their drives,
since no request goes to a file.
-/

namespace Helmsman

inductive Host
  | domain (name : String)
  | address (a : Address)
  deriving Repr, DecidableEq

structure Url where
  scheme : String
  host : Option Host := none
  port : Option Nat := none
  path : String
  query : Option String := none
  fragment : Option String := none
  deriving Repr, DecidableEq

inductive UrlError
  | relative
  | emptyHost
  | domain
  | character
  | fourOctets
  | eightWords
  | port
  deriving Repr, DecidableEq

def UrlError.message : UrlError → String
  | .relative => "relative URL without a base"
  | .emptyHost => "empty host"
  | .domain => "invalid international domain name"
  | .character => "invalid domain character"
  | .fourOctets => "invalid IPv4 address"
  | .eightWords => "invalid IPv6 address"
  | .port => "invalid port number"

namespace Host

def text : Host → String
  | .domain name => name
  | .address (.octets four) => Address.octetsText four
  | .address (.words eight) => "[" ++ Address.wordsText eight ++ "]"

/-- What no name of a host may contain. -/
def isForbidden (c : Char) : Bool :=
  c.toNat ≤ 0x20 || c.toNat == 0x7f || "%#/:<>?@[\\]^|".toList.contains c

/-- A number with its base before it: `0x` for hexadecimal, `0` for octal. One without digits is zero. -/
def readNumber? (cs : List Char) : Option Nat :=
  let value (base : Nat) (digits : List Char) : Option Nat :=
    (digits.mapM fun c => (Address.hexValue? c).filter (· < base)).map (List.foldl (fun n d => base * n + d) 0)
  match cs with
  | [] => none
  | '0' :: 'x' :: digits | '0' :: 'X' :: digits => value 16 digits
  | '0' :: d :: digits => value 8 (d :: digits)
  | digits => value 10 digits

/-- The parts of a name, without the empty one behind a last dot. -/
def labels (name : List Char) : List (List Char) :=
  let parts := Address.split (· == '.') name
  if 1 < parts.length && parts.getLast? == some [] then parts.dropLast else parts

/-- Whether a name is an address of four octets, well written or not. -/
def endsInNumber (name : List Char) : Bool :=
  match (labels name).getLast? with
  | none => false
  | some last => (!last.isEmpty && last.all Decimal.isDigit) || (readNumber? last).isSome

/-- The octets of an address, of which the last number may stand for several. -/
def readFour? (name : List Char) : Option (List Nat) := do
  let numbers ← (labels name).mapM readNumber?
  let last ← numbers.getLast?
  let front := numbers.dropLast
  if front.length < 4 && last >>> (8 * (4 - front.length)) == 0 && front.all (· < 256) then
    let places := 4 - front.length
    some (front ++ (List.range places).map fun i => (last >>> (8 * (places - 1 - i))) % 256)
  else none

def inBrackets? : List Char → Option (List Char)
  | '[' :: rest => if rest.getLast? == some ']' then some rest.dropLast else none
  | _ => none

def readBracketed (cs : List Char) : Except UrlError Host :=
  match (inBrackets? cs).bind Address.readEight? with
  | some eight => .ok (.address (.words eight))
  | none => .error .eightWords

/-- The host of a scheme of the web. -/
def readSpecial (cs : List Char) : Except UrlError Host :=
  if cs.isEmpty then .error .emptyHost
  else if cs.head? == some '[' then readBracketed cs
  else
    let name := (Utf8.decodeLossy (Percent.decode (Utf8.encode (String.ofList cs)))).toList.map Char.toLower
    if name.isEmpty then .error .emptyHost
    else if name.any isForbidden then .error .domain
    else if endsInNumber name then
      match readFour? name with
      | some four => .ok (.address (.octets four))
      | none => .error .fourOctets
    else .ok (.domain (String.ofList name))

/-- The host of any other scheme, of which nothing is known. -/
def readOpaque (cs : List Char) : Except UrlError Host :=
  if cs.head? == some '[' then readBracketed cs
  else if cs.any fun c => isForbidden c && c != '%' then .error .character
  else .ok (.domain (String.ofList (Percent.encode [] cs)))

end Host

namespace Url

/-- The schemes of the web, and the port that each implies. -/
def specialPorts : List (String × Option Nat) :=
  [("http", some 80), ("https", some 443), ("ws", some 80), ("wss", some 443), ("ftp", some 21), ("file", none)]

def isSpecial (scheme : String) : Bool := specialPorts.any fun s => s.1 == scheme

def impliedPort? (scheme : String) : Option Nat := (specialPorts.lookup scheme).join

def fragmentSet : List Char := " \"<>`".toList
def querySet (special : Bool) : List Char := (if special then " \"#<>'" else " \"#<>").toList
def pathSet : List Char := " \"#<>?`\x7b\x7d".toList

def isSlash (special : Bool) (c : Char) : Bool := c == '/' || (special && c == '\\')

/-- The text before the first character of a kind, and the text from there on. -/
def cut (stops : Char → Bool) (cs : List Char) : List Char × List Char := cs.span fun c => !stops c

def readScheme (cs : List Char) : Except UrlError (String × List Char) :=
  let (name, rest) := cut (· == ':') cs
  let fits := name.all fun c => c.isAlphanum || "+-.".toList.contains c
  match name, rest with
  | first :: _, ':' :: rest =>
    if first.isAlpha && fits then .ok (String.ofList (name.map Char.toLower), rest) else .error .relative
  | _, _ => .error .relative

/-- What follows the last sign that ends the name of a user. -/
def dropUser (special : Bool) (authority : List Char) : Except UrlError (List Char) :=
  let host := (authority.reverse.takeWhile (· != '@')).reverse
  if special && authority.contains '@' && host.isEmpty then .error .emptyHost else .ok host

/-- Host and port of an authority without its user. The colons in brackets belong to the host. -/
def cutPort (authority : List Char) : List Char × List Char :=
  let rec go (inside : Bool) : List Char → List Char × List Char
    | [] => ([], [])
    | ':' :: rest => if inside then
        let (host, port) := go inside rest
        (':' :: host, port)
      else ([], ':' :: rest)
    | c :: rest =>
      let (host, port) := go (c == '[' || (inside && c != ']')) rest
      (c :: host, port)
  go false authority

def readPort (scheme : String) : List Char → Except UrlError (Option Nat)
  | ':' :: digits =>
    if !digits.all Decimal.isDigit then .error .port
    else
      let n := Decimal.digitsValue digits
      if 65535 < n then .error .port
      else .ok (if digits.isEmpty || some n = impliedPort? scheme then none else some n)
  | _ => .ok none

def isThisDirectory (segment : String) : Bool := [".", "%2e"].contains segment.toLower

def isDirectoryAbove (segment : String) : Bool := ["..", ".%2e", "%2e.", "%2e%2e"].contains segment.toLower

/-- The segments of a path once those that stand for directories are resolved. -/
def resolve (done : List String) : List String → List String
  | [] => done
  | segment :: rest =>
    if isDirectoryAbove segment then
      if rest.isEmpty then done.dropLast ++ [""] else resolve done.dropLast rest
    else if isThisDirectory segment then
      if rest.isEmpty then done ++ [""] else resolve done rest
    else resolve (done ++ [segment]) rest

/-- A path whose segments are told apart by slashes. -/
def readPath (special : Bool) (cs : List Char) : String :=
  match cs with
  | [] => if special then "/" else ""
  | c :: rest =>
    let parts := Address.split (isSlash special) (if isSlash special c then rest else cs)
    "/" ++ "/".intercalate (resolve [] (parts.map fun p => String.ofList (Percent.encode pathSet p)))

/-- What the text of an address leaves out: all at its ends that is no more than a blank, and all line breaks and
tabs. -/
def cleaned (s : String) : List Char :=
  let low (c : Char) : Bool := c.toNat ≤ 0x20
  let trimmed := ((s.toList.dropWhile low).reverse.dropWhile low).reverse
  trimmed.filter fun c => c != '\t' && c != '\n' && c != '\r'

def readBehind (scheme : String) (cs : List Char) : Except UrlError Url :=
  let special := isSpecial scheme
  let (hierarchy, behind) := cut (fun c => c == '?' || c == '#') cs
  let (query, fragment) := cut (· == '#') behind
  let finish (host : Option Host) (port : Option Nat) (path : String) : Url :=
    { scheme, host, port, path
      query := if query.isEmpty then none
        else some (String.ofList (Percent.encode (querySet special) (query.drop 1)))
      fragment := if fragment.isEmpty then none
        else some (String.ofList (Percent.encode fragmentSet (fragment.drop 1))) }
  let withHost (readHost : List Char → Except UrlError Host) (cs : List Char) : Except UrlError Url := do
    let (authority, path) := cut (isSlash special) cs
    let (host, port) := cutPort (← dropUser special authority)
    if host.isEmpty && !port.isEmpty then .error .emptyHost
    else return finish (some (← readHost host)) (← readPort scheme port) (readPath special path)
  match hierarchy with
  | '/' :: '/' :: rest =>
    if scheme == "file" then
      let (host, path) := cut (isSlash special) rest
      if host.isEmpty then .ok (finish (some (.domain "")) none (readPath special path))
      else withHost Host.readSpecial rest
    else if special then withHost Host.readSpecial (rest.dropWhile (isSlash special))
    else withHost Host.readOpaque rest
  | _ =>
    if scheme == "file" then .ok (finish (some (.domain "")) none (readPath special hierarchy))
    else if special then withHost Host.readSpecial (hierarchy.dropWhile (isSlash special))
    else if hierarchy.head? == some '/' then .ok (finish none none (readPath special hierarchy))
    else .ok (finish none none (String.ofList (Percent.encode [] hierarchy)))

def read (s : String) : Except UrlError Url := do
  let (scheme, rest) ← readScheme (cleaned s)
  readBehind scheme rest

def text (u : Url) : String :=
  let authority := u.host.elim "" fun h => "//" ++ h.text ++ u.port.elim "" fun p => ":" ++ Decimal.ofNat p
  u.scheme ++ ":" ++ authority ++ u.path ++ u.query.elim "" ("?" ++ ·) ++ u.fragment.elim "" ("#" ++ ·)

def target (u : Url) : String := u.path ++ u.query.elim "" ("?" ++ ·)

/-- Whether there is anyone to send a request to. -/
def hasHost (u : Url) : Bool := u.host.any fun h => h != .domain ""

end Url

end Helmsman
