import Helmsman.Json.Printer
import Helmsman.Json.Shape
import Helmsman.Web.MediaType
import Helmsman.Web.Percent
/-!
# Requests and responses

What the gateway receives and what it answers. A body is read only if it is announced as JSON. Reading stops behind the
first value, and a body that is no JSON is told apart from one that is JSON of the wrong shape.
-/

namespace Helmsman.Gateway

structure Request where
  method : String
  target : String
  headers : List (String × Octets) := []
  body : Octets := []
  deriving Repr

namespace Request

def path (r : Request) : String := String.ofList (r.target.toList.takeWhile fun c => c != '?' && c != '#')

/-- The text of a header, if it is there and consists of visible characters. -/
def header? (r : Request) (name : String) : Option String := do
  let (_, octets) ← r.headers.find? fun h => h.1.toLower == name
  if octets.all fun b => b == 9 || (32 ≤ b.toNat && b.toNat < 127) then Utf8.decode? octets else none

def announcesJson (r : Request) : Bool :=
  ((r.header? "content-type").bind MediaType.ofText?).any MediaType.isJson

end Request

structure Response where
  status : Nat
  headers : List (String × String) := []
  body : String := ""
  deriving Repr, DecidableEq

namespace Response

def header? (r : Response) (name : String) : Option String := r.headers.lookup name

def json (status : Nat) (body : Json) : Response := ⟨status, [("content-type", "application/json")], body.render⟩

def error (status : Nat) (message : String) : Response :=
  json status (.ofMembers [("code", .ofNat status), ("message", .string message)])

def badRequest (message : String) : Response := error 400 message

def notFound : Response := { status := 404 }

def methodNotAllowed (allowed : List String) : Response :=
  { status := 405, headers := [("allow", ",".intercalate allowed)] }

def headOnly (r : Response) : Response := { r with body := "" }

end Response

inductive BodyError
  | notAnnounced
  | tooLong
  | noJson
  | wrongShape
  deriving Repr, DecidableEq

def BodyError.message : BodyError → String
  | .notAnnounced => "Expected request with \x60Content-Type: application/json\x60"
  | .tooLong => "Failed to buffer the request body"
  | .noJson => "Failed to parse the request body as JSON"
  | .wrongShape => "Failed to deserialize the JSON body into the target type"

def bodyLimit : Nat := 2 * 1024 * 1024

def Request.read (r : Request) (shape : Json.Shape) : Except BodyError Json :=
  if !r.announcesJson then .error .notAnnounced
  else if bodyLimit < r.body.length then .error .tooLong
  else
    match Json.readFront shape r.body with
    | .ok (j, _) => .ok j
    | .error f => .error (if f.reason.isSyntax then .noJson else .wrongShape)

/-- The answer to a request whose body cannot be read. -/
def Response.unreadable (e : BodyError) : Response := badRequest ("Invalid request body: " ++ e.message)

end Helmsman.Gateway
