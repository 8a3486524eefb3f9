import Helmsman.Gateway.Connection
import Helmsman.Gateway.Conversation
import Helmsman.Text.Lines
/-!
# Routes

There are three places: the settings of the connection, their trial, and the conversations about a cluster. A path that
leads to none of them is not found, and a place that is there but not for a method says which methods it is for. Only
a conversation can break down before it is answered.
-/

namespace Helmsman.Gateway

inductive Route
  | config
  | trial
  /-- The cluster as it stands in the path. -/
  | chat (cluster : String)
  deriving Repr, DecidableEq

namespace Route

def ofPath? (path : String) : Option Route :=
  match Text.parts '/' path with
  | ["", "ai", "config"] => some .config
  | ["", "ai", "config", "test"] => some .trial
  | ["", "clusters", cluster, "ai", "chat"] => some (.chat cluster)
  | _ => none

def methods : Route → List String
  | .config => ["GET", "HEAD", "PUT"]
  | .trial | .chat _ => ["POST"]

end Route

def unreadableCluster : Response :=
  ⟨400, [("content-type", "text/plain; charset=utf-8")], "Invalid URL: Invalid UTF-8 in \x60cluster_id\x60"⟩

/-- The answer to a request, if there is one, and how things stand behind it. -/
def handle (g : Gateway) (now : Instant) (state : State) (r : Request) : Option Response × State :=
  match Route.ofPath? r.path with
  | none => (some .notFound, state)
  | some route =>
    if !route.methods.contains r.method then (some (.methodNotAllowed route.methods), state)
    else
      match route with
      | .config =>
        if r.method == "PUT" then (replaceConfig state r).map some id
        else if r.method == "HEAD" then (some (showConfig state).headOnly, state)
        else (some (showConfig state), state)
      | .trial => (g.tryConnection state r).map some id
      | .chat cluster =>
        match Utf8.decode? (Percent.decode (Utf8.encode cluster)) with
        | none => (some unreadableCluster, state)
        | some cluster => g.converse now state cluster r

end Helmsman.Gateway
