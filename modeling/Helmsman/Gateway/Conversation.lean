import Helmsman.Gateway.Relay
import Helmsman.Gateway.State
/-!
# Conversations

A conversation is admitted or refused as a whole. Its checks have an order: the cluster's number, the body, that there
is a message at all, the connection, the cluster. One that is admitted is answered by a stream with a frame for each
step of the reply, through a queue of the size that is set. If no queue can be that long, there is no answer at all.
-/

namespace Helmsman.Gateway

open Json Json.Shape

/-- The header with the name of whoever asks, and who asks if there is none. -/
def actorHeader : String := "x-polaris-user"
def anonymous : String := "anonymous"

def chatShape : Shape := .record "ChatRequest" [fallback "messages" Message.listShape (.array [])]

def actor (r : Request) : String :=
  let name := ((r.header? actorHeader).map Text.trim).getD ""
  if name.isEmpty then anonymous else name

structure Admission where
  scope : Scope
  history : List Message
  deriving Repr

/-- Lets a conversation in, or says why not. -/
def admission (state : State) (cluster : String) (r : Request) : Except Response Admission :=
  match Decimal.readNat? Word.unsigned64 cluster with
  | none => .error (.badRequest ("Invalid cluster id: " ++ cluster))
  | some id =>
    match r.read chatShape with
    | .error e => .error (.unreadable e)
    | .ok body =>
      let history := Message.listOfJson (body.getD "messages")
      if history.isEmpty then .error (.badRequest "Messages must not be empty")
      else
        match state.config.check with
        | .error e => .error (.badRequest e.message)
        | .ok () =>
          -- Whoever is to speak to the model looks at the connection once more.
          match state.config.checkConnection with
          | .error e => .error (.badRequest e.message)
          | .ok () =>
            match state.estate.store.getCluster id with
            | .error (.unknownCluster n) => .error (.error 404 (ClusterError.unknownCluster n).message)
            | .error e => .error (.error 500 e.message)
            | .ok info => .ok ⟨⟨info, actor r⟩, history⟩

def assignment (g : Gateway) (now : Instant) (state : State) (a : Admission) : Assignment where
  scope := a.scope
  history := a.history
  model := state.config.answers (g.networkFrom state)
  prompt := g.prompt
  maxRounds := g.chat.maxRounds
  limits := { deadline := some g.chat.timeout }
  pace := g.pace now
  now := now
  clock := g.clock now

def replyCourse (g : Gateway) (now : Instant) (state : State) (a : Admission) : Course :=
  Reply.course (g.assignment now state a) state.estate

/-- The requests of a reply that reach the endpoint. -/
def receivedOf (network : Network) (c : AiConfig) (requests : List (List Message)) : List ModelRequest :=
  match Endpoint.ofConfig c with
  | .error _ => []
  | .ok e =>
    (requests.zipIdx.filter fun (_, round) => (network round).arrives).map fun (messages, _) =>
      .stream e c.model messages catalog

def eventStream (frames : List String) : Response where
  status := 200
  headers := [("content-type", "text/event-stream"), ("cache-control", "no-cache"), ("connection", "keep-alive"),
    ("x-accel-buffering", "no")]
  body := String.join frames

/-- A conversation with somebody who listens to the end. A reply that breaks down ends the stream where it is. -/
def converse (g : Gateway) (now : Instant) (state : State) (cluster : String) (r : Request) :
    Option Response × State :=
  match admission state cluster r with
  | .error response => (some response, state)
  | .ok a =>
    if g.chat.queues then
      let course := g.replyCourse now state a
      let received := receivedOf (g.networkFrom state) state.config course.standing.requests
      (some (eventStream (relay g.chat {} (g.pace now) 0 course.moments)),
        { state with estate := course.standing.estate, received := state.received ++ received })
    else (none, state)

end Helmsman.Gateway
