import Helmsman.Audit
import Helmsman.Chat.Progress
import Helmsman.Tools.Arguments
import Helmsman.Tools.Catalog
/-!
# Running a call

A call runs against the store for the cluster and the person of its scope. Calls that read answer with a report.
A call that would change a deployment first answers what it is about to do, and does it only when its arguments
confirm it; each attempt is then put on record whether it succeeds or not. `execute` is the only way to either, and
the store and the record are all that it can change. One call can break down instead of being answered: a list of pods
adds up restarts in 32 bits, and a sum that does not fit takes down whoever runs the call.
-/

namespace Helmsman

/-- The cluster that a conversation is about, and who is asking. -/
structure Scope where
  cluster : ClusterInfo
  actor : String
  deriving Repr, DecidableEq, Inhabited

/-- What calls can change: the store, and the records of all attempts in order. -/
structure Estate where
  store : Store := {}
  audit : List AuditRecord := []
  deriving Repr, DecidableEq, Inhabited

/-- Why a call has no result: for a reason that can be told, or because it broke down over a sum. -/
inductive CallFailure
  | tool (e : ToolError)
  | overflow
  deriving Repr, DecidableEq

def CallFailure.ofCluster (e : ClusterError) : CallFailure := .tool (.cluster e)

namespace Report

def logLines : Nat := 100
def logOctets : Nat := 64 * 1024
def eventCount : Nat := 50

def conditions (cs : List Condition) : Json := .array (cs.map fun c => c.toJson.canonical)

def listing (name : String) (items : List Json) : Json :=
  .ofMembers [("total", .ofNat items.length), (name, .array items)]

/-- The restarts of all containers, added up one container after the other. No sum on the way may leave 32 bits. -/
def restarts (p : Pod) : Option Int :=
  p.containers.foldlM (fun (n : Int) (c : Container) => Word.add32? n c.restartCount) 0

/-- A pod with so many restarts. -/
def podSummary (now : Instant) (p : Pod) (restarts : Int) : Json :=
  let ready := (p.containers.filter (·.ready)).length
  .ofMembers [("name", .string p.name), ("namespace", .string p.ns), ("status", .string p.phase),
    ("node", .string p.node), ("restarts", .ofInt restarts),
    ("ready", .string (Decimal.ofNat ready ++ "/" ++ Decimal.ofNat p.containers.length)),
    ("age", .string (p.created.age now))]

/-- A list of pods, if the restarts of each can be added up. -/
def pods (now : Instant) (all : List Pod) : Except CallFailure Json :=
  match all.mapM fun p => (restarts p).map (podSummary now p) with
  | some summaries => .ok (listing "pods" summaries)
  | none => .error .overflow

/-- A container with the fields of its state, if it has one, among its own. -/
def container (c : Container) : Json :=
  .ofMembers ([("name", .string c.name), ("image", .string c.image), ("ready", .bool c.ready),
    ("restartCount", .ofInt c.restartCount)] ++ c.state.elim [] ContainerState.members)

def podDetail (now : Instant) (p : Pod) : Json :=
  .ofMembers [("name", .string p.name), ("namespace", .string p.ns), ("status", .string p.phase),
    ("node", .string p.node), ("ip", .string p.podIp), ("hostIP", .string p.hostIp),
    ("startTime", optionalInstantJson p.startTime), ("labels", p.labels.toJson),
    ("containers", .array (p.containers.map container)), ("conditions", conditions p.conditions),
    ("age", .string (p.created.age now))]

/-- The log cut to what a report may hold. -/
def podLogs (a : Arguments) (log : String) : Json :=
  .ofMembers [("namespace", .string a.ns), ("name", .string a.name), ("container", .ofText? a.containerFilter),
    ("truncated", .bool (decide (logOctets < Utf8.size log))), ("logs", .string (Text.takeOctets logOctets log))]

def deploymentSummary (now : Instant) (d : Deployment) : Json :=
  .ofMembers [("name", .string d.name), ("namespace", .string d.ns), ("replicas", .ofInt d.replicas),
    ("ready", .ofInt d.readyReplicas), ("available", .ofInt d.availableReplicas),
    ("age", .string (d.created.age now)), ("images", .string (", ".intercalate d.images))]

def deploymentDetail (now : Instant) (d : Deployment) : Json :=
  .ofMembers [("name", .string d.name), ("namespace", .string d.ns), ("replicas", .ofInt d.replicas),
    ("readyReplicas", .ofInt d.readyReplicas), ("availableReplicas", .ofInt d.availableReplicas),
    ("updatedReplicas", .ofInt d.updatedReplicas), ("strategy", .string d.strategy), ("labels", d.labels.toJson),
    ("images", .string (", ".intercalate d.images)), ("conditions", conditions d.conditions),
    ("age", .string (d.created.age now))]

def nodeSummary (now : Instant) (n : Node) : Json :=
  .ofMembers [("name", .string n.name), ("status", .string (if n.isReady then "Ready" else "NotReady")),
    ("roles", .array (n.roles.map .string)), ("version", .string n.kubeletVersion),
    ("cpu", .string n.capacity.cpu), ("memory", .string n.capacity.memory), ("age", .string (n.created.age now))]

def nodeDetail (now : Instant) (n : Node) : Json :=
  .ofMembers [("name", .string n.name), ("labels", n.labels.toJson), ("conditions", conditions n.conditions),
    ("taints", .array (n.taints.map fun t => t.toJson.canonical)), ("unschedulable", .bool n.unschedulable),
    ("kubeletVersion", .string n.kubeletVersion), ("osImage", .string n.osImage),
    ("containerRuntime", .string n.containerRuntime), ("cpu", .string n.capacity.cpu),
    ("memory", .string n.capacity.memory), ("pods", .string n.capacity.pods),
    ("allocatableCPU", .string n.allocatable.cpu), ("allocatableMemory", .string n.allocatable.memory),
    ("age", .string (n.created.age now))]

def happening (now : Instant) (e : Happening) : Json :=
  .ofMembers [("type", .string e.kind), ("reason", .string e.reason),
    ("object", .string (e.objectKind ++ "/" ++ e.objectName)), ("message", .string e.message),
    ("count", .ofInt e.count), ("namespace", .string e.ns),
    ("lastSeen", .string (e.lastSeen.elim "" fun t => t.age now))]

/-- The last events of the list, those of one object if a name is given. -/
def happenings (now : Instant) (a : Arguments) (all : List Happening) : Json :=
  let wanted := all.filter fun e => a.resourceFilter.all fun name => e.objectName == name
  listing "events" ((wanted.drop (wanted.length - eventCount)).map (happening now))

/-- A port, and the port of the nodes behind it if there is one. -/
def port (p : ServicePort) : String :=
  let number := match p.nodePort with
    | some n => if 0 < n then Decimal.ofInt p.port ++ ":" ++ Decimal.ofInt n else Decimal.ofInt p.port
    | none => Decimal.ofInt p.port
  number ++ "/" ++ p.protocol

def service (now : Instant) (s : Service) : Json :=
  .ofMembers [("name", .string s.name), ("namespace", .string s.ns), ("type", .string s.kind),
    ("clusterIP", .string s.clusterIp), ("ports", .string (", ".intercalate (s.ports.map port))),
    ("age", .string (s.created.age now))]

def ingress (now : Instant) (i : Ingress) : Json :=
  .ofMembers [("name", .string i.name), ("namespace", .string i.ns),
    ("hosts", .array ((i.hosts.filter fun h => !h.isEmpty).map .string)),
    ("class", .string (i.className.getD "")), ("age", .string (i.created.age now))]

end Report

namespace Operation

/-- The report on what is found in a store. -/
def found {α : Type} (report : α → Json) (r : Except ClusterError α) : Except CallFailure Json :=
  (r.map report).mapError .ofCluster

/-- What an operation finds in a store. Operations that change something find nothing. -/
def read (now : Instant) (store : Store) (id : Nat) (a : Arguments) : Operation → Except CallFailure Json
  | .listPods =>
    match store.listPods id a.nsFilter with
    | .ok all => Report.pods now all
    | .error e => .error (.ofCluster e)
  | .getPodDetail => found (Report.podDetail now) (store.getPod id a.ns a.name)
  | .getPodLogs => found (Report.podLogs a) (store.podLogs id a.ns a.name a.containerFilter Report.logLines)
  | .listDeployments =>
    found (fun l => Report.listing "deployments" (l.map (Report.deploymentSummary now)))
      (store.listDeployments id a.nsFilter)
  | .getDeploymentDetail => found (Report.deploymentDetail now) (store.getDeployment id a.ns a.name)
  | .listNodes => found (fun l => Report.listing "nodes" (l.map (Report.nodeSummary now))) (store.listNodes id)
  | .getNodeDetail => found (Report.nodeDetail now) (store.getNode id a.name)
  | .listEvents => found (Report.happenings now a) (store.listHappenings id a.nsFilter)
  | .listServices =>
    found (fun l => Report.listing "services" (l.map (Report.service now))) (store.listServices id a.nsFilter)
  | .listIngresses =>
    found (fun l => Report.listing "ingresses" (l.map (Report.ingress now))) (store.listIngresses id a.nsFilter)
  | .scaleDeployment | .restartDeployment => .ok .null

end Operation

inductive Change
  | scale (replicas : Int)
  | restart
  deriving Repr, DecidableEq

namespace Change

/-- The change that an operation is about. -/
def of? (a : Arguments) : Operation → Option Change
  | .scaleDeployment => some (.scale a.replicas)
  | .restartDeployment => some .restart
  | _ => none

def operation : Change → Operation
  | .scale _ => .scaleDeployment
  | .restart => .restartDeployment

def action : Change → String
  | .scale _ => "scale"
  | .restart => "restart"

def apply (now : Instant) (store : Store) (id : Nat) (ns name : String) : Change → Except ClusterError Store
  | .scale replicas => store.scale id ns name replicas
  | .restart => store.restart id ns name now

/-- What is answered in place of a change that is not confirmed. -/
def request (ns name : String) (c : Change) : Json :=
  let target := qualified ns name
  let (message, more) := match c with
    | .scale replicas =>
      ("Please confirm scaling " ++ target ++ " to " ++ Decimal.ofInt replicas ++ " replicas",
        [("target_replicas", Json.ofInt replicas)])
    | .restart => ("Please confirm restarting " ++ target, [])
  .ofMembers ([("action", .string c.operation.name), ("namespace", .string ns), ("name", .string name),
    ("status", .string "awaiting_confirmation"), ("message", .string message)] ++ more)

/-- What is answered once a change is made. -/
def confirmation (ns name : String) (c : Change) : Json :=
  let target := qualified ns name
  let message := match c with
    | .scale replicas => "Scaled " ++ target ++ " to " ++ Decimal.ofInt replicas ++ " replicas"
    | .restart => "Triggered a rolling restart of " ++ target
  .ofMembers [("status", .string "success"), ("message", .string message)]

/-- The record of an attempt that ended with an error or with none. -/
def record (now : Instant) (scope : Scope) (ns name : String) (error : Option ClusterError) (c : Change) :
    AuditRecord where
  actor := scope.actor
  module_ := "workload"
  action := c.action
  clusterId := scope.cluster.id
  clusterName := scope.cluster.name
  ns := ns
  resourceType := "deployment"
  resourceName := name
  success := error.isNone
  errorMessage := error.map ClusterError.message
  createdAt := now

end Change

namespace Estate

/-- A change is attempted and put on record. -/
def change (now : Instant) (scope : Scope) (ns name : String) (c : Change) (e : Estate) :
    Except ClusterError Json × Estate :=
  match c.apply now e.store scope.cluster.id ns name with
  | .ok store => (.ok (c.confirmation ns name), ⟨store, e.audit ++ [c.record now scope ns name none]⟩)
  | .error error => (.error error, ⟨e.store, e.audit ++ [c.record now scope ns name (some error)]⟩)

def run (now : Instant) (scope : Scope) (o : Operation) (a : Arguments) (e : Estate) :
    Except CallFailure Json × Estate :=
  match Change.of? a o with
  | none => (o.read now e.store scope.cluster.id a, e)
  | some c =>
    if a.confirmed then
      let (answer, e) := e.change now scope a.ns a.name c
      (answer.mapError .ofCluster, e)
    else (.ok (c.request a.ns a.name), e)

/-- A call and the text of its answer. A list of nodes needs no arguments and so does not read them. -/
def execute (now : Instant) (scope : Scope) (name raw : String) (cancelled : Bool) (e : Estate) :
    Except CallFailure String × Estate :=
  if cancelled then (.error (.tool .cancelled), e)
  else
    match Operation.ofName? name with
    | none => (.error (.tool (.unknownTool name)), e)
    | some o =>
      match if o = .listNodes then .ok ⟨[]⟩ else Arguments.decode raw with
      | .error error => (.error (.tool error), e)
      | .ok a =>
        let (answer, e) := e.run now scope o a
        (answer.map Json.render, e)

end Estate

end Helmsman
