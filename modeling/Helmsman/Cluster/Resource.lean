import Helmsman.Json.Shape
import Helmsman.Time.Instant
/-!
# The resources of a cluster

What a cluster holds: pods, deployments, nodes, events, services and ingresses. Each has a shape, a reading of values
in that shape's normal form, and its record in the order in which it is written.
-/

namespace Helmsman

open Json Json.Shape

/-- Keys and texts, sorted by key. -/
abbrev Labels := List (String × String)

namespace Labels

def shape : Shape := .table .text

def ofJson (j : Json) : Labels := j.members.map fun (k, v) => (k, v.text)

def toJson (labels : Labels) : Json := .object (labels.map fun (k, v) => (k, .string v))

def get? (labels : Labels) (key : String) : Option String := (labels.find? fun l => l.1 == key).map (·.2)

def insert (key value : String) : Labels → Labels
  | [] => [(key, value)]
  | (k, v) :: rest =>
    if key < k then (key, value) :: (k, v) :: rest
    else if k < key then (k, v) :: insert key value rest
    else (key, value) :: rest

end Labels

def instantShape : Shape := .spelled "an RFC 3339 formatted date and time string" Instant.faultText

/-- The instant in a text that has been checked. -/
def instantOf (j : Json) : Instant := (Instant.parse j.text).toOption.getD ⟨0, 0, 0⟩

def instantOf? (j : Json) : Option Instant := j.present?.map instantOf

def instantJson (t : Instant) : Json := .string t.text

def optionalInstantJson (t : Option Instant) : Json := t.elim .null instantJson

structure Condition where
  kind : String
  status : String
  reason : String
  message : String
  deriving Repr, DecidableEq, Inhabited

namespace Condition

def shape : Shape :=
  .record "Condition" [required "type" .text, required "status" .text, fallback "reason" .text (.string ""),
    fallback "message" .text (.string "")]

def ofJson (j : Json) : Condition :=
  ⟨(j.getD "type").text, (j.getD "status").text, (j.getD "reason").text, (j.getD "message").text⟩

def toJson (c : Condition) : Json :=
  .object [("type", .string c.kind), ("status", .string c.status), ("reason", .string c.reason),
    ("message", .string c.message)]

end Condition

def conditionsField : Json.Field Shape := fallback "conditions" (.list Condition.shape) (.array [])
def labelsField (name : String) : Json.Field Shape := fallback name Labels.shape (.object [])

def conditionsOf (j : Json) : List Condition := (j.getD "conditions").items.map Condition.ofJson

inductive ContainerState
  | waiting (reason message : String)
  | running (startedAt : Instant)
  | terminated (reason : String) (exitCode : Int)
  deriving Repr, DecidableEq

namespace ContainerState

def shape : Shape :=
  .tagged "ContainerState" "state"
    [("Waiting", [fallback "reason" .text (.string ""), fallback "message" .text (.string "")]),
      ("Running", [required "startedAt" instantShape]),
      ("Terminated", [fallback "reason" .text (.string ""), required "exitCode" int32])]

def ofJson (j : Json) : ContainerState :=
  match (j.getD "state").text with
  | "Running" => .running (instantOf (j.getD "startedAt"))
  | "Terminated" => .terminated (j.getD "reason").text (j.getD "exitCode").int
  | _ => .waiting (j.getD "reason").text (j.getD "message").text

def members : ContainerState → List (String × Json)
  | .waiting reason message =>
    [("state", .string "Waiting"), ("reason", .string reason), ("message", .string message)]
  | .running startedAt => [("state", .string "Running"), ("startedAt", instantJson startedAt)]
  | .terminated reason exitCode =>
    [("state", .string "Terminated"), ("reason", .string reason), ("exitCode", .ofInt exitCode)]

end ContainerState

structure Container where
  name : String
  image : String
  ready : Bool
  restartCount : Int
  state : Option ContainerState
  deriving Repr, DecidableEq, Inhabited

namespace Container

def shape : Shape :=
  .record "ContainerStatus" [required "name" .text, required "image" .text, fallback "ready" .flag (.bool false),
    fallback "restart_count" int32 (.ofNat 0), optional "state" ContainerState.shape]

def ofJson (j : Json) : Container :=
  ⟨(j.getD "name").text, (j.getD "image").text, (j.getD "ready").flag, (j.getD "restart_count").int,
    (j.getD "state").present?.map ContainerState.ofJson⟩

def toJson (c : Container) : Json :=
  .object [("name", .string c.name), ("image", .string c.image), ("ready", .bool c.ready),
    ("restart_count", .ofInt c.restartCount), ("state", c.state.elim .null fun s => .object s.members)]

end Container

structure Pod where
  name : String
  ns : String
  phase : String
  node : String
  podIp : String
  hostIp : String
  labels : Labels
  containers : List Container
  conditions : List Condition
  startTime : Option Instant
  created : Instant
  deriving Repr, DecidableEq, Inhabited

namespace Pod

def fields : List (Json.Field Shape) :=
  [required "name" .text, required "namespace" .text, required "phase" .text, fallback "node" .text (.string ""),
    fallback "pod_ip" .text (.string ""), fallback "host_ip" .text (.string ""), labelsField "labels",
    fallback "containers" (.list Container.shape) (.array []), conditionsField,
    optional "start_time" instantShape, required "created" instantShape]

def ofJson (j : Json) : Pod where
  name := (j.getD "name").text
  ns := (j.getD "namespace").text
  phase := (j.getD "phase").text
  node := (j.getD "node").text
  podIp := (j.getD "pod_ip").text
  hostIp := (j.getD "host_ip").text
  labels := .ofJson (j.getD "labels")
  containers := (j.getD "containers").items.map Container.ofJson
  conditions := conditionsOf j
  startTime := instantOf? (j.getD "start_time")
  created := instantOf (j.getD "created")

def toJson (p : Pod) : Json :=
  .object [("name", .string p.name), ("namespace", .string p.ns), ("phase", .string p.phase),
    ("node", .string p.node), ("pod_ip", .string p.podIp), ("host_ip", .string p.hostIp),
    ("labels", p.labels.toJson), ("containers", .array (p.containers.map Container.toJson)),
    ("conditions", .array (p.conditions.map Condition.toJson)), ("start_time", optionalInstantJson p.startTime),
    ("created", instantJson p.created)]

end Pod

structure Deployment where
  name : String
  ns : String
  replicas : Int
  readyReplicas : Int
  availableReplicas : Int
  updatedReplicas : Int
  strategy : String
  labels : Labels
  images : List String
  /-- Annotations of the pods' template, where rollout restarts are recorded. -/
  templateAnnotations : Labels
  conditions : List Condition
  created : Instant
  deriving Repr, DecidableEq, Inhabited

namespace Deployment

def shape : Shape :=
  .record "Deployment" [required "name" .text, required "namespace" .text, required "replicas" int32,
    fallback "ready_replicas" int32 (.ofNat 0), fallback "available_replicas" int32 (.ofNat 0),
    fallback "updated_replicas" int32 (.ofNat 0), fallback "strategy" .text (.string ""), labelsField "labels",
    fallback "images" (.list .text) (.array []), labelsField "template_annotations", conditionsField,
    required "created" instantShape]

def ofJson (j : Json) : Deployment where
  name := (j.getD "name").text
  ns := (j.getD "namespace").text
  replicas := (j.getD "replicas").int
  readyReplicas := (j.getD "ready_replicas").int
  availableReplicas := (j.getD "available_replicas").int
  updatedReplicas := (j.getD "updated_replicas").int
  strategy := (j.getD "strategy").text
  labels := .ofJson (j.getD "labels")
  images := (j.getD "images").items.map Json.text
  templateAnnotations := .ofJson (j.getD "template_annotations")
  conditions := conditionsOf j
  created := instantOf (j.getD "created")

def toJson (d : Deployment) : Json :=
  .object [("name", .string d.name), ("namespace", .string d.ns), ("replicas", .ofInt d.replicas),
    ("ready_replicas", .ofInt d.readyReplicas), ("available_replicas", .ofInt d.availableReplicas),
    ("updated_replicas", .ofInt d.updatedReplicas), ("strategy", .string d.strategy), ("labels", d.labels.toJson),
    ("images", .array (d.images.map .string)), ("template_annotations", d.templateAnnotations.toJson),
    ("conditions", .array (d.conditions.map Condition.toJson)), ("created", instantJson d.created)]

end Deployment

structure Capacity where
  cpu : String
  memory : String
  pods : String
  deriving Repr, DecidableEq, Inhabited

namespace Capacity

def none : Capacity := ⟨"", "", ""⟩

def shape : Shape :=
  .record "Resources" [required "cpu" .text, required "memory" .text, fallback "pods" .text (.string "")]

def ofJson (j : Json) : Capacity := ⟨(j.getD "cpu").text, (j.getD "memory").text, (j.getD "pods").text⟩

def toJson (c : Capacity) : Json :=
  .object [("cpu", .string c.cpu), ("memory", .string c.memory), ("pods", .string c.pods)]

end Capacity

structure Taint where
  key : String
  value : String
  effect : String
  deriving Repr, DecidableEq, Inhabited

namespace Taint

def shape : Shape :=
  .record "Taint" [required "key" .text, fallback "value" .text (.string ""), required "effect" .text]

def ofJson (j : Json) : Taint := ⟨(j.getD "key").text, (j.getD "value").text, (j.getD "effect").text⟩

def toJson (t : Taint) : Json :=
  .object [("key", .string t.key), ("value", .string t.value), ("effect", .string t.effect)]

end Taint

structure Node where
  name : String
  labels : Labels
  conditions : List Condition
  taints : List Taint
  unschedulable : Bool
  kubeletVersion : String
  osImage : String
  containerRuntime : String
  capacity : Capacity
  allocatable : Capacity
  created : Instant
  deriving Repr, DecidableEq, Inhabited

namespace Node

def shape : Shape :=
  .record "Node" [required "name" .text, labelsField "labels", conditionsField,
    fallback "taints" (.list Taint.shape) (.array []), fallback "unschedulable" .flag (.bool false),
    fallback "kubelet_version" .text (.string ""), fallback "os_image" .text (.string ""),
    fallback "container_runtime" .text (.string ""), fallback "capacity" Capacity.shape Capacity.none.toJson,
    fallback "allocatable" Capacity.shape Capacity.none.toJson, required "created" instantShape]

def ofJson (j : Json) : Node where
  name := (j.getD "name").text
  labels := .ofJson (j.getD "labels")
  conditions := conditionsOf j
  taints := (j.getD "taints").items.map Taint.ofJson
  unschedulable := (j.getD "unschedulable").flag
  kubeletVersion := (j.getD "kubelet_version").text
  osImage := (j.getD "os_image").text
  containerRuntime := (j.getD "container_runtime").text
  capacity := .ofJson (j.getD "capacity")
  allocatable := .ofJson (j.getD "allocatable")
  created := instantOf (j.getD "created")

def toJson (n : Node) : Json :=
  .object [("name", .string n.name), ("labels", n.labels.toJson),
    ("conditions", .array (n.conditions.map Condition.toJson)), ("taints", .array (n.taints.map Taint.toJson)),
    ("unschedulable", .bool n.unschedulable), ("kubelet_version", .string n.kubeletVersion),
    ("os_image", .string n.osImage), ("container_runtime", .string n.containerRuntime),
    ("capacity", n.capacity.toJson), ("allocatable", n.allocatable.toJson), ("created", instantJson n.created)]

def isReady (n : Node) : Bool := n.conditions.any fun c => c.kind == "Ready" && c.status == "True"

def rolePrefix : List Char := "node-role.kubernetes.io/".toList

def role? (label : String) : Option String :=
  let cs := label.toList
  if rolePrefix.isPrefixOf cs ∧ rolePrefix.length < cs.length then some (String.ofList (cs.drop rolePrefix.length))
  else none

/-- The roles that the labels give, or a mark for none. -/
def roles (n : Node) : List String :=
  match n.labels.filterMap fun l => role? l.1 with
  | [] => ["<none>"]
  | roles => roles

end Node

/-- Something that happened to an object of the cluster. -/
structure Happening where
  kind : String
  reason : String
  objectKind : String
  objectName : String
  message : String
  count : Int
  ns : String
  lastSeen : Option Instant
  deriving Repr, DecidableEq, Inhabited

namespace Happening

def shape : Shape :=
  .record "Event" [required "type" .text, required "reason" .text, required "kind" .text,
    required "object_name" .text, fallback "message" .text (.string ""), fallback "count" int32 (.ofNat 0),
    required "namespace" .text, optional "last_seen" instantShape]

def ofJson (j : Json) : Happening where
  kind := (j.getD "type").text
  reason := (j.getD "reason").text
  objectKind := (j.getD "kind").text
  objectName := (j.getD "object_name").text
  message := (j.getD "message").text
  count := (j.getD "count").int
  ns := (j.getD "namespace").text
  lastSeen := instantOf? (j.getD "last_seen")

def toJson (e : Happening) : Json :=
  .object [("type", .string e.kind), ("reason", .string e.reason), ("kind", .string e.objectKind),
    ("object_name", .string e.objectName), ("message", .string e.message), ("count", .ofInt e.count),
    ("namespace", .string e.ns), ("last_seen", optionalInstantJson e.lastSeen)]

end Happening

structure ServicePort where
  port : Int
  nodePort : Option Int
  protocol : String
  deriving Repr, DecidableEq, Inhabited

namespace ServicePort

def shape : Shape :=
  .record "ServicePort" [required "port" int32, optional "node_port" int32,
    fallback "protocol" .text (.string "TCP")]

def ofJson (j : Json) : ServicePort := ⟨(j.getD "port").int, (j.getD "node_port").int?, (j.getD "protocol").text⟩

def toJson (p : ServicePort) : Json :=
  .object [("port", .ofInt p.port), ("node_port", p.nodePort.elim .null .ofInt), ("protocol", .string p.protocol)]

end ServicePort

structure Service where
  name : String
  ns : String
  kind : String
  clusterIp : String
  ports : List ServicePort
  created : Instant
  deriving Repr, DecidableEq, Inhabited

namespace Service

def shape : Shape :=
  .record "Service" [required "name" .text, required "namespace" .text, required "type" .text,
    fallback "cluster_ip" .text (.string ""), fallback "ports" (.list ServicePort.shape) (.array []),
    required "created" instantShape]

def ofJson (j : Json) : Service where
  name := (j.getD "name").text
  ns := (j.getD "namespace").text
  kind := (j.getD "type").text
  clusterIp := (j.getD "cluster_ip").text
  ports := (j.getD "ports").items.map ServicePort.ofJson
  created := instantOf (j.getD "created")

def toJson (s : Service) : Json :=
  .object [("name", .string s.name), ("namespace", .string s.ns), ("type", .string s.kind),
    ("cluster_ip", .string s.clusterIp), ("ports", .array (s.ports.map ServicePort.toJson)),
    ("created", instantJson s.created)]

end Service

structure Ingress where
  name : String
  ns : String
  hosts : List String
  className : Option String
  created : Instant
  deriving Repr, DecidableEq, Inhabited

namespace Ingress

def shape : Shape :=
  .record "Ingress" [required "name" .text, required "namespace" .text, fallback "hosts" (.list .text) (.array []),
    optional "class" .text, required "created" instantShape]

def ofJson (j : Json) : Ingress where
  name := (j.getD "name").text
  ns := (j.getD "namespace").text
  hosts := (j.getD "hosts").items.map Json.text
  className := (j.getD "class").string?
  created := instantOf (j.getD "created")

def toJson (i : Ingress) : Json :=
  .object [("name", .string i.name), ("namespace", .string i.ns), ("hosts", .array (i.hosts.map .string)),
    ("class", .ofText? i.className), ("created", instantJson i.created)]

end Ingress

end Helmsman
