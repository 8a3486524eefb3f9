import Helmsman.Json.Printer
/-!
# The catalog of tools

The operations that the model may call, in a fixed order: ten that only read, and two that change a deployment. Each
comes with the description and the schema of its arguments that the model is given.
-/

namespace Helmsman

structure Tool where
  name : String
  description : String
  parameters : Json
  /-- Whether a call can change the cluster. Such a call runs only once it is confirmed. -/
  mutating : Bool
  deriving Repr, Inhabited

/-- The definition that the model's endpoint is given, in canonical order. -/
def Tool.spec (t : Tool) : Json :=
  .ofMembers [("type", .string "function"),
    ("function", .ofMembers [("name", .string t.name), ("description", .string t.description),
      ("parameters", t.parameters)])]

inductive Operation
  | listPods
  | getPodDetail
  | getPodLogs
  | listDeployments
  | getDeploymentDetail
  | listNodes
  | getNodeDetail
  | listEvents
  | listServices
  | listIngresses
  | scaleDeployment
  | restartDeployment
  deriving Repr, DecidableEq, Inhabited

namespace Operation

def all : List Operation :=
  [.listPods, .getPodDetail, .getPodLogs, .listDeployments, .getDeploymentDetail, .listNodes, .getNodeDetail,
    .listEvents, .listServices, .listIngresses, .scaleDeployment, .restartDeployment]

def name : Operation → String
  | .listPods => "list_pods"
  | .getPodDetail => "get_pod_detail"
  | .getPodLogs => "get_pod_logs"
  | .listDeployments => "list_deployments"
  | .getDeploymentDetail => "get_deployment_detail"
  | .listNodes => "list_nodes"
  | .getNodeDetail => "get_node_detail"
  | .listEvents => "list_events"
  | .listServices => "list_services"
  | .listIngresses => "list_ingresses"
  | .scaleDeployment => "scale_deployment"
  | .restartDeployment => "restart_deployment"

def ofName? (s : String) : Option Operation := all.find? fun o => o.name == s

def mutating : Operation → Bool
  | .scaleDeployment | .restartDeployment => true
  | _ => false

def description : Operation → String
  | .listPods => "List pods in a namespace (or all namespaces) with their phase, readiness and restart counts"
  | .getPodDetail => "Get details of a pod, including container states and conditions"
  | .getPodLogs => "Get the most recent log lines of a pod (at most 100 lines)"
  | .listDeployments => "List deployments in a namespace (or all namespaces) with their replica counts"
  | .getDeploymentDetail => "Get details of a deployment"
  | .listNodes => "List all nodes of the cluster with their status, roles and capacity"
  | .getNodeDetail => "Get details of a node, including allocatable resources, conditions and taints"
  | .listEvents => "List the 50 most recent Kubernetes events of a namespace, optionally for a single resource"
  | .listServices => "List services in a namespace (or all namespaces)"
  | .listIngresses => "List ingresses in a namespace (or all namespaces)"
  | .scaleDeployment => "Scale a deployment (write operation, requires user confirmation)"
  | .restartDeployment => "Restart a deployment via rollout restart (write operation, requires user confirmation)"

private def property (key kind description : String) : String × Json :=
  (key, .ofMembers [("type", .string kind), ("description", .string description)])

private def schema (properties : List (String × Json)) (required : List String) : Json :=
  .ofMembers [("type", .string "object"), ("properties", .ofMembers properties),
    ("required", .array (required.map .string))]

private def namespaceFilter : String × Json :=
  property "namespace" "string" "Namespace name; leave empty to cover all namespaces"

private def pod : List (String × Json) :=
  [property "namespace" "string" "Namespace of the pod", property "name" "string" "Pod name"]

private def deployment : List (String × Json) :=
  [property "namespace" "string" "Namespace of the deployment", property "name" "string" "Deployment name"]

def parameters : Operation → Json
  | .listPods | .listDeployments | .listServices | .listIngresses => schema [namespaceFilter] []
  | .getPodDetail => schema pod ["namespace", "name"]
  | .getPodLogs =>
    schema (pod ++ [property "container" "string" "Container name, only needed for multi-container pods"])
      ["namespace", "name"]
  | .getDeploymentDetail => schema deployment ["namespace", "name"]
  | .listNodes => schema [] []
  | .getNodeDetail => schema [property "name" "string" "Node name"] ["name"]
  | .listEvents =>
    schema [namespaceFilter, property "resource_name" "string" "Only return events involving this resource"] []
  | .scaleDeployment =>
    schema
      (deployment ++ [property "replicas" "integer" "Target replica count",
        property "confirmed" "boolean"
          "Whether the user has confirmed; the first call must be false to ask for confirmation"])
      ["namespace", "name", "replicas"]
  | .restartDeployment =>
    schema (deployment ++ [property "confirmed" "boolean" "Whether the user has confirmed the restart"])
      ["namespace", "name"]

def tool (o : Operation) : Tool := ⟨o.name, o.description, o.parameters, o.mutating⟩

end Operation

/-- What the model is offered. -/
def catalog : List Tool := Operation.all.map Operation.tool

end Helmsman
