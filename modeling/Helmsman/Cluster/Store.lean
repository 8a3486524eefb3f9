import Helmsman.Cluster.Resource
import Helmsman.Text.Lines
/-!
# The store of clusters

A store holds clusters by number, each a synchronised copy of what the cluster contains. Reads answer from the copy,
and the two writes, scaling and restarting a deployment, change one deployment of one cluster and nothing else. A
cluster whose copy is not complete yet refuses both.
-/

namespace Helmsman

open Json Json.Shape

inductive ClusterError
  | unknownCluster (id : Nat)
  | notReady (id : Nat)
  | notFound (kind name : String)
  | refused (reason : String)
  deriving Repr, DecidableEq

def ClusterError.message : ClusterError → String
  | .unknownCluster id => "Cluster " ++ Decimal.ofNat id ++ " does not exist"
  | .notReady id => "Cluster " ++ Decimal.ofNat id ++ " is not ready, its cache has not synced"
  | .notFound kind name => kind ++ " " ++ name ++ " not found"
  | .refused reason => "Cluster API error: " ++ reason

structure ClusterInfo where
  id : Nat
  name : String
  version : String
  deriving Repr, DecidableEq, Inhabited

def ClusterInfo.toJson (c : ClusterInfo) : Json :=
  .object [("id", .ofNat c.id), ("name", .string c.name), ("version", .string c.version)]

/-- A pod and the logs of its containers by name. -/
structure LoggedPod where
  pod : Pod
  logs : Labels
  deriving Repr, DecidableEq, Inhabited

namespace LoggedPod

def shape : Shape := .overlay "SnapshotPod" [labelsField "logs"] Pod.fields

def ofJson (j : Json) : LoggedPod := ⟨.ofJson j, .ofJson (j.getD "logs")⟩

/-- The container whose log is meant when none is named. -/
def defaultContainer (p : LoggedPod) : String :=
  match p.pod.containers, p.logs with
  | c :: _, _ => c.name
  | [], (name, _) :: _ => name
  | [], [] => ""

end LoggedPod

structure Cluster where
  id : Nat
  name : String
  version : String
  ready : Bool := true
  pods : List LoggedPod := []
  deployments : List Deployment := []
  nodes : List Node := []
  happenings : List Happening := []
  services : List Service := []
  ingresses : List Ingress := []
  deriving Repr, DecidableEq, Inhabited

namespace Cluster

def shape : Shape :=
  let resources (name : String) (item : Shape) := fallback name (.list item) (.array [])
  .record "ClusterSnapshot" [required "id" unsigned64, required "name" .text, required "version" .text,
    fallback "ready" .flag (.bool true), resources "pods" LoggedPod.shape, resources "deployments" Deployment.shape,
    resources "nodes" Node.shape, resources "events" Happening.shape, resources "services" Service.shape,
    resources "ingresses" Ingress.shape]

def ofJson (j : Json) : Cluster where
  id := (j.getD "id").int.toNat
  name := (j.getD "name").text
  version := (j.getD "version").text
  ready := (j.getD "ready").flag
  pods := (j.getD "pods").items.map LoggedPod.ofJson
  deployments := (j.getD "deployments").items.map Deployment.ofJson
  nodes := (j.getD "nodes").items.map Node.ofJson
  happenings := (j.getD "events").items.map Happening.ofJson
  services := (j.getD "services").items.map Service.ofJson
  ingresses := (j.getD "ingresses").items.map Ingress.ofJson

def info (c : Cluster) : ClusterInfo := ⟨c.id, c.name, c.version⟩

end Cluster

/-- Clusters in the order of their numbers, one for each number. -/
structure Store where
  clusters : List Cluster := []
  ordered : clusters.Pairwise (fun c d => c.id < d.id) := by simp
  deriving Repr, DecidableEq

instance : Inhabited Store := ⟨{}⟩

/-- How a thing with a namespace is named in a message. -/
def qualified (ns name : String) : String := ns ++ "/" ++ name

/-- No namespace stands for all of them. -/
def inNamespace (ns : Option String) (candidate : String) : Bool := ns.all fun n => n == candidate

/-- The list with its first element of a kind changed. -/
def updateFirst {α : Type} (p : α → Bool) (f : α → α) : List α → Option (List α)
  | [] => none
  | a :: rest => if p a then some (f a :: rest) else (updateFirst p f rest).map (a :: ·)

namespace Store

def find? (s : Store) (id : Nat) : Option Cluster := s.clusters.find? fun c => c.id == id

def insertCluster (c : Cluster) : List Cluster → List Cluster
  | [] => [c]
  | d :: rest =>
    if c.id < d.id then c :: d :: rest
    else if d.id < c.id then d :: insertCluster c rest
    else c :: rest

theorem mem_insertCluster {c x : Cluster} {l : List Cluster} (h : x ∈ insertCluster c l) : x = c ∨ x ∈ l := by
  induction l with
  | nil => exact .inl (List.mem_singleton.1 h)
  | cons d rest ih =>
    rw [insertCluster] at h
    split at h
    · exact List.mem_cons.1 h
    · split at h
      · rcases List.mem_cons.1 h with rfl | h
        · exact .inr List.mem_cons_self
        · exact (ih h).imp_right (List.mem_cons_of_mem d)
      · exact (List.mem_cons.1 h).imp_right (List.mem_cons_of_mem d)

theorem insertCluster_ordered (c : Cluster) {l : List Cluster} (h : l.Pairwise (fun c d => c.id < d.id)) :
    (insertCluster c l).Pairwise (fun c d => c.id < d.id) := by
  induction l with
  | nil => exact List.pairwise_singleton _ c
  | cons d rest ih =>
    obtain ⟨hd, hrest⟩ := List.pairwise_cons.1 h
    rw [insertCluster]
    split
    · rename_i hlt
      refine List.pairwise_cons.2 ⟨fun x hx => ?_, h⟩
      rcases List.mem_cons.1 hx with rfl | hx
      · exact hlt
      · exact Nat.lt_trans hlt (hd x hx)
    · split
      · rename_i hlt
        refine List.pairwise_cons.2 ⟨fun x hx => ?_, ih hrest⟩
        rcases mem_insertCluster hx with rfl | hx
        · exact hlt
        · exact hd x hx
      · exact List.pairwise_cons.2 ⟨fun x hx => by have := hd x hx; omega, hrest⟩

/-- The store with a cluster in place of the one with its number. -/
def insert (s : Store) (c : Cluster) : Store := ⟨insertCluster c s.clusters, insertCluster_ordered c s.ordered⟩

def ofClusters (clusters : List Cluster) : Store := clusters.foldl insert {}

def fileShape : Shape := .record "SnapshotFile" [fallback "clusters" (.list Cluster.shape) (.array [])]

def ofText (text : Octets) : Except Fault Store :=
  (readText fileShape text).map fun j => ofClusters ((j.getD "clusters").items.map Cluster.ofJson)

/-! ### Reads -/

def getCluster (s : Store) (id : Nat) : Except ClusterError ClusterInfo :=
  match s.find? id with
  | none => .error (.unknownCluster id)
  | some c => .ok c.info

def ready (s : Store) (id : Nat) : Except ClusterError Cluster :=
  match s.find? id with
  | none => .error (.unknownCluster id)
  | some c => if c.ready then .ok c else .error (.notReady id)

def listPods (s : Store) (id : Nat) (ns : Option String) : Except ClusterError (List Pod) :=
  (s.ready id).map fun c => (c.pods.map (·.pod)).filter fun p => inNamespace ns p.ns

def isPod (ns name : String) (p : LoggedPod) : Bool := p.pod.ns == ns && p.pod.name == name

def findPod (c : Cluster) (ns name : String) : Except ClusterError LoggedPod :=
  match c.pods.find? (isPod ns name) with
  | some p => .ok p
  | none => .error (.notFound "Pod" (qualified ns name))

def getPod (s : Store) (id : Nat) (ns name : String) : Except ClusterError Pod := do
  let c ← s.ready id
  return (← findPod c ns name).pod

def podLogs (s : Store) (id : Nat) (ns name : String) (container : Option String) (count : Nat) :
    Except ClusterError String := do
  let c ← s.ready id
  let p ← findPod c ns name
  let container := container.getD p.defaultContainer
  match p.logs.get? container with
  | some log => return Text.tail count log
  | none => .error (.notFound "Container" (qualified (qualified ns name) container))

def listDeployments (s : Store) (id : Nat) (ns : Option String) : Except ClusterError (List Deployment) :=
  (s.ready id).map fun c => c.deployments.filter fun d => inNamespace ns d.ns

def isDeployment (ns name : String) (d : Deployment) : Bool := d.ns == ns && d.name == name

def deploymentNotFound (ns name : String) : ClusterError := .notFound "Deployment" (qualified ns name)

def getDeployment (s : Store) (id : Nat) (ns name : String) : Except ClusterError Deployment := do
  let c ← s.ready id
  match c.deployments.find? (isDeployment ns name) with
  | some d => return d
  | none => .error (deploymentNotFound ns name)

def listNodes (s : Store) (id : Nat) : Except ClusterError (List Node) := (s.ready id).map (·.nodes)

def getNode (s : Store) (id : Nat) (name : String) : Except ClusterError Node := do
  let c ← s.ready id
  match c.nodes.find? fun n => n.name == name with
  | some n => return n
  | none => .error (.notFound "Node" name)

def listHappenings (s : Store) (id : Nat) (ns : Option String) : Except ClusterError (List Happening) :=
  (s.ready id).map fun c => c.happenings.filter fun e => inNamespace ns e.ns

def listServices (s : Store) (id : Nat) (ns : Option String) : Except ClusterError (List Service) :=
  (s.ready id).map fun c => c.services.filter fun v => inNamespace ns v.ns

def listIngresses (s : Store) (id : Nat) (ns : Option String) : Except ClusterError (List Ingress) :=
  (s.ready id).map fun c => c.ingresses.filter fun i => inNamespace ns i.ns

/-! ### Writes -/

/-- The store with the first deployment of a name changed. -/
def updateDeployment (s : Store) (id : Nat) (ns name : String) (f : Deployment → Deployment) :
    Except ClusterError Store := do
  let c ← s.ready id
  match updateFirst (isDeployment ns name) f c.deployments with
  | some deployments => return s.insert { c with deployments }
  | none => .error (deploymentNotFound ns name)

def scale (s : Store) (id : Nat) (ns name : String) (replicas : Int) : Except ClusterError Store :=
  if replicas < 0 then .error (.refused ("replicas must be non-negative, got " ++ Decimal.ofInt replicas))
  else s.updateDeployment id ns name fun d => { d with replicas }

/-- The annotation that makes a cluster roll a deployment's pods over. -/
def restartedAt : String := "kubectl.kubernetes.io/restartedAt"

/-- The pods' template stamped with the time of the restart. -/
def restart (s : Store) (id : Nat) (ns name : String) (at_ : Instant) : Except ClusterError Store :=
  s.updateDeployment id ns name fun d =>
    { d with templateAnnotations := d.templateAnnotations.insert restartedAt (at_.textWith "+00:00") }

end Store

end Helmsman
