import Helmsman.Proofs.Cluster.Update
/-!
# What a store can hold

Counts are numbers of 32 bits, labels are in the order of their keys, and no list is longer than a word can count.
`Store.Sound` says so of all that a report shows. Whatever is inserted into a store is sound, and both writes leave a
sound store sound.
-/

namespace Helmsman

/-- A number of 32 bits with a sign. -/
def Word.Fits32 (n : Int) : Prop := lowest32 ≤ n ∧ n ≤ highest32

instance (n : Int) : Decidable (Word.Fits32 n) := inferInstanceAs (Decidable (_ ∧ _))

/-- Keys that are in order, each of them once. -/
def Labels.Ordered (labels : Labels) : Prop := labels.Pairwise fun l l' => l.1 < l'.1

structure Container.Sound (c : Container) : Prop where
  restartCount : Word.Fits32 c.restartCount
  exitCode : ∀ reason code, c.state = some (.terminated reason code) → Word.Fits32 code

structure Pod.Sound (p : Pod) : Prop where
  labels : p.labels.Ordered
  containers : ∀ c ∈ p.containers, c.Sound

structure Deployment.Sound (d : Deployment) : Prop where
  replicas : Word.Fits32 d.replicas
  readyReplicas : Word.Fits32 d.readyReplicas
  availableReplicas : Word.Fits32 d.availableReplicas
  updatedReplicas : Word.Fits32 d.updatedReplicas
  labels : d.labels.Ordered

structure Cluster.Sound (c : Cluster) : Prop where
  pods : ∀ p ∈ c.pods, p.pod.Sound
  deployments : ∀ d ∈ c.deployments, d.Sound
  nodes : ∀ n ∈ c.nodes, n.labels.Ordered
  happenings : ∀ e ∈ c.happenings, Word.Fits32 e.count
  podCount : c.pods.length ≤ Word.unsigned64
  deploymentCount : c.deployments.length ≤ Word.unsigned64
  nodeCount : c.nodes.length ≤ Word.unsigned64
  serviceCount : c.services.length ≤ Word.unsigned64
  ingressCount : c.ingresses.length ≤ Word.unsigned64

def Store.Sound (s : Store) : Prop := ∀ c ∈ s.clusters, c.Sound

namespace Store

variable {s s' : Store}

theorem Sound.empty : Store.Sound {} := List.forall_mem_nil _

theorem Sound.insert (hs : s.Sound) {c : Cluster} (hc : c.Sound) : (s.insert c).Sound := by
  intro d hd
  rcases mem_insertCluster hd with rfl | hd
  · exact hc
  · exact hs d hd

theorem Sound.ofClusters {clusters : List Cluster} (h : ∀ c ∈ clusters, c.Sound) : (ofClusters clusters).Sound := by
  have hfold : ∀ s : Store, s.Sound → (clusters.foldl Store.insert s).Sound := by
    induction clusters with
    | nil => exact fun _ hs => hs
    | cons c clusters ih =>
      obtain ⟨hc, hrest⟩ := List.forall_mem_cons.1 h
      exact fun s hs => ih hrest _ (hs.insert hc)
  exact hfold {} Sound.empty

theorem Sound.ready (hs : s.Sound) {id : Nat} {c : Cluster} (h : s.ready id = .ok c) : c.Sound :=
  hs c (List.mem_of_find?_eq_some (ready_eq_ok_iff.1 h).1)

theorem Sound.updateDeployment (hs : s.Sound) {id : Nat} {ns name : String} {f : Deployment → Deployment}
    (hf : ∀ d : Deployment, d.Sound → (f d).Sound) (h : s.updateDeployment id ns name f = .ok s') : s'.Sound := by
  obtain ⟨c, deployments, hready, hu, rfl⟩ := updateDeployment_eq_ok_iff.1 h
  obtain ⟨before, d, behind, hc, -, -, rfl⟩ := exists_of_updateFirst hu
  have hsound := hs.ready hready
  have hchanged : ∀ d' ∈ before ++ f d :: behind, d'.Sound := by
    intro d' hd'
    have hold := hsound.deployments
    rw [hc] at hold
    rcases List.mem_append.1 hd' with hd' | hd'
    · exact hold d' (List.mem_append_left _ hd')
    · rcases List.mem_cons.1 hd' with rfl | hd'
      · exact hf d (hold d (List.mem_append_right _ List.mem_cons_self))
      · exact hold d' (List.mem_append_right _ (List.mem_cons_of_mem d hd'))
  have hcount : (before ++ f d :: behind).length = c.deployments.length := by
    rw [hc, List.length_append, List.length_append, List.length_cons, List.length_cons]
  exact hs.insert { hsound with deployments := hchanged, deploymentCount := hcount ▸ hsound.deploymentCount }

theorem Sound.scale (hs : s.Sound) {id : Nat} {ns name : String} {replicas : Int} (hcount : Word.Fits32 replicas)
    (h : s.scale id ns name replicas = .ok s') : s'.Sound := by
  rw [Store.scale] at h
  split at h
  · cases h
  · refine Sound.updateDeployment hs ?_ h
    exact fun d hd => ⟨hcount, hd.readyReplicas, hd.availableReplicas, hd.updatedReplicas, hd.labels⟩

theorem Sound.restart (hs : s.Sound) {id : Nat} {ns name : String} {now : Instant}
    (h : s.restart id ns name now = .ok s') : s'.Sound := by
  rw [Store.restart] at h
  refine Sound.updateDeployment hs ?_ h
  exact fun d hd => ⟨hd.replicas, hd.readyReplicas, hd.availableReplicas, hd.updatedReplicas, hd.labels⟩

end Store

end Helmsman
