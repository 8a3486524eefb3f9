import Helmsman.Proofs.Estate.Isolation
import Mathlib.Data.List.Induction
/-!
# The history of a store

A store starts with the clusters of a file, and then clusters are inserted, deployments are scaled and restarted, and
whatever it holds is read (`Command`). A write is refused for one of four reasons (`Write.Refused`), and one that is not
refused does one thing (`Write.Made`): it changes the first deployment of the name, in the cluster with the number. The
reading of one deployment finds the same first one, so it finds what the write has made of it.
-/

namespace Helmsman

/-! ### What can be done to a store -/

/-- What can be asked of a store about one cluster. -/
inductive Query
  | cluster
  | pods (ns : Option String)
  | pod (ns name : String)
  | logs (ns name : String) (container : Option String) (count : Nat)
  | deployments (ns : Option String)
  | deployment (ns name : String)
  | nodes
  | node (name : String)
  | happenings (ns : Option String)
  | services (ns : Option String)
  | ingresses (ns : Option String)

/-- What a question is answered with. -/
def Query.Answer : Query → Type
  | .cluster => ClusterInfo
  | .pods _ => List Pod
  | .pod .. => Pod
  | .logs .. => String
  | .deployments _ => List Deployment
  | .deployment .. => Deployment
  | .nodes => List Node
  | .node _ => Node
  | .happenings _ => List Happening
  | .services _ => List Service
  | .ingresses _ => List Ingress

/-- Whether the answer shows deployments. -/
def Query.showsDeployments : Query → Bool
  | .deployments _ | .deployment .. => true
  | _ => false

/-- A change to a deployment. -/
structure Write where
  id : Nat
  ns : String
  name : String
  now : Instant
  change : Change

inductive Command
  | insert (c : Cluster)
  | write (w : Write)
  | read (id : Nat) (q : Query)

def Command.isRead : Command → Bool
  | .read .. => true
  | _ => false

namespace Write

def apply (w : Write) (s : Store) : Except ClusterError Store := w.change.apply w.now s w.id w.ns w.name

/-- The deployment with the change made. -/
def changed (w : Write) (d : Deployment) : Deployment :=
  match w.change with
  | .scale replicas => { d with replicas }
  | .restart =>
    { d with templateAnnotations := d.templateAnnotations.insert Store.restartedAt (w.now.textWith "+00:00") }

def Names (w : Write) (d : Deployment) : Prop := d.ns = w.ns ∧ d.name = w.name

/-- Why a write is refused. -/
inductive Refused (w : Write) (s : Store) : Prop
  | negative {replicas : Int} (hchange : w.change = .scale replicas) (h : replicas < 0)
  | absent (h : s.find? w.id = none)
  | notReady {c : Cluster} (hfound : s.find? w.id = some c) (h : c.ready = false)
  | unnamed {c : Cluster} (hfound : s.find? w.id = some c) (h : ∀ d ∈ c.deployments, ¬ w.Names d)

/-- The count is all that scaling changes in a deployment, and the stamp is all that a restart changes. -/
inductive Differs (w : Write) (d d' : Deployment) : Prop
  | scaled {replicas : Int} (hchange : w.change = .scale replicas) (hcount : 0 ≤ replicas)
      (h : d' = { d with replicas })
  | restarted {labels : Labels} (hchange : w.change = .restart) (h : d' = { d with templateAnnotations := labels })
      (hstamp : labels.get? Store.restartedAt = some (w.now.textWith "+00:00"))
      (hothers : ∀ key ≠ Store.restartedAt, labels.get? key = d.templateAnnotations.get? key)

/-- A write has been made: in its cluster the first deployment of the name is another one now. -/
structure Made (w : Write) (s s' : Store) (c : Cluster) (before : List Deployment) (d d' : Deployment)
    (behind : List Deployment) : Prop where
  found : s.find? w.id = some c
  ready : c.ready = true
  deployments : c.deployments = before ++ d :: behind
  named : w.Names d
  first : ∀ b ∈ before, ¬ w.Names b
  differs : w.Differs d d'
  /-- What stands under the numbers now. -/
  settled : ∀ id, s'.find? id
    = if id = w.id then some { c with deployments := before ++ d' :: behind } else s.find? id

end Write

namespace Store

def answer (s : Store) (id : Nat) : (q : Query) → Except ClusterError q.Answer
  | .cluster => s.getCluster id
  | .pods ns => s.listPods id ns
  | .pod ns name => s.getPod id ns name
  | .logs ns name container count => s.podLogs id ns name container count
  | .deployments ns => s.listDeployments id ns
  | .deployment ns name => s.getDeployment id ns name
  | .nodes => s.listNodes id
  | .node name => s.getNode id name
  | .happenings ns => s.listHappenings id ns
  | .services ns => s.listServices id ns
  | .ingresses ns => s.listIngresses id ns

/-- The store behind a command: as it was if the command only reads, or is a write that is refused. -/
def after (s : Store) : Command → Store
  | .insert c => s.insert c
  | .write w => (w.apply s).toOption.getD s
  | .read .. => s

def afterAll (s : Store) (history : List Command) : Store := history.foldl after s

/-! ### Writes -/

variable {s s' : Store} {w : Write}

theorem isDeployment_eq_true_iff {d : Deployment} : isDeployment w.ns w.name d = true ↔ w.Names d := by
  rw [isDeployment, Bool.and_eq_true, beq_iff_eq, beq_iff_eq, Write.Names]

theorem isDeployment_eq_false_iff {d : Deployment} : isDeployment w.ns w.name d = false ↔ ¬ w.Names d := by
  rw [← isDeployment_eq_true_iff, Bool.not_eq_true]

/-- Only a count that is negative is refused before anything is looked up. -/
theorem apply_cases (w : Write) (s : Store) :
    (∃ replicas e, w.change = .scale replicas ∧ replicas < 0 ∧ w.apply s = .error e)
      ∨ ((∀ replicas, w.change = .scale replicas → 0 ≤ replicas)
        ∧ w.apply s = s.updateDeployment w.id w.ns w.name w.changed) := by
  obtain ⟨id, ns, name, now, change⟩ := w
  cases change with
  | scale replicas =>
    show (_ ∨ (_ ∧ s.scale id ns name replicas = s.updateDeployment id ns name fun d => { d with replicas }))
    by_cases hneg : replicas < 0
    · exact .inl ⟨replicas, _, rfl, hneg, if_pos hneg⟩
    · refine .inr ⟨fun n hn => ?_, if_neg hneg⟩
      obtain rfl := Change.scale.inj hn
      omega
  | restart => exact .inr ⟨fun n hn => (nomatch hn), rfl⟩

theorem updateDeployment_refused_iff {f : Deployment → Deployment} :
    (∃ e, s.updateDeployment w.id w.ns w.name f = .error e) ↔ s.find? w.id = none
      ∨ ∃ c, s.find? w.id = some c ∧ (c.ready = false ∨ ∀ d ∈ c.deployments, ¬ w.Names d) := by
  have hnames : ∀ c : Cluster, updateFirst (isDeployment w.ns w.name) f c.deployments = none
      ↔ ∀ d ∈ c.deployments, ¬ w.Names d := by
    intro c
    simp only [updateFirst_eq_none_iff, isDeployment_eq_false_iff]
  rw [updateDeployment, ready]
  cases s.find? w.id with
  | none => simp [bind, Except.bind]
  | some c =>
    cases hready : c.ready with
    | false => simp [bind, Except.bind, hready]
    | true =>
      cases hu : updateFirst (isDeployment w.ns w.name) f c.deployments with
      | none => simpa [bind, Except.bind, hready, hu] using (hnames c).1 hu
      | some deployments =>
        have hnamed : ¬ ∀ d ∈ c.deployments, ¬ w.Names d := by
          rw [← hnames, hu]
          exact Option.some_ne_none deployments
        simpa [bind, Except.bind, pure, Except.pure, hready, hu] using hnamed

/-- A write is refused for one of the four reasons, and for no other. -/
theorem refused_iff : (∃ e, w.apply s = .error e) ↔ w.Refused s := by
  rcases apply_cases w s with ⟨replicas, e, hchange, hneg, happly⟩ | ⟨hcount, happly⟩
  · exact ⟨fun _ => .negative hchange hneg, fun _ => ⟨e, happly⟩⟩
  · rw [happly, updateDeployment_refused_iff]
    constructor
    · rintro (habsent | ⟨c, hfound, hready | hunnamed⟩)
      · exact .absent habsent
      · exact .notReady hfound hready
      · exact .unnamed hfound hunnamed
    · intro h
      cases h with
      | negative hchange hneg =>
        have := hcount _ hchange
        omega
      | absent h => exact .inl h
      | notReady hfound h => exact .inr ⟨_, hfound, .inl h⟩
      | unnamed hfound h => exact .inr ⟨_, hfound, .inr h⟩

theorem changed_differs (hcount : ∀ replicas, w.change = .scale replicas → 0 ≤ replicas) (d : Deployment) :
    w.Differs d (w.changed d) := by
  cases hchange : w.change with
  | scale replicas =>
    refine .scaled hchange (hcount replicas hchange) ?_
    rw [Write.changed, hchange]
  | restart =>
    refine .restarted hchange (by rw [Write.changed, hchange]) (Labels.get?_insert_self _ _ _) fun key hkey => ?_
    exact Labels.get?_insert_of_ne hkey _ _

theorem made_of_apply (h : w.apply s = .ok s') :
    ∃ c before d d' behind, w.Made s s' c before d d' behind := by
  rcases apply_cases w s with ⟨replicas, e, -, -, happly⟩ | ⟨hcount, happly⟩
  · rw [happly] at h
    cases h
  · rw [happly] at h
    obtain ⟨c, deployments, hready, hu, rfl⟩ := updateDeployment_eq_ok_iff.1 h
    obtain ⟨before, d, behind, hc, hbefore, hd, rfl⟩ := exists_of_updateFirst hu
    obtain ⟨hfound, hsynced⟩ := ready_eq_ok_iff.1 hready
    refine ⟨c, before, d, w.changed d, behind, hfound, hsynced, hc, isDeployment_eq_true_iff.1 hd,
      fun b hb => isDeployment_eq_false_iff.1 (hbefore b hb), changed_differs hcount d, fun id => ?_⟩
    rw [find?_insert, find?_id hfound]
    by_cases hid : id = w.id
    · rw [if_pos hid, if_pos hid.symm]
    · rw [if_neg hid, if_neg (Ne.symm hid)]

/-! ### What reads show of a write -/

theorem answer_congr {id : Nat} (h : s.find? id = s'.find? id) (q : Query) : s.answer id q = s'.answer id q := by
  cases q <;>
    simp only [answer, getCluster, listPods, getPod, podLogs, listDeployments, getDeployment, listNodes, getNode,
      listHappenings, listServices, listIngresses, ready_congr h, h] <;>
    rfl

/-- Only the reads that show deployments look at them. -/
theorem answer_of_deployments {id : Nat} {c : Cluster} {deployments : List Deployment} (h : s.find? id = some c)
    (h' : s'.find? id = some { c with deployments }) {q : Query} (hq : q.showsDeployments = false) :
    s'.answer id q = s.answer id q := by
  cases q with
  | deployments | deployment => cases hq
  | _ =>
    simp only [answer, getCluster, listPods, getPod, podLogs, listNodes, getNode, listHappenings, listServices,
      listIngresses, ready, h, h']
    first | rfl | cases c.ready <;> rfl

end Store

namespace Write.Made

variable {w : Write} {s s' : Store} {c : Cluster} {before behind : List Deployment} {d d' : Deployment}

/-- A deployment keeps its name. -/
theorem same_name (h : w.Differs d d') : (d'.ns, d'.name) = (d.ns, d.name) := by
  cases h with
  | scaled hchange hcount h => rw [h]
  | restarted hchange h => rw [h]

theorem found' (h : w.Made s s' c before d d' behind) :
    s'.find? w.id = some { c with deployments := before ++ d' :: behind } := by
  rw [h.settled, if_pos rfl]

/-- The deployment that was changed is the one that is found. -/
theorem getDeployment_eq (h : w.Made s s' c before d d' behind) :
    s'.getDeployment w.id w.ns w.name = .ok d' := by
  have hready : s'.ready w.id = .ok { c with deployments := before ++ d' :: behind } :=
    Store.ready_eq_ok_iff.2 ⟨h.found', h.ready⟩
  have hbefore : before.find? (Store.isDeployment w.ns w.name) = none := by
    rw [List.find?_eq_none]
    exact fun b hb hd => h.first b hb (Store.isDeployment_eq_true_iff.1 hd)
  have hnamed : w.Names d' := by
    obtain ⟨hns, hname⟩ := Prod.mk.inj (same_name h.differs)
    rw [Names, hns, hname]
    exact h.named
  rw [Store.getDeployment, hready]
  dsimp only [bind, Except.bind]
  rw [List.find?_append, hbefore, Option.none_or, List.find?_cons_of_pos (Store.isDeployment_eq_true_iff.2 hnamed)]
  rfl

/-- All answers are the same, but for deployments of the cluster. -/
theorem answer_eq (h : w.Made s s' c before d d' behind) {id : Nat} {q : Query}
    (hq : id = w.id → q.showsDeployments = false) : s'.answer id q = s.answer id q := by
  by_cases hid : id = w.id
  · subst hid
    exact Store.answer_of_deployments h.found h.found' (hq rfl)
  · refine Store.answer_congr ?_ q
    rw [h.settled, if_neg hid]

/-- The deployments that are listed have the same names in the same order. -/
theorem names_eq (h : w.Made s s' c before d d' behind) (id : Nat) (ns : Option String) :
    (s'.listDeployments id ns).map (List.map fun x => (x.ns, x.name))
      = (s.listDeployments id ns).map (List.map fun x => (x.ns, x.name)) := by
  by_cases hid : id = w.id
  · subst hid
    have hready : s.ready w.id = .ok c := Store.ready_eq_ok_iff.2 ⟨h.found, h.ready⟩
    have hready' : s'.ready w.id = .ok { c with deployments := before ++ d' :: behind } :=
      Store.ready_eq_ok_iff.2 ⟨h.found', h.ready⟩
    have hnames : (before ++ d' :: behind).map (fun x => (x.ns, x.name))
        = c.deployments.map fun x => (x.ns, x.name) := by
      rw [h.deployments, List.map_append, List.map_append, List.map_cons, List.map_cons, same_name h.differs]
    have hfilter : ∀ l : List Deployment, (l.filter fun x => inNamespace ns x.ns).map (fun x => (x.ns, x.name))
        = (l.map fun x => (x.ns, x.name)).filter fun x => inNamespace ns x.1 := by
      intro l
      rw [List.filter_map]
      rfl
    rw [Store.listDeployments, Store.listDeployments, hready, hready']
    show Except.ok _ = Except.ok _
    rw [hfilter, hfilter, hnames]
  · rw [Store.listDeployments, Store.listDeployments, Store.ready_congr]
    rw [h.settled, if_neg hid]

end Write.Made

namespace Store

variable {s s' : Store}

/-! ### What stands under a number -/

theorem find?_ofClusters (clusters : List Cluster) (id : Nat) :
    (ofClusters clusters).find? id = (clusters.filter fun c => c.id == id).getLast? := by
  induction clusters using List.reverseRecOn with
  | nil => rfl
  | append_singleton clusters c ih =>
    have hlast : ofClusters (clusters ++ [c]) = (ofClusters clusters).insert c := List.foldl_append
    rw [hlast, find?_insert, ih, List.filter_append]
    by_cases hid : c.id = id <;> simp [hid]

theorem after_agrees {id : Nat} (h : s.find? id = s'.find? id) (c : Command) :
    (s.after c).find? id = (s'.after c).find? id := by
  cases c with
  | insert c =>
    show (s.insert c).find? id = (s'.insert c).find? id
    rw [find?_insert, find?_insert, h]
  | write w =>
    show ((w.apply s).toOption.getD s).find? id = ((w.apply s').toOption.getD s').find? id
    by_cases hid : id = w.id
    · subst hid
      have hsame := Change.apply_sameOutcome h w.now w.ns w.name w.change
      rw [Write.apply, Write.apply]
      generalize w.change.apply w.now s w.id w.ns w.name = result,
        w.change.apply w.now s' w.id w.ns w.name = result' at hsame
      cases hsame with
      | refused error => exact h
      | made hfound => exact hfound
    · have hspared : ∀ t : Store, ((w.apply t).toOption.getD t).find? id = t.find? id := by
        intro t
        cases happly : w.apply t with
        | error e => rfl
        | ok t' =>
          obtain ⟨c, before, d, d', behind, hmade⟩ := made_of_apply happly
          exact (hmade.settled id).trans (if_neg hid)
      rw [hspared, hspared, h]
  | read => exact h

/-- What stands under a number behind a history depends only on what stood there before it. -/
theorem afterAll_agrees {id : Nat} (h : s.find? id = s'.find? id) (history : List Command) :
    (s.afterAll history).find? id = (s'.afterAll history).find? id := by
  induction history generalizing s s' with
  | nil => exact h
  | cons c rest ih => exact ih (after_agrees h c)

/-- Reads leave no trace in a history. -/
theorem afterAll_filter (s : Store) (history : List Command) :
    s.afterAll (history.filter fun c => !c.isRead) = s.afterAll history := by
  induction history generalizing s with
  | nil => rfl
  | cons c rest ih =>
    cases c with
    | insert c => exact ih (s.insert c)
    | write w => exact ih (s.after (.write w))
    | read id q => exact ih s

/-- **What a history does to a store.** -/
theorem store_of_history (file : List Cluster) (history : List Command) :
    let s := (ofClusters file).afterAll history
    -- A cluster stands under its own number, and no other one has that number.
    (∀ id c, s.find? id = some c → c.id = id ∧ ∀ d ∈ s.clusters, d.id = id → d = c)
    -- Of the clusters of a file the last one with a number stands under it.
    ∧ (∀ id, (ofClusters file).find? id = (file.filter fun c => c.id == id).getLast?)
    -- An inserted cluster takes its place, and whatever stood there before has no effect any more.
    ∧ (∀ c id, (s.after (.insert c)).find? id = if c.id = id then some c else s.find? id)
    ∧ (∀ c (other : Store) more, ((s.after (.insert c)).afterAll more).find? c.id
      = ((other.after (.insert c)).afterAll more).find? c.id)
    -- Reads change nothing, and the store is the same without those that were made.
    ∧ (∀ id q, s.after (.read id q) = s) ∧ (ofClusters file).afterAll (history.filter fun c => !c.isRead) = s
    -- A write fails if it is refused, and only then. It leaves the store as it is.
    ∧ (∀ w, ((∃ e, w.apply s = .error e) ↔ w.Refused s) ∧ (w.Refused s → s.after (.write w) = s))
    -- Otherwise it changes the first deployment of the name, which then is the one that is found.
    ∧ ∀ w s', w.apply s = .ok s' → s.after (.write w) = s' ∧ ∃ c before d d' behind,
      w.Made s s' c before d d' behind
      ∧ s'.getDeployment w.id w.ns w.name = .ok d'
      ∧ (∀ id q, (id = w.id → q.showsDeployments = false) → s'.answer id q = s.answer id q)
      ∧ ∀ id ns, (s'.listDeployments id ns).map (List.map fun x => (x.ns, x.name))
        = (s.listDeployments id ns).map (List.map fun x => (x.ns, x.name)) := by
  intro s
  refine ⟨fun id c h => ⟨find?_id h, fun d hd hid => eq_of_find? h hd hid⟩, find?_ofClusters file,
    fun c id => find?_insert s c id, fun c other more => ?_, fun id q => rfl, afterAll_filter _ history,
    fun w => ⟨refused_iff, fun hrefused => ?_⟩, fun w s' h => ⟨?_, ?_⟩⟩
  · apply afterAll_agrees
    show (s.insert c).find? c.id = (other.insert c).find? c.id
    rw [find?_insert, find?_insert, if_pos rfl, if_pos rfl]
  · obtain ⟨e, he⟩ := refused_iff.2 hrefused
    show (w.apply s).toOption.getD s = s
    rw [he]
    rfl
  · show (w.apply s).toOption.getD s = s'
    rw [h]
    rfl
  · obtain ⟨c, before, d, d', behind, hmade⟩ := made_of_apply h
    exact ⟨c, before, d, d', behind, hmade, hmade.getDeployment_eq, fun id q => hmade.answer_eq, hmade.names_eq⟩

end Store

end Helmsman
