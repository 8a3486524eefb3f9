import Helmsman.Proofs.Estate.Log
/-!
# Clusters are kept apart

A store holds many clusters, and a call is about one of them. Whatever the call reads, it reads through `Store.ready`,
which looks that one cluster up; whatever it writes, it puts back under the same number. So in two estates that agree on
the cluster a call answers alike and leaves the same record, and they go on agreeing, whatever else they hold
(`answer_agrees`, `invoke_agrees`). No other cluster is touched (`invoke_spares`). `invokeAll_isolated` says both of
every sequence of calls.
-/

namespace Helmsman

namespace Store

variable {s s' : Store} {id : Nat}

theorem ready_congr (h : s.find? id = s'.find? id) : s.ready id = s'.ready id := by
  rw [ready, ready, h]

/-- The outcomes of one write in two stores, which agree on a cluster if they agreed before. -/
inductive SameOutcome (id : Nat) : Except ClusterError Store → Except ClusterError Store → Prop
  | refused (error : ClusterError) : SameOutcome id (.error error) (.error error)
  | made {t t' : Store} (h : t.find? id = t'.find? id) : SameOutcome id (.ok t) (.ok t')

theorem updateDeployment_sameOutcome (h : s.find? id = s'.find? id) (ns name : String) (f : Deployment → Deployment) :
    SameOutcome id (s.updateDeployment id ns name f) (s'.updateDeployment id ns name f) := by
  rw [updateDeployment, updateDeployment, ready_congr h]
  cases s'.ready id with
  | error error => exact .refused error
  | ok c =>
    dsimp only [bind, Except.bind]
    cases updateFirst (isDeployment ns name) f c.deployments with
    | none => exact .refused _
    | some deployments =>
      apply SameOutcome.made
      rw [find?_insert, find?_insert, h]

theorem updateDeployment_spares {ns name : String} {f : Deployment → Deployment} {t : Store}
    (h : s.updateDeployment id ns name f = .ok t) {other : Nat} (hother : other ≠ id) :
    t.find? other = s.find? other := by
  obtain ⟨c, deployments, hready, -, rfl⟩ := updateDeployment_eq_ok_iff.1 h
  rw [find?_insert, if_neg]
  rw [ready_id hready]
  exact hother.symm

end Store

/-- Every operation reads the cluster that it is about, and no other. -/
theorem Operation.read_congr {s s' : Store} {id : Nat} (h : s.find? id = s'.find? id) (now : Instant) (a : Arguments)
    (o : Operation) : o.read now s id a = o.read now s' id a := by
  cases o <;>
    simp only [read, Store.listPods, Store.getPod, Store.podLogs, Store.listDeployments, Store.getDeployment,
      Store.listNodes, Store.getNode, Store.listHappenings, Store.listServices, Store.listIngresses,
      Store.ready_congr h]

/-! ### Attempts -/

theorem Change.apply_sameOutcome {s s' : Store} {id : Nat} (h : s.find? id = s'.find? id) (now : Instant)
    (ns name : String) (c : Change) : Store.SameOutcome id (c.apply now s id ns name) (c.apply now s' id ns name) := by
  cases c with
  | scale replicas =>
    simp only [apply, Store.scale]
    split
    · exact .refused _
    · exact Store.updateDeployment_sameOutcome h ns name _
  | restart => exact Store.updateDeployment_sameOutcome h ns name _

namespace Attempt

variable {s s' : Store} {t : Attempt}

theorem apply_sameOutcome (h : s.find? t.scope.cluster.id = s'.find? t.scope.cluster.id) :
    Store.SameOutcome t.scope.cluster.id (t.apply s) (t.apply s') :=
  Change.apply_sameOutcome h t.now t.ns t.name t.change

theorem outcome_agrees (h : s.find? t.scope.cluster.id = s'.find? t.scope.cluster.id) :
    (t.outcome s).find? t.scope.cluster.id = (t.outcome s').find? t.scope.cluster.id := by
  have happly := apply_sameOutcome h
  rw [outcome, outcome]
  generalize t.apply s = result, t.apply s' = result' at happly
  cases happly with
  | refused error => exact h
  | made hfound => exact hfound

theorem record_agrees (h : s.find? t.scope.cluster.id = s'.find? t.scope.cluster.id) : t.record s = t.record s' := by
  have happly := apply_sameOutcome h
  rw [record, record, error?, error?]
  generalize t.apply s = result, t.apply s' = result' at happly
  cases happly <;> rfl

theorem outcome_spares {other : Nat} (h : other ≠ t.scope.cluster.id) (s : Store) :
    (t.outcome s).find? other = s.find? other := by
  rw [outcome]
  cases hs : t.apply s with
  | error error => rfl
  | ok s' => exact Store.updateDeployment_spares (updateDeployment_of_apply hs) h

end Attempt

namespace Invocation

/-- An attempt is made in the scope of its call. -/
theorem attempt?_scope {v : Invocation} {t : Attempt} (h : v.attempt? = some t) : t.scope = v.scope := by
  rw [attempt?] at h
  split at h
  · split at h
    · obtain ⟨c, -, rfl⟩ := Option.map_eq_some_iff.1 h
      rfl
    · cases h
  · cases h

end Invocation

/-! ### Calls -/

namespace Estate

def answer (e : Estate) (v : Invocation) : Except CallFailure String :=
  (e.execute v.now v.scope v.name v.arguments v.cancelled).1

/-- What the calls of a sequence answer, each in the estate that those before it leave. -/
def answers (e : Estate) : List Invocation → List (Except CallFailure String)
  | [] => []
  | v :: rest => e.answer v :: (e.invoke v).answers rest

variable {e e' : Estate}

theorem run_agrees {scope : Scope} (h : e.store.find? scope.cluster.id = e'.store.find? scope.cluster.id)
    (now : Instant) (o : Operation) (a : Arguments) : (e.run now scope o a).1 = (e'.run now scope o a).1 := by
  rw [run, run]
  cases Change.of? a o with
  | none => exact Operation.read_congr h now a o
  | some c =>
    dsimp only
    split
    · have happly := Attempt.apply_sameOutcome (t := ⟨now, scope, a.ns, a.name, c⟩) h
      rw [change_eq e ⟨now, scope, a.ns, a.name, c⟩, change_eq e' ⟨now, scope, a.ns, a.name, c⟩]
      generalize Attempt.apply _ e.store = result, Attempt.apply _ e'.store = result' at happly
      cases happly <;> rfl
    · rfl

theorem answer_agrees {v : Invocation} (h : e.store.find? v.scope.cluster.id = e'.store.find? v.scope.cluster.id) :
    e.answer v = e'.answer v := by
  rw [answer, answer, execute, execute]
  cases v.cancelled with
  | true => rfl
  | false =>
    cases Operation.ofName? v.name with
    | none => rfl
    | some o =>
      simp only [Bool.false_eq_true, if_false]
      cases (if o = .listNodes then .ok ⟨[]⟩ else Arguments.decode v.arguments : Except ToolError Arguments) with
      | error error => rfl
      | ok a =>
        dsimp only
        rw [run_agrees h]

/-- A call leaves the same record in estates that agree on its cluster, and they still agree then. -/
theorem invoke_agrees {v : Invocation} (h : e.store.find? v.scope.cluster.id = e'.store.find? v.scope.cluster.id) :
    (∃ records, (e.invoke v).audit = e.audit ++ records ∧ (e'.invoke v).audit = e'.audit ++ records)
      ∧ (e.invoke v).store.find? v.scope.cluster.id = (e'.invoke v).store.find? v.scope.cluster.id := by
  rw [invoke_eq, invoke_eq]
  cases ht : v.attempt? with
  | none => exact ⟨⟨[], (List.append_nil _).symm, (List.append_nil _).symm⟩, h⟩
  | some t =>
    rw [← Invocation.attempt?_scope ht] at h ⊢
    refine ⟨⟨[t.record e.store], rfl, ?_⟩, Attempt.outcome_agrees h⟩
    rw [Attempt.record_agrees h]
    rfl

theorem invoke_spares {v : Invocation} {other : Nat} (h : other ≠ v.scope.cluster.id) (e : Estate) :
    (e.invoke v).store.find? other = e.store.find? other := by
  rw [invoke_eq]
  cases ht : v.attempt? with
  | none => rfl
  | some t =>
    rw [← Invocation.attempt?_scope ht] at h
    exact Attempt.outcome_spares h e.store

theorem invokeAll_spares {calls : List Invocation} {other : Nat} (h : ∀ v ∈ calls, other ≠ v.scope.cluster.id)
    (e : Estate) : (e.invokeAll calls).store.find? other = e.store.find? other := by
  induction calls generalizing e with
  | nil => rfl
  | cons v rest ih =>
    obtain ⟨hv, hrest⟩ := List.forall_mem_cons.1 h
    exact (ih hrest (e.invoke v)).trans (invoke_spares hv e)

/-- What holds of one call holds of a sequence of calls about one cluster. -/
theorem invokeAll_agrees {id : Nat} (hagree : e.store.find? id = e'.store.find? id) {calls : List Invocation}
    (hcalls : ∀ v ∈ calls, v.scope.cluster.id = id) :
    e.answers calls = e'.answers calls
      ∧ (∃ records, (e.invokeAll calls).audit = e.audit ++ records ∧ (e'.invokeAll calls).audit = e'.audit ++ records)
      ∧ (e.invokeAll calls).store.find? id = (e'.invokeAll calls).store.find? id := by
  induction calls generalizing e e' with
  | nil => exact ⟨rfl, ⟨[], (List.append_nil _).symm, (List.append_nil _).symm⟩, hagree⟩
  | cons v rest ih =>
    obtain ⟨rfl, hrest⟩ := List.forall_mem_cons.1 hcalls
    obtain ⟨⟨records, hrecords, hrecords'⟩, hcluster⟩ := invoke_agrees hagree
    obtain ⟨hanswers, ⟨more, hmore, hmore'⟩, hend⟩ := ih hcluster hrest
    refine ⟨?_, ⟨records ++ more, ?_, ?_⟩, hend⟩
    · rw [answers, answers, answer_agrees hagree, hanswers]
    · rw [← List.append_assoc, ← hrecords]
      exact hmore
    · rw [← List.append_assoc, ← hrecords']
      exact hmore'

/-- **Clusters are kept apart.** Two estates that hold the same cluster under a number, or none, give the same answers
to every sequence of calls about it and put the same on record, and they hold the same there afterwards. What either of
them holds under another number stays as it was. -/
theorem invokeAll_isolated {id : Nat} (hagree : e.store.find? id = e'.store.find? id) {calls : List Invocation}
    (hcalls : ∀ v ∈ calls, v.scope.cluster.id = id) :
    e.answers calls = e'.answers calls
      ∧ (∃ records, (e.invokeAll calls).audit = e.audit ++ records ∧ (e'.invokeAll calls).audit = e'.audit ++ records)
      ∧ (e.invokeAll calls).store.find? id = (e'.invokeAll calls).store.find? id
      ∧ ∀ other ≠ id, (e.invokeAll calls).store.find? other = e.store.find? other
        ∧ (e'.invokeAll calls).store.find? other = e'.store.find? other := by
  obtain ⟨hanswers, hrecords, hcluster⟩ := invokeAll_agrees hagree hcalls
  refine ⟨hanswers, hrecords, hcluster, fun other hother => ?_⟩
  have hspared : ∀ v ∈ calls, other ≠ v.scope.cluster.id := by
    intro v hv
    rw [hcalls v hv]
    exact hother
  exact ⟨invokeAll_spares hspared e, invokeAll_spares hspared e'⟩

/-- A cluster with one deployment, next to others in two stores. -/
def shop : Cluster where
  id := 1
  name := "shop"
  version := "v1.29.2"
  deployments := [{ (default : Deployment) with name := "web", ns := "default" }]

def besideBank : Estate := { store := .ofClusters [{ shop with id := 2, name := "bank" }, shop] }

def besideMill : Estate := { store := .ofClusters [shop, { shop with id := 3, name := "mill", ready := false }] }

/-- A reading call, a confirmed change, one that fails, and one whose arguments cannot be read. -/
def shopCalls : List Invocation :=
  let call (name arguments : String) : Invocation := ⟨⟨19723, 0, 0⟩, ⟨shop.info, "alice"⟩, name, arguments, false⟩
  [call "list_deployments" "",
    call "scale_deployment"
      "\x7b\"namespace\":\"default\",\"name\":\"web\",\"replicas\":3,\"confirmed\":true\x7d",
    call "restart_deployment" "\x7b\"namespace\":\"default\",\"name\":\"db\",\"confirmed\":true\x7d",
    call "get_pod_detail" "[]"]

theorem shopCalls_isolated :
    besideBank.store.find? 1 = besideMill.store.find? 1
      ∧ (∀ v ∈ shopCalls, v.scope.cluster.id = 1)
      ∧ besideBank.answers shopCalls = besideMill.answers shopCalls
      ∧ (∃ records, (besideBank.invokeAll shopCalls).audit = besideBank.audit ++ records
        ∧ (besideMill.invokeAll shopCalls).audit = besideMill.audit ++ records)
      ∧ (besideBank.invokeAll shopCalls).store.find? 1 = (besideMill.invokeAll shopCalls).store.find? 1
      ∧ (besideBank.invokeAll shopCalls).store.find? 2 = some { shop with id := 2, name := "bank" } := by
  have hagree : besideBank.store.find? 1 = besideMill.store.find? 1 := rfl
  have hcalls : ∀ v ∈ shopCalls, v.scope.cluster.id = 1 := by
    simp only [shopCalls, List.forall_mem_cons]
    exact ⟨rfl, rfl, rfl, rfl, List.forall_mem_nil _⟩
  obtain ⟨hanswers, hrecords, hcluster, hothers⟩ := invokeAll_isolated hagree hcalls
  exact ⟨hagree, hcalls, hanswers, hrecords, hcluster, (hothers 2 (by decide)).1⟩

end Estate

end Helmsman
