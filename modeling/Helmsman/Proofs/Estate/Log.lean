import Helmsman.Proofs.Cluster.Update
import Helmsman.Proofs.Estate.Attempt
/-!
# The log accounts for the store

Whatever calls are made, the log has one record for each attempt among them, in order, and the store is what the
attempts on record as successful make of it. `Cluster.settled` says what that is in one go, with no step in between:
the first deployment of a name has the last count that was set for it and the stamp of its last restart, and everything
else is as it was.
-/

namespace Helmsman

namespace Attempt

def replicas? (t : Attempt) : Option Int :=
  match t.change with
  | .scale replicas => some replicas
  | .restart => none

def restart? (t : Attempt) : Option Instant :=
  match t.change with
  | .scale _ => none
  | .restart => some t.now

def names (id : Nat) (d : Deployment) (t : Attempt) : Bool :=
  t.scope.cluster.id == id && Store.isDeployment t.ns t.name d

end Attempt

/-- The deployment after changes to it: the last count and the stamp of the last restart stay. -/
def Deployment.settled (made : List Attempt) (d : Deployment) : Deployment :=
  { d with
    replicas := (made.filterMap Attempt.replicas?).getLast?.getD d.replicas
    templateAnnotations := (made.filterMap Attempt.restart?).getLast?.elim d.templateAnnotations fun t =>
      d.templateAnnotations.insert Store.restartedAt (t.textWith "+00:00") }

namespace Cluster

/-- Whether one of the first deployments has the name of another, which then is never found. -/
def hides (c : Cluster) (i : Nat) (d : Deployment) : Bool :=
  (c.deployments.take i).any (Store.isDeployment d.ns d.name)

/-- The cluster after changes, each made to the first deployment of the name. -/
def settled (made : List Attempt) (c : Cluster) : Cluster :=
  { c with
    deployments := c.deployments.mapIdx fun i d =>
      if c.hides i d then d else d.settled (made.filter (Attempt.names c.id d)) }

end Cluster

/-! ### One change after another -/

namespace Deployment

theorem settled_nil (d : Deployment) : d.settled [] = d := rfl

theorem settled_append (made made' : List Attempt) (d : Deployment) :
    (d.settled made).settled made' = d.settled (made ++ made') := by
  simp only [settled, List.filterMap_append, List.getLast?_append, mk.injEq, true_and, and_true]
  constructor
  · cases (made'.filterMap Attempt.replicas?).getLast? <;> rfl
  · cases (made'.filterMap Attempt.restart?).getLast? with
    | none => rfl
    | some t =>
      cases (made.filterMap Attempt.restart?).getLast? with
      | none => rfl
      -- The stamp of the later restart takes the place of the earlier one.
      | some t' => exact Labels.insert_insert ..

end Deployment

private theorem any_take_eq {l l' : List Deployment} {p : Deployment → Bool} (h : l'.map p = l.map p) (i : Nat) :
    (l'.take i).any p = (l.take i).any p := by
  have hany : ∀ l : List Deployment, l.any p = (l.map p).any fun b => b := by
    intro l
    rw [List.any_map]
    rfl
  rw [hany, hany, List.map_take, List.map_take, h]

namespace Cluster

theorem getElem?_settled (made : List Attempt) (c : Cluster) (i : Nat) :
    (c.settled made).deployments[i]? = c.deployments[i]?.map fun d =>
      if c.hides i d then d else d.settled (made.filter (Attempt.names c.id d)) := List.getElem?_mapIdx

/-- Changes leave all names as they are, and so what is found by them. -/
theorem hides_settled (made : List Attempt) (c : Cluster) (i : Nat) (d : Deployment) :
    (c.settled made).hides i d = c.hides i d := by
  apply any_take_eq
  ext1 j
  rw [List.getElem?_map, List.getElem?_map, getElem?_settled, Option.map_map]
  congr 1
  funext x
  simp only [Function.comp_apply]
  split <;> rfl

theorem settled_append (made made' : List Attempt) (c : Cluster) :
    (c.settled made).settled made' = c.settled (made ++ made') := by
  have hdeployments : ((c.settled made).settled made').deployments = (c.settled (made ++ made')).deployments := by
    ext1 i
    rw [getElem?_settled, getElem?_settled, getElem?_settled, Option.map_map]
    congr 1
    funext d
    simp only [Function.comp_apply, hides_settled]
    by_cases h : c.hides i d = true
    · simp only [if_pos h]
    · simp only [if_neg h]
      rw [List.filter_append, ← Deployment.settled_append]
      exact if_neg h
  calc (c.settled made).settled made'
      = { c with deployments := ((c.settled made).settled made').deployments } := rfl
    _ = c.settled (made ++ made') := by rw [hdeployments]; rfl

theorem settled_of_ne {made : List Attempt} {c : Cluster} (h : ∀ t ∈ made, t.scope.cluster.id ≠ c.id) :
    c.settled made = c := by
  have hfilter : ∀ d, made.filter (Attempt.names c.id d) = [] := by
    intro d
    rw [List.filter_eq_nil_iff]
    intro t ht
    simp [Attempt.names, h t ht]
  have hdeployments : (c.settled made).deployments = c.deployments := by
    rw [settled, List.mapIdx_eq_iff]
    intro i
    simp only [hfilter, Deployment.settled_nil, ite_self, Option.map_id']
  calc c.settled made = { c with deployments := (c.settled made).deployments } := rfl
    _ = c := by rw [hdeployments]

theorem settled_singleton {t : Attempt} {c : Cluster} (h : t.scope.cluster.id = c.id) :
    c.settled [t] =
      { c with
        deployments := c.deployments.mapIdx fun i d =>
          if Store.isDeployment t.ns t.name d && !(c.deployments.take i).any (Store.isDeployment t.ns t.name) then
            d.settled [t]
          else d } := by
  simp only [settled, mk.injEq, true_and, and_true]
  congr 1
  funext i d
  cases hd : Store.isDeployment t.ns t.name d with
  | true =>
    have hname : d.ns = t.ns ∧ d.name = t.name := by simpa [Store.isDeployment] using hd
    have hfilter : [t].filter (Attempt.names c.id d) = [t] := by simp [Attempt.names, h, hd]
    rw [hfilter, hides, hname.1, hname.2]
    cases (c.deployments.take i).any (Store.isDeployment t.ns t.name) <;> rfl
  | false =>
    have hfilter : [t].filter (Attempt.names c.id d) = [] := by simp [Attempt.names, hd]
    rw [hfilter, Deployment.settled_nil, ite_self]
    rfl

end Cluster

/-! ### What an attempt does -/

namespace Attempt

theorem updateDeployment_of_apply {t : Attempt} {s s' : Store} (h : t.apply s = .ok s') :
    s.updateDeployment t.scope.cluster.id t.ns t.name (Deployment.settled [t]) = .ok s' := by
  obtain ⟨now, scope, ns, name, change⟩ := t
  cases change with
  | scale replicas =>
    simp only [apply, Change.apply, Store.scale] at h
    split at h
    · exact absurd h (by simp)
    · exact h
  | restart => exact h

theorem clusters_of_apply {t : Attempt} {s s' : Store} (h : t.apply s = .ok s') :
    s'.clusters = s.clusters.map (Cluster.settled [t]) := by
  rw [Store.updateDeployment_ok (updateDeployment_of_apply h)]
  apply List.map_congr_left
  intro c _
  by_cases hid : c.id = t.scope.cluster.id
  · rw [if_pos hid, Cluster.settled_singleton hid.symm]
  · rw [if_neg hid, Cluster.settled_of_ne]
    intro t' ht'
    rw [List.mem_singleton.1 ht']
    exact Ne.symm hid

theorem record_success (t : Attempt) (s : Store) : (t.record s).success = true ↔ ∃ s', t.apply s = .ok s' := by
  simp only [record, Change.record, error?]
  cases t.apply s <;> simp

end Attempt

/-! ### The log -/

/-- The attempts of an estate with what is put on record of each. -/
def Estate.log (e : Estate) : List Attempt → List (Attempt × AuditRecord)
  | [] => []
  | t :: rest => (t, t.record e.store) :: (e.attempt t).log rest

def Attempt.succeeded (log : List (Attempt × AuditRecord)) : List Attempt :=
  (log.filter fun p => p.2.success).map Prod.fst

theorem succeeded_cons (t : Attempt) (r : AuditRecord) (log : List (Attempt × AuditRecord)) :
    Attempt.succeeded ((t, r) :: log) = if r.success then t :: Attempt.succeeded log else Attempt.succeeded log := by
  rw [Attempt.succeeded, List.filter_cons]
  cases r.success <;> rfl

/-- What a record says of an attempt that was made in a store. -/
structure AuditRecord.Describes (r : AuditRecord) (t : Attempt) (s : Store) : Prop where
  actor : r.actor = t.scope.actor
  cluster : r.clusterId = t.scope.cluster.id ∧ r.clusterName = t.scope.cluster.name
  target : r.ns = t.ns ∧ r.resourceName = t.name
  action : r.action = t.change.action
  success : r.success = true ↔ ∃ s', t.apply s = .ok s'

theorem Attempt.record_describes (t : Attempt) (s : Store) : (t.record s).Describes t s where
  actor := rfl
  cluster := ⟨rfl, rfl⟩
  target := ⟨rfl, rfl⟩
  action := rfl
  success := t.record_success s

namespace Estate

theorem log_fst (e : Estate) (attempts : List Attempt) : (e.log attempts).map Prod.fst = attempts := by
  induction attempts generalizing e with
  | nil => rfl
  | cons t rest ih => rw [log, List.map_cons, ih]

theorem log_append (e : Estate) (attempts attempts' : List Attempt) :
    e.log (attempts ++ attempts') = e.log attempts ++ (attempts.foldl attempt e).log attempts' := by
  induction attempts generalizing e with
  | nil => rfl
  | cons t rest ih => rw [List.cons_append, log, ih, log, List.foldl_cons, List.cons_append]

theorem log_getElem? (e : Estate) (before : List Attempt) (t : Attempt) (after : List Attempt) :
    (e.log (before ++ t :: after))[before.length]? = some (t, t.record (before.foldl attempt e).store) := by
  have hlength : (e.log before).length = before.length := by
    rw [← List.length_map Prod.fst, log_fst]
  rw [log_append, List.getElem?_append_right (Nat.le_of_eq hlength), hlength, Nat.sub_self]
  rfl

theorem mem_log {e : Estate} {attempts : List Attempt} {t : Attempt} {r : AuditRecord}
    (h : (t, r) ∈ e.log attempts) : ∃ s, r.Describes t s := by
  induction attempts generalizing e with
  | nil => exact absurd h List.not_mem_nil
  | cons t' rest ih =>
    rw [log] at h
    rcases List.mem_cons.1 h with heq | hrest
    · obtain ⟨rfl, rfl⟩ := Prod.mk.inj heq
      exact ⟨e.store, t.record_describes e.store⟩
    · exact ih hrest

theorem foldl_attempt_audit (e : Estate) (attempts : List Attempt) :
    (attempts.foldl attempt e).audit = e.audit ++ (e.log attempts).map Prod.snd := by
  induction attempts generalizing e with
  | nil => exact (List.append_nil _).symm
  | cons t rest ih =>
    rw [List.foldl_cons, ih, log, List.map_cons]
    exact List.append_assoc e.audit [t.record e.store] _

theorem foldl_attempt_clusters (e : Estate) (attempts : List Attempt) :
    (attempts.foldl attempt e).store.clusters
      = e.store.clusters.map (Cluster.settled (Attempt.succeeded (e.log attempts))) := by
  induction attempts generalizing e with
  | nil =>
    refine ((List.map_congr_left ?_).trans (List.map_id _)).symm
    intro c _
    exact Cluster.settled_of_ne fun t ht => absurd ht List.not_mem_nil
  | cons t rest ih =>
    rw [List.foldl_cons, ih, log, succeeded_cons]
    cases happly : t.apply e.store with
    | ok s =>
      have hsuccess : (t.record e.store).success = true := (t.record_success e.store).2 ⟨s, happly⟩
      have hstore : (e.attempt t).store = s := by simp [attempt, Attempt.outcome, happly, Except.toOption]
      rw [if_pos hsuccess, hstore, Attempt.clusters_of_apply happly, List.map_map]
      apply List.map_congr_left
      intro c _
      exact Cluster.settled_append [t] (Attempt.succeeded ((e.attempt t).log rest)) c
    | error error =>
      have hsuccess : ¬ (t.record e.store).success = true := by
        intro h
        obtain ⟨s, hs⟩ := (t.record_success e.store).1 h
        rw [happly] at hs
        exact absurd hs (by simp)
      have hstore : (e.attempt t).store = e.store := by simp [attempt, Attempt.outcome, happly, Except.toOption]
      rw [if_neg hsuccess, hstore]

end Estate

/-! ### What the log accounts for -/

structure AuditRecord.Names (r : AuditRecord) (action : String) (id : Nat) (d : Deployment) : Prop where
  action : r.action = action
  cluster : r.clusterId = id
  target : r.ns = d.ns ∧ r.resourceName = d.name

/-- How a deployment of a cluster may differ from what it was: in its count and in the stamp of its last restart, and
in either only if a record says that a change to it succeeded. -/
structure Deployment.AccountedFor (records : List AuditRecord) (id : Nat) (d d' : Deployment) : Prop where
  rest : { d' with replicas := d.replicas, templateAnnotations := d.templateAnnotations } = d
  annotations : ∀ key, key ≠ Store.restartedAt → d'.templateAnnotations.get? key = d.templateAnnotations.get? key
  scaled : d'.replicas ≠ d.replicas → ∃ r ∈ records, r.success = true ∧ r.Names "scale" id d
  restarted : d'.templateAnnotations ≠ d.templateAnnotations →
    ∃ r ∈ records, r.success = true ∧ r.Names "restart" id d

private theorem exists_record {log : List (Attempt × AuditRecord)} {id : Nat} {d : Deployment} {t : Attempt}
    (hlog : ∀ t r, (t, r) ∈ log → ∃ s, r.Describes t s) (h : t ∈ (Attempt.succeeded log).filter (Attempt.names id d)) :
    ∃ r ∈ log.map Prod.snd, r.success = true ∧ r.Names t.change.action id d := by
  obtain ⟨hmade, hnames⟩ := List.mem_filter.1 h
  obtain ⟨⟨t', r⟩, hr, rfl⟩ := List.mem_map.1 hmade
  obtain ⟨hmem, hsuccess⟩ := List.mem_filter.1 hr
  obtain ⟨s, hdescribes⟩ := hlog t' r hmem
  simp only [Attempt.names, Store.isDeployment, Bool.and_eq_true, beq_iff_eq] at hnames
  obtain ⟨hid, hns, hname⟩ := hnames
  refine ⟨r, List.mem_map.2 ⟨(t', r), hmem, rfl⟩, hsuccess, hdescribes.action, hdescribes.cluster.1.trans hid, ?_, ?_⟩
  · rw [hdescribes.target.1, hns]
  · rw [hdescribes.target.2, hname]

theorem Deployment.settled_accountedFor {log : List (Attempt × AuditRecord)} (id : Nat) (d : Deployment)
    (hlog : ∀ t r, (t, r) ∈ log → ∃ s, r.Describes t s) :
    d.AccountedFor (log.map Prod.snd) id (d.settled ((Attempt.succeeded log).filter (Attempt.names id d))) where
  rest := rfl
  annotations key hkey := by
    simp only [settled]
    cases (((Attempt.succeeded log).filter (Attempt.names id d)).filterMap Attempt.restart?).getLast? with
    | none => rfl
    | some t => exact Labels.get?_insert_of_ne hkey _ _
  scaled hne := by
    simp only [settled] at hne
    cases hlast : (((Attempt.succeeded log).filter (Attempt.names id d)).filterMap Attempt.replicas?).getLast? with
    | none => rw [hlast] at hne; exact absurd rfl hne
    | some n =>
      obtain ⟨t, ht, hn⟩ := List.mem_filterMap.1 (List.mem_of_getLast? hlast)
      have haction : t.change.action = "scale" := by
        rw [Attempt.replicas?] at hn
        cases hchange : t.change with
        | scale replicas => rfl
        | restart => rw [hchange] at hn; exact absurd hn (by simp)
      exact haction ▸ exists_record hlog ht
  restarted hne := by
    simp only [settled] at hne
    cases hlast : (((Attempt.succeeded log).filter (Attempt.names id d)).filterMap Attempt.restart?).getLast? with
    | none => rw [hlast] at hne; exact absurd rfl hne
    | some time =>
      obtain ⟨t, ht, htime⟩ := List.mem_filterMap.1 (List.mem_of_getLast? hlast)
      have haction : t.change.action = "restart" := by
        rw [Attempt.restart?] at htime
        cases hchange : t.change with
        | scale replicas => rw [hchange] at htime; exact absurd htime (by simp)
        | restart => rfl
      exact haction ▸ exists_record hlog ht

/-- How a cluster may differ from what it was: in its deployments, place by place. -/
structure Cluster.AccountedFor (records : List AuditRecord) (c c' : Cluster) : Prop where
  rest : { c' with deployments := c.deployments } = c
  length : c'.deployments.length = c.deployments.length
  deployments : ∀ (i : Nat) (d d' : Deployment), c.deployments[i]? = some d → c'.deployments[i]? = some d' →
    d.AccountedFor records c.id d'

theorem Cluster.settled_accountedFor {log : List (Attempt × AuditRecord)} (c : Cluster)
    (hlog : ∀ t r, (t, r) ∈ log → ∃ s, r.Describes t s) :
    c.AccountedFor (log.map Prod.snd) (c.settled (Attempt.succeeded log)) where
  rest := rfl
  length := List.length_mapIdx
  deployments i d d' hd hd' := by
    rw [getElem?_settled, hd, Option.map_some] at hd'
    obtain rfl := Option.some.inj hd'
    by_cases hhides : c.hides i d = true
    · rw [if_pos hhides]
      exact ⟨rfl, fun _ _ => rfl, fun hne => absurd rfl hne, fun hne => absurd rfl hne⟩
    · rw [if_neg hhides]
      exact Deployment.settled_accountedFor c.id d hlog

/-- **The log accounts for everything.** Whatever calls are made, the log gains one record for each attempt among them
and no other, in order, and a record says who made the attempt, on what, and whether it succeeded in the store as it
was when its call began. The store afterwards is what the attempts on record as successful make of it, cluster by
cluster, and a deployment that is not what it was is named by one of them. -/
theorem Estate.invokeAll_accounts (e : Estate) (calls : List Invocation) :
    ∃ log : List (Attempt × AuditRecord),
      log.map Prod.fst = calls.filterMap Invocation.attempt?
        ∧ (e.invokeAll calls).audit = e.audit ++ log.map Prod.snd
        ∧ (∀ before v after t, calls = before ++ v :: after → v.attempt? = some t →
            ∃ r, log[(before.filterMap Invocation.attempt?).length]? = some (t, r)
              ∧ r.Describes t (e.invokeAll before).store)
        ∧ (e.invokeAll calls).store.clusters = e.store.clusters.map (Cluster.settled (Attempt.succeeded log))
        ∧ ∀ (k : Nat) (c c' : Cluster), e.store.clusters[k]? = some c →
            (e.invokeAll calls).store.clusters[k]? = some c' → c.AccountedFor (log.map Prod.snd) c' := by
  have hclusters : (e.invokeAll calls).store.clusters
      = e.store.clusters.map (Cluster.settled (Attempt.succeeded (e.log (calls.filterMap Invocation.attempt?)))) := by
    rw [invokeAll_eq, foldl_attempt_clusters]
  refine ⟨e.log (calls.filterMap Invocation.attempt?), log_fst .., ?_, ?_, hclusters, ?_⟩
  · rw [invokeAll_eq, foldl_attempt_audit]
  · intro before v after t hcalls ht
    rw [hcalls, List.filterMap_append, List.filterMap_cons_some ht, log_getElem?, invokeAll_eq]
    exact ⟨_, rfl, t.record_describes _⟩
  · intro k c c' hc hc'
    rw [hclusters, List.getElem?_map, hc, Option.map_some] at hc'
    obtain rfl := Option.some.inj hc'
    exact c.settled_accountedFor fun t r => mem_log

end Helmsman
