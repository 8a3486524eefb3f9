import Helmsman.Proofs.Estate.Attempt
import Helmsman.Proofs.Estate.Report
/-!
# Calls that break down

The only call that can break down is a list of pods, and only if some pod has restarts that cannot be added up. Such a
call leaves everything as it is. No call changes a pod, and so a store without such pods has none later either.
-/

namespace Helmsman

/-- The restarts of every pod can be added up. -/
def Store.Countable (s : Store) : Prop := ∀ c ∈ s.clusters, ∀ p ∈ c.pods, p.pod.Countable

instance (s : Store) : Decidable s.Countable := inferInstanceAs (Decidable (∀ c ∈ s.clusters, ∀ p ∈ c.pods, _))

namespace Store.Countable

variable {s s' : Store} {id : Nat} {ns name : String}

theorem ready (hs : s.Countable) {c : Cluster} (h : s.ready id = .ok c) : ∀ p ∈ c.pods, p.pod.Countable :=
  hs c (List.mem_of_find?_eq_some (ready_eq_ok_iff.1 h).1)

theorem updateDeployment (hs : s.Countable) {f : Deployment → Deployment}
    (h : s.updateDeployment id ns name f = .ok s') : s'.Countable := by
  intro d hd
  rw [updateDeployment_ok h] at hd
  obtain ⟨c, hc, rfl⟩ := List.mem_map.1 hd
  split <;> exact hs c hc

theorem apply (hs : s.Countable) {now : Instant} {c : Change} (h : c.apply now s id ns name = .ok s') :
    s'.Countable := by
  cases c with
  | scale replicas =>
    rw [Change.apply, Store.scale] at h
    split at h
    · cases h
    · exact hs.updateDeployment h
  | restart => exact hs.updateDeployment h

end Store.Countable

theorem Operation.found_ne_overflow {α : Type} {report : α → Json} {r : Except ClusterError α} :
    found report r ≠ .error .overflow := by
  intro h
  cases r with
  | ok a => cases h
  | error error =>
    have hfailure : CallFailure.ofCluster error = .overflow := Except.error.inj h
    cases hfailure

theorem Operation.eq_of_read_overflow {o : Operation} {now : Instant} {s : Store} {id : Nat} {a : Arguments}
    (h : o.read now s id a = .error .overflow) : o = .listPods ∧ ¬ s.Countable := by
  cases o with
  | listPods =>
    refine ⟨rfl, fun hs => ?_⟩
    rw [read] at h
    split at h
    · rename_i all hall
      obtain ⟨c, hready, rfl⟩ := Json.of_map_eq_ok hall
      have hcountable := hs.ready hready
      rw [Report.pods_eq, if_pos] at h
      · cases h
      · intro p hp
        obtain ⟨q, hq, rfl⟩ := List.mem_map.1 (List.mem_filter.1 hp).1
        exact hcountable q hq
    · cases h
  | scaleDeployment | restartDeployment => cases h
  | _ => exact absurd h found_ne_overflow

namespace Estate

variable {e : Estate} {now : Instant} {scope : Scope}

theorem eq_of_run_overflow {o : Operation} {a : Arguments} (h : (e.run now scope o a).1 = .error .overflow) :
    o = .listPods ∧ (e.run now scope o a).2 = e ∧ ¬ e.store.Countable := by
  rw [run] at h ⊢
  split at h
  · obtain ⟨ho, hs⟩ := Operation.eq_of_read_overflow h
    exact ⟨ho, rfl, hs⟩
  · split at h
    · dsimp only at h
      cases hanswer : (e.change now scope a.ns a.name _).1 with
      | error error =>
        rw [hanswer] at h
        cases h
      | ok j =>
        rw [hanswer] at h
        cases h
    · cases h

/-- **Only a list of pods breaks down.** The call leaves everything as it is, and the store has a pod whose restarts
cannot be added up. -/
theorem eq_of_execute_overflow {name raw : String} {cancelled : Bool}
    (h : (e.execute now scope name raw cancelled).1 = .error .overflow) :
    Operation.ofName? name = some .listPods ∧ (e.execute now scope name raw cancelled).2 = e
      ∧ ¬ e.store.Countable := by
  rw [execute] at h ⊢
  split at h
  · cases h
  · rename_i hcancelled
    rw [if_neg hcancelled]
    split at h
    · cases h
    · rename_i o ho
      split at h
      · cases h
      · rename_i a ha
        obtain ⟨rfl, hsame, hs⟩ := eq_of_run_overflow (Json.of_map_eq_error h)
        exact ⟨ho, hsame, hs⟩

theorem invoke_countable (v : Invocation) (h : e.store.Countable) : (e.invoke v).store.Countable := by
  rw [invoke_eq]
  cases v.attempt? with
  | none => exact h
  | some t =>
    show (t.outcome e.store).Countable
    rw [Attempt.outcome]
    cases happly : t.apply e.store with
    | error error => exact h
    | ok s' => exact h.apply happly

end Estate

end Helmsman
