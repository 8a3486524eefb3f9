import Helmsman.Proofs.Cluster.Sound
import Helmsman.Proofs.Estate.Gate
import Helmsman.Proofs.Json.Shape
import Mathlib.Algebra.Ring.Int.Defs
/-!
# What calls answer

Every answer is an object that stands for itself once it is written (`StableObject`): a report on a sound store, the
request to confirm a change, the confirmation of one that was made. Texts may be any texts; it is the numbers and the
labels that the store has to be sound for. Only a list of pods may have no answer at all: the restarts of a pod are
added up in 32 bits, and the sums on the way have to fit (`Report.pods_eq`).
-/

namespace Helmsman

open Json

namespace Json

/-- An object for which the same is read that was written. -/
structure StableObject (j : Json) : Prop where
  stable : Stable depthLimit j
  object : ∃ members, j = .object members

theorem StableObject.ofMembers {members : List (String × Json)} (h : ∀ m ∈ members, Stable 127 m.2) :
    StableObject (.ofMembers members) := ⟨.ofMembers h, _, rfl⟩

theorem Stable.fits32 (depth : Nat) {n : Int} (h : Word.Fits32 n) : Stable depth (.ofInt n) :=
  .int depth (Int.le_trans (by decide) h.1) (Int.le_trans h.2 (by decide))

theorem Stable.ofNat (depth : Nat) {n : Nat} (h : n ≤ Word.unsigned64) : Stable depth (.ofNat n) :=
  .int depth (by omega) (Int.ofNat_le.2 h)

/-- An array of texts. -/
theorem Stable.texts (depth : Nat) (texts : List String) : Stable (depth + 2) (.array (texts.map .string)) := by
  refine .array fun j hj => ?_
  obtain ⟨s, -, rfl⟩ := List.mem_map.1 hj
  exact .string _ s

end Json

/-! ### Sums of restarts -/

/-- Numbers are added up in 32 bits if no sum on the way is too great or too small. -/
theorem Word.foldlM_add32? {n : Int} (hn : Fits32 n) (counts : List Int) : counts.foldlM add32? n
    = if ∀ k ≤ counts.length, Fits32 (n + (counts.take k).sum) then some (n + counts.sum) else none := by
  induction counts generalizing n with
  | nil =>
    have hfits : ∀ k ≤ ([] : List Int).length, Fits32 (n + (([] : List Int).take k).sum) := by simpa using hn
    rw [if_pos hfits, List.sum_nil, Int.add_zero]
    rfl
  | cons m counts ih =>
    -- What is added after the first number starts at a sum that has to fit itself.
    have hsums : (∀ k ≤ (m :: counts).length, Fits32 (n + ((m :: counts).take k).sum))
        ↔ Fits32 (n + m) ∧ ∀ k ≤ counts.length, Fits32 (n + m + (counts.take k).sum) := by
      constructor
      · intro h
        refine ⟨by simpa using h 1 (by simp), fun k hk => ?_⟩
        have hnext := h (k + 1) (Nat.succ_le_succ hk)
        rwa [List.take_succ_cons, List.sum_cons, ← Int.add_assoc] at hnext
      · rintro ⟨-, hrest⟩ k hk
        cases k with
        | zero => simpa using hn
        | succ k =>
          rw [List.take_succ_cons, List.sum_cons, ← Int.add_assoc]
          exact hrest k (Nat.le_of_succ_le_succ hk)
    rw [List.foldlM_cons]
    by_cases hfirst : Fits32 (n + m)
    · have hadd : add32? n m = some (n + m) := if_pos hfirst
      simp only [hadd, Option.bind_eq_bind, Option.bind_some, ih hfirst, hsums, hfirst, true_and, List.sum_cons,
        Int.add_assoc]
    · have hadd : add32? n m = none := if_neg hfirst
      simp only [hadd, Option.bind_eq_bind, Option.bind_none, hsums, hfirst, false_and, if_false]

namespace Pod

/-- All restarts of the containers. -/
def totalRestarts (p : Pod) : Int := (p.containers.map Container.restartCount).sum

/-- The restarts of the first containers fit 32 bits, however many are counted. -/
def Countable (p : Pod) : Prop :=
  ∀ k ≤ p.containers.length, Word.Fits32 ((p.containers.map Container.restartCount).take k).sum

instance (p : Pod) : Decidable p.Countable := inferInstanceAs (Decidable (∀ k ≤ _, _))

theorem Countable.total {p : Pod} (h : p.Countable) : Word.Fits32 p.totalRestarts := by
  have hall := h p.containers.length (Nat.le_refl _)
  rwa [← List.length_map Container.restartCount, List.take_length] at hall

theorem restarts_eq (p : Pod) : Report.restarts p = if p.Countable then some p.totalRestarts else none := by
  have hsum := Word.foldlM_add32? (n := 0) (by decide) (p.containers.map Container.restartCount)
  simp only [List.foldlM_map, List.length_map, Int.zero_add] at hsum
  exact hsum

end Pod

/-- Something is made of every item, or of none. -/
theorem mapM_ite {α β : Type} {q : α → Prop} [DecidablePred q] (f : α → β) (all : List α) :
    (all.mapM fun x => if q x then some (f x) else none) = if ∀ x ∈ all, q x then some (all.map f) else none := by
  induction all with
  | nil => simp
  | cons x all ih =>
    rw [List.mapM_cons, ih]
    simp only [List.forall_mem_cons]
    by_cases hx : q x
    · by_cases hall : ∀ y ∈ all, q y
      · rw [if_pos hx, if_pos hall, if_pos ⟨hx, hall⟩]
        rfl
      · rw [if_pos hx, if_neg hall, if_neg fun h => hall h.2]
        rfl
    · rw [if_neg hx, if_neg (not_and.2 fun h => absurd h hx)]
      rfl

/-- Pods are listed with their restarts if those of each can be counted. -/
theorem Report.pods_eq (now : Instant) (all : List Pod) : pods now all
    = if ∀ p ∈ all, p.Countable then .ok (listing "pods" (all.map fun p => podSummary now p p.totalRestarts))
      else .error .overflow := by
  have hsummaries : (fun p => (restarts p).map (podSummary now p))
      = fun p : Pod => if p.Countable then some (podSummary now p p.totalRestarts) else none := by
    funext p
    rw [p.restarts_eq]
    split <;> rfl
  rw [pods, hsummaries, mapM_ite]
  by_cases hall : ∀ p ∈ all, p.Countable
  · rw [if_pos hall, if_pos hall]
  · rw [if_neg hall, if_neg hall]

/-! ### The parts of reports -/

theorem Labels.stable (depth : Nat) {labels : Labels} (h : labels.Ordered) : Stable (depth + 2) labels.toJson := by
  have hsorted : Sorted (labels.map fun l => (l.1, .string l.2)) := List.pairwise_map.2 h
  refine .object hsorted fun m hm => ?_
  obtain ⟨l, -, rfl⟩ := List.mem_map.1 hm
  exact .string _ l.2

theorem optionalInstantJson_stable (depth : Nat) (t : Option Instant) : Stable depth (optionalInstantJson t) := by
  cases t with
  | none => exact .null depth
  | some t => exact .string depth t.text

namespace Report

theorem conditions_stable (depth : Nat) (cs : List Condition) : Stable (depth + 3) (conditions cs) := by
  refine .array fun j hj => ?_
  obtain ⟨c, -, rfl⟩ := List.mem_map.1 hj
  refine .ofReadable (.object ?_)
  simp only [List.forall_mem_cons]
  exact ⟨.string _ _, .string _ _, .string _ _, .string _ _, List.forall_mem_nil _⟩

theorem taints_stable (depth : Nat) (ts : List Taint) :
    Stable (depth + 3) (.array (ts.map fun t => t.toJson.canonical)) := by
  refine .array fun j hj => ?_
  obtain ⟨t, -, rfl⟩ := List.mem_map.1 hj
  refine .ofReadable (.object ?_)
  simp only [List.forall_mem_cons]
  exact ⟨.string _ _, .string _ _, .string _ _, List.forall_mem_nil _⟩

theorem container_stable (depth : Nat) {c : Container} (hc : c.Sound) : Stable (depth + 2) (container c) := by
  have hstate : ∀ m ∈ c.state.elim [] ContainerState.members, Stable (depth + 1) m.2 := by
    cases hs : c.state with
    | none => exact List.forall_mem_nil _
    | some s =>
      cases s with
      | waiting reason message =>
        simp only [Option.elim_some, ContainerState.members, List.forall_mem_cons]
        exact ⟨.string _ _, .string _ _, .string _ _, List.forall_mem_nil _⟩
      | running startedAt =>
        simp only [Option.elim_some, ContainerState.members, List.forall_mem_cons]
        exact ⟨.string _ _, .string _ _, List.forall_mem_nil _⟩
      | terminated reason exitCode =>
        simp only [Option.elim_some, ContainerState.members, List.forall_mem_cons]
        exact ⟨.string _ _, .string _ _, .fits32 _ (hc.exitCode reason exitCode hs), List.forall_mem_nil _⟩
  refine .ofMembers ?_
  rw [List.forall_mem_append]
  refine ⟨?_, hstate⟩
  simp only [List.forall_mem_cons]
  exact ⟨.string _ _, .string _ _, .bool _ _, .fits32 _ hc.restartCount, List.forall_mem_nil _⟩

/-! ### Whole reports -/

theorem listing_stableObject (name : String) {items : List Json} (hcount : items.length ≤ Word.unsigned64)
    (h : ∀ j ∈ items, Stable 126 j) : StableObject (listing name items) := by
  refine .ofMembers ?_
  simp only [List.forall_mem_cons]
  exact ⟨.ofNat _ hcount, .array h, List.forall_mem_nil _⟩

/-- A list of reports on things of one kind. -/
theorem listing_map_stableObject {α : Type} (name : String) {report : α → Json} {all : List α}
    (hcount : all.length ≤ Word.unsigned64) (h : ∀ x ∈ all, Stable 126 (report x)) :
    StableObject (listing name (all.map report)) := by
  refine listing_stableObject name (by rwa [List.length_map]) fun j hj => ?_
  obtain ⟨x, hx, rfl⟩ := List.mem_map.1 hj
  exact h x hx

variable (now : Instant)

theorem podSummary_stable (depth : Nat) (p : Pod) {n : Int} (hn : Word.Fits32 n) :
    Stable (depth + 2) (podSummary now p n) := by
  refine .ofMembers ?_
  simp only [List.forall_mem_cons]
  exact ⟨.string _ _, .string _ _, .string _ _, .string _ _, .fits32 _ hn, .string _ _, .string _ _,
    List.forall_mem_nil _⟩

theorem podDetail_stableObject {p : Pod} (hp : p.Sound) : StableObject (podDetail now p) := by
  have hcontainers : Stable 127 (.array (p.containers.map container)) := by
    refine .array fun j hj => ?_
    obtain ⟨c, hc, rfl⟩ := List.mem_map.1 hj
    exact container_stable 124 (hp.containers c hc)
  refine .ofMembers ?_
  simp only [List.forall_mem_cons]
  exact ⟨.string _ _, .string _ _, .string _ _, .string _ _, .string _ _, .string _ _, optionalInstantJson_stable _ _,
    Labels.stable 125 hp.labels, hcontainers, conditions_stable 124 _, .string _ _, List.forall_mem_nil _⟩

theorem podLogs_stableObject (a : Arguments) (log : String) : StableObject (podLogs a log) := by
  refine .ofMembers ?_
  simp only [List.forall_mem_cons]
  exact ⟨.string _ _, .string _ _, .ofText? _ _, .bool _ _, .string _ _, List.forall_mem_nil _⟩

theorem deploymentSummary_stable (depth : Nat) {d : Deployment} (hd : d.Sound) :
    Stable (depth + 2) (deploymentSummary now d) := by
  refine .ofMembers ?_
  simp only [List.forall_mem_cons]
  exact ⟨.string _ _, .string _ _, .fits32 _ hd.replicas, .fits32 _ hd.readyReplicas, .fits32 _ hd.availableReplicas,
    .string _ _, .string _ _, List.forall_mem_nil _⟩

theorem deploymentDetail_stableObject {d : Deployment} (hd : d.Sound) : StableObject (deploymentDetail now d) := by
  refine .ofMembers ?_
  simp only [List.forall_mem_cons]
  exact ⟨.string _ _, .string _ _, .fits32 _ hd.replicas, .fits32 _ hd.readyReplicas, .fits32 _ hd.availableReplicas,
    .fits32 _ hd.updatedReplicas, .string _ _, Labels.stable 125 hd.labels, .string _ _, conditions_stable 124 _,
    .string _ _, List.forall_mem_nil _⟩

theorem nodeSummary_stable (depth : Nat) (n : Node) : Stable (depth + 3) (nodeSummary now n) := by
  refine .ofMembers ?_
  simp only [List.forall_mem_cons]
  exact ⟨.string _ _, .string _ _, .texts _ _, .string _ _, .string _ _, .string _ _, .string _ _,
    List.forall_mem_nil _⟩

theorem nodeDetail_stableObject {n : Node} (hn : n.labels.Ordered) : StableObject (nodeDetail now n) := by
  refine .ofMembers ?_
  simp only [List.forall_mem_cons]
  exact ⟨.string _ _, Labels.stable 125 hn, conditions_stable 124 _, taints_stable 124 _, .bool _ _, .string _ _,
    .string _ _, .string _ _, .string _ _, .string _ _, .string _ _, .string _ _, .string _ _, .string _ _,
    List.forall_mem_nil _⟩

theorem happening_stable (depth : Nat) {e : Happening} (he : Word.Fits32 e.count) :
    Stable (depth + 2) (happening now e) := by
  refine .ofMembers ?_
  simp only [List.forall_mem_cons]
  exact ⟨.string _ _, .string _ _, .string _ _, .string _ _, .fits32 _ he, .string _ _, .string _ _,
    List.forall_mem_nil _⟩

/-- Only so many events are ever shown. -/
theorem happenings_stableObject (a : Arguments) {all : List Happening} (h : ∀ e ∈ all, Word.Fits32 e.count) :
    StableObject (happenings now a all) := by
  refine listing_map_stableObject "events" ?_ fun e he => ?_
  · have hfew : eventCount ≤ Word.unsigned64 := by decide
    rw [List.length_drop]
    omega
  · exact happening_stable now 124 (h e (List.mem_filter.1 (List.mem_of_mem_drop he)).1)

theorem service_stable (depth : Nat) (s : Service) : Stable (depth + 2) (service now s) := by
  refine .ofMembers ?_
  simp only [List.forall_mem_cons]
  exact ⟨.string _ _, .string _ _, .string _ _, .string _ _, .string _ _, .string _ _, List.forall_mem_nil _⟩

theorem ingress_stable (depth : Nat) (i : Ingress) : Stable (depth + 3) (ingress now i) := by
  refine .ofMembers ?_
  simp only [List.forall_mem_cons]
  exact ⟨.string _ _, .string _ _, .texts _ _, .string _ _, .string _ _, List.forall_mem_nil _⟩

end Report

/-! ### Answers -/

/-- What would be done is announced with the change that was read from the arguments. -/
theorem Change.request_stableObject {a : Arguments} {o : Operation} {c : Change} (h : of? a o = some c) :
    StableObject (c.request a.ns a.name) where
  stable := request_stable a.ns a.name (of?_bounded h)
  object := by cases c <;> exact ⟨_, rfl⟩

theorem Change.confirmation_stableObject (ns name : String) (c : Change) : StableObject (c.confirmation ns name) := by
  refine .ofMembers ?_
  simp only [List.forall_mem_cons]
  exact ⟨.string _ _, .string _ _, List.forall_mem_nil _⟩

namespace Store.Sound

variable {s : Store} (hs : s.Sound) {id : Nat} {ns name : String}

include hs

theorem getPod {p : Pod} (h : s.getPod id ns name = .ok p) : p.Sound := by
  rw [Store.getPod] at h
  obtain ⟨c, hready, h⟩ := of_bind_eq_ok h
  obtain ⟨q, hq, h⟩ := of_bind_eq_ok h
  rw [findPod] at hq
  split at hq
  · rename_i q' hfound
    obtain rfl := Except.ok.inj hq
    obtain rfl := Except.ok.inj h
    exact (hs.ready hready).pods q' (List.mem_of_find?_eq_some hfound)
  · cases hq

theorem getDeployment {d : Deployment} (h : s.getDeployment id ns name = .ok d) : d.Sound := by
  rw [Store.getDeployment] at h
  obtain ⟨c, hready, h⟩ := of_bind_eq_ok h
  split at h
  · rename_i d' hfound
    obtain rfl := Except.ok.inj h
    exact (hs.ready hready).deployments d' (List.mem_of_find?_eq_some hfound)
  · cases h

theorem getNode {n : Node} (h : s.getNode id name = .ok n) : n.labels.Ordered := by
  rw [Store.getNode] at h
  obtain ⟨c, hready, h⟩ := of_bind_eq_ok h
  split at h
  · rename_i n' hfound
    obtain rfl := Except.ok.inj h
    exact (hs.ready hready).nodes n' (List.mem_of_find?_eq_some hfound)
  · cases h

/-- A list that is made of a ready cluster. -/
theorem of_map_ready {α : Type} {f : Cluster → α} {x : α} (h : (s.ready id).map f = .ok x) :
    ∃ c : Cluster, c.Sound ∧ f c = x := by
  obtain ⟨c, hready, hx⟩ := of_map_eq_ok h
  exact ⟨c, hs.ready hready, hx⟩

end Store.Sound

@[simp] theorem Operation.found_ok {α : Type} (report : α → Json) (x : α) : found report (.ok x) = .ok (report x) := rfl

theorem Operation.of_found_eq_ok {α : Type} {report : α → Json} {r : Except ClusterError α} {j : Json}
    (h : found report r = .ok j) : ∃ x, r = .ok x ∧ report x = j := by
  cases r with
  | error e => cases h
  | ok x => exact ⟨x, rfl, Except.ok.inj h⟩

/-- What an operation finds in a sound store. -/
theorem Operation.read_stableObject {s : Store} (hs : s.Sound) {now : Instant} {id : Nat} {a : Arguments}
    {o : Operation} (ho : o.mutating = false) {j : Json} (h : o.read now s id a = .ok j) : StableObject j := by
  cases o with
  | scaleDeployment | restartDeployment => cases ho
  | listPods =>
    rw [read] at h
    split at h
    · rename_i pods hpods
      obtain ⟨c, hc, rfl⟩ := hs.of_map_ready hpods
      rw [Report.pods_eq] at h
      split at h
      · rename_i hcountable
        obtain rfl := Except.ok.inj h
        refine Report.listing_map_stableObject "pods" ?_ fun p hp =>
          Report.podSummary_stable now 124 p (hcountable p hp).total
        have hcount := hc.podCount
        have hfilter := List.length_filter_le (fun p : Pod => inNamespace a.nsFilter p.ns) (c.pods.map (·.pod))
        rw [List.length_map] at hfilter
        omega
      · cases h
    · cases h
  | getPodDetail =>
    obtain ⟨p, hp, rfl⟩ := of_found_eq_ok h
    exact Report.podDetail_stableObject now (hs.getPod hp)
  | getPodLogs =>
    obtain ⟨log, -, rfl⟩ := of_found_eq_ok h
    exact Report.podLogs_stableObject a log
  | listDeployments =>
    obtain ⟨ds, hds, rfl⟩ := of_found_eq_ok h
    obtain ⟨c, hc, rfl⟩ := hs.of_map_ready hds
    refine Report.listing_map_stableObject "deployments" ?_ fun d hd => ?_
    · exact Nat.le_trans (List.length_filter_le ..) hc.deploymentCount
    · exact Report.deploymentSummary_stable now 124 (hc.deployments d (List.mem_filter.1 hd).1)
  | getDeploymentDetail =>
    obtain ⟨d, hd, rfl⟩ := of_found_eq_ok h
    exact Report.deploymentDetail_stableObject now (hs.getDeployment hd)
  | listNodes =>
    obtain ⟨nodes, hnodes, rfl⟩ := of_found_eq_ok h
    obtain ⟨c, hc, rfl⟩ := hs.of_map_ready hnodes
    exact Report.listing_map_stableObject "nodes" hc.nodeCount fun n _ => Report.nodeSummary_stable now 123 n
  | getNodeDetail =>
    obtain ⟨n, hn, rfl⟩ := of_found_eq_ok h
    exact Report.nodeDetail_stableObject now (hs.getNode hn)
  | listEvents =>
    obtain ⟨es, hes, rfl⟩ := of_found_eq_ok h
    obtain ⟨c, hc, rfl⟩ := hs.of_map_ready hes
    exact Report.happenings_stableObject now a fun e he => hc.happenings e (List.mem_filter.1 he).1
  | listServices =>
    obtain ⟨vs, hvs, rfl⟩ := of_found_eq_ok h
    obtain ⟨c, hc, rfl⟩ := hs.of_map_ready hvs
    refine Report.listing_map_stableObject "services" ?_ fun v _ => Report.service_stable now 124 v
    exact Nat.le_trans (List.length_filter_le ..) hc.serviceCount
  | listIngresses =>
    obtain ⟨is, his, rfl⟩ := of_found_eq_ok h
    obtain ⟨c, hc, rfl⟩ := hs.of_map_ready his
    refine Report.listing_map_stableObject "ingresses" ?_ fun i _ => Report.ingress_stable now 123 i
    exact Nat.le_trans (List.length_filter_le ..) hc.ingressCount

/-! ### Calls -/

/-- An attempt is made with a count that fits, and a sound store stays one. -/
theorem Change.apply_sound {s s' : Store} (hs : s.Sound) {a : Arguments} {o : Operation} {c : Change}
    (hc : of? a o = some c) {now : Instant} {id : Nat} {ns name : String} (h : c.apply now s id ns name = .ok s') :
    s'.Sound := by
  cases c with
  | scale replicas => exact hs.scale (of?_bounded hc replicas rfl) h
  | restart => exact hs.restart h

namespace Estate

variable {e : Estate}

theorem run_sound (he : e.store.Sound) (now : Instant) (scope : Scope) (o : Operation) (a : Arguments) :
    (e.run now scope o a).2.store.Sound ∧ ∀ j, (e.run now scope o a).1 = .ok j → StableObject j := by
  cases hc : Change.of? a o with
  | none =>
    have ho : o.mutating = false := by rw [← Change.of?_isSome a o, hc, Option.isSome_none]
    rw [run, hc]
    exact ⟨he, fun j hj => Operation.read_stableObject he ho hj⟩
  | some c =>
    by_cases hconfirmed : a.confirmed = true
    · rw [run_confirmed hc hconfirmed, change]
      split
      · rename_i s' happly
        refine ⟨Change.apply_sound he hc happly, fun j hj => ?_⟩
        obtain rfl := Except.ok.inj hj
        exact c.confirmation_stableObject a.ns a.name
      · refine ⟨he, fun j hj => ?_⟩
        cases hj
    · rw [run_unconfirmed hc hconfirmed]
      refine ⟨he, fun j hj => ?_⟩
      obtain rfl := Except.ok.inj hj
      exact Change.request_stableObject hc

/-- A sound store stays sound whatever is called, and the text of an answer is that of an object that stands for
itself. -/
theorem execute_sound (he : e.store.Sound) (now : Instant) (scope : Scope) (name raw : String) (cancelled : Bool) :
    (e.execute now scope name raw cancelled).2.store.Sound
    ∧ ∀ text, (e.execute now scope name raw cancelled).1 = .ok text → ∃ j, StableObject j ∧ j.render = text := by
  rw [execute]
  split
  · refine ⟨he, fun text h => ?_⟩
    cases h
  · split
    · refine ⟨he, fun text h => ?_⟩
      cases h
    · rename_i o _
      split
      · refine ⟨he, fun text h => ?_⟩
        cases h
      · rename_i a _
        obtain ⟨hsound, hstable⟩ := run_sound he now scope o a
        refine ⟨hsound, fun text h => ?_⟩
        dsimp only at h
        cases hanswer : (e.run now scope o a).1 with
        | error error =>
          rw [hanswer] at h
          cases h
        | ok j =>
          rw [hanswer] at h
          exact ⟨j, hstable j hanswer, Except.ok.inj h⟩

end Estate

end Helmsman
