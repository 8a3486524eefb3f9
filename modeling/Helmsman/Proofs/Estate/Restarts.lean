import Helmsman.Proofs.Cluster.Loaded
import Helmsman.Proofs.Estate.Listing
/-!
# Restarts of a pod

A list of pods tells of each how often its containers were restarted. The counts are added up in 32 bits, one container
after the other, and each sum on the way has to fit (`Pod.restarts_eq`). Then it is the exact total that is told. If a
sum does not fit, there is no list at all, even if the total would fit, and a snapshot may well have such a pod.
-/

namespace Helmsman

/-- The pods of a cluster in the namespace that the members ask for. -/
def Cluster.podsIn (c : Cluster) (members : List (String × Json)) : List Pod :=
  (c.pods.map (·.pod)).filter fun p => Arguments.admits "namespace" members p.ns

theorem ResourceKind.listed_pods (members : List (String × Json)) (c : Cluster) :
    pods.listed members c = (c.podsIn members).map .pod := by
  simp only [listed, of, Cluster.podsIn, List.filter_map, List.map_map, Function.comp_def, Resource.ns]

namespace Estate

/-- **Restarts are told exactly or not at all.** If the restarts of every pod that a list is to have can be added up in
32 bits, one container after the other, then each is told with the exact total. Otherwise the call breaks down: there is
no list, of whatever pods, and everything is left as it is. -/
theorem restarts_told {e : Estate} {scope : Scope} {c : Cluster} (hready : e.store.ready scope.cluster.id = .ok c)
    (now : Instant) {raw : String} {members : List (String × Json)} (hgiven : Arguments.Given raw members) :
    ((∀ p ∈ c.podsIn members, p.Countable) →
      ∃ j, e.Answers now scope .listPods raw j
        ∧ j.get? "pods"
          = some (.array ((c.podsIn members).map fun p => Report.podSummary now p p.totalRestarts))
        ∧ ∀ p ∈ c.podsIn members, Word.Fits32 p.totalRestarts
          ∧ (Report.podSummary now p p.totalRestarts).get? "restarts" = some (.ofInt p.totalRestarts))
    ∧ ((∃ p ∈ c.podsIn members, ¬ p.Countable) →
      e.execute now scope "list_pods" raw false = (.error .overflow, e)) := by
  refine ⟨fun hcountable => ?_, fun ⟨p, hp, hworn⟩ => ?_⟩
  · have htellable : ∀ r ∈ ResourceKind.pods.listed members c, r.Tellable := by
      rwa [ResourceKind.listed_pods, List.forall_mem_map]
    have hlist := answers_list hready now .pods hgiven htellable
    rw [ResourceKind.listed_pods, List.map_map] at hlist
    refine ⟨_, hlist, (ResourceKind.pods.get?_listing _).2, fun p hp => ⟨(hcountable p hp).total, ?_⟩⟩
    exact Json.get?_of_lookup rfl
  · have huntellable : ¬ ∀ r ∈ ResourceKind.pods.listed members c, r.Tellable := by
      rw [ResourceKind.listed_pods, List.forall_mem_map]
      exact fun htellable => hworn (htellable p hp)
    exact execute_untellable hready now hgiven huntellable

/-- As many as can be told. With one more, a negative number behind them does not help. -/
theorem restarted_told :
    Arguments.Given "" []
    ∧ (restarting [2147483646, 1]).store.ready 1 = .ok (restarted [2147483646, 1])
    ∧ (∃ p j, (restarted [2147483646, 1]).podsIn [] = [p]
      ∧ (restarting [2147483646, 1]).Answers ⟨19723, 0, 0⟩ onlooker .listPods "" j
      ∧ j.get? "pods" = some (.array [Report.podSummary ⟨19723, 0, 0⟩ p 2147483647]))
    ∧ (restarting [2147483647, 1, -5]).store.ready 1 = .ok (restarted [2147483647, 1, -5])
    ∧ (restarting [2147483647, 1, -5]).execute ⟨19723, 0, 0⟩ onlooker "list_pods" "" false
      = (.error .overflow, restarting [2147483647, 1, -5]) := by
  have hgiven : Arguments.Given "" [] := .nothing (.inl (by decide))
  have hready : (restarting [2147483646, 1]).store.ready 1 = .ok (restarted [2147483646, 1]) := rfl
  have hworn : (restarting [2147483647, 1, -5]).store.ready 1 = .ok (restarted [2147483647, 1, -5]) := rfl
  obtain ⟨j, hj, hpods, -⟩ :=
    (@restarts_told (restarting [2147483646, 1]) onlooker _ hready ⟨19723, 0, 0⟩ _ _ hgiven).1 (by decide)
  have hbreaks :=
    (@restarts_told (restarting [2147483647, 1, -5]) onlooker _ hworn ⟨19723, 0, 0⟩ _ _ hgiven).2 (by decide)
  exact ⟨hgiven, hready, ⟨_, j, rfl, hj, hpods⟩, hworn, hbreaks⟩

/-- A snapshot with a pod whose restarts are too many for a word of 32 bits. -/
def wornSnapshot : Json :=
  let container (restarts : Int) : Json :=
    .object [("name", .string "app"), ("image", .string "shop:1"), ("restart_count", .ofInt restarts)]
  let pod : Json := .object [("name", .string "web"), ("namespace", .string "default"), ("phase", .string "Running"),
    ("created", .string "2024-01-01T00:00:00Z"), ("containers", .array [container 2147483647, container 1])]
  .object [("clusters", .array [.object [("id", .ofNat 1), ("name", .string "shop"), ("version", .string "v1.29.2"),
    ("pods", .array [pod])]])]

/-- The snapshot is accepted, and the list that has the exact sum is not made. -/
theorem worn_breaks : ∃ s p, Store.ofText (Utf8.encode wornSnapshot.render) = .ok s
    ∧ s.ready 1 = .ok (restarted [2147483647, 1]) ∧ (restarted [2147483647, 1]).podsIn [] = [p]
    ∧ p.totalRestarts = 2147483648
    ∧ Estate.execute ⟨19723, 0, 0⟩ onlooker "list_pods" "" false { store := s }
      = (.error .overflow, { store := s }) := by
  have hload : Store.ofText (Utf8.encode wornSnapshot.render) = .ok (restarting [2147483647, 1]).store := by
    -- The text is taken as characters, since a text as long as this is slow to encode.
    rw [Json.render, Utf8.encode_ofList]
    decide +kernel
  have hready : (restarting [2147483647, 1]).store.ready 1 = .ok (restarted [2147483647, 1]) := rfl
  have hgiven : Arguments.Given "" [] := .nothing (.inl (by decide))
  have hbreaks := @execute_untellable (restarting [2147483647, 1]) onlooker _ _ _ hready ⟨19723, 0, 0⟩ .pods hgiven
    (by decide)
  exact ⟨_, _, hload, hready, rfl, by decide, hbreaks⟩

end Estate

end Helmsman
