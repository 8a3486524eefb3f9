import Helmsman.Proofs.Estate.Report
import Helmsman.Proofs.Tools.Form
/-!
# Lists and details

Pods, deployments, services and ingresses are listed alike: those of one namespace, or all, in the order of the store
(`ResourceKind.read_eq`). A list of pods is made only if the restarts of each can be added up. Pods and deployments can
also be asked for by name, and then the first of that name is meant. Since a list and a detail look at the same things,
a detail is found if and only if there is an item of that name, and what both of them report is the same
(`ResourceKind.Detailed.read_of_find?` and `read_of_find?_none`).
-/

namespace Helmsman

open Json (lookup)

/-! ### Calls that read -/

/-- A call that answers with a value and leaves everything as it is. From a sound store the value is read back. -/
structure Estate.Answers (e : Estate) (now : Instant) (scope : Scope) (o : Operation) (raw : String) (j : Json) :
    Prop where
  answer : e.execute now scope o.name raw false = (.ok j.render, e)
  readBack : e.store.Sound → Json.read (Utf8.encode j.render) = .ok j

namespace Estate

variable {e : Estate} {now : Instant} {scope : Scope} {o : Operation} {raw : String}
  {members : List (String × Json)}

theorem execute_reads (ho : o.mutating = false) (hnodes : o ≠ .listNodes) (hgiven : Arguments.Given raw members) :
    e.execute now scope o.name raw false
      = ((o.read now e.store scope.cluster.id (.ofObject members)).map Json.render, e) := by
  have hc : Change.of? (.ofObject members) o = none := by
    rw [← Option.not_isSome_iff_eq_none, Change.of?_isSome, ho]
    exact Bool.false_ne_true
  simp only [execute, Operation.ofName?_name, if_neg hnodes, hgiven.decode, Bool.false_eq_true, if_false, run, hc]

theorem answers_of_read (ho : o.mutating = false) (hnodes : o ≠ .listNodes) (hgiven : Arguments.Given raw members)
    {j : Json} (h : o.read now e.store scope.cluster.id (.ofObject members) = .ok j) :
    e.Answers now scope o raw j where
  answer := by
    rw [execute_reads ho hnodes hgiven, h]
    rfl
  readBack hs := Json.read_render (Operation.read_stableObject hs ho h).stable.readable

end Estate

/-! ### What is listed -/

/-- Something that stands in a list. -/
inductive Resource
  | pod (p : Pod)
  | deployment (d : Deployment)
  | service (s : Service)
  | ingress (i : Ingress)

namespace Resource

def ns : Resource → String
  | pod p => p.ns
  | deployment d => d.ns
  | service s => s.ns
  | ingress i => i.ns

def name : Resource → String
  | pod p => p.name
  | deployment d => d.name
  | service s => s.name
  | ingress i => i.name

def summary (now : Instant) : Resource → Json
  | pod p => Report.podSummary now p p.totalRestarts
  | deployment d => Report.deploymentSummary now d
  | service s => Report.service now s
  | ingress i => Report.ingress now i

/-- What is told of a thing in a list can be told: of a pod, the restarts of its containers can be added up. -/
def Tellable : Resource → Prop
  | pod p => p.Countable
  | _ => True

instance : DecidablePred Tellable
  | pod p => inferInstanceAs (Decidable p.Countable)
  | deployment _ | service _ | ingress _ => inferInstanceAs (Decidable True)

/-- A value that is about the thing of a name in a namespace. -/
structure NamedBy (ns name : String) (j : Json) : Prop where
  ns : j.get? "namespace" = some (.string ns)
  name : j.get? "name" = some (.string name)

theorem summary_namedBy (now : Instant) (r : Resource) : NamedBy r.ns r.name (r.summary now) := by
  cases r <;> refine ⟨?_, ?_⟩ <;> exact Json.get?_of_lookup rfl

theorem podDetail_namedBy (now : Instant) (p : Pod) : NamedBy p.ns p.name (Report.podDetail now p) :=
  ⟨Json.get?_of_lookup rfl, Json.get?_of_lookup rfl⟩

theorem deploymentDetail_namedBy (now : Instant) (d : Deployment) :
    NamedBy d.ns d.name (Report.deploymentDetail now d) :=
  ⟨Json.get?_of_lookup rfl, Json.get?_of_lookup rfl⟩

theorem namedBy_summary_iff {now : Instant} {ns name : String} {r : Resource} :
    NamedBy ns name (r.summary now) ↔ r.ns = ns ∧ r.name = name := by
  constructor
  · intro h
    have hns := (summary_namedBy now r).ns.symm.trans h.ns
    have hname := (summary_namedBy now r).name.symm.trans h.name
    simp only [Option.some.injEq, Json.string.injEq] at hns hname
    exact ⟨hns, hname⟩
  · rintro ⟨rfl, rfl⟩
    exact summary_namedBy now r

end Resource

inductive ResourceKind
  | pods
  | deployments
  | services
  | ingresses

namespace ResourceKind

def key : ResourceKind → String
  | pods => "pods"
  | deployments => "deployments"
  | services => "services"
  | ingresses => "ingresses"

def listing : ResourceKind → Operation
  | pods => .listPods
  | deployments => .listDeployments
  | services => .listServices
  | ingresses => .listIngresses

/-- The things of a kind that a cluster holds. -/
def of (c : Cluster) : ResourceKind → List Resource
  | pods => c.pods.map fun p => .pod p.pod
  | deployments => c.deployments.map .deployment
  | services => c.services.map .service
  | ingresses => c.ingresses.map .ingress

/-- Those of a kind in the namespace that the members ask for. -/
def listed (members : List (String × Json)) (c : Cluster) (kind : ResourceKind) : List Resource :=
  (kind.of c).filter fun r => Arguments.admits "namespace" members r.ns

variable {s : Store} {id : Nat} {c : Cluster}

/-- A list is made if all that stands in it can be told, and of pods only it may fail to be. -/
theorem read_eq (hready : s.ready id = .ok c) (now : Instant) (members : List (String × Json))
    (kind : ResourceKind) : kind.listing.read now s id (.ofObject members)
      = if ∀ r ∈ kind.listed members c, r.Tellable
        then .ok (Report.listing kind.key ((kind.listed members c).map (Resource.summary now)))
        else .error .overflow := by
  cases kind with
  | pods =>
    simp only [listing, Operation.read, Store.listPods, hready, Except.map, Report.pods_eq,
      Arguments.inNamespace_ofObject, listed, of, key, List.filter_map, List.map_map, Function.comp_def, Resource.ns,
      Resource.summary, List.forall_mem_map, Resource.Tellable]
  | deployments | services | ingresses =>
    simp only [listing, Operation.read, Store.listDeployments, Store.listServices, Store.listIngresses, hready,
      Except.map, Operation.found_ok, Arguments.inNamespace_ofObject, listed, of, key, List.filter_map, List.map_map,
      Function.comp_def, Resource.ns, Resource.summary, List.forall_mem_map, Resource.Tellable, implies_true, if_true]

theorem get?_listing (kind : ResourceKind) (items : List Json) :
    (Report.listing kind.key items).get? "total" = some (.ofNat items.length)
      ∧ (Report.listing kind.key items).get? kind.key = some (.array items) := by
  cases kind <;> exact ⟨Json.get?_of_lookup rfl, Json.get?_of_lookup rfl⟩

theorem listing_reads (kind : ResourceKind) : kind.listing.mutating = false ∧ kind.listing ≠ .listNodes := by
  cases kind <;> exact ⟨rfl, by simp [listing]⟩

theorem listed_of_empty {members : List (String × Json)} (h : Arguments.textFor "namespace" members = "")
    (c : Cluster) (kind : ResourceKind) : kind.listed members c = kind.of c := by
  rw [listed, List.filter_eq_self]
  intro r _
  rw [Arguments.admits, h, beq_self_eq_true, Bool.true_or]

theorem eq_pods_of_not_tellable {kind : ResourceKind} {r : Resource} (hr : r ∈ kind.of c) (h : ¬ r.Tellable) :
    kind = .pods := by
  cases kind with
  | pods => rfl
  | deployments | services | ingresses =>
    obtain ⟨x, -, rfl⟩ := List.mem_map.1 hr
    exact absurd trivial h

/-- The call that asks for one thing of a kind, and the field that its answer has in common with the list. -/
inductive Detailed : ResourceKind → Operation → String → Prop
  | pods : Detailed pods .getPodDetail "status"
  | deployments : Detailed deployments .getDeploymentDetail "replicas"

end ResourceKind

/-! ### What is asked for by name -/

namespace Resource

def isNamed (ns name : String) (r : Resource) : Bool := r.ns == ns && r.name == name

theorem isNamed_eq_true_iff {ns name : String} {r : Resource} :
    r.isNamed ns name = true ↔ r.ns = ns ∧ r.name = name := by
  rw [isNamed, Bool.and_eq_true, beq_iff_eq, beq_iff_eq]

/-- The first item that is about the thing of a name. -/
def FirstNamed (ns name : String) (items : List Json) (item : Json) : Prop :=
  ∃ before behind, items = before ++ item :: behind ∧ NamedBy ns name item ∧ ∀ i ∈ before, ¬ NamedBy ns name i

variable {now : Instant} {ns name : String} {all : List Resource}

theorem exists_namedBy_iff : (∃ item ∈ all.map (summary now), NamedBy ns name item)
    ↔ (all.find? (isNamed ns name)).isSome := by
  rw [List.find?_isSome]
  constructor
  · rintro ⟨item, hitem, hnamed⟩
    obtain ⟨r, hr, rfl⟩ := List.mem_map.1 hitem
    exact ⟨r, hr, isNamed_eq_true_iff.2 (namedBy_summary_iff.1 hnamed)⟩
  · rintro ⟨r, hr, hnamed⟩
    exact ⟨_, List.mem_map_of_mem hr, namedBy_summary_iff.2 (isNamed_eq_true_iff.1 hnamed)⟩

theorem find?_of_firstNamed {item : Json} (h : FirstNamed ns name (all.map (summary now)) item) :
    ∃ r, all.find? (isNamed ns name) = some r ∧ r.summary now = item := by
  obtain ⟨before, behind, hall, hnamed, hbefore⟩ := h
  -- The items split as the things do that they are about.
  obtain ⟨front, back, rfl, rfl, hback⟩ := List.map_eq_append_iff.1 hall
  obtain ⟨r, rest, rfl, rfl, rfl⟩ := List.map_eq_cons_iff.1 hback
  refine ⟨r, List.find?_eq_some_iff_append.2 ⟨?_, front, rest, rfl, fun r' hr' => ?_⟩, rfl⟩
  · exact isNamed_eq_true_iff.2 (namedBy_summary_iff.1 hnamed)
  · have hother := hbefore _ (List.mem_map_of_mem hr')
    rw [namedBy_summary_iff, ← isNamed_eq_true_iff] at hother
    simpa using hother

end Resource

namespace ResourceKind.Detailed

variable {kind : ResourceKind} {o : Operation} {field : String} {s : Store} {id : Nat} {c : Cluster}

theorem reads (h : Detailed kind o field) : o.mutating = false ∧ o ≠ .listNodes := by
  cases h <;> exact ⟨rfl, by simp⟩

/-- What is found by name has the same in the common field as it has in the list. -/
theorem read_of_find? (h : Detailed kind o field) (hready : s.ready id = .ok c) (now : Instant) (a : Arguments)
    {r : Resource} (hr : (kind.of c).find? (Resource.isNamed a.ns a.name) = some r) :
    ∃ j v, o.read now s id a = .ok j ∧ Resource.NamedBy a.ns a.name j
      ∧ (r.summary now).get? field = some v ∧ j.get? field = some v := by
  obtain ⟨hns, hname⟩ := Resource.isNamed_eq_true_iff.1 (List.find?_some hr)
  rw [← hns, ← hname]
  cases h with
  | pods =>
    rw [of, List.find?_map] at hr
    obtain ⟨p, hp, rfl⟩ := Option.map_eq_some_iff.1 hr
    have hfound : c.pods.find? (Store.isPod a.ns a.name) = some p := hp
    refine ⟨_, .string p.pod.phase, ?_, Resource.podDetail_namedBy now p.pod, Json.get?_of_lookup rfl,
      Json.get?_of_lookup rfl⟩
    simp only [Operation.read, Store.getPod, Store.findPod, hready, hfound, bind, Except.bind]
    rfl
  | deployments =>
    rw [of, List.find?_map] at hr
    obtain ⟨d, hd, rfl⟩ := Option.map_eq_some_iff.1 hr
    have hfound : c.deployments.find? (Store.isDeployment a.ns a.name) = some d := hd
    refine ⟨_, .ofInt d.replicas, ?_, Resource.deploymentDetail_namedBy now d, Json.get?_of_lookup rfl,
      Json.get?_of_lookup rfl⟩
    simp only [Operation.read, Store.getDeployment, hready, hfound, bind, Except.bind]
    rfl

theorem read_of_find?_none (h : Detailed kind o field) (hready : s.ready id = .ok c) (now : Instant) (a : Arguments)
    (hnone : (kind.of c).find? (Resource.isNamed a.ns a.name) = none) :
    ∃ error, o.read now s id a = .error error := by
  cases h with
  | pods =>
    rw [of, List.find?_map, Option.map_eq_none_iff] at hnone
    have hnone : c.pods.find? (Store.isPod a.ns a.name) = none := hnone
    refine ⟨.ofCluster (.notFound "Pod" (qualified a.ns a.name)), ?_⟩
    simp only [Operation.read, Store.getPod, Store.findPod, hready, hnone, bind, Except.bind]
    rfl
  | deployments =>
    rw [of, List.find?_map, Option.map_eq_none_iff] at hnone
    have hnone : c.deployments.find? (Store.isDeployment a.ns a.name) = none := hnone
    refine ⟨.ofCluster (Store.deploymentNotFound a.ns a.name), ?_⟩
    simp only [Operation.read, Store.getDeployment, hready, hnone, bind, Except.bind]
    rfl

end ResourceKind.Detailed

namespace Estate

open Resource (NamedBy FirstNamed)

variable {e : Estate} {scope : Scope} {c : Cluster} {raw : String} {members : List (String × Json)}

theorem answers_list (hready : e.store.ready scope.cluster.id = .ok c) (now : Instant) (kind : ResourceKind)
    (hgiven : Arguments.Given raw members) (htellable : ∀ r ∈ kind.listed members c, r.Tellable) :
    e.Answers now scope kind.listing raw
      (Report.listing kind.key ((kind.listed members c).map (Resource.summary now))) := by
  obtain ⟨hreads, hnodes⟩ := kind.listing_reads
  refine answers_of_read hreads hnodes hgiven ?_
  rw [kind.read_eq hready, if_pos htellable]

/-- A list of something that cannot be told is not answered, and nothing comes of the call. -/
theorem execute_untellable (hready : e.store.ready scope.cluster.id = .ok c) (now : Instant) {kind : ResourceKind}
    (hgiven : Arguments.Given raw members) (huntellable : ¬ ∀ r ∈ kind.listed members c, r.Tellable) :
    e.execute now scope kind.listing.name raw false = (.error .overflow, e) := by
  obtain ⟨hreads, hnodes⟩ := kind.listing_reads
  rw [execute_reads hreads hnodes hgiven, kind.read_eq hready, if_neg huntellable]
  rfl

section Details

variable {kind : ResourceKind} {o : Operation} {field : String}

/-- A detail is found just when the cluster holds something of that name. -/
theorem execute_detail_ok_iff (h : kind.Detailed o field) (hready : e.store.ready scope.cluster.id = .ok c)
    (now : Instant) (hgiven : Arguments.Given raw members) :
    (∃ text, (e.execute now scope o.name raw false).1 = .ok text)
      ↔ ((kind.of c).find? (Resource.isNamed (Arguments.textFor "namespace" members)
        (Arguments.textFor "name" members))).isSome := by
  obtain ⟨hreads, hnodes⟩ := h.reads
  rw [execute_reads hreads hnodes hgiven, ← Arguments.ns_ofObject, ← Arguments.name_ofObject]
  cases hfound : (kind.of c).find?
      (Resource.isNamed (Arguments.ofObject members).ns (Arguments.ofObject members).name) with
  | none =>
    obtain ⟨error, herror⟩ := h.read_of_find?_none hready now _ hfound
    rw [herror]
    exact iff_of_false (fun ⟨_, h⟩ => nomatch h) Bool.false_ne_true
  | some r =>
    obtain ⟨j, v, hj, -⟩ := h.read_of_find? hready now _ hfound
    rw [hj]
    exact iff_of_true ⟨_, rfl⟩ rfl

theorem answers_detail (h : kind.Detailed o field) (hready : e.store.ready scope.cluster.id = .ok c) (now : Instant)
    (hgiven : Arguments.Given raw members) {r : Resource}
    (hr : (kind.of c).find? (Resource.isNamed (Arguments.textFor "namespace" members)
      (Arguments.textFor "name" members)) = some r) :
    ∃ j v, e.Answers now scope o raw j
      ∧ NamedBy (Arguments.textFor "namespace" members) (Arguments.textFor "name" members) j
      ∧ (r.summary now).get? field = some v ∧ j.get? field = some v := by
  obtain ⟨hreads, hnodes⟩ := h.reads
  rw [← Arguments.ns_ofObject, ← Arguments.name_ofObject] at hr ⊢
  obtain ⟨j, v, hj, hcommon⟩ := h.read_of_find? hready now _ hr
  exact ⟨j, v, answers_of_read hreads hnodes hgiven hj, hcommon⟩

end Details

/-- A namespace and a name of any characters can be asked for. -/
theorem given_of_names (ns name : String) :
    ∃ raw, Arguments.Given raw [("namespace", .string ns), ("name", .string name)] := by
  refine ⟨_, .object (Json.read_render (@Json.Readable.object 126 _ fun m hm => ?_))⟩
  simp only [List.mem_cons, List.not_mem_nil, or_false] at hm
  rcases hm with rfl | rfl <;> exact .string _ _

/-- **Lists and details agree.** A list has just the things of its kind in the namespace that is asked for, or all if
none is, each once and in the order of the store, with their number. Only a list of pods may have no answer, and that is
when it has a pod whose restarts cannot be added up: then the call breaks down and leaves everything as it is. Whatever
is asked for by name is found if and only if there is an item of that namespace and name among all that a list can have,
and then it has the same status, or number of replicas, as the first such item. -/
theorem lists_agree_with_details (hready : e.store.ready scope.cluster.id = .ok c) (now : Instant) :
    (∀ (kind : ResourceKind) (raw : String) (members : List (String × Json)), Arguments.Given raw members →
      let listed := kind.listed members c
      ((∀ r ∈ listed, r.Tellable) → ∃ j, e.Answers now scope kind.listing raw j
        ∧ j.get? "total" = some (.ofNat listed.length)
        ∧ j.get? kind.key = some (.array (listed.map (Resource.summary now))))
      ∧ ((∃ r ∈ listed, ¬ r.Tellable) → kind = .pods
        ∧ e.execute now scope kind.listing.name raw false = (.error .overflow, e)))
    ∧ (∀ r : Resource, NamedBy r.ns r.name (r.summary now))
    ∧ (∀ ns name : String, ∃ raw, Arguments.Given raw [("namespace", .string ns), ("name", .string name)])
    ∧ ∀ (kind : ResourceKind) (o : Operation) (field : String), kind.Detailed o field →
      let items := (kind.of c).map (Resource.summary now)
      (∀ (raw : String) (members : List (String × Json)), Arguments.Given raw members →
        Arguments.textFor "namespace" members = "" → (∀ r ∈ kind.of c, r.Tellable) →
        ∃ j, e.Answers now scope kind.listing raw j ∧ j.get? kind.key = some (.array items))
      ∧ ∀ (raw : String) (members : List (String × Json)), Arguments.Given raw members →
        let ns := Arguments.textFor "namespace" members
        let name := Arguments.textFor "name" members
        ((∃ text, (e.execute now scope o.name raw false).1 = .ok text) ↔ ∃ item ∈ items, NamedBy ns name item)
        ∧ ∀ item, FirstNamed ns name items item → ∃ j v, e.Answers now scope o raw j ∧ NamedBy ns name j
          ∧ item.get? field = some v ∧ j.get? field = some v := by
  refine ⟨fun kind raw members hgiven => ⟨fun htellable => ?_, fun ⟨r, hr, huntellable⟩ => ?_⟩,
    Resource.summary_namedBy now, given_of_names, ?_⟩
  · obtain ⟨htotal, hitems⟩ := kind.get?_listing ((kind.listed members c).map (Resource.summary now))
    rw [List.length_map] at htotal
    exact ⟨_, answers_list hready now kind hgiven htellable, htotal, hitems⟩
  · have hkind := ResourceKind.eq_pods_of_not_tellable (List.mem_filter.1 hr).1 huntellable
    exact ⟨hkind, execute_untellable hready now hgiven fun h => huntellable (h r hr)⟩
  · intro kind o field hdetailed items
    refine ⟨fun raw members hgiven hempty htellable => ?_, fun raw members hgiven => ⟨?_, fun item hfirst => ?_⟩⟩
    · rw [← ResourceKind.listed_of_empty hempty] at htellable
      have hlist := answers_list hready now kind hgiven htellable
      rw [ResourceKind.listed_of_empty hempty] at hlist
      exact ⟨_, hlist, (kind.get?_listing items).2⟩
    · rw [Resource.exists_namedBy_iff, execute_detail_ok_iff hdetailed hready now hgiven]
    · obtain ⟨r, hr, rfl⟩ := Resource.find?_of_firstNamed hfirst
      exact answers_detail hdetailed hready now hgiven hr

/-- Someone who looks at the first cluster. -/
def onlooker : Scope := ⟨⟨1, "shop", "v1.29.2"⟩, "alice"⟩

/-- Two pods of one name, one in another namespace, and one without a namespace. -/
def crowded : Cluster where
  id := 1
  name := "shop"
  version := "v1.29.2"
  pods :=
    let pod (ns name phase : String) : LoggedPod := ⟨{ (default : Pod) with ns, name, phase }, []⟩
    [pod "café" "web" "Running", pod "system" "web" "Pending", pod "" "job" "Running", pod "café" "web" "Failed"]

def crowd : Estate := { store := .ofClusters [crowded] }

theorem crowd_agrees :
    crowd.store.ready 1 = .ok crowded
    ∧ (∃ raw j, Arguments.Given raw [("namespace", .string "café"), ("name", .string "web")]
      ∧ crowd.Answers ⟨19723, 0, 0⟩ onlooker .listPods raw j ∧ j.get? "total" = some (.ofNat 2))
    ∧ ∃ raw j, Arguments.Given raw [("namespace", .string "café"), ("name", .string "web")]
      ∧ crowd.Answers ⟨19723, 0, 0⟩ onlooker .getPodDetail raw j
      ∧ j.get? "status" = some (.string "Running") := by
  have hready : crowd.store.ready 1 = .ok crowded := rfl
  obtain ⟨hlists, hnamed, hgiven, hdetails⟩ :=
    @lists_agree_with_details crowd onlooker crowded hready ⟨19723, 0, 0⟩
  obtain ⟨raw, hraw⟩ := hgiven "café" "web"
  obtain ⟨j, hj, htotal, -⟩ := (hlists .pods raw _ hraw).1 (by decide +kernel)
  have hcount : (ResourceKind.pods.listed [("namespace", .string "café"), ("name", .string "web")] crowded).length
      = 2 := by
    decide +kernel
  rw [hcount] at htotal
  obtain ⟨j', v, hj', -, hitem, hfield⟩ := ((hdetails _ _ _ .pods).2 raw _ hraw).2 _
    ⟨[], _, rfl, hnamed (.pod { (default : Pod) with ns := "café", name := "web", phase := "Running" }),
      List.forall_mem_nil _⟩
  obtain rfl : .string "Running" = v := Option.some.inj ((Json.get?_of_lookup rfl).symm.trans hitem)
  exact ⟨hready, ⟨raw, j, hraw, hj, htotal⟩, raw, j', hraw, hj', hfield⟩

/-- A pod whose containers were restarted so often. -/
def restarted (counts : List Int) : Cluster where
  id := 1
  name := "shop"
  version := "v1.29.2"
  pods := [{
    pod := { (default : Pod) with
      name := "web"
      ns := "default"
      phase := "Running"
      containers := counts.map fun n => ⟨"app", "shop:1", false, n, none⟩
      created := ⟨19723, 0, 0⟩ }
    logs := [] }]

def restarting (counts : List Int) : Estate := { store := .ofClusters [restarted counts] }

/-- One restart too many, and a pod that is found by its name cannot be listed. -/
theorem restarting_unlisted :
    (restarting [2147483647, 1]).store.ready 1 = .ok (restarted [2147483647, 1])
    ∧ (∃ raw j, Arguments.Given raw [("namespace", .string "default"), ("name", .string "web")]
      ∧ (restarting [2147483647, 1]).Answers ⟨19723, 0, 0⟩ onlooker .getPodDetail raw j)
    ∧ Arguments.Given "" []
    ∧ (restarting [2147483647, 1]).execute ⟨19723, 0, 0⟩ onlooker "list_pods" "" false
      = (.error .overflow, restarting [2147483647, 1])
    ∧ ∀ j, ¬ (restarting [2147483647, 1]).Answers ⟨19723, 0, 0⟩ onlooker .listPods "" j := by
  have hready : (restarting [2147483647, 1]).store.ready 1 = .ok (restarted [2147483647, 1]) := rfl
  have hgiven : Arguments.Given "" [] := .nothing (.inl (by decide))
  have hbreaks := @execute_untellable (restarting [2147483647, 1]) onlooker _ _ _ hready ⟨19723, 0, 0⟩ .pods hgiven
    (by decide)
  obtain ⟨raw, hraw⟩ := given_of_names "default" "web"
  obtain ⟨j, -, hj, -⟩ := @answers_detail (restarting [2147483647, 1]) onlooker _ _ _ _ _ _ .pods hready ⟨19723, 0, 0⟩
    hraw _ rfl
  refine ⟨hready, ⟨raw, j, hraw, hj⟩, hgiven, hbreaks, fun j hj => ?_⟩
  have hanswer := hbreaks.symm.trans hj.answer
  cases hanswer

end Estate

end Helmsman
