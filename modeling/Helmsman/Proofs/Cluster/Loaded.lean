import Helmsman.Proofs.Cluster.Sound
import Helmsman.Proofs.Json.Fits
/-!
# What is loaded is sound

A store that is read from a text is sound. All that soundness asks for is in the shape of the file: counts are numbers
of 32 bits or left out, labels are tables, and a list takes a step for each of its items.
-/

namespace Helmsman

open Json Json.Shape

variable {limit : Option Nat} {fields : List (Json.Field Shape)} {j : Json}

/-! ### Counts and labels -/

theorem Word.fits32_of_fits (h : int32.Fits limit j) : Fits32 j.int := by
  cases h with
  | integer _ _ hlow hhigh => exact ⟨hlow, hhigh⟩

/-- A count that has to be there, or counts as none. -/
theorem Word.fits32_getD (h : Consists limit fields j) (hnames : (fields.map Json.Field.name).Nodup) {key : String}
    {need : Need} (hf : findField? key fields = some ⟨key, need, false, int32⟩)
    (hneed : need = .required ∨ need = .fallback (.ofNat 0)) : Fits32 (j.getD key).int := by
  refine h.part hnames hf (P := fun v => Fits32 v.int) (by decide) (fun v hv => ?_) fun v => fits32_of_fits
  rcases hneed with rfl | rfl
  · cases hv
  · obtain rfl := Option.some.inj hv
    decide

theorem Labels.ordered_of_fits (h : Labels.shape.Fits limit j) : (Labels.ofJson j).Ordered := by
  cases h with
  | @table _ _ members _ => exact List.pairwise_map.2 (sorted_sortMembers members)

theorem Labels.ordered_getD (h : Consists limit fields j) (hnames : (fields.map Json.Field.name).Nodup) {key : String}
    (hf : findField? key fields = some (labelsField key)) : (Labels.ofJson (j.getD key)).Ordered := by
  refine h.part hnames hf (P := fun v => (Labels.ofJson v).Ordered) List.Pairwise.nil (fun v hv => ?_)
    fun v => ordered_of_fits
  obtain rfl := Option.some.inj hv
  exact List.Pairwise.nil

/-- Things in a list that may be left out. -/
theorem forall_items_getD (h : Consists limit fields j) (hnames : (fields.map Json.Field.name).Nodup) {key : String}
    {item : Shape} (hf : findField? key fields = some (fallback key (.list item) (.array []))) {P : Json → Prop}
    (hitem : ∀ v, item.Fits limit v → P v) :
    (∀ v ∈ (j.getD key).items, P v) ∧ ∀ n ∈ limit, (j.getD key).items.length ≤ n := by
  refine h.part hnames hf (P := fun v => (∀ x ∈ v.items, P x) ∧ ∀ n ∈ limit, v.items.length ≤ n) ?_ (fun v hv => ?_)
    fun v hv => ?_
  · exact ⟨List.forall_mem_nil _, fun n _ => Nat.zero_le n⟩
  · obtain rfl := Option.some.inj hv
    exact ⟨List.forall_mem_nil _, fun n _ => Nat.zero_le n⟩
  · cases hv with
    | list hitems hcount => exact ⟨fun x hx => hitem x (hitems x hx), hcount⟩

/-! ### Resources -/

theorem ContainerState.fits32_of_fits (h : ContainerState.shape.Fits limit j) {reason : String} {code : Int}
    (hstate : ContainerState.ofJson j = .terminated reason code) : Word.Fits32 code := by
  have hcode : code = (j.getD "exitCode").int := by
    rw [ContainerState.ofJson] at hstate
    split at hstate <;> cases hstate
    rfl
  rw [hcode]
  cases h with
  | @tagged _ _ _ _ v members hv hmembers =>
    have htag : (Json.object (("state", .string v.1) :: members)).getD "exitCode"
        = (lookup "exitCode" members).getD .null := by
      rw [Json.getD, Json.get?, lookup_cons, if_neg (by simp), Option.or_none]
    rw [htag]
    refine Belongs.lookup hmembers (P := fun v => Word.Fits32 v.int) (by decide) fun f hf hname => ?_
    -- Only one of the variants has a field of that name.
    have hexit : f = required "exitCode" int32 := by
      simp only [List.mem_cons, List.not_mem_nil, or_false] at hv
      rcases hv with rfl | rfl | rfl <;> simp only [List.mem_cons, List.not_mem_nil, or_false] at hf
      · rcases hf with rfl | rfl <;> exact absurd hname (by decide)
      · subst hf
        exact absurd hname (by decide)
      · rcases hf with rfl | rfl
        · exact absurd hname (by decide)
        · rfl
    subst hexit
    exact ⟨fun v hv => (by cases hv), fun v => Word.fits32_of_fits⟩

theorem Container.sound_of_fits (h : Container.shape.Fits limit j) : (Container.ofJson j).Sound where
  restartCount := Word.fits32_getD h.consists (by decide) rfl (.inr rfl)
  exitCode reason code hcode := by
    obtain ⟨v, hv, hstate⟩ := Option.map_eq_some_iff.1 hcode
    have hpart : ∀ v, (j.getD "state").present? = some v → ContainerState.ofJson v = .terminated reason code →
        Word.Fits32 code := by
      refine h.consists.part (by decide) (rfl : findField? "state" _ = some _)
        (P := fun x => ∀ v, x.present? = some v → ContainerState.ofJson v = .terminated reason code → Word.Fits32 code)
        (fun v hv => by cases hv) (fun x hx v hv => ?_) fun x hx v hv => ?_
      · obtain rfl := Option.some.inj hx
        cases hv
      · have hsame : x = v := by
          cases x <;> first | exact Option.some.inj hv | cases hv
        subst hsame
        exact ContainerState.fits32_of_fits hx
    exact hpart v hv hstate

theorem Pod.sound_of_consists (h : Consists limit fields j) (hnames : (fields.map Json.Field.name).Nodup)
    (hlabels : findField? "labels" fields = some (labelsField "labels"))
    (hcontainers : findField? "containers" fields
      = some (fallback "containers" (.list Container.shape) (.array []))) : (Pod.ofJson j).Sound where
  labels := Labels.ordered_getD h hnames hlabels
  containers c hc := by
    obtain ⟨v, hv, rfl⟩ := List.mem_map.1 hc
    exact (forall_items_getD h hnames hcontainers fun _ hfits => Container.sound_of_fits hfits).1 v hv

theorem LoggedPod.sound_of_fits (h : LoggedPod.shape.Fits limit j) : (LoggedPod.ofJson j).pod.Sound :=
  Pod.sound_of_consists h.consists_overlay (by decide) rfl rfl

theorem Deployment.sound_of_fits (h : Deployment.shape.Fits limit j) : (Deployment.ofJson j).Sound where
  replicas := Word.fits32_getD h.consists (by decide) rfl (.inl rfl)
  readyReplicas := Word.fits32_getD h.consists (by decide) rfl (.inr rfl)
  availableReplicas := Word.fits32_getD h.consists (by decide) rfl (.inr rfl)
  updatedReplicas := Word.fits32_getD h.consists (by decide) rfl (.inr rfl)
  labels := Labels.ordered_getD h.consists (by decide) rfl

theorem Node.ordered_of_fits (h : Node.shape.Fits limit j) : (Node.ofJson j).labels.Ordered :=
  Labels.ordered_getD h.consists (by decide) rfl

theorem Happening.fits32_of_fits (h : Happening.shape.Fits limit j) : Word.Fits32 (Happening.ofJson j).count :=
  Word.fits32_getD h.consists (by decide) rfl (.inr rfl)

/-! ### Clusters -/

/-- The resources of one kind, each of them read from an item of its list. -/
theorem forall_resources {α : Type} {r : Json → α} {P : α → Prop} {n : Nat} {name : String}
    (h : (Shape.record name fields).Fits (some n) j) (hnames : (fields.map Json.Field.name).Nodup) {key : String}
    {item : Shape} (hf : findField? key fields = some (fallback key (.list item) (.array [])))
    (hitem : ∀ v, item.Fits (some n) v → P (r v)) :
    (∀ x ∈ (j.getD key).items.map r, P x) ∧ ((j.getD key).items.map r).length ≤ n := by
  obtain ⟨hitems, hcount⟩ := forall_items_getD h.consists hnames hf (P := fun v => P (r v)) hitem
  refine ⟨fun x hx => ?_, ?_⟩
  · obtain ⟨v, hv, rfl⟩ := List.mem_map.1 hx
    exact hitems v hv
  · rw [List.length_map]
    exact hcount n rfl

theorem Cluster.sound_of_fits {n : Nat} (hn : n ≤ Word.unsigned64) (h : Cluster.shape.Fits (some n) j) :
    (Cluster.ofJson j).Sound := by
  obtain ⟨hpods, hpodCount⟩ := forall_resources h (by decide) (rfl : findField? "pods" _ = some _)
    (P := fun p : LoggedPod => p.pod.Sound) fun _ => LoggedPod.sound_of_fits
  obtain ⟨hdeployments, hdeploymentCount⟩ := forall_resources h (by decide)
    (rfl : findField? "deployments" _ = some _) (P := Deployment.Sound) fun _ => Deployment.sound_of_fits
  obtain ⟨hnodes, hnodeCount⟩ := forall_resources h (by decide) (rfl : findField? "nodes" _ = some _)
    (P := fun n : Node => n.labels.Ordered) fun _ => Node.ordered_of_fits
  obtain ⟨hhappenings, -⟩ := forall_resources h (by decide) (rfl : findField? "events" _ = some _)
    (P := fun e : Happening => Word.Fits32 e.count) fun _ => Happening.fits32_of_fits
  obtain ⟨-, hserviceCount⟩ := forall_resources h (by decide) (rfl : findField? "services" _ = some _)
    (r := Service.ofJson) (P := fun _ => True) fun _ _ => trivial
  obtain ⟨-, hingressCount⟩ := forall_resources h (by decide) (rfl : findField? "ingresses" _ = some _)
    (r := Ingress.ofJson) (P := fun _ => True) fun _ _ => trivial
  exact {
    pods := hpods
    deployments := hdeployments
    nodes := hnodes
    happenings := hhappenings
    podCount := Nat.le_trans hpodCount hn
    deploymentCount := Nat.le_trans hdeploymentCount hn
    nodeCount := Nat.le_trans hnodeCount hn
    serviceCount := Nat.le_trans hserviceCount hn
    ingressCount := Nat.le_trans hingressCount hn }

/-- A store that is read from a text is sound, unless the text is longer than any there can be. -/
theorem Store.sound_of_ofText {text : Octets} {s : Store} (h : Store.ofText text = .ok s)
    (hlength : 4 * (text.length + 1) ≤ Word.unsigned64) : s.Sound := by
  obtain ⟨j, hread, rfl⟩ := of_map_eq_ok h
  have hsteps : 2 * stepsFor text ≤ Word.unsigned64 := by
    rw [stepsFor]
    omega
  refine Store.Sound.ofClusters fun c hc => ?_
  exact (forall_resources (readText_fits hread) (by decide) (rfl : findField? "clusters" _ = some _)
    fun _ => Cluster.sound_of_fits hsteps).1 c hc

end Helmsman
