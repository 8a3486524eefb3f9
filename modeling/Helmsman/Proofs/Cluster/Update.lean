import Helmsman.Cluster.Store
/-!
# What a write does to a store

Both writes go through `updateDeployment`. This module says what it does to the clusters of a store: the one with the
number has one deployment changed, the first of its name, and all others are the same. It also says what setting an
annotation does to the others.
-/

namespace Helmsman

namespace Labels

theorem insert_insert (key value value' : String) (labels : Labels) :
    (labels.insert key value).insert key value' = labels.insert key value' := by
  induction labels with
  | nil => simp only [insert, String.lt_irrefl, if_false]
  | cons l rest ih =>
    obtain ⟨k, v⟩ := l
    by_cases hlt : key < k
    · simp only [insert, if_pos hlt, String.lt_irrefl, if_false]
    · by_cases hgt : k < key
      · simp only [insert, if_neg hlt, if_pos hgt]
        rw [ih]
      · simp only [insert, if_neg hlt, if_neg hgt, String.lt_irrefl, if_false]

theorem get?_insert_of_ne {key key' : String} (hne : key' ≠ key) (value : String) (labels : Labels) :
    (labels.insert key value).get? key' = labels.get? key' := by
  have hkey : (key == key') = false := beq_false_of_ne (Ne.symm hne)
  induction labels with
  | nil => simp only [insert, get?, List.find?_cons, hkey, List.find?_nil]
  | cons l rest ih =>
    obtain ⟨k, v⟩ := l
    by_cases hlt : key < k
    · simp only [insert, if_pos hlt, get?, List.find?_cons, hkey]
    · by_cases hgt : k < key
      · simp only [get?] at ih
        simp only [insert, if_neg hlt, if_pos hgt, get?, List.find?_cons]
        cases k == key' with
        | true => rfl
        | false => exact ih
      · have hk : (k == key') = false := by rw [String.le_antisymm hlt hgt, hkey]
        simp only [insert, if_neg hlt, if_neg hgt, get?, List.find?_cons, hk, hkey]

theorem get?_insert_self (key value : String) (labels : Labels) : (labels.insert key value).get? key = some value := by
  induction labels with
  | nil => simp only [insert, get?, List.find?_cons, beq_self_eq_true, Option.map_some]
  | cons l rest ih =>
    obtain ⟨k, v⟩ := l
    by_cases hlt : key < k
    · simp only [insert, if_pos hlt, get?, List.find?_cons, beq_self_eq_true, Option.map_some]
    · by_cases hgt : k < key
      · have hk : (k == key) = false := beq_false_of_ne fun heq => String.lt_irrefl key (heq ▸ hgt)
        simp only [get?] at ih
        simp only [insert, if_neg hlt, if_pos hgt, get?, List.find?_cons, hk]
        exact ih
      · simp only [insert, if_neg hlt, if_neg hgt, get?, List.find?_cons, beq_self_eq_true, Option.map_some]

end Labels

/-! ### The first element of a kind -/

theorem updateFirst_eq_none_iff {α : Type} {p : α → Bool} {f : α → α} {l : List α} :
    updateFirst p f l = none ↔ ∀ a ∈ l, p a = false := by
  induction l with
  | nil => simp [updateFirst]
  | cons a rest ih =>
    rw [updateFirst, List.forall_mem_cons]
    cases ha : p a with
    | true => simp
    | false => simpa using ih

/-- An update tells the first element of its kind from those before it and behind it. -/
theorem exists_of_updateFirst {α : Type} {p : α → Bool} {f : α → α} {l l' : List α} (h : updateFirst p f l = some l') :
    ∃ before a after, l = before ++ a :: after ∧ (∀ b ∈ before, p b = false) ∧ p a = true
      ∧ l' = before ++ f a :: after := by
  induction l generalizing l' with
  | nil => cases h
  | cons a rest ih =>
    rw [updateFirst] at h
    by_cases ha : p a = true
    · rw [if_pos ha] at h
      obtain rfl := Option.some.inj h
      exact ⟨[], a, rest, rfl, List.forall_mem_nil _, ha, rfl⟩
    · rw [if_neg ha] at h
      obtain ⟨rest', hrest', rfl⟩ := Option.map_eq_some_iff.1 h
      obtain ⟨before, x, after, rfl, hbefore, hx, rfl⟩ := ih hrest'
      exact ⟨a :: before, x, after, rfl, List.forall_mem_cons.2 ⟨Bool.eq_false_iff.2 ha, hbefore⟩, hx, rfl⟩

/-- The changed element is the first of its kind, and no other element is touched. -/
theorem updateFirst_eq_mapIdx {α : Type} {p : α → Bool} {f : α → α} {l l' : List α}
    (h : updateFirst p f l = some l') :
    l' = l.mapIdx fun i a => if p a && !(l.take i).any p then f a else a := by
  induction l generalizing l' with
  | nil => simp [updateFirst] at h
  | cons a rest ih =>
    rw [updateFirst] at h
    rw [List.mapIdx_cons]
    by_cases ha : p a = true
    · rw [if_pos ha] at h
      obtain rfl := Option.some.inj h
      have hrest : (rest.mapIdx fun i b => if p b && !((a :: rest).take (i + 1)).any p then f b else b)
          = rest := by
        simp [List.take_succ_cons, ha, List.mapIdx_eq_iff]
      rw [hrest]
      simp [ha]
    · rw [if_neg ha] at h
      obtain ⟨rest', hrest', rfl⟩ := Option.map_eq_some_iff.1 h
      simp [List.take_succ_cons, ha, ih hrest']

namespace Store

theorem find?_id {s : Store} {id : Nat} {c : Cluster} (h : s.find? id = some c) : c.id = id :=
  beq_iff_eq.1 (List.find?_some (p := fun c : Cluster => c.id == id) h)

private theorem find?_insertCluster (c : Cluster) (l : List Cluster) (id : Nat) :
    (insertCluster c l).find? (fun d => d.id == id)
      = if c.id = id then some c else l.find? fun d => d.id == id := by
  induction l with
  | nil => by_cases hid : c.id = id <;> simp [insertCluster, hid]
  | cons d rest ih =>
    rw [insertCluster]
    split
    · by_cases hid : c.id = id <;> simp [hid]
    · rename_i hle
      split
      -- The cluster goes further back, and so one in front with the number is another one.
      · rename_i hlt
        by_cases hid : d.id = id
        · have hne : c.id ≠ id := by omega
          simp [hid, hne]
        · simp [hid, ih]
      · rename_i hge
        have hsame : d.id = c.id := by omega
        by_cases hid : c.id = id <;> simp [hsame, hid]

/-- What is put into a store is found under its number, and nothing else is found differently. -/
theorem find?_insert (s : Store) (c : Cluster) (id : Nat) :
    (s.insert c).find? id = if c.id = id then some c else s.find? id := find?_insertCluster c s.clusters id

/-- The cluster that is found is the only one with its number. -/
theorem eq_of_find? {s : Store} {id : Nat} {c d : Cluster} (h : s.find? id = some c) (hd : d ∈ s.clusters)
    (hid : d.id = id) : d = c := by
  obtain ⟨-, before, after, hclusters, hbefore⟩ := List.find?_eq_some_iff_append.1 h
  have hordered := s.ordered
  rw [hclusters] at hd hordered
  obtain ⟨-, hafter, -⟩ := List.pairwise_append.1 hordered
  rcases List.mem_append.1 hd with hd | hd
  · simpa [hid] using hbefore d hd
  · rcases List.mem_cons.1 hd with rfl | hd
    · rfl
    · have hlt := (List.pairwise_cons.1 hafter).1 d hd
      rw [find?_id h, hid] at hlt
      exact absurd hlt (Nat.lt_irrefl id)

private theorem insertCluster_eq_map {c : Cluster} {l : List Cluster} (h : l.Pairwise (fun c d => c.id < d.id))
    (hmem : ∃ d ∈ l, d.id = c.id) : insertCluster c l = l.map fun d => if d.id = c.id then c else d := by
  induction l with
  | nil =>
    obtain ⟨d, hd, -⟩ := hmem
    exact absurd hd List.not_mem_nil
  | cons d rest ih =>
    obtain ⟨hd, hrest⟩ := List.pairwise_cons.1 h
    obtain ⟨x, hx, hid⟩ := hmem
    rw [insertCluster, List.map_cons]
    rcases List.mem_cons.1 hx with rfl | hx
    · have hlarger : rest.map (fun d => if d.id = c.id then c else d) = rest := by
        refine (List.map_congr_left ?_).trans (List.map_id rest)
        intro y hy
        have hlt := hd y hy
        exact if_neg (by omega)
      rw [if_neg (by omega), if_neg (by omega), if_pos hid, hlarger]
    · have hlt := hd x hx
      rw [if_neg (by omega), if_pos (by omega), if_neg (by omega), ih hrest ⟨x, hx, hid⟩]

theorem ready_eq_ok_iff {s : Store} {id : Nat} {c : Cluster} :
    s.ready id = .ok c ↔ s.find? id = some c ∧ c.ready = true := by
  rw [ready]
  cases s.find? id with
  | none => exact ⟨fun h => (nomatch h), fun h => (nomatch h.1)⟩
  | some d =>
    dsimp only
    split
    · rename_i hready
      constructor
      · intro h
        obtain rfl := Except.ok.inj h
        exact ⟨rfl, hready⟩
      · rintro ⟨h, -⟩
        rw [Option.some.inj h]
    · rename_i hready
      refine ⟨fun h => (nomatch h), ?_⟩
      rintro ⟨h, hc⟩
      rw [Option.some.inj h] at hready
      exact absurd hc hready

theorem ready_id {s : Store} {id : Nat} {c : Cluster} (h : s.ready id = .ok c) : c.id = id :=
  find?_id (ready_eq_ok_iff.1 h).1

/-- A write succeeds if its cluster is ready and has a deployment of the name, and puts the cluster back with that
deployment changed. -/
theorem updateDeployment_eq_ok_iff {s s' : Store} {id : Nat} {ns name : String} {f : Deployment → Deployment} :
    s.updateDeployment id ns name f = .ok s' ↔ ∃ c deployments, s.ready id = .ok c
      ∧ updateFirst (isDeployment ns name) f c.deployments = some deployments
      ∧ s' = s.insert { c with deployments } := by
  rw [updateDeployment]
  cases s.ready id with
  | error e => exact ⟨fun h => (nomatch h), fun ⟨_, _, h, _⟩ => (nomatch h)⟩
  | ok c =>
    dsimp only [bind, Except.bind]
    constructor
    · intro h
      cases hu : updateFirst (isDeployment ns name) f c.deployments with
      | none =>
        rw [hu] at h
        cases h
      | some deployments =>
        rw [hu] at h
        exact ⟨c, deployments, rfl, hu, (Except.ok.inj h).symm⟩
    · rintro ⟨c', deployments, hc, hu, rfl⟩
      obtain rfl := Except.ok.inj hc
      rw [hu]
      rfl

/-- All that a write that succeeds does. -/
theorem updateDeployment_ok {s s' : Store} {id : Nat} {ns name : String} {f : Deployment → Deployment}
    (h : s.updateDeployment id ns name f = .ok s') :
    s'.clusters = s.clusters.map fun c =>
      if c.id = id then
        { c with
          deployments := c.deployments.mapIdx fun i d =>
            if isDeployment ns name d && !(c.deployments.take i).any (isDeployment ns name) then f d else d }
      else c := by
  obtain ⟨c, deployments, hr, hu, rfl⟩ := updateDeployment_eq_ok_iff.1 h
  obtain ⟨hc, -⟩ := ready_eq_ok_iff.1 hr
  have hmem : ∃ d ∈ s.clusters, d.id = ({ c with deployments } : Cluster).id :=
    ⟨c, List.mem_of_find?_eq_some hc, rfl⟩
  refine (insertCluster_eq_map s.ordered hmem).trans (List.map_congr_left ?_)
  intro d hd
  by_cases hid : d.id = id
  · obtain rfl := eq_of_find? hc hd hid
    rw [if_pos rfl, if_pos hid, updateFirst_eq_mapIdx hu]
  · rw [if_neg (by rw [find?_id hc]; exact hid), if_neg hid]

end Store

end Helmsman
