import Helmsman.Proofs.Json.Members
import Helmsman.Proofs.Json.Reader
/-!
# Values in canonical form

Taking the canonical form a second time changes nothing (`canonical_canonical`), and a value that is built member by
member out of such values is one itself. Where its numbers are whole besides, and it is not nested too deep, it is
`Stable`: what is written for it is parsed as the value itself (`Stable.parse_render`).
-/

namespace Helmsman.Json

/-! ### Members that are in order -/

theorem sorted_sortMembers (members : List (String × Json)) : Sorted (sortMembers members) := by
  have hfold : ∀ sorted, Sorted sorted →
      Sorted (members.foldl (fun sorted m => insertMember m.1 m.2 sorted) sorted) := by
    induction members with
    | nil => exact fun _ h => h
    | cons m members ih => exact fun sorted h => ih _ (h.insertMember m.1 m.2)
  exact hfold [] List.Pairwise.nil

theorem insertMember_of_lt {key : String} {value : Json} {members : List (String × Json)}
    (h : ∀ m ∈ members, m.1 < key) : insertMember key value members = members ++ [(key, value)] := by
  induction members with
  | nil => rfl
  | cons m members ih =>
    obtain ⟨hm, hrest⟩ := List.forall_mem_cons.1 h
    rw [insertMember, if_neg (String.lt_asymm hm), if_pos hm, ih hrest, List.cons_append]

/-- Members that are in order stay where they are. -/
theorem sortMembers_of_sorted {members : List (String × Json)} (h : Sorted members) :
    sortMembers members = members := by
  have hfold : ∀ before, Sorted (before ++ members) →
      members.foldl (fun sorted m => insertMember m.1 m.2 sorted) before = before ++ members := by
    clear h
    induction members with
    | nil => exact fun before _ => (List.append_nil before).symm
    | cons m members ih =>
      intro before h
      have hm : ∀ m' ∈ before, m'.1 < m.1 := fun m' hm' =>
        (List.pairwise_append.1 h).2.2 m' hm' m List.mem_cons_self
      rw [List.foldl_cons, insertMember_of_lt hm, ih _ (by rwa [List.append_cons] at h), ← List.append_cons]
  exact hfold [] h

/-! ### The canonical form -/

theorem canonical_array {items : List Json} (h : ∀ j ∈ items, j.canonical = j) :
    (array items).canonical = array items := by
  rw [canonical, canonicalItems_eq, List.map_congr_left h, List.map_id']

theorem canonical_object {members : List (String × Json)} (hsorted : Sorted members)
    (h : ∀ m ∈ members, m.2.canonical = m.2) : (object members).canonical = object members := by
  have hmembers : canonicalMembers members = members := by
    rw [canonicalMembers_eq, List.map_congr_left fun m hm => congrArg (Prod.mk m.1) (h m hm)]
    exact List.map_id' members
  rw [canonical, hmembers, sortMembers_of_sorted hsorted]

theorem canonical_ofMembers {members : List (String × Json)} (h : ∀ m ∈ members, m.2.canonical = m.2) :
    (ofMembers members).canonical = ofMembers members :=
  canonical_object (sorted_sortMembers members) fun m hm => h m (mem_sortMembers hm)

mutual

theorem canonical_canonical : ∀ j : Json, j.canonical.canonical = j.canonical
  | .null => rfl
  | .bool _ => rfl
  | .number _ => rfl
  | .string _ => rfl
  | .array items => by
    rw [canonical]
    exact canonical_array (canonical_of_mem_items items)
  | .object members => by
    rw [canonical]
    exact canonical_ofMembers (canonical_of_mem_members members)

theorem canonical_of_mem_items : ∀ items : List Json, ∀ j ∈ canonicalItems items, j.canonical = j
  | [] => List.forall_mem_nil _
  | j :: rest => by
    rw [canonicalItems, List.forall_mem_cons]
    exact ⟨canonical_canonical j, canonical_of_mem_items rest⟩

theorem canonical_of_mem_members :
    ∀ members : List (String × Json), ∀ m ∈ canonicalMembers members, m.2.canonical = m.2
  | [] => List.forall_mem_nil _
  | (k, j) :: rest => by
    rw [canonicalMembers, List.forall_mem_cons]
    exact ⟨canonical_canonical j, canonical_of_mem_members rest⟩

end

/-! ### Canonical form and reading back -/

theorem readable_ofMembers {depth : Nat} {members : List (String × Json)}
    (h : ∀ m ∈ members, Readable (depth + 1) m.2) : Readable (depth + 2) (ofMembers members) :=
  .object fun m hm => h m (mem_sortMembers hm)

theorem Readable.canonical {depth : Nat} {j : Json} (h : Readable depth j) : Readable depth j.canonical := by
  induction h with
  | null depth => exact .null depth
  | bool depth b => exact .bool depth b
  | int depth n low high => exact .int depth n low high
  | string depth s => exact .string depth s
  | array h ih =>
    rw [Json.canonical, canonicalItems_eq]
    refine .array fun j hj => ?_
    obtain ⟨j', hj', rfl⟩ := List.mem_map.1 hj
    exact ih j' hj'
  | object h ih =>
    rw [Json.canonical, canonicalMembers_eq]
    refine readable_ofMembers fun m hm => ?_
    obtain ⟨m', hm', rfl⟩ := List.mem_map.1 hm
    exact ih m' hm'

/-- Values that stand for themselves once they are written: with so many brackets left to open they can be read back,
and they are in canonical form. -/
structure Stable (depth : Nat) (j : Json) : Prop where
  readable : Readable depth j
  canonical : j.canonical = j

namespace Stable

theorem null (depth : Nat) : Stable depth .null := ⟨.null depth, rfl⟩

theorem bool (depth : Nat) (b : Bool) : Stable depth (.bool b) := ⟨.bool depth b, rfl⟩

theorem string (depth : Nat) (s : String) : Stable depth (.string s) := ⟨.string depth s, rfl⟩

theorem ofText? (depth : Nat) (s : Option String) : Stable depth (ofText? s) := by
  cases s with
  | none => exact null depth
  | some s => exact string depth s

theorem int (depth : Nat) {n : Int} (low : -9223372036854775808 ≤ n) (high : n ≤ greatestSignificand) :
    Stable depth (ofInt n) := ⟨.int depth n low high, rfl⟩

theorem array {depth : Nat} {items : List Json} (h : ∀ j ∈ items, Stable (depth + 1) j) :
    Stable (depth + 2) (.array items) where
  readable := .array fun j hj => (h j hj).readable
  canonical := canonical_array fun j hj => (h j hj).canonical

theorem object {depth : Nat} {members : List (String × Json)} (hsorted : Sorted members)
    (h : ∀ m ∈ members, Stable (depth + 1) m.2) : Stable (depth + 2) (.object members) where
  readable := .object fun m hm => (h m hm).readable
  canonical := canonical_object hsorted fun m hm => (h m hm).canonical

theorem ofMembers {depth : Nat} {members : List (String × Json)} (h : ∀ m ∈ members, Stable (depth + 1) m.2) :
    Stable (depth + 2) (ofMembers members) where
  readable := readable_ofMembers fun m hm => (h m hm).readable
  canonical := canonical_ofMembers fun m hm => (h m hm).canonical

/-- The canonical form of whatever can be read back. -/
theorem ofReadable {depth : Nat} {j : Json} (h : Readable depth j) : Stable depth j.canonical :=
  ⟨h.canonical, canonical_canonical j⟩

theorem parse_render {j : Json} (h : Stable depthLimit j) : parse j.render = .ok j := by
  rw [parse, read_render h.readable]
  exact congrArg Except.ok h.canonical

end Stable

end Helmsman.Json
