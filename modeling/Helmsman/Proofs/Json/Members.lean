import Helmsman.Json.Basic
/-!
# Members in order

`lookup` finds the last member of a key. Sorting the members drops those that it does not find and changes nothing else
about it (`lookup_sortMembers`): in a list that is in order every key stands once, and putting in one more member finds
its place by the key alone. Whatever looks members up can therefore be told from the members as they were written.
-/

namespace Helmsman.Json

/-- Every key stands before the greater ones, and so it stands only once. -/
def Sorted (members : List (String × Json)) : Prop := members.Pairwise fun m m' => m.1 < m'.1

theorem lookup_cons (key : String) (m : String × Json) (members : List (String × Json)) :
    lookup key (m :: members) = (lookup key members).or (if m.1 == key then some m.2 else none) := by
  rw [lookup, lookup, List.reverse_cons, List.find?_append, Option.map_or]
  congr 1
  rw [List.find?_singleton]
  split <;> rfl

theorem lookup_concat (key : String) (members : List (String × Json)) (m : String × Json) :
    lookup key (members ++ [m]) = if m.1 == key then some m.2 else lookup key members := by
  rw [lookup, List.reverse_concat, List.find?_cons]
  cases m.1 == key <;> rfl

theorem lookup_eq_none {key : String} {members : List (String × Json)} (h : ∀ m ∈ members, m.1 ≠ key) :
    lookup key members = none := by
  rw [lookup, Option.map_eq_none_iff, List.find?_eq_none]
  intro m hm
  simpa using h m (List.mem_reverse.1 hm)

theorem lookup_append (key : String) (members more : List (String × Json)) :
    lookup key (members ++ more) = (lookup key more).or (lookup key members) := by
  induction members with
  | nil => exact Option.or_none.symm
  | cons m members ih => rw [List.cons_append, lookup_cons, ih, lookup_cons, Option.or_assoc]

/-- A key that stands nowhere else. -/
theorem lookup_head {key : String} {members : List (String × Json)} (h : key ∉ members.map Prod.fst) (value : Json) :
    lookup key ((key, value) :: members) = some value := by
  have hnone : lookup key members = none := by
    refine lookup_eq_none fun m hm => ?_
    rintro rfl
    exact h (List.mem_map_of_mem hm)
  rw [lookup_cons, hnone, Option.none_or, beq_self_eq_true, if_pos rfl]

theorem lookup_map (f : Json → Json) (key : String) (members : List (String × Json)) :
    lookup key (members.map fun m => (m.1, f m.2)) = (lookup key members).map f := by
  induction members with
  | nil => rfl
  | cons m members ih =>
    rw [List.map_cons, lookup_cons, lookup_cons, ih, Option.map_or]
    congr 1
    split <;> rfl

/-- The three places of a new member, by its key. -/
theorem insertMember_cons (key : String) (value : Json) (m : String × Json) (members : List (String × Json)) :
    (key < m.1 ∧ insertMember key value (m :: members) = (key, value) :: m :: members)
    ∨ (m.1 < key ∧ insertMember key value (m :: members) = m :: insertMember key value members)
    ∨ (m.1 = key ∧ insertMember key value (m :: members) = (key, value) :: members) := by
  rw [insertMember]
  by_cases hlt : key < m.1
  · exact .inl ⟨hlt, if_pos hlt⟩
  · rw [if_neg hlt]
    by_cases hgt : m.1 < key
    · exact .inr (.inl ⟨hgt, if_pos hgt⟩)
    · exact .inr (.inr ⟨String.le_antisymm (String.not_lt.1 hlt) (String.not_lt.1 hgt), if_neg hgt⟩)

theorem mem_insertMember {key : String} {value : Json} {members : List (String × Json)} {m : String × Json}
    (h : m ∈ insertMember key value members) : m = (key, value) ∨ m ∈ members := by
  induction members with
  | nil => exact .inl (List.mem_singleton.1 h)
  | cons m' members ih =>
    rcases insertMember_cons key value m' members with ⟨-, heq⟩ | ⟨-, heq⟩ | ⟨-, heq⟩
    · rw [heq] at h
      exact List.mem_cons.1 h
    · rw [heq] at h
      rcases List.mem_cons.1 h with rfl | h
      · exact .inr List.mem_cons_self
      · exact (ih h).imp_right (List.mem_cons_of_mem m')
    · rw [heq] at h
      exact (List.mem_cons.1 h).imp_right (List.mem_cons_of_mem m')

theorem Sorted.lt_of_mem {key : String} {m m' : String × Json} {members : List (String × Json)}
    (h : Sorted (m :: members)) (hlt : key < m.1) (hm' : m' ∈ m :: members) : key < m'.1 := by
  rcases List.mem_cons.1 hm' with rfl | hm'
  · exact hlt
  · exact String.lt_trans hlt ((List.pairwise_cons.1 h).1 m' hm')

theorem Sorted.insertMember {members : List (String × Json)} (h : Sorted members) (key : String) (value : Json) :
    Sorted (insertMember key value members) := by
  induction members with
  | nil => exact List.pairwise_singleton _ _
  | cons m members ih =>
    obtain ⟨hfirst, hrest⟩ := List.pairwise_cons.1 h
    rcases insertMember_cons key value m members with ⟨hlt, heq⟩ | ⟨hgt, heq⟩ | ⟨rfl, heq⟩
    · rw [heq]
      exact List.pairwise_cons.2 ⟨fun m' hm' => h.lt_of_mem hlt hm', h⟩
    · rw [heq]
      refine List.pairwise_cons.2 ⟨fun m' hm' => ?_, ih hrest⟩
      rcases mem_insertMember hm' with rfl | hm'
      · exact hgt
      · exact hfirst m' hm'
    · rw [heq]
      exact List.pairwise_cons.2 ⟨hfirst, hrest⟩

theorem lookup_of_lt {key : String} {members : List (String × Json)} (h : ∀ m ∈ members, key < m.1) :
    lookup key members = none := by
  refine lookup_eq_none fun m hm heq => ?_
  exact String.lt_irrefl key (heq ▸ h m hm)

theorem lookup_cons_of_lt {key : String} {members : List (String × Json)} (h : ∀ m ∈ members, key < m.1)
    (key' : String) (value : Json) :
    lookup key' ((key, value) :: members) = if key == key' then some value else lookup key' members := by
  rw [lookup_cons]
  split
  · rename_i hkey
    rw [← eq_of_beq hkey, lookup_of_lt h, Option.none_or]
  · exact Option.or_none

/-- A new member is found by its key, and nothing else is found in another way. -/
theorem Sorted.lookup_insertMember {members : List (String × Json)} (h : Sorted members) (key key' : String)
    (value : Json) : lookup key' (Json.insertMember key value members)
      = if key == key' then some value else lookup key' members := by
  induction members with
  | nil => exact lookup_cons_of_lt (fun m hm => absurd hm List.not_mem_nil) key' value
  | cons m members ih =>
    obtain ⟨hfirst, hrest⟩ := List.pairwise_cons.1 h
    rcases insertMember_cons key value m members with ⟨hlt, heq⟩ | ⟨hgt, heq⟩ | ⟨rfl, heq⟩
    · rw [heq]
      exact lookup_cons_of_lt (fun m' hm' => h.lt_of_mem hlt hm') key' value
    · rw [heq, lookup_cons, ih hrest, lookup_cons]
      split <;> rfl
    · rw [heq, lookup_cons_of_lt hfirst, lookup_cons]
      split
      · rfl
      · exact Option.or_none.symm

private theorem lookup_foldl {sorted : List (String × Json)} (h : Sorted sorted) (key : String)
    (members : List (String × Json)) :
    lookup key (members.foldl (fun sorted m => insertMember m.1 m.2 sorted) sorted)
      = (lookup key members).or (lookup key sorted) := by
  induction members generalizing sorted with
  | nil => rfl
  | cons m members ih =>
    rw [List.foldl_cons, ih (h.insertMember m.1 m.2), h.lookup_insertMember, lookup_cons, Option.or_assoc]
    split <;> rfl

/-- Sorting keeps the last member of each key. -/
@[simp] theorem lookup_sortMembers (key : String) (members : List (String × Json)) :
    lookup key (sortMembers members) = lookup key members :=
  (lookup_foldl List.Pairwise.nil key members).trans Option.or_none

theorem mem_sortMembers {members : List (String × Json)} {m : String × Json} (h : m ∈ sortMembers members) :
    m ∈ members := by
  have hfold : ∀ sorted, m ∈ members.foldl (fun sorted m => insertMember m.1 m.2 sorted) sorted →
      m ∈ members ∨ m ∈ sorted := by
    clear h
    induction members with
    | nil => exact fun _ h => .inr h
    | cons m' members ih =>
      intro sorted h
      rcases ih _ h with hm | hm
      · exact .inl (List.mem_cons_of_mem _ hm)
      · rcases mem_insertMember hm with rfl | hm
        · exact .inl List.mem_cons_self
        · exact .inr hm
  exact (hfold [] h).resolve_right List.not_mem_nil

theorem canonicalItems_eq (items : List Json) : canonicalItems items = items.map canonical := by
  induction items with
  | nil => rfl
  | cons j items ih => rw [canonicalItems, ih, List.map_cons]

theorem canonicalMembers_eq (members : List (String × Json)) :
    canonicalMembers members = members.map fun m => (m.1, m.2.canonical) := by
  induction members with
  | nil => rfl
  | cons m members ih => rw [canonicalMembers, ih, List.map_cons]

theorem get?_ofMembers (key : String) (members : List (String × Json)) :
    (ofMembers members).get? key = lookup key members := lookup_sortMembers key members

theorem get?_of_lookup {key : String} {members : List (String × Json)} {value : Json}
    (h : lookup key members = some value) : (ofMembers members).get? key = some value :=
  (get?_ofMembers key members).trans h

/-- What the canonical form of an object has for a key. -/
theorem lookup_canonical (key : String) (members : List (String × Json)) :
    lookup key (sortMembers (canonicalMembers members)) = (lookup key members).map canonical := by
  rw [lookup_sortMembers, canonicalMembers_eq, lookup_map]

end Helmsman.Json
