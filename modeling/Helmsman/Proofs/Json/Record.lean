import Helmsman.Proofs.Json.Shape
/-!
# Records, written with members left out

What is known of a record is written member by member, and a member that has nothing to say is left out. The lemmas
here follow such a list from its one end to the other: each member is either no field of the shape and changes nothing
(`checkMembers_unknown`), or it adds what its field makes of it (`checkMembers_known`). In the end every field is looked
up in what was found (`complete_cons`), and whoever reads the record looks its fields up again (`getD_cons`).
-/

namespace Helmsman.Json

open Shape

/-- A member that may have been left out. -/
def member? (key : String) (value : Option Json) : Members := value.elim [] fun j => [(key, j)]

@[simp] theorem found?_nil (key : String) : found? key [] = none := rfl

@[simp] theorem found?_member? (key key' : String) (value : Option Json) :
    found? key (member? key' value) = if key' = key then value else none := by
  cases value with
  | none => simp [member?]
  | some j => by_cases h : key' = key <;> simp [member?, found?, h]

@[simp] theorem found?_member?_append (key key' : String) (value : Option Json) (found : Members) :
    found? key (member? key' value ++ found)
      = if key' = key then value.or (found? key found) else found? key found := by
  cases value with
  | none => simp [member?]
  | some j => by_cases h : key' = key <;> simp [member?, found?, h]

theorem checkMembers_nil (fields : List (Field Shape)) (found : Members) :
    checkMembers false fields found [] = .ok found := rfl

theorem checkMembers_unknown {fields : List (Field Shape)} {key : String} (h : findField? key fields = none)
    (value : Option Json) (found members : Members) :
    checkMembers false fields found (member? key value ++ members) = checkMembers false fields found members := by
  cases value with
  | none => rfl
  | some j =>
    show checkMembers false fields found ((key, j) :: members) = _
    rw [checkMembers, h]

theorem checkMembers_known {fields : List (Field Shape)} {key : String} {f : Field Shape}
    (h : findField? key fields = some f) {j n : Json} (hj : checkField f j = .ok n) {found : Members}
    (hfresh : found? key found = none) (members : Members) :
    checkMembers false fields found (member? key (some j) ++ members)
      = checkMembers false fields (member? key (some n) ++ found) members := by
  rw [checkField] at hj
  show checkMembers false fields found ((key, j) :: members) = _
  rw [checkMembers, h]
  dsimp only
  rw [hfresh, Option.isSome_none, if_neg Bool.false_ne_true]
  split at hj
  · rename_i hnull
    obtain rfl : Json.null = n := Except.ok.inj hj
    rw [if_pos hnull]
    rfl
  · rename_i hnull
    rw [if_neg hnull, hj]
    rfl

/-- A field for a text. -/
theorem checkMembers_text {fields : List (Field Shape)} {key : String} {f : Field Shape}
    (h : findField? key fields = some f) (hf : f.shape = .text) (value : Option String) {found : Members}
    (hfresh : found? key found = none) (members : Members) :
    checkMembers false fields found (member? key (value.map .string) ++ members)
      = checkMembers false fields (member? key (value.map .string) ++ found) members := by
  cases value with
  | none => rfl
  | some s =>
    have hs : checkField f (.string s) = .ok (.string s) := by
      rw [checkField, hf, if_neg (by simp [isNull])]
      rfl
    exact checkMembers_known h hs hfresh members

theorem checkItems_map {α : Type} {item : Shape} {write read : α → Json}
    (h : ∀ a, check false item (write a) = .ok (read a)) (as : List α) :
    checkItems false item (as.map write) = .ok (as.map read) := by
  induction as with
  | nil => rfl
  | cons a as ih =>
    rw [List.map_cons, checkItems, h, ih]
    rfl

/-- What a field that is not there counts as, if it may be missing. -/
def Need.missing? : Need → Option Json
  | .required => none
  | .optional => some .null
  | .fallback value => some value

theorem complete_nil (found : Members) : complete found [] = .ok [] := rfl

theorem complete_cons {f : Field Shape} {found : Members} (value : Json)
    (h : (found? f.name found).or f.need.missing? = some value) (fields : List (Field Shape)) :
    complete found (f :: fields) = (complete found fields).map ((f.name, value) :: ·) := by
  rw [complete]
  cases hfound : found? f.name found with
  | some j =>
    rw [hfound, Option.some_or] at h
    obtain rfl := Option.some.inj h
    rfl
  | none =>
    rw [hfound, Option.none_or] at h
    cases hneed : f.need with
    | required =>
      rw [hneed] at h
      cases h
    | optional =>
      rw [hneed] at h
      obtain rfl := Option.some.inj h
      rfl
    | fallback j =>
      rw [hneed] at h
      obtain rfl := Option.some.inj h
      rfl

theorem check_object {name : String} {fields : List (Field Shape)} {members found ns : Members}
    (hfound : checkMembers false fields [] members = .ok found) (hns : complete found fields = .ok ns) :
    check false (.record name fields) (.object members) = .ok (.object ns) := by
  rw [check, hfound]
  show (complete found fields >>= _) = _
  rw [hns]
  rfl

theorem complete_text {key : String} {found : Members} (value : Option String)
    (h : found? key found = value.map .string) (fields : List (Field Shape)) :
    complete found (optional key .text :: fields) = (complete found fields).map ((key, ofText? value) :: ·) := by
  apply complete_cons
  show (found? key found).or (some .null) = _
  rw [h]
  cases value <;> rfl

theorem string?_ofText? (s : Option String) : (ofText? s).string? = s := by cases s <;> rfl

theorem text_ofText? (s : Option String) : (ofText? s).text = s.getD "" := by cases s <;> rfl

/-! ### Reading it back -/

theorem readable_members {depth : Nat} {parts : List Members} (h : ∀ part ∈ parts, ∀ m ∈ part, Readable depth m.2) :
    ∀ m ∈ parts.flatten, Readable depth m.2 := by
  intro m hm
  obtain ⟨part, hpart, hm⟩ := List.mem_flatten.1 hm
  exact h part hpart m hm

theorem readable_member? {depth : Nat} (key : String) {value : Option Json} (h : ∀ j ∈ value, Readable depth j) :
    ∀ m ∈ member? key value, Readable depth m.2 := by
  cases value with
  | none => exact List.forall_mem_nil _
  | some j =>
    intro m hm
    obtain rfl := List.mem_singleton.1 hm
    exact h j rfl

theorem readable_text (depth : Nat) (key : String) (value : Option String) :
    ∀ m ∈ member? key (value.map .string), Readable depth m.2 := by
  apply readable_member?
  intro j hj
  cases value with
  | none => cases hj
  | some s =>
    obtain rfl := Option.some.inj hj
    exact .string depth s

end Helmsman.Json
