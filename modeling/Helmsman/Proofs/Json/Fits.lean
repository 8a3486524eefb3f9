import Helmsman.Proofs.Json.Canonical
import Helmsman.Proofs.Json.Need
import Mathlib.Data.List.Nodup
/-!
# What is read has its shape

`Fits` says in one place what the normal form of a shape is: texts, truth values and numbers in their bounds, lists of
what fits, tables in the order of their keys, and objects each of whose members is a field of that name. Both readers
give nothing else (`check_fits`, `readText_fits`). So whoever takes a document apart need not look at its text.

A list that is read with the text is no longer than the text, since every item takes a step. Of lists in a value that
was set aside nothing of that kind is kept.
-/

namespace Helmsman.Json

open Shape

mutual

/-- A value in the normal form of a shape. No list is longer than the limit, if there is one. -/
inductive Shape.Fits : Option Nat → Shape → Json → Prop
  | text (limit : Option Nat) (s : String) : Shape.Fits limit .text (.string s)
  | flag (limit : Option Nat) (b : Bool) : Shape.Fits limit .flag (.bool b)
  | integer (limit : Option Nat) {low high n : Int} (name : String) (hlow : low ≤ n) (hhigh : n ≤ high) :
    Shape.Fits limit (.integer low high name) (.ofInt n)
  | spelled (limit : Option Nat) (expected : String) {fault : String → Option String} {s : String}
    (h : fault s = none) : Shape.Fits limit (.spelled expected fault) (.string s)
  | choice (limit : Option Nat) {variants : List String} {s : String} (h : s ∈ variants) :
    Shape.Fits limit (.choice variants) (.string s)
  | list {limit : Option Nat} {item : Shape} {items : List Json} (h : ∀ j ∈ items, Shape.Fits limit item j)
    (hcount : ∀ n ∈ limit, items.length ≤ n) : Shape.Fits limit (.list item) (.array items)
  | table {limit : Option Nat} {item : Shape} {members : Members} (h : ∀ m ∈ members, Shape.Fits limit item m.2) :
    Shape.Fits limit (.table item) (ofMembers members)
  | record {limit : Option Nat} (name : String) {fields : List (Field Shape)} {members : Members}
    (h : ∀ m ∈ members, Shape.Belongs limit fields m) : Shape.Fits limit (.record name fields) (.object members)
  | overlay (limit : Option Nat) (name : String) {own base : List (Field Shape)} {members : Members}
    (h : ∀ m ∈ members, Shape.Belongs none (base ++ own) m) :
    Shape.Fits limit (.overlay name own base) (.object members)
  | tagged (limit : Option Nat) (name tag : String) {variants : List (String × List (Field Shape))}
    {v : String × List (Field Shape)} {members : Members} (hv : v ∈ variants)
    (h : ∀ m ∈ members, Shape.Belongs none v.2 m) :
    Shape.Fits limit (.tagged name tag variants) (.object ((tag, .string v.1) :: members))

/-- A member that is one of the fields: a value that fits it, what it counts as when it is not there, or `null`. -/
inductive Shape.Belongs : Option Nat → List (Field Shape) → String × Json → Prop
  | value {limit : Option Nat} {fields : List (Field Shape)} {f : Field Shape} {j : Json} (hf : f ∈ fields)
    (h : f.shape.Fits limit j) : Shape.Belongs limit fields (f.name, j)
  | missing (limit : Option Nat) {fields : List (Field Shape)} {f : Field Shape} {j : Json} (hf : f ∈ fields)
    (h : f.need.missing? = some j) : Shape.Belongs limit fields (f.name, j)
  | null (limit : Option Nat) {fields : List (Field Shape)} {f : Field Shape} (hf : f ∈ fields)
    (h : f.nullable = true) : Shape.Belongs limit fields (f.name, .null)

end

theorem Shape.Belongs.mono {limit : Option Nat} {fields fields' : List (Field Shape)} {m : String × Json}
    (h : Belongs limit fields m) (hfields : ∀ f ∈ fields, f ∈ fields') : Belongs limit fields' m := by
  cases h with
  | value hf h => exact .value (hfields _ hf) h
  | missing _ hf h => exact .missing _ (hfields _ hf) h
  | null _ hf h => exact .null _ (hfields _ hf) h

/-! ### Values without parts -/

theorem checkScalar_fits {limit : Option Nat} {shape : Shape} {j n : Json} (h : checkScalar shape j = .ok n) :
    shape.Fits limit n := by
  rw [checkScalar.eq_def] at h
  split at h
  · obtain rfl := Except.ok.inj h
    exact .text limit _
  · obtain rfl := Except.ok.inj h
    exact .flag limit _
  · split at h
    · rename_i hbounds
      obtain rfl := Except.ok.inj h
      exact .integer limit _ hbounds.1 hbounds.2
    · cases h
  · split at h
    · rename_i hfault
      obtain rfl := Except.ok.inj h
      exact .spelled limit _ hfault
    · cases h
  · cases h

theorem checkVariant_fits {limit : Option Nat} {variants : List String} {s : String} {n : Json}
    (h : checkVariant variants s = .ok n) : (Shape.choice variants).Fits limit n := by
  rw [checkVariant] at h
  split at h
  · rename_i hmem
    obtain rfl := Except.ok.inj h
    exact .choice limit (List.contains_iff_mem.1 hmem)
  · cases h

theorem checkChoice_fits {limit : Option Nat} {variants : List String} {j n : Json}
    (h : checkChoice variants j = .ok n) : (Shape.choice variants).Fits limit n := by
  rw [checkChoice.eq_def] at h
  split at h
  · exact checkVariant_fits h
  · obtain ⟨chosen, hchosen, h⟩ := of_bind_eq_ok h
    split at h
    · obtain rfl := Except.ok.inj h
      exact checkVariant_fits hchosen
    · cases h
  · cases h
  · cases h

/-! ### Fields -/

section

variable {limit : Option Nat} {fields : List (Field Shape)}

theorem belongs_of_found? {key : String} {found : Members} {j : Json} (h : found? key found = some j)
    (hfound : ∀ m ∈ found, Belongs limit fields m) : Belongs limit fields (key, j) := by
  obtain ⟨m, hm, rfl⟩ := Option.map_eq_some_iff.1 h
  have hkey : m.1 = key := by simpa using List.find?_some hm
  exact hkey ▸ hfound m (List.mem_of_find?_eq_some hm)

theorem complete_fits {found ms : Members} (hfound : ∀ m ∈ found, Belongs limit fields m)
    {rest : List (Field Shape)} (hrest : ∀ f ∈ rest, f ∈ fields) (h : complete found rest = .ok ms) :
    ∀ m ∈ ms, Belongs limit fields m := by
  induction rest generalizing ms with
  | nil =>
    obtain rfl := Except.ok.inj h
    exact List.forall_mem_nil _
  | cons f rest ih =>
    obtain ⟨hf, hrest⟩ := List.forall_mem_cons.1 hrest
    obtain ⟨j, ms', hj, hms', rfl⟩ := of_complete_cons h
    refine List.forall_mem_cons.2 ⟨?_, ih hrest hms'⟩
    rcases Option.or_eq_some_iff.1 hj with hj | ⟨-, hj⟩
    · exact belongs_of_found? hj hfound
    · exact .missing limit hf hj

theorem fallbacks_fits {count : Nat} {what : String} {ms : Members} {rest : List (Field Shape)}
    (hrest : ∀ f ∈ rest, f ∈ fields) (h : fallbacks count what rest = .ok ms) : ∀ m ∈ ms, Belongs limit fields m := by
  induction rest generalizing count ms with
  | nil =>
    obtain rfl := Except.ok.inj h
    exact List.forall_mem_nil _
  | cons f rest ih =>
    obtain ⟨hf, hrest⟩ := List.forall_mem_cons.1 hrest
    rw [fallbacks] at h
    split at h
    · rename_i j hneed
      obtain ⟨ms', hms', rfl⟩ := of_map_eq_ok h
      refine List.forall_mem_cons.2 ⟨.missing limit hf ?_, ih hrest hms'⟩
      rw [hneed]
      rfl
    · cases h

theorem mem_of_findField? {key : String} {f : Field Shape} (h : findField? key fields = some f) :
    f ∈ fields ∧ f.name = key := ⟨List.mem_of_find?_eq_some h, by simpa using List.find?_some h⟩

end

/-! ### Values in memory -/

theorem check_fits_of_scalar {buffered : Bool} {shape : Shape} {j n : Json} (hparts : j.hasParts = false)
    (h : check buffered shape j = .ok n) : shape.Fits none n := by
  rw [check_of_scalar hparts] at h
  split at h
  · exact checkChoice_fits h
  · exact checkScalar_fits h

/-- The value of a field, and what is made of it. -/
theorem belongs_of_bind {β : Type} {buffered : Bool} {fields : List (Field Shape)} {f : Field Shape} (hf : f ∈ fields)
    {j : Json} {k : Json → Except Mismatch β} {b : β}
    (hcheck : ∀ n, check buffered f.shape j = .ok n → f.shape.Fits none n)
    (h : (if f.nullable && j.isNull then Except.ok Json.null >>= k else check buffered f.shape j >>= k) = .ok b) :
    ∃ n, Belongs none fields (f.name, n) ∧ k n = .ok b := by
  split at h
  · rename_i hnull
    have hnullable : f.nullable = true := (Bool.and_eq_true _ _ ▸ hnull).1
    exact ⟨.null, .null none hf hnullable, h⟩
  · obtain ⟨n, hn, h⟩ := of_bind_eq_ok h
    exact ⟨n, .value hf (hcheck n hn), h⟩

theorem tagged?_mem {buffered : Bool} {variants : List (String × List (Field Shape))} {tag : Json}
    {v : String × List (Field Shape)} (h : tagged? buffered variants tag = .ok v) : v ∈ variants := by
  rw [tagged?.eq_def] at h
  split at h
  · split at h
    · rename_i hfound
      obtain rfl := Except.ok.inj h
      exact List.mem_of_find?_eq_some hfound
    · cases h
  · split at h
    · split at h
      · rename_i hfound
        obtain rfl := Except.ok.inj h
        exact List.mem_of_getElem? hfound
      · cases h
    · cases h
  · cases h

mutual

theorem check_fits {buffered : Bool} {shape : Shape} : ∀ (j : Json) {n : Json},
    check buffered shape j = .ok n → shape.Fits none n
  | .null, _, h => check_fits_of_scalar rfl h
  | .bool _, _, h => check_fits_of_scalar rfl h
  | .number _, _, h => check_fits_of_scalar rfl h
  | .string _, _, h => check_fits_of_scalar rfl h
  | .array items, n, h => by
    cases shape with
    | list item =>
      rw [check] at h
      obtain ⟨ns, hns, rfl⟩ := of_map_eq_ok h
      exact .list (checkItems_fits items hns) (fun _ hn => absurd hn (by simp))
    | record name fields =>
      rw [check] at h
      obtain ⟨ms, hms, rfl⟩ := of_map_eq_ok h
      exact .record name (checkSequence_fits items (fun _ hf => hf) hms)
    | tagged name tag variants =>
      match items with
      | [] => cases h
      | first :: rest =>
        rw [check] at h
        obtain ⟨v, hv, h⟩ := of_bind_eq_ok h
        obtain ⟨ms, hms, h⟩ := of_bind_eq_ok h
        obtain rfl := Except.ok.inj h
        exact .tagged none name tag (tagged?_mem hv) (checkSequence_fits rest (fun _ hf => hf) hms)
    | _ => cases h
  | .object members, n, h => by
    cases shape with
    | table item =>
      rw [check] at h
      obtain ⟨ms, hms, rfl⟩ := of_map_eq_ok h
      exact .table (checkTable_fits members hms)
    | record name fields =>
      rw [check] at h
      obtain ⟨found, hfound, h⟩ := of_bind_eq_ok h
      obtain ⟨ms, hms, h⟩ := of_bind_eq_ok h
      obtain rfl := Except.ok.inj h
      have hbelongs := checkMembers_fits members (List.forall_mem_nil _) hfound
      exact .record name (complete_fits hbelongs (fun _ hf => hf) hms)
    | overlay name own base =>
      rw [check] at h
      obtain ⟨foundOwn, hfoundOwn, h⟩ := of_bind_eq_ok h
      obtain ⟨owned, howned, h⟩ := of_bind_eq_ok h
      obtain ⟨foundBase, hfoundBase, h⟩ := of_bind_eq_ok h
      obtain ⟨based, hbased, h⟩ := of_bind_eq_ok h
      obtain rfl := Except.ok.inj h
      have hown := complete_fits (checkMembers_fits members (List.forall_mem_nil _) hfoundOwn) (fun _ hf => hf) howned
      have hbase := complete_fits (checkMembers_fits members (List.forall_mem_nil _) hfoundBase) (fun _ hf => hf) hbased
      refine .overlay none name (List.forall_mem_append.2 ⟨fun m hm => ?_, fun m hm => ?_⟩)
      · exact (hbase m hm).mono fun _ hf => List.mem_append_left _ hf
      · exact (hown m hm).mono fun _ hf => List.mem_append_right _ hf
    | tagged name tag variants =>
      rw [check] at h
      obtain ⟨value, hvalue, h⟩ := of_bind_eq_ok h
      obtain ⟨v, hv, h⟩ := of_bind_eq_ok h
      obtain ⟨found, hfound, h⟩ := of_bind_eq_ok h
      obtain ⟨ms, hms, h⟩ := of_bind_eq_ok h
      obtain rfl := Except.ok.inj h
      have hbelongs := checkMembers_fits members (List.forall_mem_nil _) hfound
      exact .tagged none name tag (tagged?_mem hv) (complete_fits hbelongs (fun _ hf => hf) hms)
    | choice variants =>
      rw [check] at h
      exact checkChoice_fits h
    | _ => cases h
termination_by structural j => j

theorem checkItems_fits {buffered : Bool} {item : Shape} : ∀ (items : List Json) {ns : List Json},
    checkItems buffered item items = .ok ns → ∀ n ∈ ns, item.Fits none n
  | [], ns, h => by
    obtain rfl := Except.ok.inj h
    exact List.forall_mem_nil _
  | j :: items, ns, h => by
    rw [checkItems] at h
    obtain ⟨n, hn, h⟩ := of_bind_eq_ok h
    obtain ⟨ns', hns, h⟩ := of_bind_eq_ok h
    obtain rfl := Except.ok.inj h
    exact List.forall_mem_cons.2 ⟨check_fits j hn, checkItems_fits items hns⟩
termination_by structural items => items

theorem checkTable_fits {buffered : Bool} {item : Shape} : ∀ (members : Members) {ms : Members},
    checkTable buffered item members = .ok ms → ∀ m ∈ ms, item.Fits none m.2
  | [], ms, h => by
    obtain rfl := Except.ok.inj h
    exact List.forall_mem_nil _
  | (k, j) :: members, ms, h => by
    rw [checkTable] at h
    obtain ⟨n, hn, h⟩ := of_bind_eq_ok h
    obtain ⟨ms', hms, h⟩ := of_bind_eq_ok h
    obtain rfl := Except.ok.inj h
    exact List.forall_mem_cons.2 ⟨check_fits j hn, checkTable_fits members hms⟩
termination_by structural members => members

theorem checkMembers_fits {buffered : Bool} {fields : List (Field Shape)} :
    ∀ (members : Members) {found found' : Members}, (∀ m ∈ found, Belongs none fields m) →
      checkMembers buffered fields found members = .ok found' → ∀ m ∈ found', Belongs none fields m
  | [], found, found', hfound, h => by
    obtain rfl := Except.ok.inj h
    exact hfound
  | (k, j) :: members, found, found', hfound, h => by
    rw [checkMembers] at h
    split at h
    · exact checkMembers_fits members hfound h
    · rename_i f hf
      obtain ⟨hmem, rfl⟩ := mem_of_findField? hf
      dsimp only at h
      split at h
      · cases h
      · obtain ⟨n, hbelongs, h⟩ := belongs_of_bind hmem (fun _ hcheck => check_fits j hcheck) h
        exact checkMembers_fits members (List.forall_mem_cons.2 ⟨hbelongs, hfound⟩) h
termination_by structural members => members

theorem checkSequence_fits {buffered : Bool} {what : String} {all fields : List (Field Shape)} {length : Nat} :
    ∀ (items : List Json) {count : Nat} {rest : List (Field Shape)} {ms : Members}, (∀ f ∈ rest, f ∈ fields) →
      checkSequence buffered what all length count rest items = .ok ms → ∀ m ∈ ms, Belongs none fields m
  | [], _, _, _, hrest, h => by
    rw [checkSequence] at h
    exact fallbacks_fits hrest h
  | j :: items, _, [], _, _, h => by
    rw [checkSequence] at h
    cases h
  | j :: items, _, f :: rest, ms, hrest, h => by
    obtain ⟨hf, hrest⟩ := List.forall_mem_cons.1 hrest
    rw [checkSequence] at h
    obtain ⟨n, hbelongs, h⟩ := belongs_of_bind hf (fun _ hcheck => check_fits j hcheck) h
    obtain ⟨ms', hms, h⟩ := of_bind_eq_ok h
    obtain rfl := Except.ok.inj h
    exact List.forall_mem_cons.2 ⟨hbelongs, checkSequence_fits items hrest hms⟩
termination_by structural items => items

end

/-! ### Values in a text -/

theorem scalarOf_fits {limit : Option Nat} {shape : Shape} {bs rest : Octets} {j : Json}
    (h : scalarOf shape bs = .ok (j, rest)) : shape.Fits limit j := by
  rw [scalarOf.eq_def] at h
  split at h
  · cases h
  · split at h
    · cases h
    · split at h
      · cases h
      · split at h
        · rename_i hchecked
          obtain ⟨rfl, -⟩ := Prod.mk.inj (Except.ok.inj h)
          exact checkScalar_fits hchecked
        · cases h

theorem variantOf_fits {limit : Option Nat} {variants : List String} {bs rest : Octets} {j : Json}
    (h : variantOf variants bs = .ok (j, rest)) : (Shape.choice variants).Fits limit j := by
  rw [variantOf] at h
  split at h
  · split at h
    · cases h
    · split at h
      · rename_i hchecked
        obtain ⟨rfl, -⟩ := Prod.mk.inj (Except.ok.inj h)
        exact checkVariant_fits hchecked
      · cases h
  · cases h

theorem choiceOf_fits {limit : Option Nat} {variants : List String} {depth : Nat} {bs rest : Octets} {j : Json}
    (h : choiceOf variants depth bs = .ok (j, rest)) : (Shape.choice variants).Fits limit j := by
  rw [choiceOf.eq_def] at h
  split at h
  · cases h
  · split at h
    · exact variantOf_fits h
    · split at h
      · split at h
        · cases h
        · split at h
          · cases h
          · rename_i hvariant
            split at h
            · cases h
            · obtain ⟨_, -, h⟩ := of_map_eq_ok h
              obtain ⟨rfl, -⟩ := Prod.mk.inj h
              exact variantOf_fits hvariant
      · cases h

/-- What so many steps read, of a text or of a part of it, fits. Items that have been read count as steps taken. -/
structure ReadsFit (limit steps : Nat) : Prop where
  shape {depth : Nat} {s : Shape} {bs rest : Octets} {j : Json} :
    shapeFrom steps depth s bs = .ok (j, rest) → s.Fits (some limit) j
  list {depth : Nat} {item : Shape} {read : List Json} {bs rest : Octets} {j : Json} :
    (∀ x ∈ read, item.Fits (some limit) x) → read.length + steps ≤ limit →
      listFrom steps depth item read bs = .ok (j, rest) → (Shape.list item).Fits (some limit) j
  table {depth : Nat} {item : Shape} {first : Bool} {read : Members} {bs rest : Octets} {j : Json} :
    (∀ m ∈ read, item.Fits (some limit) m.2) →
      tableFrom steps depth item first read bs = .ok (j, rest) → (Shape.table item).Fits (some limit) j
  field {depth : Nat} {fields : List (Field Shape)} {f : Field Shape} {bs rest : Octets} {j : Json} :
    f ∈ fields → fieldFrom steps depth f bs = .ok (j, rest) → Belongs (some limit) fields (f.name, j)
  record {depth : Nat} {fields : List (Field Shape)} {first : Bool} {found : Members} {bs rest : Octets} {j : Json}
    (name : String) : (∀ m ∈ found, Belongs (some limit) fields m) →
      recordFrom steps depth fields first found bs = .ok (j, rest) →
        (Shape.record name fields).Fits (some limit) j
  sequence {depth : Nat} {what : String} {first : Bool} {fields more : List (Field Shape)} {found : Members}
    {bs rest : Octets} {j : Json} (name : String) : (∀ m ∈ found, Belongs (some limit) fields m) →
      (∀ f ∈ more, f ∈ fields) → sequenceFrom steps depth what first found more bs = .ok (j, rest) →
        (Shape.record name fields).Fits (some limit) j

namespace ReadsFit

variable {limit steps : Nat}

theorem zero (limit : Nat) : ReadsFit limit 0 where
  shape h := by rw [shapeFrom] at h; cases h
  list _ _ h := by rw [listFrom] at h; cases h
  table _ h := by rw [tableFrom] at h; cases h
  field _ h := by rw [fieldFrom] at h; cases h
  record _ _ h := by rw [recordFrom] at h; cases h
  sequence _ _ _ h := by rw [sequenceFrom] at h; cases h

theorem shape_succ (h : ReadsFit limit steps) (hsteps : steps ≤ limit) {depth : Nat} {s : Shape} {bs rest : Octets}
    {j : Json} (hread : shapeFrom (steps + 1) depth s bs = .ok (j, rest)) : s.Fits (some limit) j := by
  rw [shapeFrom.eq_def] at hread
  dsimp only at hread
  split at hread
  · cases hread
  · cases s with
    | list item =>
      dsimp only at hread
      split at hread
      · split at hread
        · cases hread
        · exact h.list (List.forall_mem_nil _) (by simpa using hsteps) hread
      · cases hread
    | table item =>
      dsimp only at hread
      split at hread
      · split at hread
        · cases hread
        · exact h.table (List.forall_mem_nil _) hread
      · cases hread
    | record name fields =>
      dsimp only at hread
      split at hread
      · split at hread
        · cases hread
        · exact h.sequence name (List.forall_mem_nil _) (fun _ hf => hf) hread
      · split at hread
        · split at hread
          · cases hread
          · exact h.record name (List.forall_mem_nil _) hread
        · cases hread
    | choice variants => exact choiceOf_fits hread
    | overlay name own base =>
      dsimp only at hread
      split at hread
      · cases hread
      · split at hread
        · rename_i hchecked
          obtain ⟨rfl, -⟩ := Prod.mk.inj (Except.ok.inj hread)
          cases check_fits _ hchecked with
          | overlay _ _ h => exact .overlay _ name h
        · cases hread
    | tagged name tag variants =>
      dsimp only at hread
      split at hread
      · cases hread
      · split at hread
        · rename_i hchecked
          obtain ⟨rfl, -⟩ := Prod.mk.inj (Except.ok.inj hread)
          cases check_fits _ hchecked with
          | tagged _ _ _ hv h => exact .tagged _ name tag hv h
        · cases hread
    | text | flag | integer | spelled => exact scalarOf_fits hread

theorem list_succ (h : ReadsFit limit steps) {depth : Nat} {item : Shape} {read : List Json} {bs rest : Octets}
    {j : Json} (hfits : ∀ x ∈ read, item.Fits (some limit) x) (hcount : read.length + (steps + 1) ≤ limit)
    (hread : listFrom (steps + 1) depth item read bs = .ok (j, rest)) : (Shape.list item).Fits (some limit) j := by
  rw [listFrom.eq_def] at hread
  dsimp only at hread
  split at hread
  · cases hread
  · obtain ⟨rfl, -⟩ := Prod.mk.inj (Except.ok.inj hread)
    refine .list (fun x hx => hfits x (List.mem_reverse.1 hx)) fun n hn => ?_
    obtain rfl := Option.some.inj hn
    rw [List.length_reverse]
    omega
  · split at hread
    · cases hread
    · rename_i hitem
      refine h.list (List.forall_mem_cons.2 ⟨h.shape hitem, hfits⟩) ?_ hread
      rw [List.length_cons]
      omega

theorem table_succ (h : ReadsFit limit steps) {depth : Nat} {item : Shape} {first : Bool} {read : Members}
    {bs rest : Octets} {j : Json} (hfits : ∀ m ∈ read, item.Fits (some limit) m.2)
    (hread : tableFrom (steps + 1) depth item first read bs = .ok (j, rest)) :
    (Shape.table item).Fits (some limit) j := by
  rw [tableFrom.eq_def] at hread
  dsimp only at hread
  split at hread
  · cases hread
  · obtain ⟨rfl, -⟩ := Prod.mk.inj (Except.ok.inj hread)
    exact .table fun m hm => hfits m (List.mem_reverse.1 hm)
  · split at hread
    · cases hread
    · split at hread
      · cases hread
      · rename_i hmember
        exact h.table (List.forall_mem_cons.2 ⟨h.shape hmember, hfits⟩) hread

theorem field_succ (h : ReadsFit limit steps) {depth : Nat} {fields : List (Field Shape)} {f : Field Shape}
    {bs rest : Octets} {j : Json} (hf : f ∈ fields) (hread : fieldFrom (steps + 1) depth f bs = .ok (j, rest)) :
    Belongs (some limit) fields (f.name, j) := by
  rw [fieldFrom.eq_def] at hread
  dsimp only at hread
  split at hread
  · rename_i hnullable _
    obtain ⟨_, -, hnull⟩ := of_map_eq_ok hread
    obtain ⟨rfl, -⟩ := Prod.mk.inj hnull
    exact .null _ hf hnullable
  · exact .value hf (h.shape hread)

theorem record_succ (h : ReadsFit limit steps) {depth : Nat} {fields : List (Field Shape)} {first : Bool}
    {found : Members} {bs rest : Octets} {j : Json} (name : String)
    (hfound : ∀ m ∈ found, Belongs (some limit) fields m)
    (hread : recordFrom (steps + 1) depth fields first found bs = .ok (j, rest)) :
    (Shape.record name fields).Fits (some limit) j := by
  rw [recordFrom.eq_def] at hread
  dsimp only at hread
  split at hread
  · cases hread
  · split at hread
    · rename_i hcomplete
      obtain ⟨rfl, -⟩ := Prod.mk.inj (Except.ok.inj hread)
      exact .record name (complete_fits hfound (fun _ hf => hf) hcomplete)
    · cases hread
  · split at hread
    · split at hread
      · cases hread
      · exact h.record name hfound hread
    · rename_i f hf
      obtain ⟨hmem, rfl⟩ := mem_of_findField? hf
      split at hread
      · cases hread
      · split at hread
        · cases hread
        · split at hread
          · cases hread
          · rename_i hfield
            exact h.record name (List.forall_mem_cons.2 ⟨h.field hmem hfield, hfound⟩) hread

theorem sequence_succ (h : ReadsFit limit steps) {depth : Nat} {what : String} {first : Bool}
    {fields more : List (Field Shape)} {found : Members} {bs rest : Octets} {j : Json} (name : String)
    (hfound : ∀ m ∈ found, Belongs (some limit) fields m) (hmore : ∀ f ∈ more, f ∈ fields)
    (hread : sequenceFrom (steps + 1) depth what first found more bs = .ok (j, rest)) :
    (Shape.record name fields).Fits (some limit) j := by
  have hreverse : ∀ m ∈ found.reverse, Belongs (some limit) fields m :=
    fun m hm => hfound m (List.mem_reverse.1 hm)
  cases more with
  | nil =>
    rw [sequenceFrom] at hread
    obtain ⟨_, -, hend⟩ := of_map_eq_ok hread
    obtain ⟨rfl, -⟩ := Prod.mk.inj hend
    exact .record name hreverse
  | cons f more =>
    rw [sequenceFrom.eq_def] at hread
    dsimp only at hread
    split at hread
    · cases hread
    · split at hread
      · rename_i hfallbacks
        obtain ⟨rfl, -⟩ := Prod.mk.inj (Except.ok.inj hread)
        exact .record name (List.forall_mem_append.2 ⟨hreverse, fallbacks_fits hmore hfallbacks⟩)
      · cases hread
    · obtain ⟨hf, hmore⟩ := List.forall_mem_cons.1 hmore
      split at hread
      · cases hread
      · rename_i hfield
        exact h.sequence name (List.forall_mem_cons.2 ⟨h.field hf hfield, hfound⟩) hmore hread

theorem of_le (hsteps : steps ≤ limit) : ReadsFit limit steps := by
  induction steps with
  | zero => exact zero limit
  | succ steps ih =>
    have h := ih (Nat.le_of_succ_le hsteps)
    exact {
      shape := h.shape_succ (Nat.le_of_succ_le hsteps)
      list := h.list_succ
      table := h.table_succ
      field := h.field_succ
      record := h.record_succ
      sequence := h.sequence_succ }

end ReadsFit

/-- What is read of a text has the shape that it was read for. -/
theorem readText_fits {shape : Shape} {text : Octets} {j : Json} (h : readText shape text = .ok j) :
    shape.Fits (some (2 * stepsFor text)) j := by
  obtain ⟨⟨j', rest⟩, hread, h⟩ := of_bind_eq_ok h
  obtain ⟨_, -, h⟩ := of_bind_eq_ok h
  obtain rfl := Except.ok.inj h
  exact (ReadsFit.of_le (Nat.le_refl _)).shape hread

/-! ### The parts of a document -/

/-- A member that is looked up has what all fields of its name have. -/
theorem Shape.Belongs.lookup {limit : Option Nat} {fields : List (Field Shape)} {members : Members}
    (h : ∀ m ∈ members, Belongs limit fields m) {key : String} {P : Json → Prop} (hnull : P .null)
    (hfield : ∀ f ∈ fields, f.name = key →
      (∀ j, f.need.missing? = some j → P j) ∧ ∀ j, f.shape.Fits limit j → P j) :
    P ((Json.lookup key members).getD .null) := by
  cases hlookup : Json.lookup key members with
  | none => exact hnull
  | some j =>
    obtain ⟨m, hm, rfl⟩ := Option.map_eq_some_iff.1 hlookup
    have hname : m.1 = key := by simpa using List.find?_some hm
    have hbelongs := h m (List.mem_reverse.1 (List.mem_of_find?_eq_some hm))
    obtain ⟨name, j⟩ := m
    cases hbelongs with
    | value hf hfits => exact (hfield _ hf hname).2 j hfits
    | missing _ hf hneed => exact (hfield _ hf hname).1 j hneed
    | null _ _ _ => exact hnull

/-- An object whose members are such fields. -/
def Consists (limit : Option Nat) (fields : List (Field Shape)) (j : Json) : Prop :=
  ∃ members, j = .object members ∧ ∀ m ∈ members, Belongs limit fields m

theorem Shape.Fits.consists {limit : Option Nat} {name : String} {fields : List (Field Shape)} {j : Json}
    (h : (Shape.record name fields).Fits limit j) : Consists limit fields j := by
  cases h with
  | record _ h => exact ⟨_, rfl, h⟩

theorem Shape.Fits.consists_overlay {limit : Option Nat} {name : String} {own base : List (Field Shape)} {j : Json}
    (h : (Shape.overlay name own base).Fits limit j) : Consists none (base ++ own) j := by
  cases h with
  | overlay _ _ h => exact ⟨_, rfl, h⟩

/-- Where names stand once, a member is looked up for its field. -/
theorem Consists.part {limit : Option Nat} {fields : List (Field Shape)} {j : Json} (h : Consists limit fields j)
    (hnames : (fields.map Field.name).Nodup) {key : String} {f : Field Shape} (hf : findField? key fields = some f)
    {P : Json → Prop} (hnull : P .null) (hmissing : ∀ v, f.need.missing? = some v → P v)
    (hvalue : ∀ v, f.shape.Fits limit v → P v) : P (j.getD key) := by
  obtain ⟨members, rfl, h⟩ := h
  obtain ⟨hmem, rfl⟩ := mem_of_findField? hf
  refine Shape.Belongs.lookup h hnull fun g hg hname => ?_
  obtain rfl : g = f := List.inj_on_of_nodup_map hnames hg hmem hname
  exact ⟨hmissing, hvalue⟩

end Helmsman.Json
