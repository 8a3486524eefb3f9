import Helmsman.Json.Shape
import Helmsman.Proofs.Json.Reader
/-!
# Shapes, read from what was written

There are two readers for one shape, and on a value that was written they agree: what `check` makes of the value in
memory, `shapeFrom` makes of its text (`readText_render`). So a record that is written and read again can be examined
without its text. It holds of the shapes that are read as the text comes, with no value set aside (`Direct`), of fields
that are known and of those that are passed over.

The proof follows the value. For each kind of list there is a lemma for one item and one for all that are left.
-/

namespace Helmsman.Json

open Utf8 (encodeChars)

/-- Shapes that are read while the text is, no value of it set aside. -/
inductive Shape.Direct : Shape → Prop
  | text : Direct .text
  | flag : Direct .flag
  | integer (low high : Int) (name : String) : Direct (.integer low high name)
  | spelled (expected : String) (fault : String → Option String) : Direct (.spelled expected fault)
  | choice (variants : List String) : Direct (.choice variants)
  | list {item : Shape} (h : Direct item) : Direct (.list item)
  | table {item : Shape} (h : Direct item) : Direct (.table item)
  | record (name : String) {fields : List (Field Shape)} (h : ∀ f ∈ fields, Direct f.shape) :
    Direct (.record name fields)

/-- Whether a value that fits a shape is read as `check` has it, with two steps for each octet. -/
def ReadsAs (depth : Nat) (j : Json) : Prop := ∀ {shape : Shape} {n : Json}, shape.Direct →
  check false shape j = .ok n → ∀ {steps : Nat}, 2 * (encodeChars j.chars).length ≤ steps →
    ∀ {rest : Octets}, Ends rest → shapeFrom steps depth shape (encodeChars j.chars ++ rest) = .ok (n, rest)

/-! ### Values without parts -/

theorem check_of_scalar {j : Json} (hparts : j.hasParts = false) (buffered : Bool) (shape : Shape) :
    check buffered shape j = match shape with
      | .choice variants => checkChoice variants j
      | shape => checkScalar shape j := by
  cases j with
  | array | object => exact absurd hparts (by simp [hasParts])
  | _ => cases shape <;> rfl

theorem variantOf_quote {variants : List String} {s : String} {n : Json} (h : checkVariant variants s = .ok n)
    (rest : Octets) : variantOf variants (encodeChars (quote s) ++ rest) = .ok (n, rest) := by
  rw [variantOf, encodeChars_quote, skipSpace_cons rfl]
  simp [scanString_quote, h]

theorem readsAs_of_scalar {depth : Nat} {j : Json} (h : Readable depth j) (hparts : j.hasParts = false) :
    ReadsAs depth j := by
  intro shape n hdirect hcheck steps hsteps rest hrest
  have hpos := length_chars_pos h
  obtain ⟨steps, rfl⟩ : ∃ n, steps = n + 1 := ⟨steps - 1, by omega⟩
  obtain ⟨b, bs, hbs, hspace, hlist, hobject, hscalar⟩ := scalar_chars h hparts hrest
  have hread : checkScalar shape j = .ok n → scalarOf shape (b :: bs) = .ok (n, rest) := by
    intro hchecked
    rw [scalarOf, if_neg (by simp [hlist, hobject]), hscalar]
    dsimp only
    rw [hchecked]
  rw [check_of_scalar hparts] at hcheck
  rw [hbs, shapeFrom, skipSpace_cons hspace]
  cases hdirect with
  | text | flag | integer | spelled => exact hread hcheck
  | choice variants =>
    cases j with
    | string s =>
      rw [chars, encodeChars_quote] at hbs
      obtain ⟨rfl, rfl⟩ := List.cons.inj hbs
      dsimp only at hcheck ⊢
      rw [checkChoice] at hcheck
      rw [choiceOf, beq_self_eq_true, if_pos rfl, ← encodeChars_quote, variantOf_quote hcheck]
    | array | object => exact absurd hparts (by simp [hasParts])
    | null | bool | number => cases hcheck
  | list | table | record => cases j <;> cases hcheck

/-! ### Lists -/

theorem of_bind_eq_ok {ε α β : Type} {x : Except ε α} {f : α → Except ε β} {b : β} (h : (x >>= f) = .ok b) :
    ∃ a, x = .ok a ∧ f a = .ok b := by
  cases x with
  | error e => cases h
  | ok a => exact ⟨a, rfl, h⟩

theorem of_map_eq_ok {ε α β : Type} {x : Except ε α} {f : α → β} {b : β} (h : x.map f = .ok b) :
    ∃ a, x = .ok a ∧ f a = b := by
  cases x with
  | error e => cases h
  | ok a => exact ⟨a, rfl, Except.ok.inj h⟩

theorem of_map_eq_error {ε α β : Type} {x : Except ε α} {f : α → β} {e : ε} (h : x.map f = .error e) :
    x = .error e := by
  cases x with
  | error e' => exact congrArg Except.error (Except.error.inj h)
  | ok a => cases h

theorem checkItems_cons {item : Shape} {j : Json} {items ns : List Json}
    (h : checkItems false item (j :: items) = .ok ns) :
    ∃ n ns', check false item j = .ok n ∧ checkItems false item items = .ok ns' ∧ ns = n :: ns' := by
  rw [checkItems] at h
  obtain ⟨n, hn, h⟩ := of_bind_eq_ok h
  obtain ⟨ns', hns, h⟩ := of_bind_eq_ok h
  exact ⟨n, ns', hn, hns, (Except.ok.inj h).symm⟩

/-- One item of a list. -/
theorem listFrom_item {depth : Nat} {item : Shape} (hitem : item.Direct) {j n : Json} (h : ReadsAs depth j)
    (hcheck : check false item j = .ok n) {read : List Json} {bs rest : Octets}
    (hnext : nextItem read.isEmpty bs = .ok (true, encodeChars j.chars ++ rest)) {steps : Nat}
    (hsteps : 2 * (encodeChars j.chars).length ≤ steps) (hrest : Ends rest) :
    listFrom (steps + 1) depth item read bs = listFrom steps depth item (n :: read) rest := by
  rw [listFrom, hnext]
  dsimp only
  rw [h hitem hcheck hsteps hrest]

theorem listFrom_itemChars {depth : Nat} {item : Shape} (hitem : item.Direct) {items ns : List Json}
    (hitems : ∀ j ∈ items, Readable depth j) (h : ∀ j ∈ items, ReadsAs depth j)
    (hcheck : checkItems false item items = .ok ns) (read : List Json) (hread : read = [] → items = []) {steps : Nat}
    (hsteps : 2 * (encodeChars (itemChars items)).length ≤ steps) (rest : Octets) :
    listFrom steps depth item read (encodeChars (itemChars items) ++ rest)
      = .ok (.array (read.reverse ++ ns), rest) := by
  induction items generalizing steps read ns with
  | nil =>
    obtain ⟨steps, rfl⟩ : ∃ n, steps = n + 1 := ⟨steps - 1, (Nat.sub_add_cancel (Nat.le_trans (by decide) hsteps)).symm⟩
    obtain rfl : [] = ns := Except.ok.inj hcheck
    show listFrom (steps + 1) depth item read (0x5D :: rest) = _
    rw [listFrom, nextItem_end, List.append_nil]
  | cons j items ih =>
    obtain ⟨n, ns', hn, hns, rfl⟩ := checkItems_cons hcheck
    obtain ⟨hj, hitems⟩ := List.forall_mem_cons.1 hitems
    obtain ⟨hfirst, h⟩ := List.forall_mem_cons.1 h
    rw [length_itemChars_cons] at hsteps
    obtain ⟨steps, rfl⟩ : ∃ n, steps = n + 1 := ⟨steps - 1, by omega⟩
    have hhere : 2 * (encodeChars j.chars).length ≤ steps := by omega
    have hmore : 2 * (encodeChars (itemChars items)).length ≤ steps := by omega
    have hnext : nextItem read.isEmpty (encodeChars (itemChars (j :: items)) ++ rest)
        = .ok (true, encodeChars j.chars ++ (encodeChars (itemChars items) ++ rest)) := by
      cases read with
      | nil => exact absurd (hread rfl) (List.cons_ne_nil _ _)
      | cons _ _ => exact nextItem_itemChars hj items rest
    rw [listFrom_item hitem hfirst hn hnext hhere (ends_itemChars items rest),
      ih hitems h hns (n :: read) (by simp) hmore, List.reverse_cons, List.append_assoc]
    rfl

/-! ### Fields -/

/-- The value of a field, `null` where a field may be that. -/
def checkField (f : Field Shape) (j : Json) : Except Mismatch Json :=
  if f.nullable && j.isNull then .ok Json.null else check false f.shape j

theorem checkField_of_bind {β : Type} {f : Field Shape} {j : Json} {k : Json → Except Mismatch β} {b : β}
    (h : (if f.nullable && j.isNull then Except.ok Json.null >>= k else check false f.shape j >>= k) = .ok b) :
    ∃ n, checkField f j = .ok n ∧ k n = .ok b := by
  rw [checkField]
  split at h
  · rename_i hnull
    exact ⟨.null, if_pos hnull, h⟩
  · rename_i hnull
    rw [if_neg hnull]
    exact of_bind_eq_ok h

theorem eq_null_of_isNull {j : Json} (h : j.isNull = true) : j = .null := by
  cases j with
  | null => rfl
  | _ => cases h

/-- Only `null` begins with its first letter. -/
theorem isNull_of_chars {depth : Nat} {j : Json} (h : Readable depth j) {rest bs : Octets}
    (hbs : encodeChars j.chars ++ rest = 0x6E :: bs) : j.isNull = true := by
  by_cases hparts : j.hasParts = true
  · cases h with
    | @array _ items => cases items <;> exact absurd (List.cons.inj hbs).1 (by decide)
    | @object _ members => cases members <;> exact absurd (List.cons.inj hbs).1 (by decide)
    | null => rfl
    | _ => cases hparts
  · cases h with
    | null => rfl
    | bool depth b => cases b <;> exact absurd (List.cons.inj hbs).1 (by decide)
    | string depth s => exact absurd (List.cons.inj hbs).1 (by decide)
    | int depth n low high =>
      rcases Int.lt_or_le n 0 with hneg | hpos
      · exact absurd (List.cons.inj ((encodeChars_int_neg hneg rest).symm.trans hbs)).1 (by decide)
      · obtain ⟨b, bs', hencode, hb⟩ := encode_ofNat_head n.natAbs
        rw [encodeChars_int_nonneg hpos, hencode] at hbs
        obtain rfl : b = 0x6E := (List.cons.inj hbs).1
        exact absurd hb (by decide)
    | _ => exact absurd rfl hparts

theorem fieldFrom_chars {depth : Nat} {f : Field Shape} (hf : f.shape.Direct) {j n : Json} (hj : Readable depth j)
    (h : ReadsAs depth j) (hcheck : checkField f j = .ok n) {steps : Nat}
    (hsteps : 2 * (encodeChars j.chars).length ≤ steps) {rest : Octets} (hrest : Ends rest) :
    fieldFrom (steps + 1) depth f (encodeChars j.chars ++ rest) = .ok (n, rest) := by
  rw [checkField] at hcheck
  obtain ⟨b, bs, hbs, hspace, -⟩ := encodeChars_chars hj rest
  have hskip : skipSpace (encodeChars j.chars ++ rest) = encodeChars j.chars ++ rest := by
    rw [hbs, skipSpace_cons hspace]
  rw [fieldFrom, hskip]
  -- The reader looks for `null` by its first letter, `check` by the value.
  by_cases hnull : j.isNull = true
  · obtain rfl := eq_null_of_isNull hnull
    cases hnullable : f.nullable with
    | true =>
      rw [hnullable] at hcheck
      obtain rfl : Json.null = n := Except.ok.inj hcheck
      rfl
    | false =>
      rw [hnullable] at hcheck
      exact h hf hcheck hsteps hrest
  · rw [eq_false_of_ne_true hnull, Bool.and_false] at hcheck
    split
    · rename_i heq
      exact absurd (isNull_of_chars hj heq) hnull
    · exact h hf hcheck hsteps hrest

/-! ### Records -/

theorem checkMembers_cons {fields : List (Field Shape)} {found found' : Members} {key : String} {j : Json}
    {members : Members} (h : checkMembers false fields found ((key, j) :: members) = .ok found') :
    (findField? key fields = none ∧ checkMembers false fields found members = .ok found')
    ∨ ∃ f n, findField? key fields = some f ∧ (found? key found).isSome = false ∧ checkField f j = .ok n
      ∧ checkMembers false fields ((key, n) :: found) members = .ok found' := by
  rw [checkMembers] at h
  cases hf : findField? key fields with
  | none =>
    rw [hf] at h
    exact .inl ⟨rfl, h⟩
  | some f =>
    rw [hf] at h
    dsimp only at h
    split at h
    · cases h
    · rename_i hfresh
      obtain ⟨n, hn, hmore⟩ := checkField_of_bind h
      exact .inr ⟨f, n, rfl, eq_false_of_ne_true hfresh, hn, hmore⟩

/-- One member of a record, whether it is a field or not. -/
theorem recordFrom_member {depth : Nat} {fields : List (Field Shape)} (hfields : ∀ f ∈ fields, f.shape.Direct)
    {key : String} {j : Json} (hj : Readable depth j) (h : ReadsAs depth j) {found found' : Members}
    {members : Members} (hcheck : checkMembers false fields found ((key, j) :: members) = .ok found') {first : Bool}
    {bs rest : Octets} (hnext : nextKey first bs = .ok (some key, 0x3A :: (encodeChars j.chars ++ rest)))
    {steps : Nat} (hsteps : 2 * (encodeChars j.chars).length ≤ steps) (hrest : Ends rest) :
    ∃ found'', checkMembers false fields found'' members = .ok found'
      ∧ recordFrom (steps + 2) depth fields first found bs
        = recordFrom (steps + 1) depth fields false found'' rest := by
  rw [recordFrom, hnext]
  dsimp only
  rw [colon_colon]
  -- Either no field takes the member and its value is passed over, or the value is read as its field has it.
  rcases checkMembers_cons hcheck with ⟨hf, hmore⟩ | ⟨f, n, hf, hfresh, hn, hmore⟩
  · refine ⟨found, hmore, ?_⟩
    rw [hf]
    dsimp only [Except.bind]
    rw [skip_chars hj hrest]
  · have hdirect : f.shape.Direct := hfields f (List.mem_of_find?_eq_some hf)
    refine ⟨(key, n) :: found, hmore, ?_⟩
    rw [hf]
    dsimp only
    rw [hfresh, if_neg Bool.false_ne_true, fieldFrom_chars hdirect hj h hn hsteps hrest]

theorem recordFrom_memberChars {depth : Nat} {fields : List (Field Shape)} (hfields : ∀ f ∈ fields, f.shape.Direct)
    {members : Members} (hmembers : ∀ m ∈ members, Readable depth m.2) (h : ∀ m ∈ members, ReadsAs depth m.2)
    {found found' ns : Members} (hcheck : checkMembers false fields found members = .ok found')
    (hns : complete found' fields = .ok ns) (first : Bool) (hfirst : first = true → members = []) {steps : Nat}
    (hsteps : 2 * (encodeChars (memberChars members)).length ≤ steps) (rest : Octets) :
    recordFrom steps depth fields first found (encodeChars (memberChars members) ++ rest) = .ok (.object ns, rest) := by
  induction members generalizing steps found first with
  | nil =>
    obtain ⟨steps, rfl⟩ : ∃ n, steps = n + 1 :=
      ⟨steps - 1, (Nat.sub_add_cancel (Nat.le_trans (by decide) hsteps)).symm⟩
    obtain rfl : found = found' := Except.ok.inj hcheck
    show recordFrom (steps + 1) depth fields first found (0x7D :: rest) = _
    rw [recordFrom, nextKey_end]
    dsimp only
    rw [hns]
    rfl
  | cons m members ih =>
    obtain ⟨key, j⟩ := m
    obtain ⟨hj, hmembers⟩ := List.forall_mem_cons.1 hmembers
    obtain ⟨hmember, h⟩ := List.forall_mem_cons.1 h
    rw [length_memberChars_cons] at hsteps
    obtain ⟨steps, rfl⟩ : ∃ n, steps = n + 2 := ⟨steps - 2, by omega⟩
    have hhere : 2 * (encodeChars j.chars).length ≤ steps := by omega
    have hmore : 2 * (encodeChars (memberChars members)).length ≤ steps + 1 := by omega
    have hnext : nextKey first (encodeChars (memberChars ((key, j) :: members)) ++ rest)
        = .ok (some key, 0x3A :: (encodeChars j.chars ++ (encodeChars (memberChars members) ++ rest))) := by
      cases first with
      | true => exact absurd (hfirst rfl) (List.cons_ne_nil _ _)
      | false => exact nextKey_memberChars key j members rest
    obtain ⟨found'', hcheck', hread⟩ :=
      recordFrom_member hfields hj hmember hcheck hnext hhere (ends_memberChars members rest)
    rw [hread, ih hmembers h hcheck' false (by simp) hmore]

/-! ### Records as lists -/

theorem checkSequence_cons {what : String} {all fields : List (Field Shape)} {length count : Nat} {j : Json}
    {items : List Json} {ns : Members} (h : checkSequence false what all length count fields (j :: items) = .ok ns) :
    ∃ f fields' n ns', fields = f :: fields' ∧ checkField f j = .ok n
      ∧ checkSequence false what all length (count + 1) fields' items = .ok ns' ∧ ns = (f.name, n) :: ns' := by
  cases fields with
  | nil => cases h
  | cons f fields' =>
    rw [checkSequence] at h
    obtain ⟨n, hn, h⟩ := checkField_of_bind h
    obtain ⟨ns', hns, h⟩ := of_bind_eq_ok h
    exact ⟨f, fields', n, ns', rfl, hn, hns, (Except.ok.inj h).symm⟩

/-- One item of a record that is written as a list. -/
theorem sequenceFrom_item {depth : Nat} {f : Field Shape} (hf : f.shape.Direct) {j n : Json} (hj : Readable depth j)
    (h : ReadsAs depth j) (hn : checkField f j = .ok n) {first : Bool} {bs rest : Octets}
    (hnext : nextItem first bs = .ok (true, encodeChars j.chars ++ rest)) {steps : Nat}
    (hsteps : 2 * (encodeChars j.chars).length ≤ steps) (hrest : Ends rest) (what : String) (found : Members)
    (fields : List (Field Shape)) : sequenceFrom (steps + 2) depth what first found (f :: fields) bs
      = sequenceFrom (steps + 1) depth what false ((f.name, n) :: found) fields rest := by
  rw [sequenceFrom, hnext]
  dsimp only
  rw [fieldFrom_chars hf hj h hn hsteps hrest]

theorem sequenceFrom_itemChars {depth : Nat} {what : String} {all fields : List (Field Shape)}
    (hfields : ∀ f ∈ fields, f.shape.Direct) {items : List Json} (hitems : ∀ j ∈ items, Readable depth j)
    (h : ∀ j ∈ items, ReadsAs depth j) {length : Nat} {found ns : Members}
    (hcheck : checkSequence false what all length found.length fields items = .ok ns) (first : Bool)
    (hfirst : first = true → items = []) {steps : Nat} (hsteps : 2 * (encodeChars (itemChars items)).length ≤ steps)
    (rest : Octets) : sequenceFrom steps depth what first found fields (encodeChars (itemChars items) ++ rest)
      = .ok (.object (found.reverse ++ ns), rest) := by
  induction items generalizing steps found ns fields first with
  | nil =>
    obtain ⟨steps, rfl⟩ : ∃ n, steps = n + 1 :=
      ⟨steps - 1, (Nat.sub_add_cancel (Nat.le_trans (by decide) hsteps)).symm⟩
    rw [checkSequence] at hcheck
    show sequenceFrom (steps + 1) depth what first found fields (0x5D :: rest) = _
    cases fields with
    | nil =>
      obtain rfl : [] = ns := Except.ok.inj hcheck
      rw [sequenceFrom, List.append_nil]
      rfl
    | cons f fields =>
      rw [sequenceFrom, nextItem_end]
      dsimp only
      rw [hcheck]
  | cons j items ih =>
    obtain ⟨f, fields', n, ns', rfl, hn, hns, rfl⟩ := checkSequence_cons hcheck
    obtain ⟨hf, hfields⟩ := List.forall_mem_cons.1 hfields
    obtain ⟨hj, hitems⟩ := List.forall_mem_cons.1 hitems
    obtain ⟨hitem, h⟩ := List.forall_mem_cons.1 h
    have hpos := length_itemChars_pos items
    rw [length_itemChars_cons] at hsteps
    obtain ⟨steps, rfl⟩ : ∃ n, steps = n + 2 := ⟨steps - 2, by omega⟩
    have hhere : 2 * (encodeChars j.chars).length ≤ steps := by omega
    have hmore : 2 * (encodeChars (itemChars items)).length ≤ steps + 1 := by omega
    have hnext : nextItem first (encodeChars (itemChars (j :: items)) ++ rest)
        = .ok (true, encodeChars j.chars ++ (encodeChars (itemChars items) ++ rest)) := by
      cases first with
      | true => exact absurd (hfirst rfl) (List.cons_ne_nil _ _)
      | false => exact nextItem_itemChars hj items rest
    have hns : checkSequence false what all length ((f.name, n) :: found).length fields' items = .ok ns' := hns
    rw [sequenceFrom_item hf hj hitem hn hnext hhere (ends_itemChars items rest),
      ih hfields hitems h hns false (by simp) hmore, List.reverse_cons, List.append_assoc]
    rfl

/-! ### Tables -/

theorem checkTable_cons {item : Shape} {key : String} {j : Json} {members ns : Members}
    (h : checkTable false item ((key, j) :: members) = .ok ns) :
    ∃ n ns', check false item j = .ok n ∧ checkTable false item members = .ok ns' ∧ ns = (key, n) :: ns' := by
  rw [checkTable] at h
  obtain ⟨n, hn, h⟩ := of_bind_eq_ok h
  obtain ⟨ns', hns, h⟩ := of_bind_eq_ok h
  exact ⟨n, ns', hn, hns, (Except.ok.inj h).symm⟩

theorem tableFrom_member {depth : Nat} {item : Shape} (hitem : item.Direct) {key : String} {j n : Json}
    (h : ReadsAs depth j) (hn : check false item j = .ok n) {first : Bool} {bs rest : Octets}
    (hnext : nextKey first bs = .ok (some key, 0x3A :: (encodeChars j.chars ++ rest))) {steps : Nat}
    (hsteps : 2 * (encodeChars j.chars).length ≤ steps) (hrest : Ends rest) (read : Members) :
    tableFrom (steps + 1) depth item first read bs = tableFrom steps depth item false ((key, n) :: read) rest := by
  rw [tableFrom, hnext]
  dsimp only
  rw [colon_colon]
  dsimp only
  rw [h hitem hn hsteps hrest]

theorem tableFrom_memberChars {depth : Nat} {item : Shape} (hitem : item.Direct) {members ns : Members}
    (h : ∀ m ∈ members, ReadsAs depth m.2) (hcheck : checkTable false item members = .ok ns) {read : Members}
    (first : Bool) (hfirst : first = true → members = []) {steps : Nat}
    (hsteps : 2 * (encodeChars (memberChars members)).length ≤ steps) (rest : Octets) :
    tableFrom steps depth item first read (encodeChars (memberChars members) ++ rest)
      = .ok (ofMembers (read.reverse ++ ns), rest) := by
  induction members generalizing steps read ns first with
  | nil =>
    obtain ⟨steps, rfl⟩ : ∃ n, steps = n + 1 :=
      ⟨steps - 1, (Nat.sub_add_cancel (Nat.le_trans (by decide) hsteps)).symm⟩
    obtain rfl : [] = ns := Except.ok.inj hcheck
    show tableFrom (steps + 1) depth item first read (0x7D :: rest) = _
    rw [tableFrom, nextKey_end, List.append_nil]
    rfl
  | cons m members ih =>
    obtain ⟨key, j⟩ := m
    obtain ⟨n, ns', hn, hns, rfl⟩ := checkTable_cons hcheck
    obtain ⟨hmember, h⟩ := List.forall_mem_cons.1 h
    rw [length_memberChars_cons] at hsteps
    obtain ⟨steps, rfl⟩ : ∃ n, steps = n + 1 := ⟨steps - 1, by omega⟩
    have hhere : 2 * (encodeChars j.chars).length ≤ steps := by omega
    have hmore : 2 * (encodeChars (memberChars members)).length ≤ steps := by omega
    have hnext : nextKey first (encodeChars (memberChars ((key, j) :: members)) ++ rest)
        = .ok (some key, 0x3A :: (encodeChars j.chars ++ (encodeChars (memberChars members) ++ rest))) := by
      cases first with
      | true => exact absurd (hfirst rfl) (List.cons_ne_nil _ _)
      | false => exact nextKey_memberChars key j members rest
    rw [tableFrom_member hitem hmember hn hnext hhere (ends_memberChars members rest), ih h hns false (by simp) hmore,
      List.reverse_cons, List.append_assoc]
    rfl

/-! ### Whole documents -/

theorem shapeFrom_list (steps depth : Nat) (item : Shape) (bs : Octets) :
    shapeFrom (steps + 1) (depth + 2) (.list item) (0x5B :: bs) = listFrom steps (depth + 1) item [] bs := by
  have hdepth : ¬ depth + 2 ≤ 1 := by omega
  rw [shapeFrom, skipSpace_cons rfl]
  dsimp only
  rw [beq_self_eq_true, if_pos rfl, if_neg hdepth]
  rfl

theorem shapeFrom_record_list (steps depth : Nat) (name : String) (fields : List (Field Shape)) (bs : Octets) :
    shapeFrom (steps + 1) (depth + 2) (.record name fields) (0x5B :: bs) = sequenceFrom steps (depth + 1)
      ("struct " ++ name ++ " with " ++ elements fields.length) true [] fields bs := by
  have hdepth : ¬ depth + 2 ≤ 1 := by omega
  rw [shapeFrom, skipSpace_cons rfl]
  dsimp only
  rw [beq_self_eq_true, if_pos rfl, if_neg hdepth]
  rfl

theorem shapeFrom_record (steps depth : Nat) (name : String) (fields : List (Field Shape)) (bs : Octets) :
    shapeFrom (steps + 1) (depth + 2) (.record name fields) (0x7B :: bs)
      = recordFrom steps (depth + 1) fields true [] bs := by
  have hdepth : ¬ depth + 2 ≤ 1 := by omega
  rw [shapeFrom, skipSpace_cons rfl]
  dsimp only
  rw [if_neg (by decide), beq_self_eq_true, if_pos rfl, if_neg hdepth]
  rfl

theorem shapeFrom_table (steps depth : Nat) (item : Shape) (bs : Octets) :
    shapeFrom (steps + 1) (depth + 2) (.table item) (0x7B :: bs) = tableFrom steps (depth + 1) item true [] bs := by
  have hdepth : ¬ depth + 2 ≤ 1 := by omega
  rw [shapeFrom, skipSpace_cons rfl]
  dsimp only
  rw [beq_self_eq_true, if_pos rfl, if_neg hdepth]
  rfl

theorem listFrom_array {depth : Nat} {item : Shape} (hitem : item.Direct) {items ns : List Json}
    (hitems : ∀ j ∈ items, Readable depth j) (h : ∀ j ∈ items, ReadsAs depth j)
    (hcheck : checkItems false item items = .ok ns) {steps : Nat}
    (hsteps : 2 * (encodeChars (chars (.array items))).length ≤ steps + 1) (rest : Octets) :
    ∃ bs, encodeChars (chars (.array items)) ++ rest = 0x5B :: bs
      ∧ listFrom steps depth item [] bs = .ok (.array ns, rest) := by
  cases items with
  | nil =>
    have hlength : 4 ≤ steps + 1 := hsteps
    exact ⟨_, rfl, listFrom_itemChars hitem hitems h hcheck [] (fun _ => rfl) (by show 2 ≤ steps; omega) rest⟩
  | cons j items =>
    obtain ⟨n, ns', hn, hns, rfl⟩ := checkItems_cons hcheck
    obtain ⟨hj, hitems⟩ := List.forall_mem_cons.1 hitems
    obtain ⟨hfirst, h⟩ := List.forall_mem_cons.1 h
    have hpos := length_chars_pos hj
    have hrest := length_itemChars_pos items
    rw [length_array_cons] at hsteps
    obtain ⟨steps, rfl⟩ : ∃ n, steps = n + 1 := ⟨steps - 1, by omega⟩
    have hhere : 2 * (encodeChars j.chars).length ≤ steps := by omega
    have hmore : 2 * (encodeChars (itemChars items)).length ≤ steps := by omega
    have hnext : nextItem ([] : List Json).isEmpty _ = .ok (true, _) :=
      nextItem_array hj (encodeChars (itemChars items) ++ rest)
    refine ⟨_, encodeChars_array_cons j items rest, ?_⟩
    rw [listFrom_item hitem hfirst hn hnext hhere (ends_itemChars items rest),
      listFrom_itemChars hitem hitems h hns [n] (by simp) hmore]
    rfl

theorem sequenceFrom_array {depth : Nat} {what : String} {all fields : List (Field Shape)}
    (hfields : ∀ f ∈ fields, f.shape.Direct) {items : List Json} (hitems : ∀ j ∈ items, Readable depth j)
    (h : ∀ j ∈ items, ReadsAs depth j) {length : Nat} {ns : Members}
    (hcheck : checkSequence false what all length 0 fields items = .ok ns) {steps : Nat}
    (hsteps : 2 * (encodeChars (chars (.array items))).length ≤ steps + 1) (rest : Octets) :
    ∃ bs, encodeChars (chars (.array items)) ++ rest = 0x5B :: bs
      ∧ sequenceFrom steps depth what true [] fields bs = .ok (.object ns, rest) := by
  cases items with
  | nil =>
    have hlength : 4 ≤ steps + 1 := hsteps
    have hmore : 2 * (encodeChars (itemChars [])).length ≤ steps := by
      show 2 ≤ steps
      omega
    have hcheck : checkSequence false what all length ([] : Members).length fields [] = .ok ns := hcheck
    exact ⟨_, rfl, sequenceFrom_itemChars hfields hitems h hcheck true (fun _ => rfl) hmore rest⟩
  | cons j items =>
    obtain ⟨f, fields', n, ns', rfl, hn, hns, rfl⟩ := checkSequence_cons hcheck
    obtain ⟨hf, hfields⟩ := List.forall_mem_cons.1 hfields
    obtain ⟨hj, hitems⟩ := List.forall_mem_cons.1 hitems
    obtain ⟨hitem, h⟩ := List.forall_mem_cons.1 h
    have hpos := length_chars_pos hj
    have hrest := length_itemChars_pos items
    rw [length_array_cons] at hsteps
    obtain ⟨steps, rfl⟩ : ∃ n, steps = n + 2 := ⟨steps - 2, by omega⟩
    have hhere : 2 * (encodeChars j.chars).length ≤ steps := by omega
    have hmore : 2 * (encodeChars (itemChars items)).length ≤ steps + 1 := by omega
    have hns : checkSequence false what all length [(f.name, n)].length fields' items = .ok ns' := hns
    refine ⟨_, encodeChars_array_cons j items rest, ?_⟩
    rw [sequenceFrom_item hf hj hitem hn (nextItem_array hj _) hhere (ends_itemChars items rest),
      sequenceFrom_itemChars hfields hitems h hns false (by simp) hmore]
    rfl

theorem recordFrom_object {depth : Nat} {fields : List (Field Shape)} (hfields : ∀ f ∈ fields, f.shape.Direct)
    {members : Members} (hmembers : ∀ m ∈ members, Readable depth m.2) (h : ∀ m ∈ members, ReadsAs depth m.2)
    {found ns : Members} (hcheck : checkMembers false fields [] members = .ok found)
    (hns : complete found fields = .ok ns) {steps : Nat}
    (hsteps : 2 * (encodeChars (chars (.object members))).length ≤ steps + 1) (rest : Octets) :
    ∃ bs, encodeChars (chars (.object members)) ++ rest = 0x7B :: bs
      ∧ recordFrom steps depth fields true [] bs = .ok (.object ns, rest) := by
  cases members with
  | nil =>
    have hlength : 4 ≤ steps + 1 := hsteps
    have hmore : 2 * (encodeChars (memberChars [])).length ≤ steps := by
      show 2 ≤ steps
      omega
    exact ⟨_, rfl, recordFrom_memberChars hfields hmembers h hcheck hns true (fun _ => rfl) hmore rest⟩
  | cons m members =>
    obtain ⟨key, j⟩ := m
    obtain ⟨hj, hmembers⟩ := List.forall_mem_cons.1 hmembers
    obtain ⟨hmember, h⟩ := List.forall_mem_cons.1 h
    rw [length_object_cons] at hsteps
    obtain ⟨steps, rfl⟩ : ∃ n, steps = n + 2 := ⟨steps - 2, by omega⟩
    have hhere : 2 * (encodeChars j.chars).length ≤ steps := by omega
    have hmore : 2 * (encodeChars (memberChars members)).length ≤ steps + 1 := by omega
    obtain ⟨found'', hcheck', hread⟩ :=
      recordFrom_member hfields hj hmember hcheck (nextKey_first key _) hhere (ends_memberChars members rest)
    refine ⟨_, encodeChars_object_cons key j members rest, ?_⟩
    rw [hread, recordFrom_memberChars hfields hmembers h hcheck' hns false (by simp) hmore]

theorem tableFrom_object {depth : Nat} {item : Shape} (hitem : item.Direct) {members ns : Members}
    (h : ∀ m ∈ members, ReadsAs depth m.2) (hcheck : checkTable false item members = .ok ns) {steps : Nat}
    (hsteps : 2 * (encodeChars (chars (.object members))).length ≤ steps + 1) (rest : Octets) :
    ∃ bs, encodeChars (chars (.object members)) ++ rest = 0x7B :: bs
      ∧ tableFrom steps depth item true [] bs = .ok (ofMembers ns, rest) := by
  cases members with
  | nil =>
    have hlength : 4 ≤ steps + 1 := hsteps
    have hmore : 2 * (encodeChars (memberChars [])).length ≤ steps := by
      show 2 ≤ steps
      omega
    exact ⟨_, rfl, tableFrom_memberChars hitem h hcheck true (fun _ => rfl) hmore rest⟩
  | cons m members =>
    obtain ⟨key, j⟩ := m
    obtain ⟨n, ns', hn, hns, rfl⟩ := checkTable_cons hcheck
    obtain ⟨hmember, h⟩ := List.forall_mem_cons.1 h
    rw [length_object_cons] at hsteps
    obtain ⟨steps, rfl⟩ : ∃ n, steps = n + 1 := ⟨steps - 1, by omega⟩
    have hhere : 2 * (encodeChars j.chars).length ≤ steps := by omega
    have hmore : 2 * (encodeChars (memberChars members)).length ≤ steps := by omega
    refine ⟨_, encodeChars_object_cons key j members rest, ?_⟩
    rw [tableFrom_member hitem hmember hn (nextKey_first key _) hhere (ends_memberChars members rest),
      tableFrom_memberChars hitem h hns false (by simp) hmore]
    rfl

/-- A variant that is written as an object. -/
theorem choiceOf_object (depth : Nat) {variants : List String} {members : Members} {n : Json}
    (hcheck : checkChoice variants (.object members) = .ok n) (rest : Octets) :
    ∃ bs, encodeChars (chars (.object members)) ++ rest = 0x7B :: bs
      ∧ choiceOf variants (depth + 2) (0x7B :: bs) = .ok (n, rest) := by
  obtain ⟨s, rfl, hvariant⟩ : ∃ s, members = [(s, .null)] ∧ checkVariant variants s = .ok n := by
    cases members with
    | nil => cases hcheck
    | cons m more =>
      obtain ⟨s, value⟩ := m
      cases more with
      | cons => cases hcheck
      | nil =>
        rw [checkChoice] at hcheck
        obtain ⟨chosen, hchosen, hcheck⟩ := of_bind_eq_ok hcheck
        cases value with
        | null => exact ⟨s, rfl, hchosen.trans hcheck⟩
        | _ => cases hcheck
  have hdepth : ¬ depth + 2 ≤ 1 := by omega
  have hunit : unitAndBrace (encodeChars (chars .null) ++ (encodeChars (memberChars []) ++ rest)) = .ok rest := rfl
  refine ⟨_, encodeChars_object_cons s .null [] rest, ?_⟩
  rw [choiceOf, if_neg (by decide), beq_self_eq_true, if_pos rfl, if_neg hdepth, variantOf_quote hvariant]
  dsimp only
  rw [colon_colon]
  dsimp only
  rw [hunit]
  rfl

/-- What can be read back is read as every shape that it fits. -/
theorem Readable.readsAs {depth : Nat} {j : Json} (h : Readable depth j) : ReadsAs depth j := by
  induction h with
  | null depth => exact readsAs_of_scalar (.null depth) rfl
  | bool depth b => exact readsAs_of_scalar (.bool depth b) rfl
  | int depth n low high => exact readsAs_of_scalar (.int depth n low high) rfl
  | string depth s => exact readsAs_of_scalar (.string depth s) rfl
  | @array depth items h ih =>
    intro shape n hdirect hcheck steps hsteps rest hrest
    have hpos := length_chars_pos (.array h)
    obtain ⟨steps, rfl⟩ : ∃ n, steps = n + 1 := ⟨steps - 1, by omega⟩
    cases hdirect with
    | list hitem =>
      rw [check] at hcheck
      obtain ⟨ns, hns, rfl⟩ := of_map_eq_ok hcheck
      obtain ⟨bs, hbs, hread⟩ := listFrom_array hitem h ih hns hsteps rest
      rw [hbs, shapeFrom_list, hread]
    | record name hfields =>
      rw [check] at hcheck
      obtain ⟨ns, hns, rfl⟩ := of_map_eq_ok hcheck
      obtain ⟨bs, hbs, hread⟩ := sequenceFrom_array hfields h ih hns hsteps rest
      rw [hbs, shapeFrom_record_list, hread]
    | text | flag | integer | spelled | choice | table => cases hcheck
  | @object depth members h ih =>
    intro shape n hdirect hcheck steps hsteps rest hrest
    have hpos := length_chars_pos (.object h)
    obtain ⟨steps, rfl⟩ : ∃ n, steps = n + 1 := ⟨steps - 1, by omega⟩
    cases hdirect with
    | table hitem =>
      rw [check] at hcheck
      obtain ⟨ns, hns, rfl⟩ := of_map_eq_ok hcheck
      obtain ⟨bs, hbs, hread⟩ := tableFrom_object hitem ih hns hsteps rest
      rw [hbs, shapeFrom_table, hread]
    | record name hfields =>
      rw [check] at hcheck
      obtain ⟨found, hfound, hcheck⟩ := of_bind_eq_ok hcheck
      obtain ⟨ns, hns, hcheck⟩ := of_bind_eq_ok hcheck
      obtain rfl := Except.ok.inj hcheck
      obtain ⟨bs, hbs, hread⟩ := recordFrom_object hfields h ih hfound hns hsteps rest
      rw [hbs, shapeFrom_record, hread]
    | choice variants =>
      rw [check] at hcheck
      obtain ⟨bs, hbs, hread⟩ := choiceOf_object depth hcheck rest
      rw [hbs, shapeFrom, skipSpace_cons rfl]
      exact hread
    | text | flag | integer | spelled | list => cases hcheck

/-- A written value that fits a shape is read as the shape has it. -/
theorem readFront_render {shape : Shape} (hshape : shape.Direct) {j n : Json} (hj : Readable depthLimit j)
    (hcheck : readValue shape j = .ok n) : readFront shape (Utf8.encode j.render) = .ok (n, []) := by
  have hsteps : 2 * (encodeChars j.chars).length ≤ 2 * stepsFor (encodeChars j.chars) := by
    rw [stepsFor]
    omega
  have hread := hj.readsAs hshape hcheck hsteps (ends_nil)
  rw [List.append_nil] at hread
  rw [readFront, render, Utf8.encode_ofList, hread]

theorem readText_render {shape : Shape} (hshape : shape.Direct) {j n : Json} (hj : Readable depthLimit j)
    (hcheck : readValue shape j = .ok n) : readText shape (Utf8.encode j.render) = .ok n := by
  rw [readText, readFront_render hshape hj hcheck]
  rfl

end Helmsman.Json
