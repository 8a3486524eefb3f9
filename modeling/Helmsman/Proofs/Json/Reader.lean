import Helmsman.Json.Reader
import Helmsman.Proofs.Json.Scan
/-!
# Reading what was written

A value in which every number is whole and fits 64 bits is read back as it was written, whatever follows it, as long
as it is not nested too deep (`read_render`). `Readable` says so with the depth that the reader has left, and so its
cases are those of the reader. The steps are counted in octets: each of them is paid for by one that is read.
-/

namespace Helmsman.Json

open Utf8 (encodeChars encodeChars_cons encodeChars_append)

/-- Values that can be read back with this many brackets left to open. -/
inductive Readable : Nat → Json → Prop
  | null (depth : Nat) : Readable depth .null
  | bool (depth : Nat) (b : Bool) : Readable depth (.bool b)
  | int (depth : Nat) (n : Int) (low : -9223372036854775808 ≤ n) (high : n ≤ greatestSignificand) :
    Readable depth (.number (.int n))
  | string (depth : Nat) (s : String) : Readable depth (.string s)
  | array {depth : Nat} {items : List Json} (h : ∀ j ∈ items, Readable (depth + 1) j) :
    Readable (depth + 2) (.array items)
  | object {depth : Nat} {members : List (String × Json)} (h : ∀ m ∈ members, Readable (depth + 1) m.2) :
    Readable (depth + 2) (.object members)

/-! ### Between values -/

theorem skipSpace_cons {b : UInt8} (h : isSpace b = false) (rest : Octets) : skipSpace (b :: rest) = b :: rest := by
  rw [skipSpace, List.dropWhile_cons, h]
  rfl

theorem isSpace_of_isDigit {b : UInt8} (h : isDigit b = true) : isSpace b = false := by
  rw [isDigit, Bool.and_eq_true, decide_eq_true_iff, decide_eq_true_iff] at h
  have hne : ∀ d : UInt8, d < 0x30 → (b == d) = false := by
    intro d hd
    refine beq_false_of_ne ?_
    rintro rfl
    exact absurd h.1 (by simpa using hd)
  rw [isSpace, hne _ (by decide), hne _ (by decide), hne _ (by decide), hne _ (by decide)]
  rfl

theorem ends_of_head {b : UInt8} (h : isDigit b = false ∧ b ≠ 0x2E ∧ isExponentMark b = false) (rest : Octets) :
    Ends (b :: rest) := by
  intro b' hb'
  obtain rfl : b = b' := Option.some.inj hb'
  exact h

theorem ends_nil : Ends [] := fun _ hb => absurd hb (by simp)

theorem ends_itemChars (items : List Json) (rest : Octets) : Ends (encodeChars (itemChars items) ++ rest) := by
  cases items with
  | nil => exact ends_of_head (by decide) rest
  | cons j items => exact ends_of_head (b := 0x2C) (by decide) _

theorem ends_memberChars (members : List (String × Json)) (rest : Octets) :
    Ends (encodeChars (memberChars members) ++ rest) := by
  cases members with
  | nil => exact ends_of_head (by decide) rest
  | cons m members => exact ends_of_head (b := 0x2C) (by decide) _

theorem nextItem_end (first : Bool) (rest : Octets) : nextItem first (0x5D :: rest) = .ok (false, rest) := rfl

theorem nextItem_first {b : UInt8} (hspace : isSpace b = false) (hend : b ≠ 0x5D) (rest : Octets) :
    nextItem true (b :: rest) = .ok (true, b :: rest) := by
  rw [nextItem, skipSpace_cons hspace]
  exact if_neg (by simpa using hend)

theorem nextItem_more {b : UInt8} (hspace : isSpace b = false) (hend : b ≠ 0x5D) (rest : Octets) :
    nextItem false (0x2C :: b :: rest) = .ok (true, b :: rest) := by
  have hcomma : skipSpace (0x2C :: b :: rest) = 0x2C :: b :: rest := rfl
  rw [nextItem, hcomma]
  dsimp only
  rw [if_neg (by decide), if_neg Bool.false_ne_true, if_pos (by decide), skipSpace_cons hspace]
  exact if_neg (by simpa using hend)

theorem nextKey_end (first : Bool) (rest : Octets) : nextKey first (0x7D :: rest) = .ok (none, 0x7D :: rest) := rfl

theorem nextKey_first (key : String) (rest : Octets) :
    nextKey true (encodeChars (quote key) ++ rest) = .ok (some key, rest) := by
  rw [encodeChars_quote]
  show (scanString _).map _ = _
  rw [scanString_quote]
  rfl

theorem nextKey_more (key : String) (rest : Octets) :
    nextKey false (0x2C :: (encodeChars (quote key) ++ rest)) = .ok (some key, rest) := by
  rw [encodeChars_quote]
  show (scanString _).map _ = _
  rw [scanString_quote]
  rfl

theorem colon_colon (rest : Octets) : colon (0x3A :: rest) = .ok rest := rfl

/-! ### The octets of a value -/

theorem encodeChars_array_cons (j : Json) (items : List Json) (rest : Octets) :
    encodeChars (chars (.array (j :: items))) ++ rest
      = 0x5B :: (encodeChars j.chars ++ (encodeChars (itemChars items) ++ rest)) := by
  rw [chars, List.cons_append, encodeChars_cons, encodeChars_append, List.append_assoc, List.append_assoc]
  rfl

theorem encodeChars_itemChars_cons (j : Json) (items : List Json) (rest : Octets) :
    encodeChars (itemChars (j :: items)) ++ rest
      = 0x2C :: (encodeChars j.chars ++ (encodeChars (itemChars items) ++ rest)) := by
  rw [itemChars, List.cons_append, encodeChars_cons, encodeChars_append, List.append_assoc, List.append_assoc]
  rfl

theorem encodeChars_object_cons (key : String) (j : Json) (members : List (String × Json)) (rest : Octets) :
    encodeChars (chars (.object ((key, j) :: members))) ++ rest = 0x7B :: (encodeChars (quote key)
      ++ 0x3A :: (encodeChars j.chars ++ (encodeChars (memberChars members) ++ rest))) := by
  simp only [chars, List.cons_append, encodeChars_cons, encodeChars_append, List.append_assoc]
  rfl

theorem encodeChars_memberChars_cons (key : String) (j : Json) (members : List (String × Json)) (rest : Octets) :
    encodeChars (memberChars ((key, j) :: members)) ++ rest = 0x2C :: (encodeChars (quote key)
      ++ 0x3A :: (encodeChars j.chars ++ (encodeChars (memberChars members) ++ rest))) := by
  simp only [memberChars, List.cons_append, encodeChars_cons, encodeChars_append, List.append_assoc]
  rfl

theorem length_array_cons (j : Json) (items : List Json) : (encodeChars (chars (.array (j :: items)))).length
    = (encodeChars j.chars).length + (encodeChars (itemChars items)).length + 1 := by
  have h := congrArg List.length (encodeChars_array_cons j items [])
  rwa [List.append_nil, List.append_nil, List.length_cons, List.length_append] at h

theorem length_itemChars_cons (j : Json) (items : List Json) : (encodeChars (itemChars (j :: items))).length
    = (encodeChars j.chars).length + (encodeChars (itemChars items)).length + 1 := by
  have h := congrArg List.length (encodeChars_itemChars_cons j items [])
  rwa [List.append_nil, List.append_nil, List.length_cons, List.length_append] at h

theorem length_object_cons (key : String) (j : Json) (members : List (String × Json)) :
    (encodeChars (chars (.object ((key, j) :: members)))).length = (encodeChars (quote key)).length
      + ((encodeChars j.chars).length + (encodeChars (memberChars members)).length + 1) + 1 := by
  have h := congrArg List.length (encodeChars_object_cons key j members [])
  rwa [List.append_nil, List.append_nil, List.length_cons, List.length_append, List.length_cons,
    List.length_append] at h

theorem length_memberChars_cons (key : String) (j : Json) (members : List (String × Json)) :
    (encodeChars (memberChars ((key, j) :: members))).length = (encodeChars (quote key)).length
      + ((encodeChars j.chars).length + (encodeChars (memberChars members)).length + 1) + 1 := by
  have h := congrArg List.length (encodeChars_memberChars_cons key j members [])
  rwa [List.append_nil, List.append_nil, List.length_cons, List.length_append, List.length_cons,
    List.length_append] at h

theorem encodeChars_int_neg {n : Int} (h : n < 0) (rest : Octets) : encodeChars (chars (.number (.int n))) ++ rest
    = 0x2D :: (Utf8.encode (Decimal.ofNat n.natAbs) ++ rest) := by
  rw [chars, numberText, Decimal.ofInt, if_pos h, String.toList_append, encodeChars_append, List.append_assoc]
  rfl

theorem encodeChars_int_nonneg {n : Int} (h : 0 ≤ n) : encodeChars (chars (.number (.int n)))
    = Utf8.encode (Decimal.ofNat n.natAbs) := by
  rw [chars, numberText, Decimal.ofInt, if_neg (by omega)]
  rfl

/-- A number begins with a digit, behind its sign if it has one. -/
theorem encode_ofNat_head (n : Nat) : ∃ b bs, Utf8.encode (Decimal.ofNat n) = b :: bs ∧ isDigit b = true := by
  rcases Nat.eq_zero_or_pos n with rfl | hpos
  · exact ⟨_, _, rfl, rfl⟩
  · obtain ⟨b, ds, hencode, hb, -⟩ := encode_ofNat hpos
    exact ⟨b, _, hencode, hb⟩

/-- A value begins with an octet that is neither a blank nor the end of a list. -/
theorem encodeChars_chars {depth : Nat} {j : Json} (h : Readable depth j) (rest : Octets) :
    ∃ b bs, encodeChars j.chars ++ rest = b :: bs ∧ isSpace b = false ∧ b ≠ 0x5D := by
  cases h with
  | null => exact ⟨_, _, rfl, rfl, by decide⟩
  | bool depth b => cases b <;> exact ⟨_, _, rfl, rfl, by decide⟩
  | int depth n low high =>
    rcases Int.lt_or_le n 0 with hneg | hpos
    · exact ⟨_, _, encodeChars_int_neg hneg rest, rfl, by decide⟩
    · obtain ⟨b, bs, hencode, hb⟩ := encode_ofNat_head n.natAbs
      refine ⟨b, bs ++ rest, by rw [encodeChars_int_nonneg hpos, hencode, List.cons_append], ?_, ?_⟩
      · exact isSpace_of_isDigit hb
      · rintro rfl
        exact absurd hb (by decide)
  | string depth s => exact ⟨_, _, encodeChars_quote s rest, rfl, by decide⟩
  | @array depth items =>
    cases items with
    | nil => exact ⟨_, _, rfl, rfl, by decide⟩
    | cons j items => exact ⟨_, _, encodeChars_array_cons j items rest, rfl, by decide⟩
  | @object depth members =>
    cases members with
    | nil => exact ⟨_, _, rfl, rfl, by decide⟩
    | cons m members => exact ⟨_, _, encodeChars_object_cons m.1 m.2 members rest, rfl, by decide⟩

theorem nextItem_array {depth : Nat} {j : Json} (h : Readable depth j) (rest : Octets) :
    nextItem true (encodeChars j.chars ++ rest) = .ok (true, encodeChars j.chars ++ rest) := by
  obtain ⟨b, bs, hbs, hspace, hend⟩ := encodeChars_chars h rest
  rw [hbs, nextItem_first hspace hend]

theorem nextItem_itemChars {depth : Nat} {j : Json} (h : Readable depth j) (items : List Json) (rest : Octets) :
    nextItem false (encodeChars (itemChars (j :: items)) ++ rest)
      = .ok (true, encodeChars j.chars ++ (encodeChars (itemChars items) ++ rest)) := by
  obtain ⟨b, bs, hbs, hspace, hend⟩ := encodeChars_chars h (encodeChars (itemChars items) ++ rest)
  rw [encodeChars_itemChars_cons, hbs, nextItem_more hspace hend]

theorem nextKey_memberChars (key : String) (j : Json) (members : List (String × Json)) (rest : Octets) :
    nextKey false (encodeChars (memberChars ((key, j) :: members)) ++ rest)
      = .ok (some key, 0x3A :: (encodeChars j.chars ++ (encodeChars (memberChars members) ++ rest))) := by
  rw [encodeChars_memberChars_cons, nextKey_more]

theorem length_chars_pos {depth : Nat} {j : Json} (h : Readable depth j) : 0 < (encodeChars j.chars).length := by
  obtain ⟨b, bs, hbs, -⟩ := encodeChars_chars h []
  rw [List.append_nil] at hbs
  rw [hbs]
  exact Nat.succ_pos _

theorem length_itemChars_pos (items : List Json) : 0 < (encodeChars (itemChars items)).length := by
  cases items <;> exact Nat.succ_pos _

/-! ### Reading -/

theorem scalar_string (s : String) (rest : Octets) :
    scalar (encodeChars (quote s) ++ rest) = .ok (.string s, rest) := by
  rw [encodeChars_quote]
  show (scanString _).map _ = _
  rw [scanString_quote]
  rfl

theorem ne_of_isDigit {b d : UInt8} (h : isDigit b = true) (hd : isDigit d = false) : (b == d) = false := by
  refine beq_false_of_ne ?_
  rintro rfl
  exact absurd (h.symm.trans hd) (by decide)

theorem scalar_of_isDigit {b : UInt8} (h : isDigit b = true) (rest : Octets) :
    scalar (b :: rest) = (scanNumber false (b :: rest)).map fun (n, r) => (.number n, r) := by
  have hne : ∀ d : UInt8, isDigit d = false → (b == d) = false := fun d hd => ne_of_isDigit h hd
  simp only [scalar, hne 0x6E rfl, hne 0x74 rfl, hne 0x66 rfl, hne 0x2D rfl, h, Bool.false_eq_true, if_false, if_true]

theorem scalar_int {n : Int} (low : -9223372036854775808 ≤ n) (high : n ≤ greatestSignificand) {rest : Octets}
    (hrest : Ends rest) :
    scalar (encodeChars (chars (.number (.int n))) ++ rest) = .ok (.number (.int n), rest) := by
  rcases Int.lt_or_le n 0 with hneg | hpos
  · have hfits : n.natAbs ≤ greatestSignificand := by
      rw [greatestSignificand, Word.unsigned64]
      omega
    have hscan := scanNumber_ofNat true hfits hrest
    have hwhole : wholeNumber true n.natAbs = .int n := by
      rw [wholeNumber, if_neg (by simp), if_pos (by omega)]
      congr 1
      omega
    rw [encodeChars_int_neg hneg]
    show (scanNumber true _).map _ = _
    rw [hscan, hwhole]
    rfl
  · have hfits : n.natAbs ≤ greatestSignificand := by omega
    have hscan := scanNumber_ofNat false hfits hrest
    have hwhole : wholeNumber false n.natAbs = .int n := by
      rw [wholeNumber, if_pos (by simp)]
      congr 1
      omega
    obtain ⟨b, bs, hencode, hb⟩ := encode_ofNat_head n.natAbs
    rw [encodeChars_int_nonneg hpos]
    rw [hencode, List.cons_append] at hscan ⊢
    rw [scalar_of_isDigit hb, hscan, hwhole]
    rfl

/-- Whether a value has parts, and so is written in brackets. -/
def hasParts : Json → Bool
  | .array _ | .object _ => true
  | _ => false

/-- A value without parts is read as it was written. -/
theorem scalar_chars {depth : Nat} {j : Json} (h : Readable depth j) (hparts : j.hasParts = false) {rest : Octets}
    (hrest : Ends rest) : ∃ b bs, encodeChars j.chars ++ rest = b :: bs ∧ isSpace b = false ∧ b ≠ 0x5B ∧ b ≠ 0x7B
      ∧ scalar (b :: bs) = .ok (j, rest) := by
  cases h with
  | null => exact ⟨_, _, rfl, rfl, by decide, by decide, rfl⟩
  | bool depth b => cases b <;> exact ⟨_, _, rfl, rfl, by decide, by decide, rfl⟩
  | int depth n low high =>
    have hscalar := scalar_int low high hrest
    rcases Int.lt_or_le n 0 with hneg | hpos
    · rw [encodeChars_int_neg hneg] at hscalar ⊢
      exact ⟨_, _, rfl, rfl, by decide, by decide, hscalar⟩
    · obtain ⟨b, bs, hencode, hb⟩ := encode_ofNat_head n.natAbs
      rw [encodeChars_int_nonneg hpos, hencode, List.cons_append] at hscalar ⊢
      refine ⟨_, _, rfl, isSpace_of_isDigit hb, ?_, ?_, hscalar⟩
      all_goals
        rintro rfl
        exact absurd hb (by decide)
  | string depth s =>
    have hscalar := scalar_string s rest
    rw [encodeChars_quote] at hscalar
    exact ⟨_, _, encodeChars_quote s rest, rfl, by decide, by decide, hscalar⟩
  | array h => exact absurd hparts (by simp [hasParts])
  | object h => exact absurd hparts (by simp [hasParts])

/-- Whether a value is read as it was written, with as many steps as it has octets. -/
def ReadsBack (depth : Nat) (j : Json) : Prop := ∀ (steps : Nat) (rest : Octets),
  (encodeChars j.chars).length ≤ steps → Ends rest → valueFrom steps depth (encodeChars j.chars ++ rest) = .ok (j, rest)

theorem itemsFrom_item {depth : Nat} {j : Json} (h : ReadsBack depth j) {read : List Json} {bs rest : Octets}
    (hnext : nextItem read.isEmpty bs = .ok (true, encodeChars j.chars ++ rest)) {steps : Nat}
    (hsteps : (encodeChars j.chars).length ≤ steps) (hrest : Ends rest) :
    itemsFrom (steps + 1) depth read bs = itemsFrom steps depth (j :: read) rest := by
  rw [itemsFrom, hnext]
  dsimp only
  rw [h steps rest hsteps hrest]

theorem itemsFrom_itemChars {depth : Nat} {items : List Json} (hitems : ∀ j ∈ items, Readable depth j)
    (h : ∀ j ∈ items, ReadsBack depth j) (read : List Json) (hread : read = [] → items = []) {steps : Nat}
    (hsteps : (encodeChars (itemChars items)).length ≤ steps) (rest : Octets) :
    itemsFrom steps depth read (encodeChars (itemChars items) ++ rest)
      = .ok (.array (read.reverse ++ items), rest) := by
  induction items generalizing steps read with
  | nil =>
    obtain ⟨steps, rfl⟩ : ∃ n, steps = n + 1 := ⟨steps - 1, (Nat.sub_add_cancel hsteps).symm⟩
    show itemsFrom (steps + 1) depth read (0x5D :: rest) = _
    rw [itemsFrom, nextItem_end, List.append_nil]
  | cons j items ih =>
    obtain ⟨hj, hitems⟩ := List.forall_mem_cons.1 hitems
    obtain ⟨hitem, h⟩ := List.forall_mem_cons.1 h
    rw [length_itemChars_cons] at hsteps
    obtain ⟨steps, rfl⟩ : ∃ n, steps = n + 1 := ⟨steps - 1, by omega⟩
    have hhere : (encodeChars j.chars).length ≤ steps := by omega
    have hmore : (encodeChars (itemChars items)).length ≤ steps := by omega
    -- Only an item behind others has a comma in front.
    have hnext : nextItem read.isEmpty (encodeChars (itemChars (j :: items)) ++ rest)
        = .ok (true, encodeChars j.chars ++ (encodeChars (itemChars items) ++ rest)) := by
      cases read with
      | nil => exact absurd (hread rfl) (List.cons_ne_nil _ _)
      | cons _ _ => exact nextItem_itemChars hj items rest
    rw [itemsFrom_item hitem hnext hhere (ends_itemChars items rest), ih hitems h (j :: read) (by simp) hmore,
      List.reverse_cons, List.append_assoc]
    rfl

theorem membersFrom_member {depth : Nat} {key : String} {j : Json} (h : ReadsBack depth j)
    {read : List (String × Json)} {bs rest : Octets}
    (hnext : nextKey read.isEmpty bs = .ok (some key, 0x3A :: (encodeChars j.chars ++ rest))) {steps : Nat}
    (hsteps : (encodeChars j.chars).length ≤ steps) (hrest : Ends rest) :
    membersFrom (steps + 1) depth read bs = membersFrom steps depth ((key, j) :: read) rest := by
  rw [membersFrom, hnext]
  dsimp only
  rw [colon_colon]
  dsimp only
  rw [h steps rest hsteps hrest]

theorem membersFrom_memberChars {depth : Nat} {members : List (String × Json)} (h : ∀ m ∈ members, ReadsBack depth m.2)
    (read : List (String × Json)) (hread : read = [] → members = []) {steps : Nat}
    (hsteps : (encodeChars (memberChars members)).length ≤ steps) (rest : Octets) :
    membersFrom steps depth read (encodeChars (memberChars members) ++ rest)
      = .ok (.object (read.reverse ++ members), rest) := by
  induction members generalizing steps read with
  | nil =>
    obtain ⟨steps, rfl⟩ : ∃ n, steps = n + 1 := ⟨steps - 1, (Nat.sub_add_cancel hsteps).symm⟩
    show membersFrom (steps + 1) depth read (0x7D :: rest) = _
    rw [membersFrom, nextKey_end, List.append_nil]
    rfl
  | cons m members ih =>
    obtain ⟨key, j⟩ := m
    obtain ⟨hmember, h⟩ := List.forall_mem_cons.1 h
    rw [length_memberChars_cons] at hsteps
    obtain ⟨steps, rfl⟩ : ∃ n, steps = n + 1 := ⟨steps - 1, by omega⟩
    have hhere : (encodeChars j.chars).length ≤ steps := by omega
    have hmore : (encodeChars (memberChars members)).length ≤ steps := by omega
    have hnext : nextKey read.isEmpty (encodeChars (memberChars ((key, j) :: members)) ++ rest)
        = .ok (some key, 0x3A :: (encodeChars j.chars ++ (encodeChars (memberChars members) ++ rest))) := by
      cases read with
      | nil => exact absurd (hread rfl) (List.cons_ne_nil _ _)
      | cons _ _ => exact nextKey_memberChars key j members rest
    rw [membersFrom_member hmember hnext hhere (ends_memberChars members rest), ih h ((key, j) :: read) (by simp) hmore,
      List.reverse_cons, List.append_assoc]
    rfl

theorem readsBack_of_scalar {depth : Nat} {j : Json} (h : Readable depth j) (hparts : j.hasParts = false) :
    ReadsBack depth j := by
  intro steps rest hsteps hrest
  obtain ⟨steps, rfl⟩ : ∃ n, steps = n + 1 := ⟨steps - 1, by have := length_chars_pos h; omega⟩
  obtain ⟨b, bs, hbs, hspace, hlist, hobject, hscalar⟩ := scalar_chars h hparts hrest
  rw [hbs, valueFrom, skipSpace_cons hspace]
  dsimp only
  rw [if_neg (by simpa using hlist), if_neg (by simpa using hobject), hscalar]

/-- Whatever can be read back is read back. -/
theorem Readable.readsBack {depth : Nat} {j : Json} (h : Readable depth j) : ReadsBack depth j := by
  -- The first item and the first member have no comma in front, and so they are read apart from the others.
  induction h with
  | null depth => exact readsBack_of_scalar (.null depth) rfl
  | bool depth b => exact readsBack_of_scalar (.bool depth b) rfl
  | int depth n low high => exact readsBack_of_scalar (.int depth n low high) rfl
  | string depth s => exact readsBack_of_scalar (.string depth s) rfl
  | @array depth items h ih =>
    intro steps rest hsteps hrest
    have hpos := length_chars_pos (.array h)
    obtain ⟨steps, rfl⟩ : ∃ n, steps = n + 1 := ⟨steps - 1, by omega⟩
    cases items with
    | nil => exact itemsFrom_itemChars h ih [] (fun _ => rfl) (Nat.le_of_succ_le_succ hsteps) rest
    | cons j items =>
      obtain ⟨hj, hitems⟩ := List.forall_mem_cons.1 h
      obtain ⟨hitem, ih⟩ := List.forall_mem_cons.1 ih
      have hfirst := length_chars_pos hj
      have hrest := length_itemChars_pos items
      rw [length_array_cons] at hsteps
      obtain ⟨steps, rfl⟩ : ∃ n, steps = n + 1 := ⟨steps - 1, by omega⟩
      have hhere : (encodeChars j.chars).length ≤ steps := by omega
      have hmore : (encodeChars (itemChars items)).length ≤ steps := by omega
      have hnext : nextItem ([] : List Json).isEmpty _ = .ok (true, _) :=
        nextItem_array hj (encodeChars (itemChars items) ++ rest)
      rw [encodeChars_array_cons]
      show itemsFrom (steps + 1) (depth + 1) [] _ = _
      rw [itemsFrom_item hitem hnext hhere (ends_itemChars items rest),
        itemsFrom_itemChars hitems ih [j] (by simp) hmore]
      rfl
  | @object depth members h ih =>
    intro steps rest hsteps hrest
    have hpos := length_chars_pos (.object h)
    obtain ⟨steps, rfl⟩ : ∃ n, steps = n + 1 := ⟨steps - 1, by omega⟩
    cases members with
    | nil => exact membersFrom_memberChars ih [] (fun _ => rfl) (Nat.le_of_succ_le_succ hsteps) rest
    | cons m members =>
      obtain ⟨key, j⟩ := m
      obtain ⟨hmember, ih⟩ := List.forall_mem_cons.1 ih
      rw [length_object_cons] at hsteps
      obtain ⟨steps, rfl⟩ : ∃ n, steps = n + 1 := ⟨steps - 1, by omega⟩
      have hhere : (encodeChars j.chars).length ≤ steps := by omega
      have hmore : (encodeChars (memberChars members)).length ≤ steps := by omega
      have hnext : nextKey ([] : List (String × Json)).isEmpty _ = .ok (some key, _) :=
        nextKey_first key (0x3A :: (encodeChars j.chars ++ (encodeChars (memberChars members) ++ rest)))
      rw [encodeChars_object_cons]
      show membersFrom (steps + 1) (depth + 1) [] _ = _
      rw [membersFrom_member hmember hnext hhere (ends_memberChars members rest),
        membersFrom_memberChars ih [(key, j)] (by simp) hmore]
      rfl

/-- A value that was written is read back. -/
theorem read_render {j : Json} (h : Readable depthLimit j) : read (Utf8.encode j.render) = .ok j := by
  have hsteps : (encodeChars j.chars).length ≤ stepsFor (encodeChars j.chars) := by
    rw [stepsFor]
    omega
  have hvalue := h.readsBack (stepsFor (encodeChars j.chars)) [] hsteps ends_nil
  rw [List.append_nil] at hvalue
  rw [read, render, Utf8.encode_ofList, hvalue]
  rfl

/-! ### Passing over a value -/

/-- Whether a value is passed over, in steps that are counted in octets too. -/
def SkipsOver (j : Json) : Prop := ∃ used, used ≤ 4 * (encodeChars j.chars).length
  ∧ ∀ (steps : Nat) (frames : Frames) (rest : Octets), Ends rest →
    skipFrom (steps + used) frames (encodeChars j.chars ++ rest) = skipAfter steps frames true rest

theorem skipFrom_list (steps : Nat) (frames : Frames) (rest : Octets) :
    skipFrom (steps + 1) frames (0x5B :: rest) = skipAfter steps (true :: frames) false rest := rfl

theorem skipFrom_object (steps : Nat) (frames : Frames) (rest : Octets) :
    skipFrom (steps + 1) frames (0x7B :: rest) = skipAfter steps (false :: frames) false rest := rfl

theorem skipFrom_int (n : Int) {rest : Octets} (hrest : Ends rest) (steps : Nat) (frames : Frames) :
    skipFrom (steps + 1) frames (encodeChars (chars (.number (.int n))) ++ rest)
      = skipAfter steps frames true rest := by
  have hskip := skipNumber_ofNat n.natAbs hrest
  rcases Int.lt_or_le n 0 with hneg | hpos
  · rw [encodeChars_int_neg hneg, skipFrom, skipSpace_cons rfl]
    simp [hskip]
  · obtain ⟨b, bs, hencode, hb⟩ := encode_ofNat_head n.natAbs
    have hne : ∀ d : UInt8, isDigit d = false → (b == d) = false := fun d hd => ne_of_isDigit hb hd
    rw [encodeChars_int_nonneg hpos]
    rw [hencode, List.cons_append] at hskip ⊢
    rw [skipFrom, skipSpace_cons (isSpace_of_isDigit hb)]
    simp only [hne 0x5B rfl, hne 0x7B rfl, hne 0x6E rfl, hne 0x74 rfl, hne 0x66 rfl, hne 0x2D rfl, hb, hskip,
      Bool.false_eq_true, if_false, if_true]

theorem skipAfter_first (steps : Nat) (list : Bool) (frames : Frames) {b : UInt8} (hspace : isSpace b = false)
    (hend : b ≠ if list then 0x5D else 0x7D) (rest : Octets) :
    skipAfter (steps + 1) (list :: frames) false (b :: rest) = skipMember steps (list :: frames) (b :: rest) := by
  rw [skipAfter, skipSpace_cons hspace]
  dsimp only
  rw [Bool.false_and, if_neg Bool.false_ne_true, if_neg (by simpa using hend), if_neg Bool.false_ne_true]

theorem skipAfter_firstKey (steps : Nat) (frames : Frames) (key : String) (rest : Octets) :
    skipAfter (steps + 1) (false :: frames) false (encodeChars (quote key) ++ rest)
      = skipMember steps (false :: frames) (encodeChars (quote key) ++ rest) := by
  rw [encodeChars_quote]
  exact skipAfter_first steps false frames rfl (by decide) _

theorem skipAfter_comma (steps : Nat) (list : Bool) (frames : Frames) (rest : Octets) :
    skipAfter (steps + 1) (list :: frames) true (0x2C :: rest) = skipMember steps (list :: frames) rest := rfl

theorem skipMember_item (steps : Nat) (frames : Frames) (bs : Octets) :
    skipMember (steps + 1) (true :: frames) bs = skipFrom steps (true :: frames) bs := rfl

theorem skipMember_key (steps : Nat) (frames : Frames) (key : String) (rest : Octets) :
    skipMember (steps + 1) (false :: frames) (encodeChars (quote key) ++ 0x3A :: rest)
      = skipFrom steps (false :: frames) rest := by
  rw [encodeChars_quote, skipMember, skipSpace_cons rfl]
  simp [skipString_quote, colon_colon]

theorem skipAfter_itemChars {items : List Json} (h : ∀ j ∈ items, SkipsOver j) :
    ∃ used, used ≤ 4 * (encodeChars (itemChars items)).length
      ∧ ∀ (steps : Nat) (frames : Frames) (rest : Octets),
        skipAfter (steps + used) (true :: frames) true (encodeChars (itemChars items) ++ rest)
          = skipAfter steps frames true rest := by
  induction items with
  | nil => exact ⟨1, by decide, fun steps frames rest => rfl⟩
  | cons j items ih =>
    obtain ⟨hj, h⟩ := List.forall_mem_cons.1 h
    obtain ⟨used, hused, hmore⟩ := ih h
    obtain ⟨usedHere, husedHere, hhere⟩ := hj
    rw [length_itemChars_cons]
    refine ⟨used + usedHere + 2, by omega, fun steps frames rest => ?_⟩
    rw [encodeChars_itemChars_cons, show steps + (used + usedHere + 2) = steps + used + usedHere + 1 + 1 by omega,
      skipAfter_comma, skipMember_item, hhere _ _ _ (ends_itemChars items rest), hmore]

theorem skipAfter_memberChars {members : List (String × Json)} (h : ∀ m ∈ members, SkipsOver m.2) :
    ∃ used, used ≤ 4 * (encodeChars (memberChars members)).length
      ∧ ∀ (steps : Nat) (frames : Frames) (rest : Octets),
        skipAfter (steps + used) (false :: frames) true (encodeChars (memberChars members) ++ rest)
          = skipAfter steps frames true rest := by
  induction members with
  | nil => exact ⟨1, by decide, fun steps frames rest => rfl⟩
  | cons m members ih =>
    obtain ⟨key, j⟩ := m
    obtain ⟨hj, h⟩ := List.forall_mem_cons.1 h
    obtain ⟨used, hused, hmore⟩ := ih h
    obtain ⟨usedHere, husedHere, hhere⟩ : SkipsOver j := hj
    rw [length_memberChars_cons]
    refine ⟨used + usedHere + 2, by omega, fun steps frames rest => ?_⟩
    rw [encodeChars_memberChars_cons, show steps + (used + usedHere + 2) = steps + used + usedHere + 1 + 1 by omega,
      skipAfter_comma, skipMember_key, hhere _ _ _ (ends_memberChars members rest), hmore]

theorem Readable.skipsOver {depth : Nat} {j : Json} (h : Readable depth j) : SkipsOver j := by
  -- A bracket takes a step, and it takes two more to get behind it to the first value.
  induction h with
  | null depth => exact ⟨1, by decide, fun steps frames rest _ => rfl⟩
  | bool depth b => cases b <;> exact ⟨1, by decide, fun steps frames rest _ => rfl⟩
  | int depth n low high =>
    have hpos := length_chars_pos (.int depth n low high)
    refine ⟨1, by omega, fun steps frames rest hrest => ?_⟩
    rw [skipFrom_int n hrest]
  | string depth s =>
    have hpos := length_chars_pos (.string depth s)
    refine ⟨1, by omega, fun steps frames rest _ => ?_⟩
    rw [chars, encodeChars_quote, skipFrom, skipSpace_cons rfl]
    simp [isDigit, skipString_quote]
  | @array depth items h ih =>
    cases items with
    | nil => exact ⟨2, by decide, fun steps frames rest _ => rfl⟩
    | cons j items =>
      obtain ⟨hj, hitems⟩ := List.forall_mem_cons.1 ih
      obtain ⟨used, hused, hmore⟩ := skipAfter_itemChars hitems
      obtain ⟨usedHere, husedHere, hhere⟩ := hj
      have hlength := length_array_cons j items
      refine ⟨used + usedHere + 3, by omega, fun steps frames rest _ => ?_⟩
      obtain ⟨b, bs, hbs, hspace, hend⟩ :=
        encodeChars_chars (h j List.mem_cons_self) (encodeChars (itemChars items) ++ rest)
      have hfirst := hhere (steps + used) (true :: frames) _ (ends_itemChars items rest)
      rw [hbs] at hfirst
      rw [encodeChars_array_cons, show steps + (used + usedHere + 3) = steps + used + usedHere + 1 + 1 + 1 by omega,
        hbs, skipFrom_list, skipAfter_first _ true frames hspace hend, skipMember_item, hfirst, hmore]
  | @object depth members h ih =>
    cases members with
    | nil => exact ⟨2, by decide, fun steps frames rest _ => rfl⟩
    | cons m members =>
      obtain ⟨key, j⟩ := m
      obtain ⟨hj, hmembers⟩ := List.forall_mem_cons.1 ih
      obtain ⟨used, hused, hmore⟩ := skipAfter_memberChars hmembers
      obtain ⟨usedHere, husedHere, hhere⟩ : SkipsOver j := hj
      have hlength := length_object_cons key j members
      refine ⟨used + usedHere + 3, by omega, fun steps frames rest _ => ?_⟩
      rw [encodeChars_object_cons, show steps + (used + usedHere + 3) = steps + used + usedHere + 1 + 1 + 1 by omega,
        skipFrom_object, skipAfter_firstKey, skipMember_key, hhere _ _ _ (ends_memberChars members rest), hmore]

/-- A value that was written is passed over. -/
theorem skip_chars {depth : Nat} {j : Json} (h : Readable depth j) {rest : Octets} (hrest : Ends rest) :
    skip (encodeChars j.chars ++ rest) = .ok rest := by
  obtain ⟨used, hused, hover⟩ := h.skipsOver
  obtain ⟨more, hsteps⟩ : ∃ more, 4 * (encodeChars j.chars ++ rest).length + 4 = more + 1 + used := by
    refine ⟨4 * (encodeChars j.chars ++ rest).length + 4 - used - 1, ?_⟩
    rw [List.length_append]
    omega
  rw [skip, hsteps, hover (more + 1) [] rest hrest]
  rfl

end Helmsman.Json
