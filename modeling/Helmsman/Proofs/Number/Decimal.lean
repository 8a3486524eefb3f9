import Helmsman.Proofs.Number.Binary64
/-!
# The texts of numbers

Which texts are read as numbers. A number without a sign is one or more digits behind a plus that may be missing
(`readNat?_eq_some_iff`), and the digits that a number is written with are read as that number (`readInt?_ofInt`). No
reader takes other characters than a few (`isNumberChar`), so that a text with any other is no number.
-/

namespace Helmsman.Decimal

/-! ### Whole numbers -/

theorem isDigit_of_mem_toDigits {n : Nat} {c : Char} (h : c ∈ Nat.toDigits 10 n) : isDigit c = true := by
  have hdigit := Char.isDigit_iff_toNat.1 (Nat.isDigit_of_mem_toDigits (by decide) (by decide) h)
  rwa [isDigit, Bool.and_eq_true, decide_eq_true_iff, decide_eq_true_iff]

theorem digitsValue_toDigits (n : Nat) : digitsValue (Nat.toDigits 10 n) = n := Nat.ofDigitChars_ten_toDigits

/-- A text that stands for a number without a sign: digits, at least one, with at most a plus in front of them. -/
def Numeral (s : String) (n : Nat) : Prop :=
  ∃ sign digits, s.toList = sign ++ digits ∧ (sign = [] ∨ sign = ['+']) ∧ digits ≠ []
    ∧ (∀ c ∈ digits, isDigit c = true) ∧ digitsValue digits = n

theorem numeral_plus {s : String} {cs : List Char} (hs : s.toList = '+' :: cs) (n : Nat) :
    Numeral s n ↔ cs ≠ [] ∧ (∀ c ∈ cs, isDigit c = true) ∧ digitsValue cs = n := by
  rw [Numeral, hs]
  constructor
  · rintro ⟨sign, digits, happend, rfl | rfl, h⟩
    · rw [List.nil_append] at happend
      exact absurd (h.2.1 '+' (happend ▸ List.mem_cons_self)) (by decide)
    · obtain ⟨-, rfl⟩ := List.cons.inj happend
      exact h
  · exact fun h => ⟨['+'], cs, rfl, .inr rfl, h⟩

theorem numeral_bare {s : String} (hs : ∀ cs, s.toList ≠ '+' :: cs) (n : Nat) :
    Numeral s n ↔ s.toList ≠ [] ∧ (∀ c ∈ s.toList, isDigit c = true) ∧ digitsValue s.toList = n := by
  constructor
  · rintro ⟨sign, digits, happend, rfl | rfl, h⟩
    · rwa [happend]
    · exact absurd happend (hs digits)
  · exact fun h => ⟨[], s.toList, rfl, .inl rfl, h⟩

theorem readNat?_eq_some_iff {high n : Nat} {s : String} : readNat? high s = some n ↔ Numeral s n ∧ n ≤ high := by
  have hread : ∀ digits : List Char,
      (if digits.isEmpty || !digits.all isDigit then none
        else if digitsValue digits ≤ high then some (digitsValue digits) else none) = some n ↔
      (digits ≠ [] ∧ (∀ c ∈ digits, isDigit c = true) ∧ digitsValue digits = n) ∧ n ≤ high := by
    intro digits
    by_cases hdigits : digits ≠ [] ∧ ∀ c ∈ digits, isDigit c = true
    · have htest : (digits.isEmpty || !digits.all isDigit) = false := by simpa using hdigits
      simp only [htest, Bool.false_eq_true, if_false, Option.ite_none_right_eq_some, Option.some.injEq]
      exact ⟨fun ⟨hle, heq⟩ => ⟨⟨hdigits.1, hdigits.2, heq⟩, heq ▸ hle⟩, fun ⟨⟨_, _, heq⟩, hle⟩ => ⟨heq ▸ hle, heq⟩⟩
    · have htest : (digits.isEmpty || !digits.all isDigit) = true := by
        simpa [Classical.or_iff_not_imp_left] using hdigits
      rw [htest, if_pos rfl]
      exact ⟨nofun, fun ⟨⟨hne, hall, _⟩, _⟩ => absurd ⟨hne, hall⟩ hdigits⟩
  rw [readNat?]
  split
  case h_1 cs hplus => rw [hread, numeral_plus hplus]
  case h_2 cs hbare => rw [hread, numeral_bare hbare]

theorem mem_ofInt {n : Int} {c : Char} (h : c ∈ (ofInt n).toList) : c = '-' ∨ isDigit c = true := by
  rw [ofInt, ofNat] at h
  split at h
  · rw [String.toList_append, String.toList_ofList (l := Nat.toDigits 10 n.natAbs)] at h
    exact (List.mem_cons.1 h).imp_right isDigit_of_mem_toDigits
  · rw [String.toList_ofList] at h
    exact .inr (isDigit_of_mem_toDigits h)

/-- A whole number is read from its own digits. -/
theorem readInt?_ofInt {low high n : Int} (hlow : low ≤ n) (hhigh : n ≤ high) :
    readInt? low high (ofInt n) = some n := by
  have hdigits : ∀ c ∈ Nat.toDigits 10 n.natAbs, isDigit c = true := fun c => isDigit_of_mem_toDigits
  have hne : Nat.toDigits 10 n.natAbs ≠ [] := Nat.toDigits_ne_nil
  have htest : ((Nat.toDigits 10 n.natAbs).isEmpty || !(Nat.toDigits 10 n.natAbs).all isDigit) = false := by
    simp only [Bool.or_eq_false_iff, List.isEmpty_eq_false_iff, Bool.not_eq_false', List.all_eq_true]
    exact ⟨hne, hdigits⟩
  have hsplit : splitSign (ofInt n).toList = (decide (n < 0), Nat.toDigits 10 n.natAbs) := by
    rw [ofInt, ofNat]
    split
    case isTrue hneg =>
      rw [String.toList_append, String.toList_ofList (l := Nat.toDigits 10 n.natAbs), decide_eq_true hneg]
      exact splitSign_digits .minus hdigits
    case isFalse hneg =>
      rw [String.toList_ofList, decide_eq_false hneg]
      exact splitSign_digits .none hdigits
  have hvalue : (if decide (n < 0) = true then -(n.natAbs : Int) else n.natAbs) = n := by
    simp only [decide_eq_true_iff]
    split <;> omega
  rw [readInt?, hsplit]
  dsimp only
  rw [htest, if_neg Bool.false_ne_true, digitsValue_toDigits, hvalue, if_pos ⟨hlow, hhigh⟩]

/-! ### Characters of numbers -/

/-- The characters that a text which is a number may have: digits, signs, the point, the mark of an exponent, and the
letters of the words for infinity and for what is no number. -/
def isNumberChar (c : Char) : Bool := isDigit c || ['+', '-', '.', 'a', 'e', 'f', 'i', 'n', 't', 'y'].contains c.toLower

theorem isNumberChar_of_isDigit {c : Char} (h : isDigit c = true) : isNumberChar c = true := by
  rw [isNumberChar, h, Bool.true_or]

theorem isNumberChar_of_splitSign {cs : List Char} (h : ∀ c ∈ (splitSign cs).2, isNumberChar c = true) :
    ∀ c ∈ cs, isNumberChar c = true := by
  rw [splitSign.eq_def] at h
  split at h
  · exact List.forall_mem_cons.2 ⟨by decide, h⟩
  · exact List.forall_mem_cons.2 ⟨by decide, h⟩
  · exact h

theorem isNumberChar_of_readInt? {low high n : Int} {s : String} (h : readInt? low high s = some n) :
    ∀ c ∈ s.toList, isNumberChar c = true := by
  rw [readInt?] at h
  dsimp only at h
  split at h
  · cases h
  case isFalse hdigits =>
    simp only [Bool.or_eq_true, Bool.not_eq_true', not_or, Bool.not_eq_false, List.all_eq_true] at hdigits
    exact isNumberChar_of_splitSign fun c hc => isNumberChar_of_isDigit (hdigits.2 c hc)

theorem isNumberChar_of_readExponent? {e : Int} {cs : List Char} (h : readExponent? cs = some e) :
    ∀ c ∈ cs, isNumberChar c = true := by
  rw [readExponent?.eq_def] at h
  split at h
  · exact List.forall_mem_nil _
  case h_2 c cs =>
    split at h
    case isTrue hmark =>
      dsimp only at h
      split at h
      · cases h
      case isFalse hdigits =>
        simp only [Bool.or_eq_true, Bool.not_eq_true', not_or, Bool.not_eq_false, List.all_eq_true] at hdigits
        have hrest : ∀ c ∈ cs, isNumberChar c = true :=
          isNumberChar_of_splitSign fun c hc => isNumberChar_of_isDigit (hdigits.2 c hc)
        refine List.forall_mem_cons.2 ⟨?_, hrest⟩
        rcases hmark with rfl | rfl <;> decide
    case isFalse => cases h

theorem isNumberChar_of_readScientific? {x : Scientific} {cs : List Char} (h : readScientific? cs = some x) :
    ∀ c ∈ cs, isNumberChar c = true := by
  have hdigits : ∀ cs : List Char, (∀ c ∈ cs.dropWhile isDigit, isNumberChar c = true) →
      ∀ c ∈ cs, isNumberChar c = true := by
    intro cs hrest c hc
    rw [← List.takeWhile_append_dropWhile (p := isDigit) (l := cs)] at hc
    rcases List.mem_append.1 hc with hc | hc
    · exact isNumberChar_of_isDigit (List.mem_takeWhile_imp hc)
    · exact hrest c hc
  rw [readScientific?] at h
  dsimp only at h
  refine hdigits cs ?_
  split at h
  case h_1 rest hpoint =>
    split at h
    · cases h
    · obtain ⟨e, he, -⟩ := Option.map_eq_some_iff.1 h
      rw [hpoint]
      exact List.forall_mem_cons.2 ⟨by decide, hdigits _ (isNumberChar_of_readExponent? he)⟩
  case h_2 =>
    split at h
    · cases h
    · obtain ⟨e, he, -⟩ := Option.map_eq_some_iff.1 h
      exact isNumberChar_of_readExponent? he

theorem isNumberChar_of_readBinary64? {x : Binary64} {s : String} (h : readBinary64? s = some x) :
    ∀ c ∈ s.toList, isNumberChar c = true := by
  have hword : ∀ {cs : List Char} (word : List Char), String.ofList (cs.map Char.toLower) = String.ofList word →
      word ⊆ ['+', '-', '.', 'a', 'e', 'f', 'i', 'n', 't', 'y'] → ∀ c ∈ cs, isNumberChar c = true := by
    intro cs word hspelled hletters c hc
    have hletter : c.toLower ∈ word := String.ofList_injective hspelled ▸ List.mem_map_of_mem hc
    rw [isNumberChar, List.contains_iff_mem.2 (hletters hletter), Bool.or_true]
  rw [readBinary64?] at h
  dsimp only at h
  refine isNumberChar_of_splitSign ?_
  split at h
  case h_1 hinf => exact hword ['i', 'n', 'f'] hinf (by decide)
  case h_2 hinfinity => exact hword ['i', 'n', 'f', 'i', 'n', 'i', 't', 'y'] hinfinity (by decide)
  case h_3 hnan => exact hword ['n', 'a', 'n'] hnan (by decide)
  case h_4 =>
    obtain ⟨d, hd, -⟩ := Option.map_eq_some_iff.1 h
    exact isNumberChar_of_readScientific? hd

end Helmsman.Decimal
