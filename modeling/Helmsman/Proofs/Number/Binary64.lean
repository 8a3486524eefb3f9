import Helmsman.Number.Decimal
import Mathlib
/-!
# Whole numbers as floating point numbers

A whole number below 2^53 is a floating point number as it stands (`trunc?_ofRatio_of_lt`). A greater one is rounded,
and rounding does not take it below 2^53 (`trunc?_ofRatio_of_le`), so that a bound far below is passed by the rounded
number exactly if the number itself passes it. Digits are read as the number they spell (`readBinary64?_digits`).
-/

namespace Helmsman

namespace Binary64

/-! ### Quotients -/

theorem roundDiv_one (num : Nat) : roundDiv num 1 = num := by
  rw [roundDiv, Nat.div_one, Nat.mod_one]
  exact if_pos Nat.one_pos

theorem roundDiv_bounds (num den : Nat) : num / den ≤ roundDiv num den ∧ roundDiv num den ≤ num / den + 1 := by
  have hhalf := Nat.mod_two_eq_zero_or_one (num / den)
  rw [roundDiv]
  split
  · omega
  · split <;> omega

/-- In units of a negative power of two a whole number needs no rounding. -/
theorem scaled_neg (num k : Nat) : scaled num 1 (-(k : Int)) = num * 2 ^ k := by
  rw [scaled]
  split
  · obtain rfl : k = 0 := by omega
    simp [roundDiv_one]
  · rw [roundDiv_one, Int.neg_neg, Int.toNat_natCast, Nat.shiftLeft_eq]

theorem scaledFloor_neg (num k : Nat) : scaledFloor num 1 (-(k : Int)) = num * 2 ^ k := by
  rw [scaledFloor]
  split
  · obtain rfl : k = 0 := by omega
    simp
  · rw [Nat.div_one, Int.neg_neg, Int.toNat_natCast, Nat.shiftLeft_eq]

theorem scaled_nat (num k : Nat) : scaled num 1 k = roundDiv num (2 ^ k) := by
  rw [scaled, if_pos (Int.natCast_nonneg k), Int.toNat_natCast, Nat.shiftLeft_eq, Nat.one_mul]

theorem scaledFloor_nat (num k : Nat) : scaledFloor num 1 k = num / 2 ^ k := by
  rw [scaledFloor, if_pos (Int.natCast_nonneg k), Int.toNat_natCast, Nat.shiftLeft_eq, Nat.one_mul]

/-- A quotient whose units have been guessed. A mantissa that is rounded up to the next power of two moves on by one. -/
theorem ofRatio_of_guess (negative : Bool) {num : Nat} (exponent : Int) (hzero : num ≠ 0)
    (hguess : (num.log2 : Int) = exponent + 52) (hnormal : leastNormal ≤ scaledFloor num 1 exponent)
    (hlow : leastExponent ≤ exponent) (hhigh : exponent < greatestExponent) :
    ofRatio negative num 1 = if scaled num 1 exponent = 2 * leastNormal
      then .finite negative leastNormal (exponent + 1) else .finite negative (scaled num 1 exponent) exponent := by
  have hexponent : (num.log2 : Int) - Nat.log2 1 - 52 = exponent := by
    have hone : Nat.log2 1 = 0 := by decide
    omega
  rw [ofRatio, if_neg hzero, hexponent]
  dsimp only
  rw [if_pos hnormal, Int.max_eq_left hlow]
  by_cases hround : scaled num 1 exponent = 2 * leastNormal
  · simp only [if_pos hround]
    exact if_neg (by omega)
  · simp only [if_neg hround]
    exact if_neg (by omega)

/-! ### Whole numbers -/

/-- A whole number with its sign. -/
def signed (negative : Bool) (n : Nat) : Int := if negative then -n else n

@[simp] theorem signed_false (n : Nat) : signed false n = n := rfl
@[simp] theorem signed_true (n : Nat) : signed true n = -n := rfl

theorem signed_natAbs (n : Int) : signed (decide (n < 0)) n.natAbs = n := by
  by_cases h : n < 0
  · rw [decide_eq_true h, signed_true]
    omega
  · rw [decide_eq_false h, signed_false]
    omega

theorem lt_of_signed {negative : Bool} {num : Nat} (hlow : -2 ^ 63 ≤ signed negative num)
    (hhigh : signed negative num < 2 ^ 64) : num < 2 ^ 64 := by
  cases negative with
  | false =>
    rw [signed_false] at hhigh
    omega
  | true =>
    rw [signed_true] at hlow
    omega

theorem trunc?_zero (negative : Bool) : (zero negative).trunc? = some 0 := by
  cases negative <;> decide

theorem trunc?_finite_neg (negative : Bool) (mantissa k : Nat) :
    (finite negative mantissa (-(k : Int))).trunc? = some (signed negative (mantissa / 2 ^ k)) := by
  by_cases hk : k = 0
  · subst hk
    rw [Nat.pow_zero, Nat.div_one]
    rfl
  · have hneg : ¬ 0 ≤ -(k : Int) := by omega
    rw [trunc?, if_neg hneg, Int.neg_neg, Int.toNat_natCast, Nat.shiftRight_eq_div_pow]
    rfl

theorem trunc?_finite_nat (negative : Bool) (mantissa k : Nat) :
    (finite negative mantissa k).trunc? = some (signed negative (mantissa * 2 ^ k)) := by
  rw [trunc?, if_pos (Int.natCast_nonneg k), Int.toNat_natCast, Nat.shiftLeft_eq]
  rfl

/-- A whole number below 2^53 stays what it is. -/
theorem trunc?_ofRatio_of_lt (negative : Bool) {num : Nat} (h : num < 2 ^ 53) :
    (ofRatio negative num 1).trunc? = some (signed negative num) := by
  by_cases hzero : num = 0
  · subst hzero
    rw [ofRatio, if_pos rfl, trunc?_zero]
    cases negative <;> rfl
  · obtain ⟨k, hk⟩ : ∃ k, num.log2 + k = 52 := ⟨52 - num.log2, by have := (Nat.log2_lt hzero).2 h; omega⟩
    have hlow : 2 ^ 52 ≤ num * 2 ^ k := by
      calc 2 ^ 52 = 2 ^ num.log2 * 2 ^ k := by rw [← Nat.pow_add, hk]
        _ ≤ num * 2 ^ k := Nat.mul_le_mul_right _ (Nat.log2_self_le hzero)
    have hhigh : num * 2 ^ k < 2 ^ 53 := by
      calc num * 2 ^ k < 2 ^ (num.log2 + 1) * 2 ^ k := Nat.mul_lt_mul_of_pos_right Nat.lt_log2_self (Nat.two_pow_pos k)
        _ = 2 ^ 53 := by rw [← Nat.pow_add, show num.log2 + 1 + k = 53 by omega]
    have hne : num * 2 ^ k ≠ 2 * leastNormal := Nat.ne_of_lt hhigh
    rw [ofRatio_of_guess negative (-(k : Int)) hzero (by omega) (by rwa [scaledFloor_neg])
      (by unfold leastExponent; omega) (by unfold greatestExponent; omega), scaled_neg, if_neg hne,
      trunc?_finite_neg, Nat.mul_div_cancel _ (Nat.two_pow_pos k)]

/-- A greater one, of sixty-four bits at most, is rounded to one that is no less than 2^53. -/
theorem trunc?_ofRatio_of_le (negative : Bool) {num : Nat} (h : 2 ^ 53 ≤ num) (hbits : num < 2 ^ 64) :
    ∃ n, 2 ^ 53 ≤ n ∧ (ofRatio negative num 1).trunc? = some (signed negative n) := by
  have hzero : num ≠ 0 := by omega
  obtain ⟨k, hk⟩ : ∃ k, num.log2 = 53 + k := ⟨num.log2 - 53, by have := (Nat.le_log2 hzero).2 h; omega⟩
  have hsmall : num.log2 < 64 := (Nat.log2_lt hzero).2 hbits
  have hfloor : 2 ^ 52 ≤ num / 2 ^ (k + 1) := by
    rw [Nat.le_div_iff_mul_le (Nat.two_pow_pos _), ← Nat.pow_add, show 52 + (k + 1) = num.log2 by omega]
    exact Nat.log2_self_le hzero
  have hround := (roundDiv_bounds num (2 ^ (k + 1))).1
  rw [ofRatio_of_guess negative ((k + 1 : Nat) : Int) hzero (by omega) (by rwa [scaledFloor_nat])
    (by unfold leastExponent; omega) (by unfold greatestExponent; omega), scaled_nat]
  have hpow : ∀ m, 2 ^ 52 ≤ m → 2 ^ 53 ≤ m * 2 ^ (k + 1) := by
    intro m hm
    calc 2 ^ 53 = 2 ^ 52 * 2 := rfl
      _ ≤ m * 2 ^ (k + 1) := Nat.mul_le_mul hm (by rw [Nat.pow_succ]; have := Nat.two_pow_pos k; omega)
  split
  · refine ⟨leastNormal * 2 ^ (k + 2), ?_, trunc?_finite_nat negative leastNormal (k + 2)⟩
    have hmore : leastNormal * 2 ^ (k + 1) ≤ leastNormal * 2 ^ (k + 2) :=
      Nat.mul_le_mul_left _ (Nat.pow_le_pow_right (by decide) (by omega))
    exact Nat.le_trans (hpow leastNormal (by decide)) hmore
  · exact ⟨_, hpow _ (Nat.le_trans hfloor hround), trunc?_finite_nat ..⟩

/-- Between bounds of thirty-two bits, rounding makes no difference. -/
theorem clamp_trunc?_ofRatio (negative : Bool) {num : Nat} (hbits : num < 2 ^ 64) :
    ∃ n, (ofRatio negative num 1).trunc? = some n ∧ max Word.lowest32 (min n Word.highest32)
      = max Word.lowest32 (min (signed negative num) Word.highest32) := by
  by_cases h : num < 2 ^ 53
  · exact ⟨_, trunc?_ofRatio_of_lt negative h, rfl⟩
  · obtain ⟨n, hn, htrunc⟩ := trunc?_ofRatio_of_le negative (Nat.le_of_not_lt h) hbits
    refine ⟨_, htrunc, ?_⟩
    cases negative with
    | false =>
      rw [signed_false, signed_false, Word.lowest32, Word.highest32]
      omega
    | true =>
      rw [signed_true, signed_true, Word.lowest32, Word.highest32]
      omega

end Binary64

namespace Decimal

/-! ### Digits -/

theorem toNat_of_isDigit {c : Char} (h : isDigit c = true) : 48 ≤ c.toNat ∧ c.toNat ≤ 57 := by
  rw [isDigit, Bool.and_eq_true, decide_eq_true_eq, decide_eq_true_eq] at h
  exact h

theorem toLower_of_isDigit {c : Char} (h : isDigit c = true) : c.toLower = c := by
  rw [Char.toLower, dif_neg]
  rintro ⟨hlow, -⟩
  have hdigit := (toNat_of_isDigit h).2
  have hlow : 65 ≤ c.toNat := hlow
  omega

theorem readScientific?_digits {digits : List Char} (hdigits : ∀ c ∈ digits, isDigit c = true) (hne : digits ≠ []) :
    readScientific? digits = some ⟨digitsValue digits, 0⟩ := by
  have hwhole : digits.takeWhile isDigit = digits := List.takeWhile_eq_self_iff.2 hdigits
  have hrest : digits.dropWhile isDigit = [] := List.dropWhile_eq_nil_iff.2 hdigits
  rw [readScientific?, hwhole, hrest]
  simp [hne, readExponent?]

theorem toBinary64_whole (negative : Bool) (n : Nat) :
    Scientific.toBinary64 negative ⟨n, 0⟩ = .ofRatio negative n 1 := by
  rw [Scientific.toBinary64]
  dsimp only
  by_cases hzero : n = 0
  · rw [if_pos hzero, Binary64.ofRatio, if_pos hzero]
  · have hnear : ¬ (0 + ((n.log2 : Int) / 3 + 2) < -400) := by omega
    rw [if_neg hzero, if_neg (by decide), if_neg hnear, Binary64.ofDecimal, if_pos (Int.le_refl 0)]
    exact congrArg (Binary64.ofRatio negative · 1) (Nat.mul_one n)

/-- The sign in front of digits, which may be left out. -/
inductive Sign : Bool → List Char → Prop
  | none : Sign false []
  | plus : Sign false ['+']
  | minus : Sign true ['-']

theorem splitSign_digits {negative : Bool} {sign digits : List Char} (hsign : Sign negative sign)
    (hdigits : ∀ c ∈ digits, isDigit c = true) : splitSign (sign ++ digits) = (negative, digits) := by
  cases hsign with
  | plus => rfl
  | minus => rfl
  | none =>
    rw [List.nil_append, splitSign]
    · rintro cs rfl
      exact absurd (hdigits '-' List.mem_cons_self) (by decide)
    · rintro cs rfl
      exact absurd (hdigits '+' List.mem_cons_self) (by decide)

/-- Digits spell no word. -/
theorem ofList_toLower_ne {digits : List Char} (hdigits : ∀ c ∈ digits, isDigit c = true) {word : String}
    (hword : ∃ c ∈ word.toList, isDigit c = false) : String.ofList (digits.map Char.toLower) ≠ word := by
  rintro rfl
  obtain ⟨c, hc, hletter⟩ := hword
  rw [String.toList_ofList] at hc
  obtain ⟨d, hd, rfl⟩ := List.mem_map.1 hc
  rw [toLower_of_isDigit (hdigits d hd), hdigits d hd] at hletter
  exact absurd hletter (by decide)

theorem readBinary64?_digits {negative : Bool} {sign digits : List Char} (hsign : Sign negative sign)
    (hdigits : ∀ c ∈ digits, isDigit c = true) (hne : digits ≠ []) :
    readBinary64? (String.ofList (sign ++ digits)) = some (.ofRatio negative (digitsValue digits) 1) := by
  rw [readBinary64?, String.toList_ofList, splitSign_digits hsign hdigits]
  dsimp only
  split
  · rename_i hword
    exact absurd hword (ofList_toLower_ne hdigits ⟨'i', by decide, by decide⟩)
  · rename_i hword
    exact absurd hword (ofList_toLower_ne hdigits ⟨'i', by decide, by decide⟩)
  · rename_i hword
    exact absurd hword (ofList_toLower_ne hdigits ⟨'n', by decide, by decide⟩)
  · rw [readScientific?_digits hdigits hne, Option.map_some, toBinary64_whole]

end Decimal

end Helmsman
