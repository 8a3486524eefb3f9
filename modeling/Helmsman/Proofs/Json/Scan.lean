import Helmsman.Json.Scan
import Helmsman.Proofs.Text.Utf8
/-!
# The smallest pieces of a written text

A string is read back as it was written, whatever follows its closing quote (`scanString_quote`), and so is a whole
number that fits 64 bits if neither a digit nor a point nor an exponent follows it (`scanNumber_ofInt`). Both are
passed over in the same way where nobody asks for them.
-/

namespace Helmsman.Json

open Utf8 (encodeChars encodeChars_cons encodeChars_append)

/-! ### Strings -/

theorem hexNumber?_hexDigit : ∀ n < 0x20, ∃ low high : UInt8, encodeChars [hexDigit (n / 16)] = [high]
    ∧ encodeChars [hexDigit (n % 16)] = [low] ∧ hexNumber? [low, high, 0x30, 0x30] = some n := by
  have hall : ∀ n < 0x20, encodeChars [hexDigit (n / 16)] = [(encodeChars [hexDigit (n / 16)]).headD 0]
      ∧ encodeChars [hexDigit (n % 16)] = [(encodeChars [hexDigit (n % 16)]).headD 0]
      ∧ hexNumber? [(encodeChars [hexDigit (n % 16)]).headD 0, (encodeChars [hexDigit (n / 16)]).headD 0, 0x30, 0x30]
        = some n := by decide
  exact fun n hn => ⟨_, _, hall n hn⟩

/-- A control character that has no short escape is written with four hexadecimal digits. -/
theorem encodeChars_escape_control {c : Char} (h : c.toNat < 0x20) (rest : Octets) : ∃ low high : UInt8,
    encodeChars ['\\', 'u', '0', '0', hexDigit (c.toNat / 16), hexDigit (c.toNat % 16)] ++ rest
      = 0x5C :: 0x75 :: 0x30 :: 0x30 :: high :: low :: rest
    ∧ hexNumber? [low, high, 0x30, 0x30] = some c.toNat := by
  obtain ⟨low, high, hhigh, hlow, hnumber⟩ := hexNumber?_hexDigit c.toNat h
  refine ⟨low, high, ?_, hnumber⟩
  have hsplit : ['\\', 'u', '0', '0', hexDigit (c.toNat / 16), hexDigit (c.toNat % 16)]
      = ['\\', 'u', '0', '0'] ++ ([hexDigit (c.toNat / 16)] ++ [hexDigit (c.toNat % 16)]) := rfl
  rw [hsplit, encodeChars_append, encodeChars_append, hhigh, hlow]
  rfl

/-- An octet that stands for itself in a string. -/
def Literal (b : UInt8) : Prop := b ≠ 0x22 ∧ b ≠ 0x5C ∧ ¬ b < 0x20

theorem literal_of_mem {c : Char} (hquote : c ≠ '"') (hslash : c ≠ '\\') (hcontrol : ¬ c.toNat < 0x20) {b : UInt8}
    (h : b ∈ String.utf8EncodeChar c) : Literal b := by
  have hne : ∀ d : Char, c ≠ d → d.toNat < 0x80 → b.toNat ≠ d.toNat := by
    intro d hd hascii hb
    rcases Utf8.of_mem_utf8EncodeChar h with h | h
    · exact hd (Char.toNat_inj.1 (h.symm.trans hb))
    · omega
  have hlow : ¬ b.toNat < 0x20 := by
    rcases Utf8.of_mem_utf8EncodeChar h with h | h <;> omega
  exact ⟨fun hb => hne '"' hquote (by decide) (hb ▸ rfl), fun hb => hne '\\' hslash (by decide) (hb ▸ rfl), hlow⟩

theorem stringFrom_literal {octets : Octets} (h : ∀ b ∈ octets, Literal b) (read rest : Octets) :
    stringFrom read .outside (octets ++ rest) = stringFrom (octets.reverse ++ read) .outside rest := by
  induction octets generalizing read with
  | nil => rfl
  | cons b octets ih =>
    obtain ⟨hquote, hslash, hcontrol⟩ := h b List.mem_cons_self
    rw [List.cons_append, stringFrom, if_neg (by simpa using hquote), if_neg (by simpa using hslash),
      if_neg hcontrol, ih (fun b' hb' => h b' (List.mem_cons_of_mem b hb')), List.reverse_cons, List.append_assoc]
    rfl

theorem skipStringFrom_literal {octets : Octets} (h : ∀ b ∈ octets, Literal b) (rest : Octets) :
    skipStringFrom .outside (octets ++ rest) = skipStringFrom .outside rest := by
  induction octets with
  | nil => rfl
  | cons b octets ih =>
    obtain ⟨hquote, hslash, hcontrol⟩ := h b List.mem_cons_self
    rw [List.cons_append, skipStringFrom, if_neg (by simpa using hquote), if_neg (by simpa using hslash),
      if_neg hcontrol, ih fun b' hb' => h b' (List.mem_cons_of_mem b hb')]
    all_goals simp

/-- What is written for a character is read as its octets. -/
theorem stringFrom_escape (c : Char) (read rest : Octets) :
    stringFrom read .outside (encodeChars (escape c) ++ rest)
      = stringFrom ((String.utf8EncodeChar c).reverse ++ read) .outside rest := by
  rw [escape.eq_def]
  split
  any_goals rfl
  rename_i hquote hslash _ _ _ _ _
  split
  · rename_i hcontrol
    obtain ⟨low, high, hoctets, hnumber⟩ := encodeChars_escape_control hcontrol rest
    -- A control character is no half of a pair, and so it is taken as it is.
    have hlow : isLow c.toNat = false := by
      rw [isLow]
      simp
      omega
    have hhigh : isHigh c.toNat = false := by
      rw [isHigh]
      simp
      omega
    have hdigits : stringFrom read .outside (0x5C :: 0x75 :: 0x30 :: 0x30 :: high :: low :: rest)
        = stringFrom read (.hex none [high, 0x30, 0x30]) (low :: rest) := rfl
    rw [hoctets, hdigits]
    simp [stringFrom, hnumber, hlow, hhigh, pushCode, Char.ofNat_toNat]
  · rename_i hcontrol
    rw [encodeChars_cons, Utf8.encodeChars_nil, List.append_nil]
    exact stringFrom_literal (fun b hb => literal_of_mem hquote hslash hcontrol hb) read rest

theorem skipStringFrom_escape (c : Char) (rest : Octets) :
    skipStringFrom .outside (encodeChars (escape c) ++ rest) = skipStringFrom .outside rest := by
  rw [escape.eq_def]
  split
  any_goals rfl
  rename_i hquote hslash _ _ _ _ _
  split
  · rename_i hcontrol
    obtain ⟨low, high, hoctets, hnumber⟩ := encodeChars_escape_control hcontrol rest
    rw [hoctets]
    show (if (hexNumber? [low, high, 0x30, 0x30]).isSome then _ else _) = _
    rw [hnumber]
    rfl
  · rename_i hcontrol
    rw [encodeChars_cons, Utf8.encodeChars_nil, List.append_nil]
    exact skipStringFrom_literal (fun b hb => literal_of_mem hquote hslash hcontrol hb) rest

/-- The octets of a quoted text begin with the opening quote. -/
theorem encodeChars_quote (s : String) (rest : Octets) :
    encodeChars (quote s) ++ rest = 0x22 :: (encodeChars (s.toList.flatMap escape) ++ 0x22 :: rest) := by
  rw [quote, encodeChars_append, List.append_assoc]
  rfl

theorem stringFrom_flatMap_escape (cs : List Char) (read rest : Octets) :
    stringFrom read .outside (encodeChars (cs.flatMap escape) ++ 0x22 :: rest)
      = .ok ((encodeChars cs).reverse ++ read, rest) := by
  induction cs generalizing read with
  | nil => rfl
  | cons c cs ih =>
    rw [List.flatMap_cons, encodeChars_append, List.append_assoc, stringFrom_escape, ih, encodeChars_cons,
      List.reverse_append, List.append_assoc]

/-- A written text is read back from behind its opening quote. -/
theorem scanString_quote (s : String) (rest : Octets) :
    scanString (encodeChars (s.toList.flatMap escape) ++ 0x22 :: rest) = .ok (s, rest) := by
  rw [scanString, stringFrom_flatMap_escape]
  dsimp only
  rw [List.append_nil, List.reverse_reverse, ← Utf8.encode_eq, Utf8.decode?_encode]

theorem skipString_quote (s : String) (rest : Octets) :
    skipString (encodeChars (s.toList.flatMap escape) ++ 0x22 :: rest) = .ok rest := by
  rw [skipString]
  induction s.toList with
  | nil => rfl
  | cons c cs ih => rw [List.flatMap_cons, encodeChars_append, List.append_assoc, skipStringFrom_escape, ih]

/-! ### Whole numbers -/

/-- What follows a number does not belong to it. -/
def Ends (rest : Octets) : Prop := ∀ b ∈ rest.head?, isDigit b = false ∧ b ≠ 0x2E ∧ isExponentMark b = false

theorem toDigits_head {n : Nat} (h : 0 < n) : ∃ d ds, Nat.toDigits 10 n = d :: ds ∧ d ≠ '0' := by
  induction n using Nat.strongRecOn with
  | ind n ih =>
    by_cases hsmall : n < 10
    · refine ⟨n.digitChar, [], Nat.toDigits_of_lt_base hsmall, ?_⟩
      have hall : ∀ n < 10, 0 < n → Nat.digitChar n ≠ '0' := by decide
      exact hall n hsmall h
    · obtain ⟨d, ds, hds, hd⟩ := ih (n / 10) (by omega) (by omega)
      refine ⟨d, ds ++ [(n % 10).digitChar], ?_, hd⟩
      rw [Nat.toDigits_of_base_le (by decide) (by omega), hds, List.cons_append]

/-- The octet of a digit. -/
theorem encodeChars_digit {c : Char} (h : c.isDigit) (cs : List Char) : ∃ b, encodeChars (c :: cs) = b :: encodeChars cs
    ∧ isDigit b = true ∧ digitValue b = c.toNat - '0'.toNat ∧ b.toNat = c.toNat := by
  obtain ⟨hlow, hhigh⟩ := Char.isDigit_iff_toNat.1 h
  have hzero : '0'.toNat = 0x30 := rfl
  have hnine : '9'.toNat = 0x39 := rfl
  have hb : (UInt8.ofNat c.toNat).toNat = c.toNat := by
    rw [UInt8.toNat_ofNat', Nat.mod_eq_of_lt (by omega)]
  refine ⟨UInt8.ofNat c.toNat, ?_, ?_, ?_, hb⟩
  · rw [encodeChars_cons, Utf8.utf8EncodeChar_ascii (by omega)]
    rfl
  · rw [isDigit, Bool.and_eq_true, decide_eq_true_iff, decide_eq_true_iff, UInt8.le_iff_toNat_le,
      UInt8.le_iff_toNat_le, hb]
    exact ⟨hlow, hhigh⟩
  · rw [digitValue, hb, hzero]

theorem le_ofDigitChars (ds : List Char) (init : Nat) : init ≤ Nat.ofDigitChars 10 ds init := by
  induction ds generalizing init with
  | nil => exact Nat.le_refl _
  | cons d ds ih =>
    rw [Nat.ofDigitChars_cons]
    exact Nat.le_trans (by omega) (ih _)

/-- All digits are taken in if what they make up fits. -/
theorem significand_digits {ds : List Char} (hdigits : ∀ c ∈ ds, c.isDigit) {sig : Nat}
    (hfits : Nat.ofDigitChars 10 ds sig ≤ greatestSignificand) {rest : Octets} (hrest : Ends rest) (count : Nat) :
    significand sig count (encodeChars ds ++ rest)
      = (Nat.ofDigitChars 10 ds sig, count + ds.length, rest) := by
  induction ds generalizing sig count with
  | nil =>
    cases rest with
    | nil => rfl
    | cons b rest =>
      rw [Utf8.encodeChars_nil, List.nil_append, significand, (hrest b rfl).1]
      rfl
  | cons d ds ih =>
    obtain ⟨b, hencode, hb, hvalue, -⟩ := encodeChars_digit (hdigits d List.mem_cons_self) ds
    rw [Nat.ofDigitChars_cons, ← hvalue, Nat.mul_comm] at hfits ⊢
    have hstep := le_ofDigitChars ds (sig * 10 + digitValue b)
    have htake : (isDigit b && decide (sig * 10 + digitValue b ≤ greatestSignificand)) = true := by
      rw [hb, Bool.true_and, decide_eq_true_iff]
      exact Nat.le_trans hstep hfits
    rw [hencode, List.cons_append, significand, if_pos htake,
      ih (fun c hc => hdigits c (List.mem_cons_of_mem d hc)) hfits, List.length_cons, Nat.add_right_comm]
    rfl

theorem afterWhole_of_ends (negative : Bool) (sig : Nat) {rest : Octets} (hrest : Ends rest) :
    afterWhole negative sig 0 false rest = .ok (wholeNumber negative sig, rest) := by
  cases rest with
  | nil => rfl
  | cons b rest =>
    obtain ⟨-, hpoint, hmark⟩ := hrest b rfl
    rw [afterWhole, if_neg (by simpa using hpoint), hmark]
    rfl

theorem digits_of_ends {rest : Octets} (hrest : Ends rest) :
    startsWithDigit rest = false ∧ rest.takeWhile isDigit = [] ∧ skipDigits rest = rest := by
  cases rest with
  | nil => exact ⟨rfl, rfl, rfl⟩
  | cons b rest =>
    have hb := (hrest b rfl).1
    refine ⟨hb, ?_, ?_⟩
    · rw [List.takeWhile_cons, hb]
      rfl
    · rw [skipDigits, List.dropWhile_cons, hb]
      rfl

/-- A number that is not zero is written with a digit that is not zero in front. -/
theorem encode_ofNat {n : Nat} (h : 0 < n) : ∃ b ds, Utf8.encode (Decimal.ofNat n) = b :: encodeChars ds
    ∧ isDigit b = true ∧ (b == 0x30) = false ∧ (∀ c ∈ ds, c.isDigit) ∧ Nat.ofDigitChars 10 ds (digitValue b) = n := by
  obtain ⟨d, ds, hds, hd⟩ := toDigits_head h
  have hdigits : ∀ c ∈ d :: ds, c.isDigit := by
    rw [← hds]
    exact fun c hc => Nat.isDigit_of_mem_toDigits (by decide) (by decide) hc
  have hwhole : Nat.ofDigitChars 10 (d :: ds) 0 = n := by
    rw [← hds]
    exact Nat.ofDigitChars_ten_toDigits
  obtain ⟨b, hencode, hb, hvalue, hcode⟩ := encodeChars_digit (hdigits d List.mem_cons_self) ds
  refine ⟨b, ds, ?_, hb, ?_, fun c hc => hdigits c (List.mem_cons_of_mem d hc), ?_⟩
  · rw [Decimal.ofNat, Utf8.encode_ofList, hds, hencode]
  · exact beq_false_of_ne fun hzero => hd (Char.toNat_inj.1 (hcode.symm.trans (hzero ▸ rfl)))
  · rwa [Nat.ofDigitChars_cons, ← hvalue, Nat.mul_zero, Nat.zero_add] at hwhole

theorem scanNumber_ofNat (negative : Bool) {n : Nat} (hn : n ≤ greatestSignificand) {rest : Octets}
    (hrest : Ends rest) :
    scanNumber negative (Utf8.encode (Decimal.ofNat n) ++ rest) = .ok (wholeNumber negative n, rest) := by
  obtain ⟨hstart, htake, hdrop⟩ := digits_of_ends hrest
  rcases Nat.eq_zero_or_pos n with rfl | hpos
  · show scanNumber negative (0x30 :: rest) = _
    rw [scanNumber, beq_self_eq_true, if_pos rfl, hstart]
    exact afterWhole_of_ends negative 0 hrest
  · obtain ⟨b, ds, hencode, hb, hzero, hdigits, hall⟩ := encode_ofNat hpos
    have hfits : Nat.ofDigitChars 10 ds (digitValue b) ≤ greatestSignificand := hall.symm ▸ hn
    have hsignificand := significand_digits hdigits hfits hrest 1
    rw [hall] at hsignificand
    rw [hencode, List.cons_append, scanNumber, hzero, if_neg Bool.false_ne_true, hb, if_pos rfl, hsignificand]
    dsimp only
    rw [htake, hdrop]
    exact afterWhole_of_ends negative n hrest

theorem skipDigits_digits {ds : List Char} (hdigits : ∀ c ∈ ds, c.isDigit) {rest : Octets} (hrest : Ends rest) :
    skipDigits (encodeChars ds ++ rest) = rest := by
  induction ds with
  | nil => exact (digits_of_ends hrest).2.2
  | cons d ds ih =>
    obtain ⟨b, hencode, hb, -⟩ := encodeChars_digit (hdigits d List.mem_cons_self) ds
    rw [hencode, List.cons_append, skipDigits, List.dropWhile_cons, hb, if_pos rfl]
    exact ih fun c hc => hdigits c (List.mem_cons_of_mem d hc)

theorem skipNumber_ofNat (n : Nat) {rest : Octets} (hrest : Ends rest) :
    skipNumber (Utf8.encode (Decimal.ofNat n) ++ rest) = .ok rest := by
  obtain ⟨b, more, hbs, hwhole⟩ : ∃ b more, Utf8.encode (Decimal.ofNat n) ++ rest = b :: more
      ∧ (if b == 0x30 then if startsWithDigit more then .error (.next .invalidNumber more) else .ok more
        else if isDigit b then .ok (skipDigits more)
        else .error (.here .invalidNumber more) : Except Fault Octets) = .ok rest := by
    rcases Nat.eq_zero_or_pos n with rfl | hpos
    · refine ⟨0x30, rest, rfl, ?_⟩
      rw [(digits_of_ends hrest).1]
      rfl
    · obtain ⟨b, ds, hencode, hb, hzero, hdigits, -⟩ := encode_ofNat hpos
      refine ⟨b, encodeChars ds ++ rest, by rw [hencode, List.cons_append], ?_⟩
      rw [hzero, if_neg Bool.false_ne_true, hb, if_pos rfl, skipDigits_digits hdigits hrest]
  rw [hbs, skipNumber]
  dsimp only
  rw [hwhole]
  cases rest with
  | nil => rfl
  | cons b rest =>
    obtain ⟨-, hpoint, hmark⟩ := hrest b rfl
    dsimp only [Except.bind]
    split
    · rename_i heq
      exact absurd (List.cons.inj heq).1 hpoint
    · rw [hmark]
      rfl

end Helmsman.Json
