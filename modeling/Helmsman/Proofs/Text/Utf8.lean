import Helmsman.Text.Utf8
/-!
# Octets and characters

What the machine has read once it stands between two characters depends on nothing that follows. An octet of ASCII
always stands for itself, whatever was open before it (`scan_append_ascii`), and where none stands, none is read
(`mem_of_mem_decodeLossy`). The octets of a character are read as that character (`foldl_step_encodeChar`), so that a
text is read back as it was written (`decode?_encode`).
-/

namespace Helmsman.Utf8

theorem encode_append (s t : String) : encode (s ++ t) = encode s ++ encode t := by
  rw [encode, String.toList_append, List.flatMap_append]
  rfl

/-- The octets of characters in order. -/
def encodeChars (cs : List Char) : Octets := cs.flatMap String.utf8EncodeChar

theorem encode_eq (s : String) : encode s = encodeChars s.toList := rfl

theorem encode_ofList (cs : List Char) : encode (String.ofList cs) = encodeChars cs := by
  rw [encode_eq, String.toList_ofList]

@[simp] theorem encodeChars_nil : encodeChars [] = [] := rfl

theorem encodeChars_cons (c : Char) (cs : List Char) :
    encodeChars (c :: cs) = String.utf8EncodeChar c ++ encodeChars cs := List.flatMap_cons

theorem encodeChars_append (cs cs' : List Char) : encodeChars (cs ++ cs') = encodeChars cs ++ encodeChars cs' :=
  List.flatMap_append

/-! ### ASCII -/

/-- An octet below 128 is a character by itself; the octets of every other character are not below. -/
theorem of_mem_utf8EncodeChar {c : Char} {b : UInt8} (h : b ∈ String.utf8EncodeChar c) :
    b.toNat = c.toNat ∨ 0x80 ≤ b.toNat := by
  obtain ⟨v, hv⟩ : ∃ v, c.toNat = v := ⟨_, rfl⟩
  have hhigh : ∀ m, 0x80 ≤ m → m < 0x100 → 0x80 ≤ (UInt8.ofNat m).toNat := by
    intro m hlow hm
    rwa [UInt8.toNat_ofNat', Nat.mod_eq_of_lt hm]
  rw [String.utf8EncodeChar, show c.val.toNat = v from hv] at h
  rw [hv]
  split at h
  · obtain rfl := List.mem_singleton.1 h
    exact .inl (by rw [UInt8.toNat_ofNat', Nat.mod_eq_of_lt (by omega)])
  · right
    split at h
    · simp only [List.mem_cons, List.not_mem_nil, or_false] at h
      rcases h with rfl | rfl <;> exact hhigh _ (by omega) (by omega)
    · split at h
      · simp only [List.mem_cons, List.not_mem_nil, or_false] at h
        rcases h with rfl | rfl | rfl <;> exact hhigh _ (by omega) (by omega)
      · simp only [List.mem_cons, List.not_mem_nil, or_false] at h
        rcases h with rfl | rfl | rfl | rfl <;> exact hhigh _ (by omega) (by omega)

theorem utf8EncodeChar_ascii {c : Char} (h : c.toNat < 0x80) : String.utf8EncodeChar c = [UInt8.ofNat c.toNat] := by
  rw [String.utf8EncodeChar]
  exact if_pos (Nat.le_of_lt_succ h)

/-- An octet of ASCII in a text is a character, and the text falls into what is before and behind it. -/
theorem exists_of_encodeChars_eq_append {cs : List Char} {front back : Octets} {b : UInt8} (hb : b.toNat < 0x80)
    (h : encodeChars cs = front ++ b :: back) : ∃ before c behind, cs = before ++ c :: behind ∧ c.toNat = b.toNat
      ∧ encodeChars before = front ∧ encodeChars behind = back := by
  induction cs generalizing front with
  | nil => exact absurd h.symm (by simp)
  | cons d cs ih =>
    have hlater : ∀ front', front = String.utf8EncodeChar d ++ front' → encodeChars cs = front' ++ b :: back →
        ∃ before c behind, d :: cs = before ++ c :: behind ∧ c.toNat = b.toNat ∧ encodeChars before = front
          ∧ encodeChars behind = back := by
      rintro front' rfl hcs
      obtain ⟨before, c, behind, rfl, hc, hbefore, hbehind⟩ := ih hcs
      exact ⟨d :: before, c, behind, rfl, hc, by rw [encodeChars_cons, hbefore], hbehind⟩
    rw [encodeChars_cons, List.append_eq_append_iff] at h
    rcases h with ⟨front', hfront, hcs⟩ | ⟨octets, hd, hback⟩
    · exact hlater front' hfront hcs
    · cases octets with
      | nil => exact hlater [] (by rw [hd, List.append_nil, List.append_nil]) hback.symm
      | cons b' octets =>
        -- The octet is one of the character's, and so the only one.
        obtain ⟨rfl, hcs⟩ := List.cons.inj hback
        have hmem : b ∈ String.utf8EncodeChar d := hd ▸ List.mem_append_right front List.mem_cons_self
        have hdb : d.toNat = b.toNat := by
          rcases of_mem_utf8EncodeChar hmem with heq | hge
          · exact heq.symm
          · omega
        rw [utf8EncodeChar_ascii (hdb ▸ hb)] at hd
        obtain ⟨rfl, rfl⟩ : front = [] ∧ octets = [] := by
          have hlength := congrArg List.length hd
          simp only [List.length_append, List.length_cons, List.length_nil] at hlength
          exact ⟨List.length_eq_zero_iff.1 (by omega), List.length_eq_zero_iff.1 (by omega)⟩
        exact ⟨[], d, cs, rfl, hdb, rfl, hcs.symm⟩

/-- No octet of ASCII continues the character that is open. -/
def State.Sound (s : State) : Prop := ∀ p ∈ s.pending, 0x80 ≤ p.low

theorem low_of_lead {b : Nat} {p : Pending} (h : lead b = .opening p) : 0x80 ≤ p.low := by
  grind [lead]

theorem State.sound_open (read : List (Option Char)) (b : Nat) : (State.open read b).Sound := by
  intro p hp
  rw [State.open] at hp
  split at hp
  · exact absurd hp (by simp)
  · rename_i q hq
    obtain rfl := Option.some.inj hp
    exact low_of_lead hq
  · exact absurd hp (by simp)

theorem State.sound_step (s : State) (octet : UInt8) : (s.step octet).Sound := by
  intro q hq
  rw [State.step] at hq
  split at hq
  · exact State.sound_open _ _ q hq
  · dsimp only at hq
    split at hq
    · split at hq
      · exact absurd hq (by simp)
      · obtain rfl := Option.some.inj hq
        exact Nat.le_refl _
    · exact State.sound_open _ _ q hq

theorem State.sound_foldl (octets : Octets) {s : State} (h : s.Sound) : (octets.foldl State.step s).Sound := by
  induction octets generalizing s with
  | nil => exact h
  | cons b rest ih => exact ih (s.sound_step b)

theorem State.open_ascii (read : List (Option Char)) {b : Nat} (hb : b < 0x80) :
    State.open read b = ⟨some (Char.ofNat b) :: read, none⟩ := by
  rw [State.open, lead, if_pos hb]

/-- An octet of ASCII closes what is open and is a character by itself. -/
theorem State.step_ascii {s : State} (h : s.Sound) {b : UInt8} (hb : b.toNat < 0x80) :
    s.step b = ⟨some (Char.ofNat b.toNat) :: s.close.reverse, none⟩ := by
  rw [State.step, State.close, List.reverse_reverse]
  split
  · exact State.open_ascii _ hb
  · rename_i p hpending
    have hlow := h p hpending
    rw [if_neg (by omega)]
    exact State.open_ascii _ hb

theorem scan_append_ascii (octets : Octets) {b : UInt8} (hb : b.toNat < 0x80) :
    scan (octets ++ [b]) = scan octets ++ [some (Char.ofNat b.toNat)] := by
  have hsound : (octets.foldl State.step ⟨[], none⟩).Sound :=
    State.sound_foldl octets fun p hp => absurd hp (by simp)
  rw [scan, List.foldl_append, List.foldl_cons, List.foldl_nil, State.step_ascii hsound hb, State.close,
    List.reverse_cons, List.reverse_reverse]
  rfl

theorem toList_decodeLossy_append_ascii (octets : Octets) {b : UInt8} (hb : b.toNat < 0x80) :
    (decodeLossy (octets ++ [b])).toList = (decodeLossy octets).toList ++ [Char.ofNat b.toNat] := by
  rw [decodeLossy, decodeLossy, String.toList_ofList, String.toList_ofList, scan_append_ascii octets hb,
    List.map_append]
  rfl

/-! ### Where ASCII comes from -/

/-- The characters of ASCII that have been read stood there as octets. The null character is left out. -/
def AsciiFrom (read : List (Option Char)) (octets : Octets) : Prop :=
  ∀ c, some c ∈ read → 0 < c.toNat → c.toNat < 0x80 → ∃ b ∈ octets, b.toNat = c.toNat

namespace AsciiFrom

variable {read : List (Option Char)} {octets : Octets}

theorem more (h : AsciiFrom read octets) (b : UInt8) : AsciiFrom read (octets ++ [b]) := by
  intro c hc hpos hascii
  obtain ⟨b', hb', heq⟩ := h c hc hpos hascii
  exact ⟨b', List.mem_append_left _ hb', heq⟩

theorem gap (h : AsciiFrom read octets) : AsciiFrom (none :: read) octets := by
  intro c hc
  exact h c (by simpa using hc)

/-- A character that is the last octet, or none of ASCII. -/
theorem char (h : AsciiFrom read octets) {n : Nat} {b : UInt8} (hn : n = b.toNat ∨ 0x80 ≤ n) :
    AsciiFrom (some (Char.ofNat n) :: read) (octets ++ [b]) := by
  intro c hc hpos hascii
  rcases List.mem_cons.1 hc with hc | hc
  · obtain rfl := Option.some.inj hc
    have hvalue : (Char.ofNat n).toNat = n := by
      by_cases hvalid : n.isValidChar
      · rw [Char.ofNat, dif_pos hvalid]
        rfl
      · rw [Char.ofNat, dif_neg hvalid] at hpos
        exact absurd hpos (by decide)
    rw [hvalue] at hascii ⊢
    rcases hn with rfl | hn
    · exact ⟨b, List.mem_append_right _ List.mem_cons_self, rfl⟩
    · omega
  · exact h.more b c hc hpos hascii

end AsciiFrom

/-- What is open can only become a character that is not ASCII: its bits are enough, or the next octet makes them so. -/
def Pending.Wide (p : Pending) : Prop := 2 ≤ p.bits ∨ 0 < p.owed ∧ 2 ≤ p.bits * 64 + (p.low - 0x80)

theorem wide_of_lead {b : Nat} {p : Pending} (h : lead b = .opening p) : p.Wide := by
  rcases Nat.lt_or_ge b 0xE1 with hb | hb
  · grind [lead, Pending.Wide]
  · grind [lead, Pending.Wide]

/-- What holds of the machine behind some octets. -/
structure State.After (s : State) (octets : Octets) : Prop where
  ascii : AsciiFrom s.read octets
  wide : ∀ p ∈ s.pending, p.Wide

theorem State.after_open {read : List (Option Char)} {octets : Octets} (h : AsciiFrom read octets) (b : UInt8) :
    (State.open read b.toNat).After (octets ++ [b]) := by
  rw [State.open]
  cases hlead : lead b.toNat with
  | whole c =>
    have hc : c = Char.ofNat b.toNat := by grind [lead]
    exact ⟨hc ▸ h.char (.inl rfl), by simp⟩
  | opening p =>
    refine ⟨h.more b, ?_⟩
    intro q hq
    obtain rfl := Option.some.inj hq
    exact wide_of_lead hlead
  | never => exact ⟨(h.more b).gap, by simp⟩

theorem State.After.step {s : State} {octets : Octets} (h : s.After octets) (b : UInt8) :
    (s.step b).After (octets ++ [b]) := by
  rw [State.step]
  cases hpending : s.pending with
  | none => exact State.after_open h.ascii b
  | some p =>
    obtain ⟨owed, low, high, bits⟩ := p
    have hwide : 2 ≤ bits ∨ 0 < owed ∧ 2 ≤ bits * 64 + (low - 0x80) := h.wide _ hpending
    by_cases hb : low ≤ b.toNat ∧ b.toNat ≤ high
    · simp only [hb, and_self, if_true]
      cases owed with
      | zero => exact ⟨h.ascii.char (.inr (by omega)), by simp⟩
      | succ owed =>
        refine ⟨h.ascii.more b, ?_⟩
        intro q hq
        obtain rfl := Option.some.inj hq
        exact .inl (show 2 ≤ bits * 64 + (b.toNat - 0x80) by omega)
    · simp only [hb, if_false]
      exact State.after_open h.ascii.gap b

theorem State.After.foldl {s : State} {before : Octets} (h : s.After before) (octets : Octets) :
    (octets.foldl State.step s).After (before ++ octets) := by
  induction octets generalizing s before with
  | nil => rwa [List.append_nil]
  | cons b octets ih =>
    rw [List.append_cons]
    exact ih (h.step b)

/-- No character of ASCII is read where it does not stand. -/
theorem mem_of_mem_decodeLossy {octets : Octets} {c : Char} (h : c ∈ (decodeLossy octets).toList)
    (hpos : 0 < c.toNat) (hascii : c.toNat < 0x80) : ∃ b ∈ octets, b.toNat = c.toNat := by
  have hstart : State.After ⟨[], none⟩ [] := ⟨fun c hc => absurd hc List.not_mem_nil, fun p hp => absurd hp (by simp)⟩
  have hafter := hstart.foldl octets
  rw [decodeLossy, String.toList_ofList] at h
  obtain ⟨r, hr, hc⟩ := List.mem_map.1 h
  cases r with
  | none =>
    obtain rfl : '\ufffd' = c := hc
    exact absurd hascii (by decide)
  | some c' =>
    obtain rfl : c' = c := hc
    refine hafter.ascii c' ?_ hpos hascii
    rw [scan, State.close, List.mem_reverse] at hr
    split at hr
    · exact hr
    · simpa using hr

/-! ### Whole characters -/

theorem lead_two {n : Nat} (hlow : 2 ≤ n) (hhigh : n < 32) : lead (n + 0xC0) = .opening ⟨0, 0x80, 0xBF, n⟩ := by
  rw [lead, if_neg (by omega), if_neg (by omega), if_pos (by omega), Nat.add_sub_cancel]

/-- The second octet keeps out what has a shorter form and what is no character. -/
theorem lead_three {n b : Nat} (hn : n < 16) (hlow : 0x80 ≤ b) (hhigh : b ≤ 0xBF) (hshort : n = 0 → 0xA0 ≤ b)
    (hsurrogate : n = 13 → b ≤ 0x9F) :
    ∃ low high, lead (n + 0xE0) = .opening ⟨1, low, high, n⟩ ∧ low ≤ b ∧ b ≤ high := by
  rw [lead, if_neg (by omega), if_neg (by omega), if_neg (by omega)]
  split
  · obtain rfl : n = 0 := by omega
    exact ⟨_, _, rfl, hshort rfl, hhigh⟩
  · split
    · obtain rfl : n = 13 := by omega
      exact ⟨_, _, rfl, hlow, hsurrogate rfl⟩
    · rw [if_pos (by omega), Nat.add_sub_cancel]
      exact ⟨_, _, rfl, hlow, hhigh⟩

theorem lead_four {n b : Nat} (hn : n < 5) (hlow : 0x80 ≤ b) (hhigh : b ≤ 0xBF) (hshort : n = 0 → 0x90 ≤ b)
    (hlast : n = 4 → b ≤ 0x8F) :
    ∃ low high, lead (n + 0xF0) = .opening ⟨2, low, high, n⟩ ∧ low ≤ b ∧ b ≤ high := by
  rw [lead, if_neg (by omega), if_neg (by omega), if_neg (by omega), if_neg (by omega), if_neg (by omega),
    if_neg (by omega)]
  split
  · obtain rfl : n = 0 := by omega
    exact ⟨_, _, rfl, hshort rfl, hhigh⟩
  · split
    · rw [Nat.add_sub_cancel]
      exact ⟨_, _, rfl, hlow, hhigh⟩
    · obtain rfl : n = 4 := by omega
      exact ⟨_, _, rfl, hlow, hlast rfl⟩

theorem step_opening (read : List (Option Char)) {b : Nat} {p : Pending} (hb : b < 256) (h : lead b = .opening p) :
    State.step ⟨read, none⟩ (UInt8.ofNat b) = ⟨read, some p⟩ := by
  rw [State.step, UInt8.toNat_ofNat', Nat.mod_eq_of_lt hb]
  dsimp only
  rw [State.open, h]

theorem step_middle (read : List (Option Char)) {n low high bits b : Nat} (hb : b < 256) (hlow : low ≤ b)
    (hhigh : b ≤ high) : State.step ⟨read, some ⟨n + 1, low, high, bits⟩⟩ (UInt8.ofNat b)
      = ⟨read, some ⟨n, 0x80, 0xBF, bits * 64 + (b - 0x80)⟩⟩ := by
  rw [State.step, UInt8.toNat_ofNat', Nat.mod_eq_of_lt hb]
  dsimp only
  rw [if_pos ⟨hlow, hhigh⟩]

theorem step_last (read : List (Option Char)) {low high bits b : Nat} (hb : b < 256) (hlow : low ≤ b)
    (hhigh : b ≤ high) : State.step ⟨read, some ⟨0, low, high, bits⟩⟩ (UInt8.ofNat b)
      = ⟨some (Char.ofNat (bits * 64 + (b - 0x80))) :: read, none⟩ := by
  rw [State.step, UInt8.toNat_ofNat', Nat.mod_eq_of_lt hb]
  dsimp only
  rw [if_pos ⟨hlow, hhigh⟩]

theorem foldl_step_encodeChar (read : List (Option Char)) (c : Char) :
    (String.utf8EncodeChar c).foldl State.step ⟨read, none⟩ = ⟨some c :: read, none⟩ := by
  obtain ⟨v, hv⟩ : ∃ v, c.val.toNat = v := ⟨_, rfl⟩
  have hc : Char.ofNat v = c := hv ▸ Char.ofNat_toNat c
  have hvalid : v < 0xD800 ∨ (0xDFFF < v ∧ v < 0x110000) := hv ▸ c.valid
  rw [String.utf8EncodeChar, hv]
  -- One case for each number of octets. In each the bits add up to the number of the character.
  split
  · rw [List.foldl_cons, List.foldl_nil, State.step, UInt8.toNat_ofNat', Nat.mod_eq_of_lt (by omega)]
    dsimp only
    rw [State.open_ascii _ (by omega), hc]
  · split
    · have hlead : lead (v / 64 % 32 + 0xC0) = _ := lead_two (by omega) (by omega)
      rw [List.foldl_cons, step_opening _ (by omega) hlead, List.foldl_cons, List.foldl_nil,
        step_last _ (by omega) (by omega) (by omega), show v / 64 % 32 * 64 + (v % 64 + 128 - 0x80) = v by omega, hc]
    · split
      · obtain ⟨low, high, hlead, hlow, hhigh⟩ := lead_three (n := v / 4096 % 16) (b := v / 64 % 64 + 128)
          (by omega) (by omega) (by omega) (by omega) (by omega)
        rw [List.foldl_cons, step_opening _ (by omega) hlead, List.foldl_cons, step_middle _ (by omega) hlow hhigh,
          List.foldl_cons, List.foldl_nil, step_last _ (by omega) (by omega) (by omega),
          show (v / 4096 % 16 * 64 + (v / 64 % 64 + 128 - 0x80)) * 64 + (v % 64 + 128 - 0x80) = v by omega, hc]
      · obtain ⟨low, high, hlead, hlow, hhigh⟩ := lead_four (n := v / 262144 % 8) (b := v / 4096 % 64 + 128)
          (by omega) (by omega) (by omega) (by omega) (by omega)
        rw [List.foldl_cons, step_opening _ (by omega) hlead, List.foldl_cons, step_middle _ (by omega) hlow hhigh,
          List.foldl_cons, step_middle _ (by omega) (by omega) (by omega), List.foldl_cons, List.foldl_nil,
          step_last _ (by omega) (by omega) (by omega),
          show ((v / 262144 % 8 * 64 + (v / 4096 % 64 + 128 - 0x80)) * 64 + (v / 64 % 64 + 128 - 0x80)) * 64
            + (v % 64 + 128 - 0x80) = v by omega, hc]

theorem foldl_step_encode (read : List (Option Char)) (cs : List Char) :
    (encodeChars cs).foldl State.step ⟨read, none⟩ = ⟨(cs.map some).reverse ++ read, none⟩ := by
  induction cs generalizing read with
  | nil => rfl
  | cons c cs ih =>
    rw [encodeChars_cons, List.foldl_append, foldl_step_encodeChar, ih, List.map_cons, List.reverse_cons,
      List.append_assoc, List.singleton_append]

theorem scan_encode (s : String) : scan (encode s) = s.toList.map some := by
  rw [scan, encode_eq, foldl_step_encode, State.close, List.append_nil, List.reverse_reverse]

theorem decode?_encode (s : String) : decode? (encode s) = some s := by
  have hall : ∀ cs : List Char, (cs.map some).mapM id = some cs := by
    intro cs
    induction cs with
    | nil => rfl
    | cons c cs ih => rw [List.map_cons, List.mapM_cons, ih]; rfl
  rw [decode?, scan_encode, hall, Option.map_some, String.ofList_toList]

theorem decodeLossy_encode (s : String) : decodeLossy (encode s) = s := by
  rw [decodeLossy, scan_encode, List.map_map]
  exact (congrArg String.ofList (List.map_id s.toList)).trans (String.ofList_toList ..)

end Helmsman.Utf8
