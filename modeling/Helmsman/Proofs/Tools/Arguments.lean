import Helmsman.Json.Reader
import Helmsman.Proofs.Json.Members
import Helmsman.Proofs.Text.Utf8
import Helmsman.Tools.Arguments
/-!
# What arguments are read from

A text that is read as an object is read as the arguments that the object holds: a text of blanks, which would count as
an empty object, is no JSON at all. What the arguments have for a key is the last member of that key as it was
written, and a field depends on its own key only.
-/

namespace Helmsman

namespace Json

/-- An octet that neither begins a value nor belongs to one outside of a text: a blank, another control octet, or a
part of a character that is not ASCII. -/
def Vacant (b : UInt8) : Prop := b.toNat ≤ 0x20 ∨ 0x80 ≤ b.toNat

theorem Vacant.ne {b : UInt8} (h : Vacant b) {d : UInt8} (hd : 0x20 < d.toNat ∧ d.toNat < 0x80) : (b == d) = false := by
  refine beq_false_of_ne ?_
  rintro rfl
  rcases h with h | h <;> omega

theorem scalar_of_vacant {b : UInt8} (h : Vacant b) (rest : Octets) : ∃ f, scalar (b :: rest) = .error f := by
  have hdigit : isDigit b = false := by
    rw [isDigit, Bool.and_eq_false_iff, decide_eq_false_iff_not, decide_eq_false_iff_not, UInt8.le_iff_toNat_le,
      UInt8.le_iff_toNat_le]
    rcases h with h | h
    · exact .inl (by simpa using Nat.lt_of_le_of_lt h (by decide))
    · exact .inr (by simpa using Nat.lt_of_lt_of_le (by decide) h)
  rw [scalar]
  simp only [h.ne (d := 0x6E) (by decide), h.ne (d := 0x74) (by decide), h.ne (d := 0x66) (by decide),
    h.ne (d := 0x2D) (by decide), h.ne (d := 0x22) (by decide), hdigit, Bool.false_eq_true, if_false]
  exact ⟨_, rfl⟩

theorem read_of_vacant {bs : Octets} (h : ∀ b ∈ bs, Vacant b) : ∃ f, read bs = .error f := by
  have hvalue : ∃ f, valueFrom (stepsFor bs) depthLimit bs = .error f := by
    rw [stepsFor, valueFrom]
    cases hspace : skipSpace bs with
    | nil => exact ⟨_, rfl⟩
    | cons b rest =>
      have hb : Vacant b := h b ((List.dropWhile_suffix _).subset (hspace ▸ List.mem_cons_self))
      obtain ⟨f, hf⟩ := scalar_of_vacant hb rest
      simp only [hb.ne (d := 0x5B) (by decide), hb.ne (d := 0x7B) (by decide), Bool.false_eq_true, if_false]
      exact ⟨f, hf⟩
  obtain ⟨f, hf⟩ := hvalue
  exact ⟨f, by rw [read, hf]; rfl⟩

end Json

theorem Text.vacant_of_isBlank {c : Char} (h : isBlank c = true) : c.toNat ≤ 0x20 ∨ 0x80 ≤ c.toNat := by
  simp only [isBlank, Bool.or_eq_true, Bool.and_eq_true, decide_eq_true_eq, beq_iff_eq] at h
  omega

/-- A text of blanks is no JSON. -/
theorem Text.read_of_isBlankText {raw : String} (h : isBlankText raw = true) :
    ∃ f, Json.read (Utf8.encode raw) = .error f := by
  refine Json.read_of_vacant fun b hb => ?_
  obtain ⟨c, hc, hb⟩ := List.mem_flatMap.1 hb
  have hblank := Text.vacant_of_isBlank (List.all_eq_true.1 h c hc)
  rcases Utf8.of_mem_utf8EncodeChar hb with heq | hhigh
  · rwa [Json.Vacant, heq]
  · exact .inr hhigh

namespace Arguments

/-- The arguments that an object holds. -/
def ofObject (members : List (String × Json)) : Arguments := ⟨Json.sortMembers (Json.canonicalMembers members)⟩

theorem decode_of_read {raw : String} {members : List (String × Json)}
    (h : Json.read (Utf8.encode raw) = .ok (.object members)) : decode raw = .ok (ofObject members) := by
  have hblank : Text.isBlankText raw ≠ true := by
    intro hblank
    obtain ⟨f, hf⟩ := Text.read_of_isBlankText hblank
    exact absurd (h.symm.trans hf) (by simp)
  rw [decode, if_neg hblank]
  simp only [h, Json.canonical]
  rfl

theorem get_ofObject (key : String) (members : List (String × Json)) :
    (ofObject members).get key = ((Json.lookup key members).map Json.canonical).getD .null := by
  rw [get, ofObject, Json.lookup_canonical]

/-- Only the last member of the key counts, and only the truth value itself. -/
theorem confirmed_ofObject (members : List (String × Json)) :
    (ofObject members).confirmed = true ↔ Json.lookup "confirmed" members = some (.bool true) := by
  rw [confirmed, get_ofObject]
  cases Json.lookup "confirmed" members with
  | none => simp [Json.flag, Json.bool?]
  | some j => cases j <;> simp [Json.canonical, Json.flag, Json.bool?]

/-- Arguments that differ in one key at most. -/
def AgreeOff (key : String) (a a' : Arguments) : Prop := ∀ key' ≠ key, a'.get key' = a.get key'

theorem agreeOff_ofObject {key : String} {members members' : List (String × Json)}
    (h : ∀ key' ≠ key, Json.lookup key' members' = Json.lookup key' members) :
    AgreeOff key (ofObject members) (ofObject members') := by
  intro key' hne
  rw [get_ofObject, get_ofObject, h key' hne]

theorem int32_bounds (a : Arguments) (key : String) :
    Word.lowest32 ≤ a.int32 key ∧ a.int32 key ≤ Word.highest32 := by
  rw [int32]
  split
  · constructor
    · exact Int.le_max_left ..
    · exact Int.max_le.2 ⟨by decide, Int.min_le_right ..⟩
  · decide

end Arguments

end Helmsman
