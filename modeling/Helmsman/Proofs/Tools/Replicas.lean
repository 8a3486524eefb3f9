import Helmsman.Proofs.Number.Binary64
import Helmsman.Proofs.Tools.Form
/-!
# Counts of replicas

A count arrives as a whole number or as a text that spells one, and passes through a floating point number on its way.
Whatever rounding does to a number of sixty-four bits, what is left of it within thirty-two bits is what is left of the
number itself (`reading_of_spells`): a count in range is never changed, and one out of range becomes the nearer bound.
-/

namespace Helmsman

theorem Decimal.isBlank_of_isDigit {c : Char} (h : isDigit c = true) : Text.isBlank c = false := by
  have hbounds := toNat_of_isDigit h
  simp only [Text.isBlank, Bool.or_eq_false_iff, Bool.and_eq_false_iff, decide_eq_false_iff_not, beq_eq_false_iff_ne]
  omega

theorem Decimal.Sign.isBlank {negative : Bool} {sign : List Char} (h : Sign negative sign) :
    ∀ c ∈ sign, Text.isBlank c = false := by
  cases h <;> simp [Text.isBlank]

namespace Json

/-- A value that stands for a whole number: the number itself, a zero with its minus, or a text of digits, which may
have a sign in front and blanks around. -/
inductive Spells (n : Int) : Json → Prop
  | number : Spells n (.number (.int n))
  | minusZero (h : n = 0) : Spells n (.number (.float (.zero true)))
  | text {front sign digits back : List Char} {negative : Bool} (hfront : ∀ c ∈ front, Text.isBlank c = true)
    (hsign : Decimal.Sign negative sign) (hdigits : ∀ c ∈ digits, Decimal.isDigit c = true) (hne : digits ≠ [])
    (hback : ∀ c ∈ back, Text.isBlank c = true)
    (hvalue : Binary64.signed negative (Decimal.digitsValue digits) = n) :
    Spells n (.string (String.ofList (front ++ (sign ++ digits) ++ back)))

end Json

namespace Arguments

open Binary64 (signed)

/-- An object that has the count only, written so. -/
def replicasText (count : String) : String := "\x7b\"replicas\":" ++ count ++ "\x7d"

/-- A whole number in the text of an object is read as it is. -/
theorem read_replicasText {n : Int} (hlow : -2 ^ 63 ≤ n) (hhigh : n < 2 ^ 64) {t : String}
    (ht : t = Decimal.ofInt n ∨ n = 0 ∧ t = "-0") :
    ∃ j, Json.Spells n j ∧ Json.read (Utf8.encode (replicasText t)) = .ok (.object [("replicas", j)]) := by
  rcases ht with rfl | ⟨rfl, rfl⟩
  · have hword : n ≤ Json.greatestSignificand := by
      have hgreatest : (Json.greatestSignificand : Int) = 2 ^ 64 - 1 := by rfl
      omega
    have hrender : (Json.object [("replicas", .number (.int n))]).render = replicasText (Decimal.ofInt n) := by
      rw [← String.toList_inj]
      simp [Json.render, Json.chars, Json.memberChars, Json.numberText, replicasText, Json.quote, Json.escape]
    have hread : Json.read (Utf8.encode (Json.object [("replicas", .number (.int n))]).render) = .ok _ :=
      Json.read_render (@Json.Readable.object 126 _ (by simpa using Json.Readable.int 127 n hlow hword))
    rw [hrender] at hread
    exact ⟨_, .number, hread⟩
  · have hread : Json.read (Utf8.encode (replicasText "-0"))
        = .ok (.object [("replicas", .number (.float (.zero true)))]) := by
      cbv
    exact ⟨_, .minusZero rfl, hread⟩

theorem clamped_ofRatio (negative : Bool) {num : Nat} (h : num < 2 ^ 64) :
    clamped (.ofRatio negative num 1) = some (max Word.lowest32 (min (signed negative num) Word.highest32)) := by
  obtain ⟨n, htrunc, hclamp⟩ := Binary64.clamp_trunc?_ofRatio negative h
  rw [clamped, htrunc, Option.map_some, hclamp]

theorem reading_of_spells {n : Int} (hlow : -2 ^ 63 ≤ n) (hhigh : n < 2 ^ 64) {j : Json} (h : Json.Spells n j) :
    reading .count (some j) = .count (max Word.lowest32 (min n Word.highest32)) := by
  cases h with
  | number =>
    have hbits : n.natAbs < 2 ^ 64 := by omega
    have hclamped : clamped (Number.int n).toBinary64 = _ := clamped_ofRatio (decide (n < 0)) hbits
    rw [reading, Option.bind_some, Kind.value?, hclamped, Binary64.signed_natAbs]
    rfl
  | minusZero hzero =>
    subst hzero
    decide
  | @text front sign digits back negative hfront hsign hdigits hne hback hvalue =>
    subst hvalue
    have hmarks : ∀ c ∈ sign ++ digits, Text.isBlank c = false := by
      intro c hc
      rcases List.mem_append.1 hc with hc | hc
      · exact hsign.isBlank c hc
      · exact Decimal.isBlank_of_isDigit (hdigits c hc)
    have htrim : Text.trim (String.ofList (front ++ (sign ++ digits) ++ back)) = String.ofList (sign ++ digits) := by
      rw [Text.trim, String.toList_ofList, Text.trimChars_append hfront hback (by simp [hne])
        (fun c hc => hmarks c (List.mem_of_mem_head? hc)) fun c hc => hmarks c (List.mem_of_getLast? hc)]
    rw [reading, Option.bind_some, Kind.value?, htrim, Decimal.readBinary64?_digits hsign hdigits hne,
      Option.bind_some, clamped_ofRatio negative (Binary64.lt_of_signed hlow hhigh)]
    rfl

/-- **Counts saturate.** A whole number of sixty-four bits that stands for the count of replicas, in whatever way it is
written, is decoded to itself if it fits thirty-two bits, and to the nearer bound if it does not. -/
theorem replicas_saturate {n : Int} (hlow : -2 ^ 63 ≤ n) (hhigh : n < 2 ^ 64) :
    (∀ t, t = Decimal.ofInt n ∨ n = 0 ∧ t = "-0" → ∃ j, Json.Spells n j
      ∧ Json.read (Utf8.encode (replicasText t)) = .ok (.object [("replicas", j)]))
    ∧ ∀ (raw : String) (members : List (String × Json)) (j : Json),
      Json.read (Utf8.encode raw) = .ok (.object members) → Json.lookup "replicas" members = some j →
      Json.Spells n j → ∃ a, decode raw = .ok a
        ∧ Form.scaling.read raw = .ok [.text a.ns, .text a.name, .count a.replicas]
        ∧ a.replicas = max Word.lowest32 (min n Word.highest32) := by
  refine ⟨fun t ht => read_replicasText hlow hhigh ht, ?_⟩
  intro raw members j hread hj hspells
  have hcount : (ofObject members).replicas = max Word.lowest32 (min n Word.highest32) := by
    have hfield := field_eq (ofObject members) "replicas" .count
    rw [get_ofObject, reading_canonical, hj, reading_of_spells hlow hhigh hspells] at hfield
    exact Value.count.inj hfield
  refine ⟨ofObject members, decode_of_read hread, ?_, hcount⟩
  rw [Form.read, decode_of_read hread]
  rfl

/-- A count that no floating point number is equal to, as a text. -/
def outsized : List (String × Json) := [("name", .string "web"), ("replicas", .string "\t+09223372036854775809 ")]

theorem outsized_spells : Json.Spells 9223372036854775809 (.string "\t+09223372036854775809 ") :=
  @Json.Spells.text _ ['\t'] ['+'] "09223372036854775809".toList [' '] false (by simp [Text.isBlank]) .plus
    (by simp [Decimal.isDigit]) (by simp) (by simp [Text.isBlank]) (by decide +kernel)

theorem outsized_saturates :
    (∃ a, decode (replicasText "9223372036854775809") = .ok a ∧ a.replicas = 2147483647)
    ∧ Form.scaling.read (Json.object outsized).render = .ok [.text "", .text "web", .count 2147483647]
    ∧ ∃ a, decode (replicasText "-3") = .ok a ∧ a.replicas = -3 := by
  have hread : Json.read (Utf8.encode (Json.object outsized).render) = .ok (.object outsized) := by
    refine Json.read_render (@Json.Readable.object 126 _ fun m hm => ?_)
    simp only [outsized, List.mem_cons, List.not_mem_nil, or_false] at hm
    rcases hm with rfl | rfl <;> exact .string _ _
  obtain ⟨hnumber, hcounts⟩ := @replicas_saturate 9223372036854775809 (by decide) (by decide)
  obtain ⟨hsmall, hsmallCounts⟩ := @replicas_saturate (-3) (by decide) (by decide)
  obtain ⟨j, hspells, hj⟩ := hnumber "9223372036854775809" (.inl (by decide +kernel))
  obtain ⟨j', hspells', hj'⟩ := hsmall "-3" (.inl (by decide +kernel))
  obtain ⟨a, ha, -, hreplicas⟩ := hcounts _ _ j hj rfl hspells
  obtain ⟨a', ha', -, hreplicas'⟩ := hsmallCounts _ _ j' hj' rfl hspells'
  obtain ⟨b, hb, hform, hlarge⟩ := hcounts _ outsized _ hread rfl outsized_spells
  obtain rfl : ofObject outsized = b := Except.ok.inj ((decode_of_read hread).symm.trans hb)
  have hns : (ofObject outsized).ns = "" := by decide +kernel
  have hname : (ofObject outsized).name = "web" := by decide +kernel
  have hhighest : max Word.lowest32 (min 9223372036854775809 Word.highest32) = 2147483647 := by decide
  rw [hns, hname, hlarge, hhighest] at hform
  exact ⟨⟨a, ha, hreplicas⟩, hform, ⟨a', ha', hreplicas'⟩⟩

end Arguments

end Helmsman
