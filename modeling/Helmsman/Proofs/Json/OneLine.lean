import Helmsman.Json.Printer
import Helmsman.Text.Blank
/-!
# What is written keeps to one line

No control character is ever written: in a string they are escaped, and everything else is digits, marks and words. So
a value can stand in a line of its own whatever texts it holds (`oneLine_chars`), and an object has its braces at the
two ends of that line (`chars_object`), so that nothing at either end of it is taken for a blank.
-/

namespace Helmsman

theorem Text.trimChars_braces (cs : List Char) : trimChars ('\x7b' :: cs ++ ['\x7d']) = '\x7b' :: cs ++ ['\x7d'] := by
  have hfront : dropBlanks ('\x7b' :: cs ++ ['\x7d']) = '\x7b' :: cs ++ ['\x7d'] := rfl
  have hback : dropBlanks ('\x7b' :: cs ++ ['\x7d']).reverse = ('\x7b' :: cs ++ ['\x7d']).reverse := by
    rw [List.reverse_append]
    rfl
  rw [trimChars, hfront, hback, List.reverse_reverse]

namespace Json

/-- Characters none of which is a control character. -/
def OneLine (cs : List Char) : Prop := ∀ c ∈ cs, 0x20 ≤ c.toNat

instance (cs : List Char) : Decidable (OneLine cs) := List.decidableBAll (fun c : Char => 0x20 ≤ c.toNat) cs

theorem OneLine.append {cs cs' : List Char} (h : OneLine cs) (h' : OneLine cs') : OneLine (cs ++ cs') := by
  intro c hc
  rcases List.mem_append.1 hc with hc | hc
  · exact h c hc
  · exact h' c hc

theorem oneLine_escape (c : Char) : OneLine (escape c) := by
  rw [escape.eq_def]
  split
  any_goals decide
  split
  · rename_i hcontrol
    have hdigit : ∀ n < 16, 0x20 ≤ (hexDigit n).toNat := by decide
    have hhigh := hdigit (c.toNat / 16) (by omega)
    have hlow := hdigit (c.toNat % 16) (by omega)
    intro d hd
    simp only [List.mem_cons, List.not_mem_nil, or_false] at hd
    rcases hd with rfl | rfl | rfl | rfl | rfl | rfl
    any_goals decide
    · exact hhigh
    · exact hlow
  · rename_i hcontrol
    intro d hd
    obtain rfl := List.mem_singleton.1 hd
    exact Nat.not_lt.1 hcontrol

theorem oneLine_quote (s : String) : OneLine (quote s) := by
  have hquote : OneLine ['"'] := by decide
  have hescaped : OneLine (s.toList.flatMap escape) := by
    intro c hc
    obtain ⟨d, -, hd⟩ := List.mem_flatMap.1 hc
    exact oneLine_escape d c hd
  exact (hquote.append hescaped).append hquote

/-! ### Numbers -/

theorem toNat_of_isDigit {c : Char} (h : c.isDigit = true) : 0x20 ≤ c.toNat :=
  Nat.le_trans (by decide) (Char.isDigit_iff_toNat.1 h).1

theorem oneLine_ofNat (n : Nat) : OneLine (Decimal.ofNat n).toList := by
  intro c hc
  rw [Decimal.ofNat, String.toList_ofList] at hc
  exact toNat_of_isDigit (Nat.isDigit_of_mem_toDigits (by decide) (by decide) hc)

theorem oneLine_numberText (n : Number) : OneLine (numberText n).toList := by
  cases n with
  | int n =>
    have hsign : OneLine ['-'] := by decide
    rw [numberText, Decimal.ofInt]
    split
    · rw [String.toList_append]
      exact hsign.append (oneLine_ofNat _)
    · exact oneLine_ofNat _
  | float x =>
    have hmarks : OneLine ['-', '+', '.', 'e'] := by decide
    have hnull : OneLine "null".toList := by decide
    intro c hc
    rcases DecimalStyle.mem_write hc with hdigit | hmark | hword | hword
    · exact toNat_of_isDigit hdigit
    · exact hmarks c hmark
    · exact hnull c hword
    · exact hnull c hword

/-! ### Values -/

mutual

/-- What is written for a value has no control character in it. -/
theorem oneLine_chars : ∀ j : Json, OneLine j.chars
  | .null => by decide
  | .bool true => by decide
  | .bool false => by decide
  | .number n => oneLine_numberText n
  | .string s => oneLine_quote s
  | .array [] => by decide
  | .array (j :: rest) => by
    have hopen : OneLine ['['] := by decide
    rw [chars]
    exact (hopen.append (oneLine_chars j)).append (oneLine_itemChars rest)
  | .object [] => by decide
  | .object ((k, j) :: rest) => by
    have hopen : OneLine ['\x7b'] := by decide
    have hcolon : OneLine [':'] := by decide
    rw [chars]
    exact ((hopen.append (oneLine_quote k)).append (hcolon.append (oneLine_chars j))).append
      (oneLine_memberChars rest)

theorem oneLine_itemChars : ∀ items : List Json, OneLine (itemChars items)
  | [] => by decide
  | j :: rest => by
    have hcomma : OneLine [','] := by decide
    rw [itemChars]
    exact (hcomma.append (oneLine_chars j)).append (oneLine_itemChars rest)

theorem oneLine_memberChars : ∀ members : List (String × Json), OneLine (memberChars members)
  | [] => by decide
  | (k, j) :: rest => by
    have hcomma : OneLine [','] := by decide
    have hcolon : OneLine [':'] := by decide
    rw [memberChars]
    exact ((hcomma.append (oneLine_quote k)).append (hcolon.append (oneLine_chars j))).append
      (oneLine_memberChars rest)

end

/-! ### Objects -/

theorem memberChars_eq (members : List (String × Json)) : ∃ cs, memberChars members = cs ++ ['\x7d'] := by
  induction members with
  | nil => exact ⟨[], rfl⟩
  | cons m members ih =>
    obtain ⟨cs, hcs⟩ := ih
    refine ⟨',' :: quote m.1 ++ ':' :: m.2.chars ++ cs, ?_⟩
    rw [memberChars, hcs, List.append_assoc, List.append_assoc, List.append_assoc]

/-- An object begins and ends with its braces. -/
theorem chars_object (members : List (String × Json)) : ∃ cs, chars (.object members) = '\x7b' :: cs ++ ['\x7d'] := by
  cases members with
  | nil => exact ⟨[], rfl⟩
  | cons m members =>
    obtain ⟨cs, hcs⟩ := memberChars_eq members
    refine ⟨quote m.1 ++ ':' :: m.2.chars ++ cs, ?_⟩
    rw [chars, hcs]
    simp

/-- Between its braces nothing is at either end that could be trimmed. -/
theorem trim_object (members : List (String × Json)) : Text.trim (object members).render = (object members).render := by
  obtain ⟨cs, hcs⟩ := chars_object members
  rw [Text.trim, render, String.toList_ofList, hcs, Text.trimChars_braces]

end Json

end Helmsman
