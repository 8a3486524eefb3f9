/-!
# Blank characters

White space in the sense of Unicode, which is what trimming removes wherever a text comes from a person or a model.
JSON has a narrower idea of a blank; that one lives with the JSON reader.
-/

namespace Helmsman.Text

def isBlank (c : Char) : Bool :=
  let n := c.toNat
  (9 ≤ n && n ≤ 13) || n == 0x20 || n == 0x85 || n == 0xA0 || n == 0x1680 || (0x2000 ≤ n && n ≤ 0x200A)
    || n == 0x2028 || n == 0x2029 || n == 0x202F || n == 0x205F || n == 0x3000

def dropBlanks (cs : List Char) : List Char := cs.dropWhile isBlank

/-- The characters without the blanks in front and behind. -/
def trimChars (cs : List Char) : List Char := (dropBlanks (dropBlanks cs).reverse).reverse

def trim (s : String) : String := String.ofList (trimChars s.toList)

/-- A text of blanks only, the empty one included. -/
def isBlankText (s : String) : Bool := s.toList.all isBlank

theorem dropBlanks_append {blanks : List Char} (hblanks : ∀ c ∈ blanks, isBlank c = true) {c : Char}
    (hc : isBlank c = false) (cs : List Char) : dropBlanks (blanks ++ c :: cs) = c :: cs := by
  rw [dropBlanks, List.dropWhile_append_of_pos hblanks, List.dropWhile_cons_of_neg (by simp [hc])]

/-- Only the blanks in front and behind are removed. -/
theorem trimChars_append {front back cs : List Char} (hfront : ∀ c ∈ front, isBlank c = true)
    (hback : ∀ c ∈ back, isBlank c = true) (hne : cs ≠ []) (hfirst : ∀ c ∈ cs.head?, isBlank c = false)
    (hlast : ∀ c ∈ cs.getLast?, isBlank c = false) : trimChars (front ++ cs ++ back) = cs := by
  have hdrop : dropBlanks (front ++ cs ++ back) = cs ++ back := by
    obtain ⟨c, rest, rfl⟩ := List.exists_cons_of_ne_nil hne
    rw [List.append_assoc, List.cons_append]
    exact dropBlanks_append hfront (hfirst c rfl) (rest ++ back)
  have hreverse : dropBlanks (back.reverse ++ cs.reverse) = cs.reverse := by
    obtain ⟨c, rest, hrest⟩ := List.exists_cons_of_ne_nil (List.reverse_ne_nil_iff.2 hne)
    rw [hrest]
    refine dropBlanks_append (fun c hc => hback c (List.mem_reverse.1 hc)) (hlast c ?_) rest
    rw [← List.head?_reverse, hrest]
    rfl
  rw [trimChars, hdrop, List.reverse_append, hreverse, List.reverse_reverse]

end Helmsman.Text
