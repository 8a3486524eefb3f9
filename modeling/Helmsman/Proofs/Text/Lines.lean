import Helmsman.Text.Lines
import Helmsman.Text.Utf8
import Mathlib.Algebra.GroupWithZero.Nat
import Mathlib.Data.List.Basic
/-!
# Lines, and the beginning of a text

What the lines of a text are is said by `LinesOf`, line by line, and `lines` is the one list that it allows
(`linesOf_iff`). The beginning that `takeOctets` cuts off ends behind a whole character, and the next one would be too
much (`takeOctets_cut`).
-/

namespace Helmsman.Text

/-! ### Lines -/

/-- A line without the carriage return at its end. -/
def withoutReturn (l : String) : String :=
  if l.toList.getLast? = some '\r' then String.ofList l.toList.dropLast else l

/-- Lines in order: each ends with a line feed, but the last need not, and then it is taken as it is. -/
inductive LinesOf : String → List String → Prop
  | empty : LinesOf "" []
  | last {l : String} (hne : l ≠ "") (h : '\n' ∉ l.toList) : LinesOf l [l]
  | line {l rest : String} {ls : List String} (h : '\n' ∉ l.toList) (hrest : LinesOf rest ls) :
    LinesOf (l ++ "\n" ++ rest) (withoutReturn l :: ls)

theorem foldl_step_line {l : List Char} (h : '\n' ∉ l) (current : List Char) (finished : List (List Char)) :
    l.foldl LineState.step ⟨current, finished⟩ = ⟨l.reverse ++ current, finished⟩ := by
  induction l generalizing current with
  | nil => rfl
  | cons c l ih =>
    obtain ⟨hc, hl⟩ := not_or.1 (mt List.mem_cons.2 h)
    have hstep : LineState.step ⟨current, finished⟩ c = ⟨c :: current, finished⟩ := by
      rw [LineState.step, if_neg (by simpa using Ne.symm hc)]
    rw [List.foldl_cons, hstep, ih hl, List.reverse_cons, List.append_assoc, List.singleton_append]

/-- Finished lines stay in front of those to come. -/
theorem close_foldl_step (cs current : List Char) (finished : List (List Char)) :
    (cs.foldl LineState.step ⟨current, finished⟩).close
      = finished.reverse ++ (cs.foldl LineState.step ⟨current, []⟩).close := by
  induction cs generalizing current finished with
  | nil =>
    rw [List.foldl_nil, List.foldl_nil, LineState.close, LineState.close]
    cases current.isEmpty <;> simp
  | cons c cs ih =>
    rw [List.foldl_cons, List.foldl_cons, LineState.step, LineState.step]
    split
    · rw [ih, ih [] [_], List.reverse_cons, List.append_assoc]
      rfl
    · exact ih _ _

/-- What ends at a line feed is a line without its return. -/
theorem step_lineFeed (l : List Char) (finished : List (List Char)) :
    LineState.step ⟨l.reverse, finished⟩ '\n'
      = ⟨[], (if l.getLast? = some '\r' then l.dropLast else l) :: finished⟩ := by
  rw [LineState.step, if_pos (beq_self_eq_true _)]
  rcases List.eq_nil_or_concat l with rfl | ⟨front, c, rfl⟩
  · rfl
  · rw [List.concat_eq_append, List.reverse_append, List.reverse_singleton, List.singleton_append,
      List.getLast?_append, List.dropLast_concat]
    by_cases hc : c = '\r'
    · subst hc
      simp
    · simp [hc]

theorem lines_last {l : String} (hne : l ≠ "") (h : '\n' ∉ l.toList) : lines l = [l] := by
  have hchars : l.toList ≠ [] := by simpa using hne
  rw [lines, foldl_step_line h, LineState.close, List.append_nil, if_neg (by simpa using hchars)]
  simp

theorem lines_line {l : String} (h : '\n' ∉ l.toList) (rest : String) :
    lines (l ++ "\n" ++ rest) = withoutReturn l :: lines rest := by
  have hchars : (l ++ "\n" ++ rest).toList = l.toList ++ '\n' :: rest.toList := by simp
  rw [lines, hchars, List.foldl_append, foldl_step_line h, List.append_nil, List.foldl_cons, step_lineFeed,
    close_foldl_step, List.reverse_singleton, List.singleton_append, List.map_cons, withoutReturn, lines]
  congr 1
  split <;> simp

/-- The lines of a text are those that `lines` gives. -/
theorem linesOf_iff {s : String} {ls : List String} : LinesOf s ls ↔ ls = lines s := by
  constructor
  · intro h
    induction h with
    | empty => rfl
    | last hne h => exact (lines_last hne h).symm
    | line h _ ih => rw [lines_line h, ih]
  · rintro rfl
    -- A text is taken up to its first line feed, and what stands behind it is shorter.
    induction hlength : s.toList.length using Nat.strongRecOn generalizing s with
    | ind n ih =>
      by_cases hfeed : '\n' ∈ s.toList
      · obtain ⟨l, rest, hs, hl⟩ := List.eq_append_cons_of_mem hfeed
        obtain rfl : s = String.ofList l ++ "\n" ++ String.ofList rest := by
          apply String.toList_injective
          simp [hs]
        have hl : '\n' ∉ (String.ofList l).toList := by simpa using hl
        rw [lines_line hl]
        have hshorter : (String.ofList rest).toList.length < n := by
          rw [← hlength, hs, List.length_append, List.length_cons, String.toList_ofList]
          omega
        exact .line hl (ih _ hshorter rfl)
      · by_cases hempty : s = ""
        · subst hempty
          exact .empty
        · rw [lines_last hempty hfeed]
          exact .last hempty hfeed

/-! ### The beginning of a text -/

/-- The octets that characters take. -/
def octetCount (cs : List Char) : Nat := (cs.map Char.utf8Size).sum

theorem size_ofList (cs : List Char) : Utf8.size (String.ofList cs) = octetCount cs := by
  induction cs with
  | nil => rfl
  | cons c cs ih =>
    rw [Utf8.size] at ih
    rw [Utf8.size, String.ofList_cons, String.utf8ByteSize_append, String.utf8ByteSize_singleton, ih]
    rfl

/-- The characters in front of the first one that there is no room for. -/
def takeFitting (room : Nat) : List Char → List Char
  | [] => []
  | c :: cs => if room < c.utf8Size then [] else c :: takeFitting (room - c.utf8Size) cs

/-- A character more, if it fits and there was room for all before it. -/
def takeStep (limit : Nat) (state : Nat × Bool × List Char) (c : Char) : Nat × Bool × List Char :=
  let (size, closed, taken) := state
  if closed || limit < size + c.utf8Size then (size, true, taken) else (size + c.utf8Size, false, c :: taken)

theorem foldl_takeStep_closed (limit size : Nat) (taken cs : List Char) :
    cs.foldl (takeStep limit) (size, true, taken) = (size, true, taken) := by
  induction cs with
  | nil => rfl
  | cons c cs ih => exact ih

theorem foldl_takeStep {limit size : Nat} (hsize : size ≤ limit) (taken cs : List Char) :
    (cs.foldl (takeStep limit) (size, false, taken)).2.2.reverse
      = taken.reverse ++ takeFitting (limit - size) cs := by
  induction cs generalizing size taken with
  | nil => rw [List.foldl_nil, takeFitting, List.append_nil]
  | cons c cs ih =>
    rw [List.foldl_cons, takeFitting]
    by_cases hfits : limit < size + c.utf8Size
    · have hstep : takeStep limit (size, false, taken) c = (size, true, taken) := by simp [takeStep, hfits]
      rw [hstep, foldl_takeStep_closed, if_pos (by omega), List.append_nil]
    · have hstep : takeStep limit (size, false, taken) c = (size + c.utf8Size, false, c :: taken) := by
        simp [takeStep, hfits]
      rw [hstep, ih (by omega), if_neg (by omega), List.reverse_cons, List.append_assoc, List.singleton_append,
        Nat.sub_sub]

theorem takeOctets_eq (limit : Nat) (s : String) :
    takeOctets limit s = String.ofList (takeFitting limit s.toList) := by
  have hfold := foldl_takeStep (Nat.zero_le limit) [] s.toList
  exact congrArg String.ofList hfold

/-- What is taken fits, and with the next character it would not. -/
theorem exists_of_takeFitting (room : Nat) (cs : List Char) : ∃ rest, takeFitting room cs ++ rest = cs
    ∧ octetCount (takeFitting room cs) ≤ room
    ∧ ∀ c ∈ rest.head?, room < octetCount (takeFitting room cs) + c.utf8Size := by
  induction cs generalizing room with
  | nil => exact ⟨[], rfl, Nat.zero_le room, fun c hc => nomatch hc⟩
  | cons c cs ih =>
    rw [takeFitting]
    split
    · rename_i hroom
      refine ⟨c :: cs, rfl, Nat.zero_le room, fun d hd => ?_⟩
      obtain rfl := Option.some.inj hd
      simpa [octetCount] using hroom
    · rename_i hroom
      obtain ⟨rest, hcs, hfits, hnext⟩ := ih (room - c.utf8Size)
      have hcount : octetCount (c :: takeFitting (room - c.utf8Size) cs)
          = c.utf8Size + octetCount (takeFitting (room - c.utf8Size) cs) := List.sum_cons
      refine ⟨rest, by rw [List.cons_append, hcs], by omega, fun d hd => ?_⟩
      have := hnext d hd
      omega

/-- **A cut ends behind a whole character.** What is cut off the front of a text fits, and with the next character it
would not. -/
theorem takeOctets_cut (limit : Nat) (s : String) : ∃ rest, takeOctets limit s ++ rest = s
    ∧ Utf8.size (takeOctets limit s) ≤ limit
    ∧ ∀ c ∈ rest.toList.head?, limit < Utf8.size (takeOctets limit s) + c.utf8Size := by
  obtain ⟨rest, hs, hfits, hnext⟩ := exists_of_takeFitting limit s.toList
  rw [takeOctets_eq, size_ofList]
  refine ⟨String.ofList rest, ?_, hfits, by simpa using hnext⟩
  rw [← String.ofList_append, hs, String.ofList_toList]

/-- A text is cut just if it is too long, and then all but the room for one more character is used. -/
theorem takeOctets_eq_self_iff (limit : Nat) (s : String) :
    (takeOctets limit s = s ↔ Utf8.size s ≤ limit)
      ∧ (limit < Utf8.size s → limit < Utf8.size (takeOctets limit s) + 4) := by
  obtain ⟨rest, hs, hfits, hnext⟩ := takeOctets_cut limit s
  have hsize : Utf8.size s = Utf8.size (takeOctets limit s) + Utf8.size rest := by
    conv_lhs => rw [← hs]
    exact String.utf8ByteSize_append
  -- If nothing is cut off the text fits, and otherwise it is too long by the first character that is.
  cases hchars : rest.toList with
  | nil =>
    obtain rfl : rest = "" := String.toList_injective hchars
    rw [String.append_empty] at hs
    rw [hs] at hfits ⊢
    exact ⟨⟨fun _ => hfits, fun _ => rfl⟩, fun h => by omega⟩
  | cons c cs =>
    have hc := hnext c (by rw [hchars]; rfl)
    have hrest : c.utf8Size ≤ Utf8.size rest := by
      rw [← String.ofList_toList (s := rest), size_ofList, hchars, octetCount, List.map_cons, List.sum_cons]
      omega
    have hfour := c.utf8Size_le_four
    refine ⟨⟨fun h => ?_, fun h => by omega⟩, fun _ => by omega⟩
    rw [h] at hfits
    exact hfits

end Helmsman.Text
