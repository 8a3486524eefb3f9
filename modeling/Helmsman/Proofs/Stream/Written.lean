import Helmsman.Proofs.Json.OneLine
import Helmsman.Proofs.Stream.Lines
import Helmsman.Stream.Event
/-!
# Lines, written and read back

A text without control characters keeps to its line, and a decoder hands it out as it is (`lineText_encode`). So lines
that are written one after the other come out of a decoder again, wherever they were cut on their way (`drain_written`).
A value keeps to its line too, whatever texts it holds, and a data line that carries an object is read as just what was
written for the object (`ofLine?_dataLine`).
-/

namespace Helmsman

open Json (OneLine)
open LineDecoder (lineFeed lineText lineLength Overlong Pushed)

/-! ### A line -/

theorem lineFeed_notMem_encode {l : String} (h : OneLine l.toList) : lineFeed ∉ Utf8.encode l := by
  intro hmem
  obtain ⟨c, hc, hb⟩ := List.mem_flatMap.1 hmem
  have hcontrol := h c hc
  have hten : lineFeed.toNat = 10 := rfl
  rcases Utf8.of_mem_utf8EncodeChar hb with hb | hb <;> omega

/-- Nothing is cut off the end of a line that holds no control character. -/
theorem lineText_encode {l : String} (h : OneLine l.toList) : lineText (Utf8.encode l) = l := by
  have hend : l.toList.reverse.dropWhile (fun c => c == '\n' || c == '\r') = l.toList.reverse := by
    cases hcs : l.toList.reverse with
    | nil => rfl
    | cons c cs =>
      have hc : 0x20 ≤ c.toNat := h c (List.mem_reverse.1 (hcs ▸ List.mem_cons_self))
      have hfeed : c ≠ '\n' := by
        rintro rfl
        exact absurd hc (by decide)
      have hreturn : c ≠ '\r' := by
        rintro rfl
        exact absurd hc (by decide)
      rw [List.dropWhile_cons_of_neg (by simp [hfeed, hreturn])]
  rw [lineText, Utf8.decodeLossy_encode, hend, List.reverse_reverse, String.ofList_toList]

/-! ### Lines -/

/-- Lines as they are written, each with its line feed. -/
def written (ls : List String) : String := String.join (ls.map (· ++ "\n"))

theorem written_append (ls ls' : List String) : written (ls ++ ls') = written ls ++ written ls' := by
  rw [written, List.map_append, String.join_append, written, written]

theorem encode_written_cons (l : String) (ls : List String) :
    Utf8.encode (written (l :: ls)) = Utf8.encode l ++ lineFeed :: Utf8.encode (written ls) := by
  rw [written, List.map_cons, String.join_cons, Utf8.encode_append, Utf8.encode_append, List.append_assoc]
  rfl

theorem lines_written {ls : List String} (h : ∀ l ∈ ls, OneLine l.toList) :
    Octets.lines (Utf8.encode (written ls)) = ls.map Utf8.encode ++ [[]] := by
  induction ls with
  | nil => rfl
  | cons l ls ih =>
    have hl := lineFeed_notMem_encode (h l List.mem_cons_self)
    rw [encode_written_cons, Octets.lines_line, Octets.lines_tail hl, ih fun l hl => h l (List.mem_cons_of_mem _ hl)]
    rfl

theorem not_overlong_written {ls : List String} (h : ∀ l ∈ ls, OneLine l.toList) {limit : Nat}
    (hfits : ∀ l ∈ ls, (Utf8.encode l).length ≤ limit) : ¬ Overlong limit (Utf8.encode (written ls)) := by
  rintro ⟨bs, hbs, hlong⟩
  have hlength : lineLength bs ≤ bs.length := Nat.sub_le _ _
  rw [lines_written h] at hbs
  rcases List.mem_append.1 hbs with hbs | hbs
  · obtain ⟨l, hl, rfl⟩ := List.mem_map.1 hbs
    have := hfits l hl
    omega
  · obtain rfl := List.mem_singleton.1 hbs
    exact Nat.not_lt_zero limit hlong

/-! ### Draining a decoder -/

namespace LineDecoder

/-- All that a decoder hands out for pieces until they end, or the error that comes before. -/
def drain (d : LineDecoder) : List Octets → Pushed
  | [] => .ok d.finish.1.toList
  | piece :: rest =>
    match d.push piece with
    | (.error e, _) => .error e
    | (.ok ls, d) => (d.drain rest).map (ls ++ ·)

/-- Pieces whose lines all fit come out as these lines, and an open line at the end counts unless it is empty. -/
theorem drain_eq {d : LineDecoder} (hd : d.Sound) (pieces : List Octets)
    (hfits : ¬ Overlong d.limit (d.buffer ++ pieces.flatten)) :
    d.drain pieces = .ok ((d.buffer ++ pieces.flatten).completeLines.map lineText
      ++ (finish { d with buffer := (d.buffer ++ pieces.flatten).openLine }).1.toList) := by
  induction pieces generalizing d with
  | nil =>
    rw [List.flatten_nil, List.append_nil, Octets.completeLines_tail hd.unbroken, Octets.openLine_tail hd.unbroken]
    rfl
  | cons piece rest ih =>
    rw [List.flatten_cons, ← List.append_assoc] at hfits ⊢
    have hpiece : ¬ Overlong d.limit (d.buffer ++ piece) := fun hlong => hfits (hlong.append rest.flatten)
    rw [drain, push_eq hd, if_neg hpiece]
    dsimp only
    rw [ih (sound_openLine hpiece) (not_overlong_openLine hfits), Except.map, ← List.append_assoc, ← List.map_append,
      ← Octets.completeLines_append, ← Octets.openLine_append]

/-- Lines that are written come out of a decoder again, each as it was, wherever they are cut. -/
theorem drain_written {ls : List String} (h : ∀ l ∈ ls, OneLine l.toList) {limit : Nat}
    (hfits : ∀ l ∈ ls, (Utf8.encode l).length ≤ limit) {pieces : List Octets}
    (hpieces : pieces.flatten = Utf8.encode (written ls)) : ({ limit } : LineDecoder).drain pieces = .ok ls := by
  have hnone := not_overlong_written h hfits
  have hcomplete : Octets.completeLines (Utf8.encode (written ls)) = ls.map Utf8.encode := by
    rw [Octets.completeLines, lines_written h, List.dropLast_concat]
  have hopen : Octets.openLine (Utf8.encode (written ls)) = [] := by
    rw [Octets.openLine, lines_written h, List.getLastD_concat]
  have htexts : (ls.map Utf8.encode).map lineText = ls := by
    rw [List.map_map]
    exact (List.map_congr_left fun l hl => lineText_encode (h l hl)).trans (List.map_id ls)
  rw [drain_eq (sound_empty limit) pieces (by rwa [List.nil_append, hpieces]), List.nil_append, hpieces, hcomplete,
    hopen, htexts]
  exact congrArg Except.ok (List.append_nil ls)

end LineDecoder

/-! ### Data lines -/

/-- The line that carries a value. -/
def dataLine (j : Json) : String := "data: " ++ j.render

theorem toList_dataLine (j : Json) : (dataLine j).toList = ['d', 'a', 't', 'a', ':', ' '] ++ j.chars := by
  have hmark : "data: ".toList = ['d', 'a', 't', 'a', ':', ' '] := rfl
  rw [dataLine, String.toList_append, hmark, Json.render, String.toList_ofList]

theorem oneLine_dataLine (j : Json) : OneLine (dataLine j).toList := by
  have hmark : OneLine ['d', 'a', 't', 'a', ':', ' '] := by decide
  rw [toList_dataLine]
  exact hmark.append (Json.oneLine_chars j)

/-- An object is read off its line as it was written. Its braces keep it from being taken for the mark, or trimmed. -/
theorem ofLine?_dataLine (members : List (String × Json)) :
    DataLine.ofLine? (dataLine (.object members)) = some (.data (Json.render (.object members))) := by
  obtain ⟨cs, hcs⟩ := Json.chars_object members
  have hprefix : DataLine.mark.isPrefixOf (['d', 'a', 't', 'a', ':', ' '] ++ ('\x7b' :: cs ++ ['\x7d'])) = true := rfl
  have hdrop : (['d', 'a', 't', 'a', ':', ' '] ++ ('\x7b' :: cs ++ ['\x7d'])).drop DataLine.mark.length
      = ' ' :: ('\x7b' :: cs ++ ['\x7d']) := rfl
  rw [DataLine.ofLine?, toList_dataLine, Json.render, hcs, hprefix, if_pos rfl, hdrop]
  show (if Text.trimChars ('\x7b' :: cs ++ ['\x7d']) = DataLine.doneMark then some DataLine.done
    else if (Text.trimChars ('\x7b' :: cs ++ ['\x7d'])).isEmpty then none
    else some (.data (String.ofList ('\x7b' :: cs ++ ['\x7d'])))) = _
  have hmark : '\x7b' :: cs ++ ['\x7d'] ≠ ['[', 'D', 'O', 'N', 'E', ']'] := fun h =>
    absurd (List.cons.inj h).1 (by decide)
  have hdone : DataLine.doneMark = ['[', 'D', 'O', 'N', 'E', ']'] := by decide
  rw [Text.trimChars_braces, hdone, if_neg hmark, if_neg (by simp)]

end Helmsman
