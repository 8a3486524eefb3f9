import Helmsman.Proofs.Stream.Lines
import Mathlib.Data.List.DropRight
import Mathlib.Tactic.ByContra
/-!
# Pieces and lines

A decoder is handed one piece after the other, also behind a piece that it refused. It refuses one of them exactly if
some line of all the octets is too long, and where none is, what it hands out with what it holds at the end are the
lines of all the octets. Neither depends on where the octets were cut: as long as nothing is refused, a decoder holds
the open line of what has arrived.
-/

namespace Helmsman

theorem Octets.lineFeed_notMem_of_mem_lines {bs l : Octets} (h : l ∈ bs.lines) : LineDecoder.lineFeed ∉ l := by
  induction bs using lineInduction with
  | tail t ht =>
    rw [lines_tail ht] at h
    exact List.mem_singleton.1 h ▸ ht
  | line l' rest hl ih =>
    rw [lines_line, lines_tail hl] at h
    rcases List.mem_append.1 h with h | h
    · exact List.mem_singleton.1 h ▸ hl
    · exact ih h

/-- The lines of octets that have ended. An open line that is empty is none. -/
def Octets.endedLines (bs : Octets) : List Octets := if bs.lines.getLast? = some [] then bs.lines.dropLast else bs.lines

theorem Octets.endedLines_eq (bs : Octets) :
    bs.endedLines = bs.completeLines ++ if bs.openLine = [] then [] else [bs.openLine] := by
  rw [endedLines, lines_eq, List.getLast?_concat, List.dropLast_concat]
  by_cases hopen : bs.openLine = []
  · rw [if_pos (congrArg some hopen), if_pos hopen, List.append_nil]
  · rw [if_neg fun h => hopen (Option.some.inj h), if_neg hopen]

namespace LineDecoder

/-- A line as a text: read with replacement characters, and without the carriage returns at its end. -/
def strippedText (l : Octets) : String := String.ofList ((Utf8.decodeLossy l).toList.rdropWhile (· == '\r'))

/-- No line feed can be read from a line, so that none is stripped. -/
theorem lineText_eq_strippedText {l : Octets} (h : lineFeed ∉ l) : lineText l = strippedText l := by
  have hfeed : '\n' ∉ (Utf8.decodeLossy l).toList := by
    intro hmem
    obtain ⟨b, hb, heq⟩ := Utf8.mem_of_mem_decodeLossy hmem (by decide) (by decide)
    have hb' : b = lineFeed := UInt8.toNat_inj.1 heq
    exact h (hb' ▸ hb)
  have hstrip : ∀ cs : List Char, '\n' ∉ cs →
      cs.dropWhile (fun c => c == '\n' || c == '\r') = cs.dropWhile (· == '\r') := by
    intro cs hcs
    induction cs with
    | nil => rfl
    | cons c cs ih =>
      have hc : (c == '\n') = false := beq_false_of_ne fun hc => hcs (hc ▸ List.mem_cons_self)
      rw [List.dropWhile_cons, List.dropWhile_cons, hc, Bool.false_or, ih fun h => hcs (List.mem_cons_of_mem c h)]
  rw [lineText, strippedText, List.rdropWhile, hstrip _ fun h => hfeed (List.mem_reverse.1 h)]

/-- What a decoder hands out for each of some pieces, and the decoder behind them. -/
def pushAll (d : LineDecoder) : List Octets → List Pushed × LineDecoder
  | [] => ([], d)
  | piece :: rest => ((d.push piece).1 :: ((d.push piece).2.pushAll rest).1, ((d.push piece).2.pushAll rest).2)

theorem push_sound {d : LineDecoder} (hd : d.Sound) (piece : Octets) :
    (d.push piece).2.Sound ∧ (d.push piece).2.limit = d.limit := by
  rw [push_eq hd]
  split
  · exact ⟨sound_empty d.limit, rfl⟩
  · exact ⟨sound_openLine ‹_›, rfl⟩

/-- A piece is refused for one reason only. -/
theorem eq_of_error_mem_pushAll {d : LineDecoder} (hd : d.Sound) {pieces : List Octets} {e : ProviderError}
    (h : .error e ∈ (d.pushAll pieces).1) : e = .lineTooLong d.limit := by
  induction pieces generalizing d with
  | nil => exact absurd h List.not_mem_nil
  | cons piece rest ih =>
    obtain ⟨hsound, hlimit⟩ := push_sound hd piece
    rcases List.mem_cons.1 h with h | h
    · rw [push_eq hd] at h
      split at h
      · exact Except.error.inj h
      · exact absurd h (by simp)
    · rw [ih hsound h, hlimit]

theorem pushAll_of_fits {d : LineDecoder} (hd : d.Sound) {pieces : List Octets}
    (hfits : ¬ Overlong d.limit (d.buffer ++ pieces.flatten)) :
    ∃ outs : List (List String), (d.pushAll pieces).1 = outs.map Except.ok
      ∧ outs.flatten = (d.buffer ++ pieces.flatten).completeLines.map lineText
      ∧ (d.pushAll pieces).2 = { d with buffer := (d.buffer ++ pieces.flatten).openLine } := by
  induction pieces generalizing d with
  | nil =>
    rw [List.flatten_nil, List.append_nil, Octets.completeLines_tail hd.unbroken, Octets.openLine_tail hd.unbroken]
    exact ⟨[], rfl, rfl, rfl⟩
  | cons piece rest ih =>
    rw [List.flatten_cons, ← List.append_assoc] at hfits ⊢
    have hpiece : ¬ Overlong d.limit (d.buffer ++ piece) := fun hlong => hfits (hlong.append rest.flatten)
    obtain ⟨outs, houts, hlines, hdecoder⟩ := ih (sound_openLine hpiece) (not_overlong_openLine hfits)
    rw [pushAll, push_eq hd, if_neg hpiece]
    refine ⟨(d.buffer ++ piece).completeLines.map lineText :: outs, ?_, ?_, ?_⟩
    · rw [houts, List.map_cons]
    · rw [List.flatten_cons, hlines, ← List.map_append, ← Octets.completeLines_append]
    · rw [hdecoder, ← Octets.openLine_append]

theorem refuses_of_overlong {d : LineDecoder} (hd : d.Sound) {pieces : List Octets}
    (hlong : Overlong d.limit (d.buffer ++ pieces.flatten)) :
    .error (.lineTooLong d.limit) ∈ (d.pushAll pieces).1 := by
  induction pieces generalizing d with
  | nil =>
    rw [List.flatten_nil, List.append_nil, overlong_tail hd.unbroken] at hlong
    exact absurd hd.fits (Nat.not_le_of_lt hlong)
  | cons piece rest ih =>
    rw [List.flatten_cons, ← List.append_assoc] at hlong
    rw [pushAll, push_eq hd]
    by_cases hpiece : Overlong d.limit (d.buffer ++ piece)
    · rw [if_pos hpiece]
      exact List.mem_cons_self
    · rw [if_neg hpiece]
      exact List.mem_cons_of_mem _ (ih (sound_openLine hpiece) (overlong_openLine hpiece hlong))

/-- Whether a piece is refused, and what is handed out where none is, can be told from all the octets as one. -/
theorem pushAll_lines (limit : Nat) (pieces : List Octets) :
    let handed := ({ limit } : LineDecoder).pushAll pieces
    let bytes : Octets := pieces.flatten
    (.error (.lineTooLong limit) ∈ handed.1 ↔ ∃ l ∈ bytes.lines, limit < lineLength l)
    ∧ (∀ e, .error e ∈ handed.1 → e = .lineTooLong limit)
    ∧ ((∀ l ∈ bytes.lines, lineLength l ≤ limit) → ∃ outs : List (List String), handed.1 = outs.map Except.ok
        ∧ outs.flatten ++ handed.2.finish.1.toList = bytes.endedLines.map strippedText) := by
  intro handed bytes
  have hsound := sound_empty limit
  have hfits : ¬ Overlong limit bytes → ∃ outs : List (List String), handed.1 = outs.map Except.ok
      ∧ outs.flatten = bytes.completeLines.map lineText ∧ handed.2 = ⟨limit, bytes.openLine⟩ := by
    intro hnone
    exact pushAll_of_fits hsound (by rwa [List.nil_append])
  refine ⟨⟨?_, ?_⟩, fun e he => eq_of_error_mem_pushAll hsound he, ?_⟩
  · intro hrefused
    by_contra hnone
    obtain ⟨outs, houts, -, -⟩ := hfits hnone
    rw [houts] at hrefused
    exact absurd hrefused (by simp)
  · intro hlong
    exact refuses_of_overlong hsound (by rwa [List.nil_append])
  · intro hall
    obtain ⟨outs, houts, hlines, hdecoder⟩ := hfits fun ⟨l, hl, hlong⟩ => absurd (hall l hl) (Nat.not_le_of_lt hlong)
    refine ⟨outs, houts, ?_⟩
    have hcomplete : bytes.completeLines.map lineText = bytes.completeLines.map strippedText := by
      apply List.map_congr_left
      intro l hl
      have hl : l ∈ bytes.lines := bytes.lines_eq ▸ List.mem_append_left _ hl
      exact lineText_eq_strippedText (Octets.lineFeed_notMem_of_mem_lines hl)
    rw [hlines, hdecoder, finish_eq, Octets.endedLines_eq, List.map_append, hcomplete]
    congr 1
    by_cases hopen : bytes.openLine = []
    · simp [hopen]
    · simp [hopen, lineText_eq_strippedText (Octets.lineFeed_notMem_openLine bytes)]

/-- Four lines, cut inside a character and between a carriage return and its line feed. Two are as long as a line may
be, and the last one breaks off inside a character. -/
def scraps : List Octets :=
  [[0x63, 0x61, 0x66, 0xC3], [0xA9, 0x0A, 0x31, 0x32, 0x33, 0x34, 0x35, 0x0D], [0x0A, 0x0D], [], [0x0D, 0x0A, 0xC3]]

theorem scraps_lines :
    (∀ l ∈ Octets.lines scraps.flatten, lineLength l ≤ 5)
    ∧ ∃ outs : List (List String), (({ limit := 5 } : LineDecoder).pushAll scraps).1 = outs.map Except.ok
      ∧ outs.flatten ++ (({ limit := 5 } : LineDecoder).pushAll scraps).2.finish.1.toList
        = ["caf\u00e9", "12345", "", "\ufffd"] := by
  have hfits : ∀ l ∈ Octets.lines scraps.flatten, lineLength l ≤ 5 := by decide +kernel
  obtain ⟨outs, houts, hlines⟩ := (pushAll_lines 5 scraps).2.2 hfits
  refine ⟨hfits, outs, houts, hlines.trans ?_⟩
  decide +kernel

end LineDecoder

end Helmsman
