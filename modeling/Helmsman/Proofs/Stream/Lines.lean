import Helmsman.Stream.Decoder
import Helmsman.Proofs.Text.Utf8
/-!
# Lines, however they arrive

The lines of a body are what lies between its line feeds, the open one behind the last line feed included. A decoder
that holds the open line of what has arrived hands out the lines that the next piece completes and holds the open line
then (`push_eq`), or it refuses the piece, and that it does exactly if a line of what it holds with the piece behind
is too long. Since a line only grows, what holds of whole pieces holds of every cut: `completeLines_append` and
`openLine_append` are how the lines of two pieces make up the lines of both.
-/

namespace Helmsman

/-! ### The lines of octets -/

namespace Octets

def lines (bs : Octets) : List Octets := bs.splitOn LineDecoder.lineFeed

def completeLines (bs : Octets) : List Octets := bs.lines.dropLast

def openLine (bs : Octets) : Octets := bs.lines.getLastD []

/-- Octets are an open line, or a line in front of other octets. -/
theorem lineInduction {motive : Octets → Prop} (tail : ∀ t, LineDecoder.lineFeed ∉ t → motive t)
    (line : ∀ l rest, LineDecoder.lineFeed ∉ l → motive rest → motive (l ++ LineDecoder.lineFeed :: rest))
    (bs : Octets) : motive bs := by
  by_cases h : LineDecoder.lineFeed ∈ bs
  · obtain ⟨l, rest, hbs, hl⟩ := List.eq_append_cons_of_mem h
    have hshorter : rest.length < bs.length := by
      rw [hbs, List.length_append, List.length_cons]
      omega
    exact hbs ▸ line l rest hl (lineInduction tail line rest)
  · exact tail bs h
termination_by bs.length

theorem lines_tail {t : Octets} (h : LineDecoder.lineFeed ∉ t) : t.lines = [t] := List.splitOn_eq_singleton h

theorem lines_line (bs rest : Octets) : (bs ++ LineDecoder.lineFeed :: rest).lines = bs.lines ++ rest.lines :=
  List.splitOn_append_cons_self bs rest

theorem lines_ne_nil (bs : Octets) : bs.lines ≠ [] := by exact List.splitOn_ne_nil _ bs

theorem lines_eq (bs : Octets) : bs.lines = bs.completeLines ++ [bs.openLine] := by
  rw [completeLines, openLine, List.getLastD_eq_getLast?, List.getLast?_eq_some_getLast bs.lines_ne_nil,
    Option.getD_some, List.dropLast_concat_getLast]

@[simp] theorem completeLines_tail {t : Octets} (h : LineDecoder.lineFeed ∉ t) : t.completeLines = [] := by
  rw [completeLines, lines_tail h]
  rfl

@[simp] theorem openLine_tail {t : Octets} (h : LineDecoder.lineFeed ∉ t) : t.openLine = t := by
  rw [openLine, lines_tail h]
  rfl

theorem completeLines_line {l : Octets} (rest : Octets) (h : LineDecoder.lineFeed ∉ l) :
    (l ++ LineDecoder.lineFeed :: rest).completeLines = l :: rest.completeLines := by
  rw [completeLines, lines_line, lines_tail h, List.singleton_append, List.dropLast_cons_of_ne_nil rest.lines_ne_nil]
  rfl

theorem openLine_line {l : Octets} (rest : Octets) (h : LineDecoder.lineFeed ∉ l) :
    (l ++ LineDecoder.lineFeed :: rest).openLine = rest.openLine := by
  rw [openLine, lines_line, lines_tail h, List.singleton_append, List.getLastD_cons]
  rw [List.getLastD_eq_getLast?, openLine, List.getLastD_eq_getLast?,
    List.getLast?_eq_some_getLast rest.lines_ne_nil]
  rfl

theorem lineFeed_notMem_openLine (bs : Octets) : LineDecoder.lineFeed ∉ bs.openLine := by
  induction bs using lineInduction with
  | tail t h => rwa [openLine_tail h]
  | line l rest h ih => rwa [openLine_line rest h]

theorem completeLines_append (bs bs' : Octets) :
    (bs ++ bs').completeLines = bs.completeLines ++ (bs.openLine ++ bs').completeLines := by
  induction bs using lineInduction with
  | tail t h => rw [completeLines_tail h, openLine_tail h, List.nil_append]
  | line l rest h ih =>
    rw [List.append_assoc, List.cons_append, completeLines_line _ h, completeLines_line _ h, openLine_line _ h, ih]
    rfl

theorem openLine_append (bs bs' : Octets) : (bs ++ bs').openLine = (bs.openLine ++ bs').openLine := by
  induction bs using lineInduction with
  | tail t h => rw [openLine_tail h]
  | line l rest h ih => rw [List.append_assoc, List.cons_append, openLine_line _ h, openLine_line _ h, ih]

theorem lines_append (bs bs' : Octets) : (bs ++ bs').lines = bs.completeLines ++ (bs.openLine ++ bs').lines := by
  rw [lines_eq, lines_eq (bs.openLine ++ bs'), completeLines_append, openLine_append, List.append_assoc]

theorem length_le_of_mem_lines {bs l : Octets} (h : l ∈ bs.lines) : l.length ≤ bs.length := by
  induction bs using lineInduction with
  | tail t ht =>
    rw [lines_tail ht] at h
    exact Nat.le_of_eq (congrArg List.length (List.mem_singleton.1 h))
  | line l' rest hl ih =>
    rw [lines_line, lines_tail hl] at h
    rw [List.length_append, List.length_cons]
    rcases List.mem_append.1 h with h | h
    · rw [List.mem_singleton.1 h]
      omega
    · have := ih h
      omega

/-- What is open when octets arrive becomes the beginning of their first line. -/
theorem lines_open_append {t : Octets} (h : LineDecoder.lineFeed ∉ t) (bs : Octets) :
    ∃ more ls, (t ++ bs).lines = (t ++ more) :: ls := by
  induction bs using lineInduction with
  | tail t' ht' =>
    refine ⟨t', [], lines_tail ?_⟩
    simp [h, ht']
  | line l rest hl _ =>
    refine ⟨l, rest.lines, ?_⟩
    rw [← List.append_assoc, lines_line, lines_tail (by simp [h, hl])]
    rfl

end Octets

namespace LineDecoder

/-! ### How long a line is -/

/-- The length of a line, a carriage return at its end not counted. -/
def lineLength (l : Octets) : Nat := l.length - if l.getLast? = some carriageReturn then 1 else 0

/-- A line only grows. -/
theorem lineLength_le_append (l more : Octets) : lineLength l ≤ lineLength (l ++ more) := by
  by_cases hmore : more = []
  · exact Nat.le_of_eq (by rw [hmore, List.append_nil])
  · have hpos : 0 < more.length := List.length_pos_iff.2 hmore
    rw [lineLength, lineLength, List.length_append]
    split <;> split <;> omega

/-- Whether some line, the open one included, is too long. -/
def Overlong (limit : Nat) (bs : Octets) : Prop := ∃ l ∈ bs.lines, limit < lineLength l

instance (limit : Nat) (bs : Octets) : Decidable (Overlong limit bs) :=
  inferInstanceAs (Decidable (∃ l ∈ bs.lines, limit < lineLength l))

theorem overlong_tail {limit : Nat} {t : Octets} (h : lineFeed ∉ t) : Overlong limit t ↔ limit < lineLength t := by
  rw [Overlong, Octets.lines_tail h]
  simp

theorem overlong_line {limit : Nat} {l : Octets} (rest : Octets) (h : lineFeed ∉ l) :
    Overlong limit (l ++ lineFeed :: rest) ↔ limit < lineLength l ∨ Overlong limit rest := by
  rw [Overlong, Octets.lines_line, Octets.lines_tail h, Overlong]
  simp

theorem Overlong.append {limit : Nat} {bs : Octets} (h : Overlong limit bs) (bs' : Octets) :
    Overlong limit (bs ++ bs') := by
  induction bs using Octets.lineInduction with
  | tail t ht =>
    have ht' := (overlong_tail ht).1 h
    induction bs' using Octets.lineInduction with
    | tail t' ht'' =>
      have hnone : lineFeed ∉ t ++ t' := by simp [ht, ht'']
      exact (overlong_tail hnone).2 (Nat.lt_of_lt_of_le ht' (lineLength_le_append t t'))
    | line l rest hl _ =>
      have hnone : lineFeed ∉ t ++ l := by simp [ht, hl]
      rw [← List.append_assoc, overlong_line rest hnone]
      exact .inl (Nat.lt_of_lt_of_le ht' (lineLength_le_append t l))
  | line l rest hl ih =>
    rw [List.append_assoc, List.cons_append, overlong_line _ hl]
    exact ((overlong_line rest hl).1 h).imp_right ih

theorem lineLength_openLine_le {limit : Nat} {bs : Octets} (h : ¬ Overlong limit bs) :
    lineLength bs.openLine ≤ limit := by
  rw [Overlong, Octets.lines_eq] at h
  simp only [List.mem_append, List.mem_singleton, not_exists, not_and, Nat.not_lt] at h
  exact h _ (.inr rfl)

/-- Octets behind lines that fit can only make the open line too long, or lines of their own. -/
theorem overlong_openLine {limit : Nat} {bs more : Octets} (hfits : ¬ Overlong limit bs)
    (hlong : Overlong limit (bs ++ more)) : Overlong limit (bs.openLine ++ more) := by
  obtain ⟨l, hl, hlimit⟩ := hlong
  rw [Octets.lines_append] at hl
  rcases List.mem_append.1 hl with hl | hl
  · exact absurd ⟨l, by rw [Octets.lines_eq]; exact List.mem_append_left _ hl, hlimit⟩ hfits
  · exact ⟨l, hl, hlimit⟩

/-- What fits as a whole fits behind what is open. -/
theorem not_overlong_openLine {limit : Nat} {bs more : Octets} (h : ¬ Overlong limit (bs ++ more)) :
    ¬ Overlong limit (bs.openLine ++ more) := by
  rintro ⟨l, hl, hlimit⟩
  apply h
  refine ⟨l, ?_, hlimit⟩
  rw [Octets.lines_append]
  exact List.mem_append_right _ hl

/-! ### The lines in front of a long one -/

/-- A piece that is no longer than a line may be makes no line too long but the one that is open. -/
theorem lines_open_overlong {limit : Nat} {t piece : Octets} (ht : lineFeed ∉ t) (hpiece : piece.length ≤ limit)
    (hlong : Overlong limit (t ++ piece)) (after : Octets) :
    ∃ l ls, Octets.lines (t ++ piece ++ after) = l :: ls ∧ limit < lineLength l := by
  induction piece using Octets.lineInduction with
  | tail t' ht' =>
    have hopen : lineFeed ∉ t ++ t' := by simp [ht, ht']
    obtain ⟨more, ls, hlines⟩ := Octets.lines_open_append hopen after
    exact ⟨t ++ t' ++ more, ls, hlines,
      Nat.lt_of_lt_of_le ((overlong_tail hopen).1 hlong) (lineLength_le_append _ _)⟩
  | line l rest hl _ =>
    have hopen : lineFeed ∉ t ++ l := by simp [ht, hl]
    rw [← List.append_assoc] at hlong
    refine ⟨t ++ l, (rest ++ after).lines, ?_, ?_⟩
    · rw [← List.append_assoc, List.append_assoc, List.cons_append, Octets.lines_line, Octets.lines_tail hopen]
      rfl
    · rcases (overlong_line rest hopen).1 hlong with hfirst | ⟨l', hl', hlimit⟩
      · exact hfirst
      · have hshort := Octets.length_le_of_mem_lines hl'
        rw [List.length_append, List.length_cons] at hpiece
        have hle : lineLength l' ≤ l'.length := Nat.sub_le _ _
        omega

theorem takeWhile_fitting {limit : Nat} {bs piece : Octets} (hfits : ¬ Overlong limit bs)
    (hlong : Overlong limit (bs ++ piece)) (after : Octets) (hpiece : piece.length ≤ limit) :
    (Octets.lines (bs ++ (piece ++ after))).takeWhile (fun l => lineLength l ≤ limit) = bs.completeLines := by
  have hcomplete : ∀ l ∈ bs.completeLines, decide (lineLength l ≤ limit) = true := by
    intro l hl
    rw [Overlong, Octets.lines_eq] at hfits
    simp only [not_exists, not_and, Nat.not_lt] at hfits
    exact decide_eq_true (hfits l (List.mem_append_left _ hl))
  -- The line that gets too long is the first one behind the complete ones.
  have hopen := overlong_openLine hfits hlong
  obtain ⟨l, ls, hlines, hlimit⟩ := lines_open_overlong (Octets.lineFeed_notMem_openLine bs) hpiece hopen after
  rw [Octets.lines_append, ← List.append_assoc, hlines, List.takeWhile_append_of_pos hcomplete,
    List.takeWhile_cons_of_neg (by simpa using hlimit), List.append_nil]

/-! ### The parts of a piece -/

/-- One octet of a piece: the part it belongs to is kept in reverse, and so are the parts before it. -/
def takeOctet (state : Octets × List Octets) (b : UInt8) : Octets × List Octets :=
  if b == lineFeed then ([], (b :: state.1).reverse :: state.2) else (b :: state.1, state.2)

theorem parts_eq (bytes : Octets) : parts bytes =
    (if (bytes.foldl takeOctet ([], [])).1.isEmpty then (bytes.foldl takeOctet ([], [])).2
      else (bytes.foldl takeOctet ([], [])).1.reverse :: (bytes.foldl takeOctet ([], [])).2).reverse := rfl

theorem foldl_takeOctet_tail {t : Octets} (h : lineFeed ∉ t) (current : Octets) (finished : List Octets) :
    t.foldl takeOctet (current, finished) = (t.reverse ++ current, finished) := by
  induction t generalizing current with
  | nil => rfl
  | cons b t ih =>
    have ht : lineFeed ∉ t := fun ht => h (List.mem_cons_of_mem b ht)
    have hb : (b == lineFeed) = false := beq_false_of_ne fun hb => h (hb ▸ List.mem_cons_self)
    rw [List.foldl_cons, takeOctet, hb, if_neg Bool.false_ne_true, ih ht, List.reverse_cons, List.append_assoc]
    rfl

theorem foldl_takeOctet_append (bytes current : Octets) (finished before : List Octets) :
    bytes.foldl takeOctet (current, finished ++ before)
      = ((bytes.foldl takeOctet (current, finished)).1, (bytes.foldl takeOctet (current, finished)).2 ++ before) := by
  induction bytes generalizing current finished with
  | nil => rfl
  | cons b bytes ih =>
    rw [List.foldl_cons, List.foldl_cons, takeOctet, takeOctet]
    split
    · exact ih [] ((b :: current).reverse :: finished)
    · exact ih (b :: current) finished

theorem parts_tail {t : Octets} (h : lineFeed ∉ t) (hne : t ≠ []) : parts t = [t] := by
  rw [parts_eq, foldl_takeOctet_tail h, List.append_nil]
  have hempty : t.reverse.isEmpty = false := by simpa using hne
  rw [hempty, if_neg Bool.false_ne_true, List.reverse_reverse]
  rfl

theorem parts_line {l : Octets} (rest : Octets) (h : lineFeed ∉ l) :
    parts (l ++ lineFeed :: rest) = (l ++ [lineFeed]) :: parts rest := by
  have hstep : takeOctet (l.reverse ++ [], []) lineFeed = ([], [] ++ [l ++ [lineFeed]]) := by
    simp [takeOctet]
  rw [parts_eq, List.foldl_append, foldl_takeOctet_tail h, List.foldl_cons, hstep, foldl_takeOctet_append, parts_eq]
  dsimp only
  split <;> simp

/-! ### What a part makes of the open line -/

theorem contentLength_tail (buffer : Octets) {t : Octets} (h : lineFeed ∉ t) (hne : t ≠ []) :
    contentLength buffer t = lineLength (buffer ++ t) := by
  obtain ⟨b, hb⟩ : ∃ b, t.getLast? = some b := ⟨_, List.getLast?_eq_some_getLast hne⟩
  have hlast : (t.getLast? == some lineFeed) = false := beq_false_of_ne fun h' => h (List.mem_of_getLast? h')
  have hwhole : (buffer ++ t).getLast? = some b := by rw [List.getLast?_append, hb, Option.some_or]
  have hreturn : endsInReturn buffer t = (b == carriageReturn) := by
    rw [endsInReturn, hlast]
    simp only [Bool.false_eq_true, if_false, hb]
  rw [contentLength, lineLength, hreturn, hlast, hwhole, List.length_append]
  simp

theorem endsInReturn_line (buffer l : Octets) :
    endsInReturn buffer (l ++ [lineFeed]) = decide ((buffer ++ l).getLast? = some carriageReturn) := by
  rw [endsInReturn, List.getLast?_concat, beq_self_eq_true, if_pos rfl, List.dropLast_concat, List.getLast?_append]
  cases hl : l.getLast? with
  | none =>
    rw [List.getLast?_eq_none_iff.1 hl, Bool.eq_iff_iff, decide_eq_true_iff]
    simp
  | some b =>
    rw [Bool.eq_iff_iff]
    simp

theorem contentLength_line (buffer l : Octets) : contentLength buffer (l ++ [lineFeed]) = lineLength (buffer ++ l) := by
  rw [contentLength, lineLength, endsInReturn_line, List.getLast?_concat, List.length_append, List.length_append]
  by_cases hlast : (buffer ++ l).getLast? = some carriageReturn <;> simp [hlast]

theorem lineText_append_lineFeed (l : Octets) : lineText (l ++ [lineFeed]) = lineText l := by
  rw [lineText, Utf8.toList_decodeLossy_append_ascii l (by decide), List.reverse_append]
  rfl

/-! ### Pushing a piece -/

/-- What holds of a decoder between two pieces. -/
structure Sound (d : LineDecoder) : Prop where
  unbroken : lineFeed ∉ d.buffer
  fits : lineLength d.buffer ≤ d.limit

theorem sound_empty (limit : Nat) : Sound { limit } := ⟨List.not_mem_nil, Nat.zero_le _⟩

theorem sound_openLine {limit : Nat} {bs : Octets} (h : ¬ Overlong limit bs) : Sound ⟨limit, bs.openLine⟩ :=
  ⟨Octets.lineFeed_notMem_openLine bs, lineLength_openLine_le h⟩

/-- The lines that have been found do not matter for those to come. -/
theorem takeParts_lines (d : LineDecoder) (lines : List String) (ps : List Octets) :
    d.takeParts lines ps = ((d.takeParts [] ps).1.map (lines.reverse ++ ·), (d.takeParts [] ps).2) := by
  induction ps generalizing d lines with
  | nil => simp [takeParts, Except.map]
  | cons part rest ih =>
    rw [takeParts, takeParts]
    split
    · rfl
    · dsimp only
      split
      · rw [ih, ih { d with buffer := [] } [_]]
        cases (takeParts { d with buffer := [] } [] rest).1 <;> simp [Except.map]
      · rw [ih]

theorem push_tail {d : LineDecoder} (hd : d.Sound) {t : Octets} (h : lineFeed ∉ t) :
    d.push t = if d.limit < lineLength (d.buffer ++ t) then (.error (.lineTooLong d.limit), { d with buffer := [] })
      else (.ok [], { d with buffer := d.buffer ++ t }) := by
  by_cases hne : t = []
  · subst hne
    rw [List.append_nil, if_neg (Nat.not_lt.2 hd.fits)]
    rfl
  · have hlast : ((d.buffer ++ t).getLast? == some lineFeed) = false := by
      apply beq_false_of_ne
      intro hlast
      rcases List.mem_append.1 (List.mem_of_getLast? hlast) with hmem | hmem
      · exact hd.unbroken hmem
      · exact h hmem
    rw [push, parts_tail h hne, takeParts, contentLength_tail _ h hne]
    dsimp only
    rw [hlast]
    rfl

theorem push_line (d : LineDecoder) {l : Octets} (rest : Octets) (h : lineFeed ∉ l) :
    d.push (l ++ lineFeed :: rest) =
      if d.limit < lineLength (d.buffer ++ l) then (.error (.lineTooLong d.limit), { d with buffer := [] })
      else ((push { d with buffer := [] } rest).1.map (lineText (d.buffer ++ l) :: ·),
        (push { d with buffer := [] } rest).2) := by
  have hheld : d.buffer ++ (l ++ [lineFeed]) = d.buffer ++ l ++ [lineFeed] := (List.append_assoc ..).symm
  rw [push, parts_line rest h, takeParts, contentLength_line]
  dsimp only
  rw [hheld, List.getLast?_concat, beq_self_eq_true, if_pos rfl, lineText_append_lineFeed, takeParts_lines]
  rfl

/-- A piece completes lines and leaves the last one open, unless one of them is too long. -/
theorem push_eq {d : LineDecoder} (hd : d.Sound) (bytes : Octets) :
    d.push bytes = if Overlong d.limit (d.buffer ++ bytes) then (.error (.lineTooLong d.limit), { d with buffer := [] })
      else (.ok ((d.buffer ++ bytes).completeLines.map lineText),
        { d with buffer := (d.buffer ++ bytes).openLine }) := by
  induction bytes using Octets.lineInduction generalizing d with
  | tail t h =>
    have hnone : lineFeed ∉ d.buffer ++ t := by simp [hd.unbroken, h]
    rw [push_tail hd h, Octets.completeLines_tail hnone, Octets.openLine_tail hnone]
    simp only [overlong_tail hnone]
    rfl
  | line l rest h ih =>
    have hnone : lineFeed ∉ d.buffer ++ l := by simp [hd.unbroken, h]
    rw [push_line d rest h, ih (sound_empty d.limit), ← List.append_assoc, Octets.completeLines_line rest hnone,
      Octets.openLine_line rest hnone]
    simp only [overlong_line rest hnone, List.nil_append]
    by_cases hlong : d.limit < lineLength (d.buffer ++ l)
    · simp [hlong]
    · by_cases hrest : Overlong d.limit rest
      · simp [hlong, hrest, Except.map]
      · simp [hlong, hrest, Except.map]

theorem finish_eq (d : LineDecoder) :
    d.finish.1 = if d.buffer = [] then none else some (lineText d.buffer) := by
  rw [finish]
  cases d.buffer <;> rfl

end LineDecoder

end Helmsman
