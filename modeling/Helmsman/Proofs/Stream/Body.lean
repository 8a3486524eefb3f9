import Helmsman.Stream.Body
import Helmsman.Proofs.Stream.Lines
/-!
# What a body tells

`told` reads a body as a whole: its lines up to the mark that ends the stream, of each line the events of the chunk that
it carries, and of all reasons to stop the first. A body whose lines all fit tells just that, wherever it was cut into
pieces (`feed_complete`). A line that is too long loses whatever else its piece has completed, and so there the cut does
matter (`feed_overlong`); it does not as long as no piece is itself longer than a line may be.
-/

namespace Helmsman

namespace StreamEvent

def isFinish : StreamEvent → Bool
  | .finish _ => true
  | _ => false

end StreamEvent

/-- The events without the reasons to stop behind the first one. -/
def onlyFirstFinish (events : List StreamEvent) : List StreamEvent :=
  events.takeWhile (fun e => !e.isFinish) ++
    match events.dropWhile fun e => !e.isFinish with
    | [] => []
    | first :: rest => first :: rest.filter fun e => !e.isFinish

namespace Body

open LineDecoder (lineFeed lineText lineLength maxLine Overlong)

/-- What a line of octets carries. -/
def carried (l : Octets) : Option DataLine := DataLine.ofLine? (lineText l)

/-- The events of a line: those of its chunk if it carries one that can be read, else none. -/
def lineEvents (l : Octets) : List StreamEvent :=
  match carried l with
  | some (.data payload) => (Chunk.parse payload).toOption.getD []
  | _ => []

/-- Whether the mark that ends the stream is among the lines. -/
def Marked (ls : List Octets) : Prop := ∃ l ∈ ls, carried l = some .done

instance (ls : List Octets) : Decidable (Marked ls) :=
  inferInstanceAs (Decidable (∃ l ∈ ls, carried l = some .done))

/-- The events of lines in order, up to the mark. -/
def eventsToMark (ls : List Octets) : List StreamEvent :=
  (ls.takeWhile fun l => carried l ≠ some .done).flatMap lineEvents

/-- What is told of lines, the mark or an error behind them left aside. -/
def told (ls : List Octets) : List StreamEvent := onlyFirstFinish (eventsToMark ls)

/-! ### Reasons to stop -/

theorem firstFinish_append (finished : Bool) (es es' : List StreamEvent) :
    firstFinish finished (es ++ es') =
      ((firstFinish finished es).1 ++ (firstFinish (firstFinish finished es).2 es').1,
        (firstFinish (firstFinish finished es).2 es').2) := by
  induction es generalizing finished with
  | nil => rfl
  | cons e rest ih =>
    cases e with
    | finish reason =>
      rw [List.cons_append, firstFinish, firstFinish, ih]
      cases finished <;> rfl
    | text | call | done | error =>
      rw [List.cons_append, firstFinish, firstFinish, ih]
      · rfl
      all_goals simp

theorem firstFinish_true (es : List StreamEvent) : (firstFinish true es).1 = es.filter fun e => !e.isFinish := by
  induction es with
  | nil => rfl
  | cons e rest ih =>
    cases e with
    | finish reason => exact ih
    | text | call | done | error => exact congrArg (_ :: ·) ih

theorem firstFinish_false (es : List StreamEvent) : (firstFinish false es).1 = onlyFirstFinish es := by
  induction es with
  | nil => rfl
  | cons e rest ih =>
    cases e with
    | finish reason => exact congrArg (_ :: ·) (firstFinish_true rest)
    | text | call | done | error => exact congrArg (_ :: ·) ih

/-! ### Taking lines in -/

theorem line_of_stopped {p : Intake} (h : p.stopped = true) (text : String) : line p text = p := by
  rw [line, if_pos h]

theorem lines_of_stopped {p : Intake} (h : p.stopped = true) (texts : List String) : lines p texts = p := by
  induction texts with
  | nil => rfl
  | cons text texts ih => rw [lines, List.foldl_cons, line_of_stopped h]; exact ih

theorem lines_append (p : Intake) (texts texts' : List String) :
    lines p (texts ++ texts') = lines (lines p texts) texts' := List.foldl_append

theorem eventsToMark_cons {l : Octets} (h : carried l ≠ some .done) (ls : List Octets) :
    eventsToMark (l :: ls) = lineEvents l ++ eventsToMark ls := by
  simp [eventsToMark, h]

theorem marked_cons {l : Octets} {ls : List Octets} (h : carried l ≠ some .done) : Marked (l :: ls) ↔ Marked ls := by
  simp [Marked, h]

/-- A line that is not the mark adds its events, less the reasons to stop that come too late. -/
theorem line_eq {p : Intake} (hp : p.stopped = false) {l : Octets} (h : carried l ≠ some .done) :
    line p (lineText l) = { p with
      events := p.events ++ (firstFinish p.finished (lineEvents l)).1
      finished := (firstFinish p.finished (lineEvents l)).2 } := by
  have hgoing : ¬ p.stopped = true := ne_true_of_eq_false hp
  have hnone : { p with events := p.events ++ (firstFinish p.finished []).1,
                        finished := (firstFinish p.finished []).2 } = p := by rw [firstFinish, List.append_nil]
  rw [carried] at h
  rw [line, if_neg hgoing, lineEvents, carried]
  split
  · rename_i hline
    rw [hline, hnone]
  · rename_i hline
    exact absurd hline h
  · rename_i payload hline
    rw [hline]
    dsimp only
    cases Chunk.parse payload with
    | error f => exact hnone.symm
    | ok events => rfl

theorem lines_eq {p : Intake} (hp : p.stopped = false) (ls : List Octets) :
    (lines p (ls.map lineText)).events = p.events
        ++ (firstFinish p.finished (eventsToMark ls)).1
        ++ (if Marked ls then [.done] else [])
    ∧ ((lines p (ls.map lineText)).stopped = true ↔ Marked ls) := by
  induction ls generalizing p with
  | nil => simp [lines, eventsToMark, firstFinish, Marked, hp]
  | cons l ls ih =>
    by_cases h : carried l = some .done
    · have hline : line p (lineText l) = { p with events := p.events ++ [.done], stopped := true } := by
        rw [carried] at h
        rw [line, hp, if_neg Bool.false_ne_true, h]
      have hmarked : Marked (l :: ls) := ⟨l, List.mem_cons_self, h⟩
      have hlines : lines p ((l :: ls).map lineText) = { p with events := p.events ++ [.done], stopped := true } := by
        rw [List.map_cons, lines, List.foldl_cons, hline]
        exact lines_of_stopped rfl _
      rw [hlines]
      simp [eventsToMark, h, hmarked, firstFinish]
    · have hgoing : (line p (lineText l)).stopped = false := by
        rw [line_eq hp h]
        exact hp
      obtain ⟨hevents, hstopped⟩ := ih hgoing
      have hlines : lines p ((l :: ls).map lineText) = lines (line p (lineText l)) (ls.map lineText) := rfl
      rw [hlines, eventsToMark_cons h, firstFinish_append, hevents, hstopped, line_eq hp h]
      simp only [marked_cons h, List.append_assoc, and_self]

theorem events_lines (ls : List Octets) :
    (lines {} (ls.map lineText)).events = told ls ++ if Marked ls then [.done] else [] := by
  rw [(lines_eq rfl ls).1, firstFinish_false, told]
  rfl

theorem stopped_lines (ls : List Octets) : (lines {} (ls.map lineText)).stopped = true ↔ Marked ls :=
  (lines_eq rfl ls).2

/-! ### Taking pieces in -/

theorem pieces_of_stopped (d : LineDecoder) {p : Intake} (h : p.stopped = true) (ps : List Octets) :
    pieces d p ps = (d, p) := by
  cases ps with
  | nil => rfl
  | cons piece rest => rw [pieces, if_pos h]

theorem pieces_append (d : LineDecoder) (p : Intake) (ps ps' : List Octets) :
    pieces d p (ps ++ ps') = pieces (pieces d p ps).1 (pieces d p ps).2 ps' := by
  induction ps generalizing d p with
  | nil => rfl
  | cons piece rest ih =>
    rw [List.cons_append, pieces, pieces]
    split
    · rename_i h
      exact (pieces_of_stopped d h ps').symm
    · split
      · exact ih _ _
      · exact (pieces_of_stopped _ rfl ps').symm

/-- Pieces whose lines all fit are taken in line by line, and the decoder holds the open line behind them. -/
theorem pieces_eq {d : LineDecoder} (hd : d.Sound) (p : Intake) (ps : List Octets)
    (h : ¬ Overlong d.limit (d.buffer ++ ps.flatten)) :
    (pieces d p ps).2 = lines p ((d.buffer ++ ps.flatten).completeLines.map lineText)
    ∧ ((pieces d p ps).2.stopped = false →
      (pieces d p ps).1 = { d with buffer := (d.buffer ++ ps.flatten).openLine }) := by
  induction ps generalizing d p with
  | nil =>
    rw [List.flatten_nil, List.append_nil, Octets.completeLines_tail hd.unbroken, Octets.openLine_tail hd.unbroken]
    exact ⟨rfl, fun _ => rfl⟩
  | cons piece rest ih =>
    rw [pieces]
    split
    · rename_i hstopped
      rw [lines_of_stopped hstopped]
      exact ⟨rfl, fun hgoing => absurd (hstopped.symm.trans hgoing) (by simp)⟩
    · rw [List.flatten_cons, ← List.append_assoc] at h ⊢
      have hfits : ¬ Overlong d.limit (d.buffer ++ piece) := fun hlong => h (hlong.append rest.flatten)
      have hpush := LineDecoder.push_eq hd piece
      rw [if_neg hfits] at hpush
      rw [hpush]
      obtain ⟨hlines, hdecoder⟩ := ih (LineDecoder.sound_openLine hfits)
        (lines p ((d.buffer ++ piece).completeLines.map lineText)) (LineDecoder.not_overlong_openLine h)
      refine ⟨?_, fun hgoing => ?_⟩
      · rw [hlines, ← lines_append, ← List.map_append, ← Octets.completeLines_append]
      · rw [hdecoder hgoing, ← Octets.openLine_append]

/-- The first piece behind which a line is too long. -/
theorem exists_first_overlong {limit : Nat} {held : Octets} (hheld : ¬ Overlong limit held) {ps : List Octets}
    (h : Overlong limit (held ++ ps.flatten)) : ∃ before piece after, ps = before ++ piece :: after
      ∧ ¬ Overlong limit (held ++ before.flatten) ∧ Overlong limit (held ++ before.flatten ++ piece) := by
  induction ps generalizing held with
  | nil =>
    rw [List.flatten_nil, List.append_nil] at h
    exact absurd h hheld
  | cons piece rest ih =>
    by_cases hpiece : Overlong limit (held ++ piece)
    · exact ⟨[], piece, rest, rfl, by rwa [List.flatten_nil, List.append_nil], by
        rwa [List.flatten_nil, List.append_nil]⟩
    · rw [List.flatten_cons, ← List.append_assoc] at h
      obtain ⟨before, piece', after, rfl, hfits, hlong⟩ := ih hpiece h
      refine ⟨piece :: before, piece', after, rfl, ?_, ?_⟩
      · rwa [List.flatten_cons, ← List.append_assoc]
      · rwa [List.flatten_cons, ← List.append_assoc]

/-! ### Whole bodies -/

/-- A decoder that has held whole lines hands out at the end the line that is open, and an open line of no octets
carries nothing. -/
theorem lines_finish (p : Intake) (d : LineDecoder) : lines p d.finish.1.toList = lines p [lineText d.buffer] := by
  rw [LineDecoder.finish_eq]
  split
  · rename_i hempty
    have hnothing : DataLine.ofLine? (lineText []) = none := by decide +kernel
    rw [hempty, lines, lines, List.foldl_cons, line, hnothing, ite_self]
    rfl
  · rfl

theorem feed_of_fits {ps : List Octets} (hfits : ¬ Overlong maxLine ps.flatten) :
    feed ps .complete = ⟨told (Octets.lines ps.flatten) ++ [.done], false⟩ := by
  have hpieces := pieces_eq (LineDecoder.sound_empty maxLine) {} ps hfits
  rw [List.nil_append] at hpieces
  obtain ⟨hlines, hdecoder⟩ := hpieces
  -- The open line is taken in behind the complete ones, or else the mark is already among those.
  have hwhole : lines {} ((Octets.lines ps.flatten).map lineText)
      = lines (pieces { limit := maxLine } {} ps).2 [lineText (Octets.openLine ps.flatten)] := by
    rw [hlines, ← lines_append, Octets.lines_eq ps.flatten, List.map_append]
    rfl
  have hevents := events_lines (Octets.lines ps.flatten)
  have hstopped := stopped_lines (Octets.lines ps.flatten)
  rw [feed]
  dsimp only
  split
  · rename_i hmark
    rw [hwhole, lines_of_stopped hmark] at hevents hstopped
    rw [hevents, if_pos (hstopped.1 hmark)]
  · rename_i hgoing
    rw [lines_finish, hdecoder (eq_false_of_ne_true hgoing), ← hwhole, hevents]
    by_cases hmarked : Marked (Octets.lines ps.flatten)
    · rw [if_pos (hstopped.2 hmarked), if_pos hmarked]
    · rw [if_neg (mt hstopped.1 hmarked), if_neg hmarked, List.append_nil]

/-- A body whose lines all fit tells its lines, and so it does not matter where it was cut. -/
theorem feed_complete (ps : List Octets) (h : ∀ l ∈ Octets.lines ps.flatten, lineLength l ≤ maxLine) :
    feed ps .complete = ⟨told (Octets.lines ps.flatten) ++ [.done], false⟩
    ∧ ∀ ps' : List Octets, ps'.flatten = ps.flatten → feed ps' .complete = feed ps .complete := by
  have hfits : ¬ Overlong maxLine ps.flatten := fun ⟨l, hl, hlong⟩ => Nat.not_lt.2 (h l hl) hlong
  refine ⟨feed_of_fits hfits, fun ps' hps' => ?_⟩
  rw [feed_of_fits hfits, feed_of_fits (hps' ▸ hfits), hps']

/-- A comment, a text that is cut inside `é` and inside its line ending, a chunk that cannot be read, a reason to stop
that comes twice, the mark in two pieces, and a line behind the mark. -/
def shreds : List Octets :=
  [Utf8.encode ": ready\r\n\ndata: \x7b\"choices\":[\x7b\"delta\":\x7b\"content\":\"caf" ++ [0xC3],
    [0xA9] ++ Utf8.encode "\"\x7d\x7d]\x7d\r",
    Utf8.encode "\nda", Utf8.encode "ta: \x7boops\n",
    Utf8.encode "data:\x7b\"choices\":[\x7b\"finish_reason\":\"stop\"\x7d]\x7d\ndata:\x7b\"choices\":[\x7b\"finish",
    Utf8.encode "_reason\":\"length\"\x7d]\x7d\n\ndata: [DO", Utf8.encode "NE]\ndata: \x7b\"choices\":[\x7b\"delta\":",
    Utf8.encode "\x7b\"content\":\"!\"\x7d\x7d]\x7d"]

theorem shreds_complete :
    (∀ l ∈ Octets.lines shreds.flatten, lineLength l ≤ maxLine)
    ∧ feed shreds .complete = ⟨[.text "café", .finish "stop", .done], false⟩
    ∧ feed (shreds.flatten.map fun b => [b]) .complete = feed shreds .complete := by
  have h : ∀ l ∈ Octets.lines shreds.flatten, lineLength l ≤ maxLine := by decide +kernel
  have htold : told (Octets.lines shreds.flatten) = [.text "café", .finish "stop"] := by decide +kernel
  obtain ⟨htells, hcut⟩ := feed_complete shreds h
  rw [htold] at htells
  exact ⟨h, htells, hcut _ (List.flatMap_singleton' shreds.flatten)⟩

/-- What is told of a body in which a line is too long, if the given lines are taken in before the error. -/
def toldUntil (early : List Octets) : Feed :=
  ⟨told early ++ [if Marked early then .done else .error (.lineTooLong maxLine)], false⟩

/-- A body with a line that is too long tells the lines that were complete before the piece that made one so. -/
theorem feed_of_cut (before : List Octets) (piece : Octets) (after : List Octets) (ending : BodyEnd)
    (hfits : ¬ Overlong maxLine before.flatten) (hlong : Overlong maxLine (before.flatten ++ piece)) :
    feed (before ++ piece :: after) ending = toldUntil (Octets.completeLines before.flatten) := by
  have hpieces := pieces_eq (LineDecoder.sound_empty maxLine) {} before hfits
  rw [List.nil_append] at hpieces
  obtain ⟨hlines, hdecoder⟩ := hpieces
  have hevents := events_lines (Octets.completeLines before.flatten)
  have hstopped := stopped_lines (Octets.completeLines before.flatten)
  rw [← hlines] at hevents hstopped
  rw [feed, pieces_append, toldUntil]
  by_cases hmarked : Marked (Octets.completeLines before.flatten)
  · rw [pieces_of_stopped _ (hstopped.2 hmarked)]
    dsimp only
    rw [if_pos (hstopped.2 hmarked), hevents, if_pos hmarked, if_pos hmarked]
  · have hgoing : (pieces { limit := maxLine } {} before).2.stopped = false :=
      eq_false_of_ne_true (mt hstopped.1 hmarked)
    have hopen := LineDecoder.overlong_openLine hfits hlong
    have hpush := LineDecoder.push_eq (LineDecoder.sound_openLine hfits) piece
    rw [if_pos hopen] at hpush
    rw [hdecoder hgoing, pieces, if_neg (ne_true_of_eq_false hgoing), hpush, if_neg hmarked, hevents, if_neg hmarked]
    simp

/-- A body with a line that is too long tells what was complete before the piece that made one so: all the lines in
front of the long one if no piece is longer than a line may be. -/
theorem feed_overlong (ps : List Octets) (ending : BodyEnd)
    (h : ∃ l ∈ Octets.lines ps.flatten, maxLine < lineLength l) :
    (∃ before piece after, ps = before ++ piece :: after ∧ ¬ Overlong maxLine before.flatten
      ∧ Overlong maxLine (before.flatten ++ piece)
      ∧ feed ps ending = toldUntil (Octets.completeLines before.flatten))
    ∧ ((∀ piece ∈ ps, piece.length ≤ maxLine) → feed ps ending
        = toldUntil ((Octets.lines ps.flatten).takeWhile fun l => lineLength l ≤ maxLine)) := by
  have hempty : ¬ Overlong maxLine [] := by decide
  have hwhole : Overlong maxLine ([] ++ ps.flatten) := h
  obtain ⟨before, piece, after, rfl, hfits, hlong⟩ := exists_first_overlong hempty hwhole
  rw [List.nil_append] at hfits hlong
  have hfeed := feed_of_cut before piece after ending hfits hlong
  refine ⟨⟨before, piece, after, rfl, hfits, hlong, hfeed⟩, fun hpieces => ?_⟩
  rw [hfeed, List.flatten_append, List.flatten_cons, LineDecoder.takeWhile_fitting hfits hlong after.flatten
    (hpieces piece (by simp))]

/-- A line that carries the text `Hi`. -/
def greeting : Octets := Utf8.encode "data: \x7b\"choices\":[\x7b\"delta\":\x7b\"content\":\"Hi\"\x7d\x7d]\x7d"

theorem greeting_carries : lineFeed ∉ greeting ∧ lineLength greeting ≤ maxLine ∧ told [greeting] = [.text "Hi"]
    ∧ ¬ Marked [greeting] := by decide +kernel

/-- A line behind the greeting that is too long and has not ended. -/
structure Flood (long : Octets) : Prop where
  unbroken : lineFeed ∉ long
  overlong : maxLine < lineLength long

theorem Flood.exists_overlong {long : Octets} (h : Flood long) :
    ∃ l ∈ Octets.lines (greeting ++ lineFeed :: long), maxLine < lineLength l := by
  rw [Octets.lines_line, Octets.lines_tail h.unbroken]
  exact ⟨long, List.mem_append_right _ List.mem_cons_self, h.overlong⟩

theorem Flood.toldUntil {long : Octets} (h : Flood long) :
    toldUntil ((Octets.lines (greeting ++ lineFeed :: long)).takeWhile fun l => lineLength l ≤ maxLine)
      = ⟨[.text "Hi", .error (.lineTooLong maxLine)], false⟩ := by
  obtain ⟨hunbroken, hfits, htold, hunmarked⟩ := greeting_carries
  have hlines : Octets.lines (greeting ++ lineFeed :: long) = [greeting, long] := by
    rw [Octets.lines_line, Octets.lines_tail hunbroken, Octets.lines_tail h.unbroken]
    rfl
  have hearly : [greeting, long].takeWhile (fun l => decide (lineLength l ≤ maxLine)) = [greeting] := by
    simp only [List.takeWhile, decide_eq_true hfits, decide_eq_false (Nat.not_le.2 h.overlong)]
  rw [hlines, hearly, Body.toldUntil, htold, if_neg hunmarked]
  rfl

/-- The same body tells its text if the cut is behind the first line, and nothing if there is no cut. -/
theorem Flood.feed_of_cut {long : Octets} (h : Flood long) (ending : BodyEnd) :
    feed [greeting ++ lineFeed :: long] ending = ⟨[.error (.lineTooLong maxLine)], false⟩
    ∧ feed [greeting ++ [lineFeed], long] ending = ⟨[.text "Hi", .error (.lineTooLong maxLine)], false⟩ := by
  obtain ⟨hunbroken, hfits, htold, hunmarked⟩ := greeting_carries
  constructor
  · exact Body.feed_of_cut [] _ [] ending (by decide) h.exists_overlong
  · have hbefore : ¬ Overlong maxLine [greeting ++ [lineFeed]].flatten := by decide +kernel
    have hcomplete : Octets.completeLines [greeting ++ [lineFeed]].flatten = [greeting] := by
      rw [List.flatten_cons, List.flatten_nil, List.append_nil, Octets.completeLines_line [] hunbroken]
      rfl
    have hlong : Overlong maxLine ([greeting ++ [lineFeed]].flatten ++ long) := by
      rw [List.flatten_cons, List.flatten_nil, List.append_nil, ← List.append_cons]
      exact h.exists_overlong
    have hfeed := Body.feed_of_cut [greeting ++ [lineFeed]] long [] ending hbefore hlong
    rw [hcomplete, Body.toldUntil, htold, if_neg hunmarked] at hfeed
    exact hfeed

theorem flood_replicate : Flood (List.replicate (maxLine + 1) 97) where
  unbroken h := absurd (List.eq_of_mem_replicate h) (by decide)
  overlong := by
    have hlast : (List.replicate (maxLine + 1) (97 : UInt8)).getLast? ≠ some LineDecoder.carriageReturn := by
      intro h
      exact absurd (List.eq_of_mem_replicate (List.mem_of_getLast? h)) (by decide)
    rw [lineLength, if_neg hlast, List.length_replicate]
    exact Nat.lt_succ_self maxLine

/-- The line that is too long arrives in two pieces, neither of which is. -/
theorem flooded_overlong :
    (∃ l ∈ Octets.lines [greeting ++ [lineFeed], List.replicate maxLine 97, [97]].flatten, maxLine < lineLength l)
    ∧ (∀ piece ∈ [greeting ++ [lineFeed], List.replicate maxLine 97, [97]], piece.length ≤ maxLine)
    ∧ feed [greeting ++ [lineFeed], List.replicate maxLine 97, [97]] .silent
      = ⟨[.text "Hi", .error (.lineTooLong maxLine)], false⟩ := by
  have hwhole : [greeting ++ [lineFeed], List.replicate maxLine 97, [97]].flatten
      = greeting ++ lineFeed :: List.replicate (maxLine + 1) 97 := by
    rw [List.replicate_succ', List.flatten_cons, List.flatten_cons, List.flatten_cons, List.flatten_nil,
      List.append_nil, ← List.append_cons]
  have hlong := flood_replicate.exists_overlong
  rw [← hwhole] at hlong
  have hpieces : ∀ piece ∈ [greeting ++ [lineFeed], List.replicate maxLine 97, [97]], piece.length ≤ maxLine := by
    have hshort : (greeting ++ [lineFeed]).length ≤ maxLine := by decide +kernel
    rw [List.forall_mem_cons, List.forall_mem_cons, List.forall_mem_singleton, List.length_replicate]
    exact ⟨hshort, Nat.le_refl _, by decide⟩
  refine ⟨hlong, hpieces, ?_⟩
  rw [(feed_overlong _ .silent hlong).2 hpieces, hwhole, flood_replicate.toldUntil]

theorem flooded_depends_on_cut :
    feed [greeting ++ lineFeed :: List.replicate (maxLine + 1) 97] .complete
      = ⟨[.error (.lineTooLong maxLine)], false⟩
    ∧ feed [greeting ++ [lineFeed], List.replicate (maxLine + 1) 97] .complete
      = ⟨[.text "Hi", .error (.lineTooLong maxLine)], false⟩ := flood_replicate.feed_of_cut .complete

end Body

end Helmsman
