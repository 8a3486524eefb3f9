import Helmsman.Proofs.Stream.Chunk
import Helmsman.Proofs.Stream.Written
/-!
# A turn, streamed and put together again

Each chunk of a turn is a line of its own, an empty line behind it, and the mark comes last. Whatever the texts and the
arguments hold, the chunk keeps to its line (`lines_frame`), and the line carries the chunk (`carried_dataLine`). So the
body tells the chunks' events, wherever it was cut on its way (`told_transcript`), and a turn that is made of them has
the text and the calls that were written.
-/

namespace Helmsman

open Json Body
open LineDecoder (lineFeed lineText lineLength maxLine Overlong)

def frame (chunk : Json) : String := dataLine chunk ++ "\n\n"

/-- A turn as it is streamed. Its last chunk says that calls are to be run. -/
def transcript (deltas : List Delta) (last : Delta) : String :=
  String.join (deltas.map fun d => frame (d.chunk none)) ++ frame (last.chunk (some Turn.toolCallsReason))
    ++ "data: [DONE]\n\n"

/-! ### A line -/

/-- A frame is a line and an empty one. -/
theorem lines_frame (chunk : Json) (rest : Octets) :
    Octets.lines (Utf8.encode (frame chunk) ++ rest) = Utf8.encode (dataLine chunk) :: [] :: Octets.lines rest := by
  have hframe : Utf8.encode (frame chunk) ++ rest
      = Utf8.encode (dataLine chunk) ++ lineFeed :: ([] ++ lineFeed :: rest) := by
    rw [frame, Utf8.encode_append, List.append_assoc]
    rfl
  rw [hframe, Octets.lines_line, Octets.lines_tail (lineFeed_notMem_encode (oneLine_dataLine chunk)),
    Octets.lines_line, Octets.lines_tail List.not_mem_nil]
  rfl

theorem carried_dataLine (members : Members) :
    carried (Utf8.encode (dataLine (.object members))) = some (.data (render (.object members))) := by
  rw [carried, lineText_encode (oneLine_dataLine _), ofLine?_dataLine]

/-! ### The events of a body -/

/-- The octets of a transcript from one of its deltas on. -/
theorem encode_transcript_cons (d : Delta) (deltas : List Delta) (last : Delta) :
    Utf8.encode (transcript (d :: deltas) last)
      = Utf8.encode (frame (d.chunk none)) ++ Utf8.encode (transcript deltas last) := by
  rw [← Utf8.encode_append, transcript, transcript, List.map_cons, String.join_cons, String.append_assoc,
    String.append_assoc, String.append_assoc]

/-- The lines of a transcript. -/
theorem lines_transcript (deltas : List Delta) (last : Delta) : Octets.lines (Utf8.encode (transcript deltas last))
    = (deltas.flatMap fun d => [Utf8.encode (dataLine (d.chunk none)), []])
      ++ [Utf8.encode (dataLine (last.chunk (some Turn.toolCallsReason))), [], Utf8.encode "data: [DONE]", [], []] := by
  induction deltas with
  | nil =>
    have hmark : Utf8.encode "data: [DONE]\n\n"
        = Utf8.encode "data: [DONE]" ++ lineFeed :: ([] ++ lineFeed :: []) := rfl
    have hnone : lineFeed ∉ Utf8.encode "data: [DONE]" := by decide
    rw [transcript, List.map_nil, String.join_nil, String.empty_append, Utf8.encode_append,
      lines_frame, hmark, Octets.lines_line,
      Octets.lines_tail hnone, Octets.lines_line, Octets.lines_tail List.not_mem_nil]
    rfl
  | cons d deltas ih =>
    rw [encode_transcript_cons, lines_frame, ih, List.flatMap_cons]
    rfl

theorem carried_nil : carried [] = none := by decide +kernel

theorem carried_mark : carried (Utf8.encode "data: [DONE]") = some .done := by decide +kernel

theorem carried_chunk (d : Delta) (reason : Option String) :
    carried (Utf8.encode (dataLine (d.chunk reason))) = some (.data (d.chunk reason).render) := carried_dataLine _

theorem lineEvents_chunk (d : Delta) (reason : Option String) : lineEvents (Utf8.encode (dataLine (d.chunk reason)))
    = d.events ++ ((reason.filter fun s => !s.isEmpty).map StreamEvent.finish).toList := by
  rw [lineEvents, carried_chunk]
  dsimp only
  rw [parse_chunk]
  rfl

/-- The two lines of a frame bring the events of its chunk. -/
theorem eventsToMark_chunk (d : Delta) (reason : Option String) (rest : List Octets) :
    eventsToMark (Utf8.encode (dataLine (d.chunk reason)) :: [] :: rest)
      = d.events ++ ((reason.filter fun s => !s.isEmpty).map StreamEvent.finish).toList ++ eventsToMark rest := by
  have hempty : lineEvents [] = [] := by rw [lineEvents, carried_nil]
  rw [eventsToMark_cons (by simp [carried_chunk]), eventsToMark_cons (by simp [carried_nil]), hempty, lineEvents_chunk]
  rfl

theorem eventsToMark_transcript (deltas : List Delta) (last : Delta) :
    eventsToMark (Octets.lines (Utf8.encode (transcript deltas last)))
      = (deltas ++ [last]).flatMap Delta.events ++ [.finish Turn.toolCallsReason] := by
  rw [lines_transcript]
  induction deltas with
  | nil =>
    have hmark : eventsToMark [Utf8.encode "data: [DONE]", [], []] = [] := by
      simp [eventsToMark, carried_mark]
    rw [List.flatMap_nil, List.nil_append, eventsToMark_chunk, hmark, List.append_nil, List.nil_append,
      List.flatMap_singleton]
    rfl
  | cons d deltas ih =>
    rw [List.flatMap_cons, List.append_assoc, List.cons_append, List.cons_append, List.nil_append,
      eventsToMark_chunk, ih, List.cons_append, List.flatMap_cons, ← List.append_assoc]
    exact congrArg (· ++ _ ++ _) (List.append_nil d.events)

theorem isFinish_of_mem_events {d : Delta} {e : StreamEvent} (h : e ∈ d.events) : e.isFinish = false := by
  rw [Delta.events] at h
  rcases List.mem_append.1 h with h | h
  · obtain ⟨s, -, rfl⟩ := Option.map_eq_some_iff.1 (Option.mem_toList.1 h)
    rfl
  · obtain ⟨w, -, rfl⟩ := List.mem_map.1 h
    rfl

theorem isFinish_of_mem_flatMap {deltas : List Delta} {e : StreamEvent} (h : e ∈ deltas.flatMap Delta.events) :
    e.isFinish = false := by
  obtain ⟨d, -, he⟩ := List.mem_flatMap.1 h
  exact isFinish_of_mem_events he

/-- A transcript tells the events of its deltas, and why the turn ends. -/
theorem told_transcript (deltas : List Delta) (last : Delta) :
    told (Octets.lines (Utf8.encode (transcript deltas last)))
      = (deltas ++ [last]).flatMap Delta.events ++ [.finish Turn.toolCallsReason] := by
  have hgoing : ∀ e ∈ (deltas ++ [last]).flatMap Delta.events, (!e.isFinish) = true := by
    intro e he
    rw [isFinish_of_mem_flatMap he]
    rfl
  rw [told, eventsToMark_transcript, onlyFirstFinish, List.takeWhile_append_of_pos hgoing,
    List.dropWhile_append_of_pos hgoing]
  simp [StreamEvent.isFinish]

/-! ### The turn -/

theorem foldl_receive {events : List StreamEvent} (h : ∀ e ∈ events, e.isFinish = false) (t : Turn) :
    events.foldl Turn.receive t = events.foldl Turn.hear t := by
  induction events generalizing t with
  | nil => rfl
  | cons e events ih =>
    have he := h e List.mem_cons_self
    have hstep : t.receive e = t.hear e := by
      cases e with
      | finish reason => cases he
      | _ => rfl
    rw [List.foldl_cons, List.foldl_cons, hstep, ih fun e he => h e (List.mem_cons_of_mem _ he)]

theorem texts_events (d : Delta) : String.join (d.events.filterMap StreamEvent.text?) = d.content.getD "" := by
  have hcalls : (d.calls.map fun w => StreamEvent.call w.fragment).filterMap StreamEvent.text? = [] := by
    rw [List.filterMap_map]
    exact List.filterMap_eq_nil_iff.2 fun w _ => rfl
  rw [Delta.events, List.filterMap_append, hcalls, List.append_nil]
  cases d.content with
  | none => rfl
  | some s =>
    by_cases hs : s.isEmpty = true
    · obtain rfl := String.isEmpty_iff.1 hs
      rfl
    · simp [Option.filter, hs, StreamEvent.text?]

theorem join_texts (deltas : List Delta) : String.join ((deltas.flatMap Delta.events).filterMap StreamEvent.text?)
    = String.join (deltas.filterMap Delta.content) := by
  induction deltas with
  | nil => rfl
  | cons d deltas ih =>
    rw [List.flatMap_cons, List.filterMap_append, String.join_append, texts_events, ih, List.filterMap_cons]
    cases d.content with
    | none => exact String.empty_append
    | some s => exact String.join_cons.symm

theorem fragments_events (deltas : List Delta) : (deltas.flatMap Delta.events).filterMap StreamEvent.fragment?
    = (deltas.flatMap Delta.calls).map WrittenFragment.fragment := by
  induction deltas with
  | nil => rfl
  | cons d deltas ih =>
    have htext : ((d.content.filter fun s => !s.isEmpty).map StreamEvent.text).toList.filterMap StreamEvent.fragment?
        = [] := by
      refine List.filterMap_eq_nil_iff.2 fun e he => ?_
      obtain ⟨s, -, rfl⟩ := Option.map_eq_some_iff.1 (Option.mem_toList.1 he)
      rfl
    have hcalls : (d.calls.map fun w => StreamEvent.call w.fragment).filterMap StreamEvent.fragment?
        = d.calls.map WrittenFragment.fragment := by
      rw [List.filterMap_map]
      exact congrFun List.filterMap_eq_map d.calls
    rw [List.flatMap_cons, List.filterMap_append, ih, List.flatMap_cons, List.map_append, Delta.events,
      List.filterMap_append, htext, hcalls, List.nil_append]

/-- A turn that is streamed comes out as it was written, however its calls were cut into fragments, the fragments and
the texts put into chunks and the octets cut into pieces. -/
theorem toMessage_transcript {calls : List ToolCall} {cut : ToolCall → List WrittenFragment}
    (hcut : ∀ c ∈ calls, CutOf c ((cut c).map WrittenFragment.fragment)) (hids : (calls.map ToolCall.id).Nodup)
    {deltas : List Delta} {last : Delta} (hdeltas : (deltas ++ [last]).flatMap Delta.calls = calls.flatMap cut)
    (hfits : ∀ l ∈ Octets.lines (Utf8.encode (transcript deltas last)), lineLength l ≤ maxLine) {pieces : List Octets}
    (hpieces : pieces.flatten = Utf8.encode (transcript deltas last)) :
    ((feed pieces .complete).events.foldl Turn.receive {}).toMessage
      = { Message.assistant (String.join ((deltas ++ [last]).filterMap Delta.content)) with toolCalls := calls } := by
  obtain ⟨events, hevents⟩ : ∃ events, (deltas ++ [last]).flatMap Delta.events = events := ⟨_, rfl⟩
  have hfeed : feed pieces .complete = ⟨events ++ [.finish Turn.toolCallsReason] ++ [.done], false⟩ := by
    have hnone : ¬ Overlong maxLine pieces.flatten := by
      rintro ⟨l, hl, hlong⟩
      rw [hpieces] at hl
      exact Nat.not_lt.2 (hfits l hl) hlong
    rw [feed_of_fits hnone, hpieces, told_transcript, hevents]
  have hgoing : ∀ e ∈ events, e.isFinish = false := hevents ▸ fun e he => isFinish_of_mem_flatMap he
  -- What the events in front of the reason make of a turn.
  obtain ⟨t, ht⟩ : ∃ t, events.foldl Turn.hear {} = t := ⟨_, rfl⟩
  have hcontent : t.content = String.join ((deltas ++ [last]).filterMap Delta.content) := by
    rw [← ht, ← hevents, Turn.foldl_hear_content, join_texts]
    exact String.empty_append
  have hcalls : t.calls = calls := by
    rw [← ht, ← hevents, Turn.foldl_hear_calls, fragments_events, hdeltas, List.map_flatMap]
    exact assembled_cuts hcut hids
  have hreason : t.reason = none := by
    rw [← ht, Turn.foldl_hear_reason]
  have hturn : (feed pieces .complete).events.foldl Turn.receive {} = t.finish Turn.toolCallsReason := by
    rw [hfeed, List.append_assoc, List.foldl_append, foldl_receive hgoing, ht]
    rfl
  rw [hturn, Turn.toMessage, Turn.requestsTools, Turn.finish, hreason]
  dsimp only
  rw [hcontent, hcalls]
  cases calls <;> rfl

/-- Two calls. The first one's name and arguments are cut. -/
def cutCalls : List ToolCall :=
  [.function "a" "list_pods" "\x7b\"namespace\":\"caf\u00e9\t\"\x7d", .function "b" "get_node" ""]

def fragmentsOf (c : ToolCall) : List WrittenFragment :=
  if c.id = "a" then
    [{ index := some 0, id := some "a", kind := some "function", name := some "list_", arguments := some "" },
      { index := some 0, name := some "pods", arguments := some "\x7b\"namespace\":\"caf" },
      { arguments := some "\u00e9\t\"\x7d" }]
  else [{ index := some 1, id := some "b", name := some "get_node" }]

/-- Text around the fragments, the last fragment of one call and the only one of the other in one chunk. -/
def cutDeltas : List Delta :=
  [{ content := some "Let me\n" }, { calls := (fragmentsOf (.function "a" "" "")).take 2 },
    { content := some "look."
      calls := (fragmentsOf (.function "a" "" "")).drop 2 ++ fragmentsOf (.function "b" "" "") }]

theorem toMessage_cutDeltas :
    (∀ c ∈ cutCalls, CutOf c ((fragmentsOf c).map WrittenFragment.fragment))
    ∧ (cutCalls.map ToolCall.id).Nodup
    ∧ (cutDeltas ++ [({} : Delta)]).flatMap Delta.calls = cutCalls.flatMap fragmentsOf
    ∧ (∀ l ∈ Octets.lines (Utf8.encode (transcript cutDeltas {})), lineLength l ≤ maxLine)
    ∧ ((feed ((Utf8.encode (transcript cutDeltas {})).map fun b => [b]) .complete).events.foldl
        Turn.receive {}).toMessage
      = { Message.assistant "Let me\nlook." with toolCalls := cutCalls } := by
  have hcut : ∀ c ∈ cutCalls, CutOf c ((fragmentsOf c).map WrittenFragment.fragment) := by
    simp only [cutCalls, List.forall_mem_cons]
    exact ⟨⟨rfl, rfl, by decide, by decide, by decide⟩, ⟨rfl, rfl, by decide, by decide, by decide⟩,
      List.forall_mem_nil _⟩
  have hids : (cutCalls.map ToolCall.id).Nodup := by decide
  have hdeltas : (cutDeltas ++ [({} : Delta)]).flatMap Delta.calls = cutCalls.flatMap fragmentsOf := by decide
  have hfits : ∀ l ∈ Octets.lines (Utf8.encode (transcript cutDeltas {})), lineLength l ≤ maxLine := by
    rw [lines_transcript]
    simp only [Utf8.encode_eq, toList_dataLine]
    decide +kernel
  have htext : String.join ((cutDeltas ++ [({} : Delta)]).filterMap Delta.content) = "Let me\nlook." := by decide
  have hmessage := toMessage_transcript hcut hids hdeltas hfits (List.flatMap_singleton' _)
  rw [htext] at hmessage
  exact ⟨hcut, hids, hdeltas, hfits, hmessage⟩

end Helmsman
