import Helmsman.Gateway.Conversation
import Helmsman.Proofs.Stream.Written
/-!
# Frames, passed on and read back

A frame is three lines: the event's name, its data, and an empty line. Whatever texts an event holds, neither its name
nor its data ever breaks a line, so the lines of all frames together are the lines of each frame in turn, and a decoder
gives back just these (`frames_read_back`). The relay passes on the frames in order for as long as there is somebody who
listens (`relay_eq`), however often it looks and however long the listener takes.
-/

namespace Helmsman

open Json (OneLine)

namespace Progress

/-- The lines of an event's frame. -/
def lines (p : Progress) : List String := ["event: " ++ p.name, dataLine p.data, ""]

theorem written_lines (p : Progress) : written p.lines = p.frame := by
  have hempty : "" ++ "\n" = "\n" := rfl
  have hbreak : "\ndata: " = "\n" ++ "data: " := rfl
  have hend : "\n\n" = "\n" ++ "\n" := rfl
  rw [written, lines, frame, dataLine, hbreak, hend]
  simp only [List.map_cons, List.map_nil, String.join_cons, String.join_nil, String.append_empty, hempty,
    String.append_assoc]

theorem written_flatMap_lines (events : List Progress) :
    written (events.flatMap lines) = String.join (events.map frame) := by
  induction events with
  | nil => rfl
  | cons p events ih => rw [List.flatMap_cons, written_append, written_lines, ih, List.map_cons, String.join_cons]

theorem oneLine_name (p : Progress) : OneLine ("event: " ++ p.name).toList := by
  cases p <;> (rw [name]; decide)

theorem oneLine_of_mem_lines {p : Progress} {l : String} (h : l ∈ p.lines) : OneLine l.toList := by
  simp only [lines, List.mem_cons, List.not_mem_nil, or_false] at h
  obtain rfl | rfl | rfl := h
  · exact p.oneLine_name
  · exact oneLine_dataLine p.data
  · exact fun c hc => absurd hc List.not_mem_nil

theorem data_object (p : Progress) : ∃ members, p.data = .object members := by
  cases p <;> exact ⟨_, rfl⟩

theorem ofLine?_data (p : Progress) : DataLine.ofLine? (dataLine p.data) = some (.data p.data.render) := by
  obtain ⟨members, hdata⟩ := p.data_object
  rw [hdata, ofLine?_dataLine]

end Progress

namespace Gateway

/-! ### The relay -/

theorem Listener.present_of_le {l : Listener} {time later : Nat} (hle : time ≤ later) (h : l.present later = true) :
    l.present time = true := by
  rw [present] at h ⊢
  cases hleaves : l.leaves with
  | none => rfl
  | some t =>
    rw [hleaves] at h
    have : later < t := of_decide_eq_true h
    exact decide_eq_true (by omega)

/-- Who is there when a step is made was there at all heartbeats before. -/
theorem awaits_of_present (c : ChatSettings) {l : Listener} {time made : Nat} (h : l.present made = true) :
    awaits c l time made = true := by
  fun_induction awaits c l time made with
  | case1 => rfl
  | case2 time hlater ih => rw [l.present_of_le (by omega) h, ih, Bool.and_true]

/-- Every frame is passed on to somebody who is there to take each. -/
theorem relay_eq (c : ChatSettings) {l : Listener} {pace : Nat → Nat} (time : Nat) {moments : List Moment}
    (h : ∀ (k : Nat) (m : Moment), moments[k]? = some m → l.present (m.standing.clock + pace k) = true) :
    relay c l pace time moments = moments.map fun m => m.step.progress.frame := by
  induction moments generalizing pace time with
  | nil => rfl
  | cons m rest ih =>
    have htaken := h 0 m rfl
    have hmade := l.present_of_le (Nat.le_add_right m.standing.clock (pace 0)) htaken
    dsimp only [relay]
    rw [awaits_of_present c hmade, htaken, Bool.and_self, if_pos rfl, List.map_cons,
      ih _ fun k m' hm' => h (k + 1) m' hm']

/-- Who leaves before the end has been passed the first frames, none of them twice or out of turn. -/
theorem relay_prefix (c : ChatSettings) (l : Listener) (pace : Nat → Nat) (time : Nat) (moments : List Moment) :
    relay c l pace time moments <+: moments.map fun m => m.step.progress.frame := by
  induction moments generalizing pace time with
  | nil => exact List.prefix_refl []
  | cons m rest ih =>
    rw [relay, List.map_cons]
    split
    · exact List.prefix_cons_inj _ |>.2 (ih _ _)
    · exact List.nil_prefix

/-- A conversation that is let in has the frames of its reply for a body, if there is a queue for them. -/
theorem body_converse {g : Gateway} {now : Instant} {state : State} {cluster : String} {r : Request} {a : Admission}
    (ha : admission state cluster r = .ok a) :
    (g.converse now state cluster r).1.map Response.body = if g.chat.queues
      then some (String.join ((g.replyCourse now state a).steps.map fun s => s.progress.frame)) else none := by
  rw [converse, ha]
  dsimp only
  split
  · rw [Option.map_some, eventStream, relay_eq g.chat 0 fun _ _ _ => rfl, Course.steps, List.map_map]
    rfl
  · rfl

/-! ### The frames -/

/-- **Frames are read back as they were meant.** Whatever the events hold, a decoder for which no line is too long gives
back the three lines of each, in order and nothing else, wherever the octets were cut, and each data line carries the
event's data. And a conversation that is let in is answered by the frames of its reply, whatever the heartbeat, unless
the queue for them cannot be as long as it is to be: then there is no answer. -/
theorem frames_read_back :
    (∀ (events : List Progress) (limit : Nat) (pieces : List Octets),
      (∀ p ∈ events, ∀ l ∈ p.lines, (Utf8.encode l).length ≤ limit) →
      pieces.flatten = Utf8.encode (String.join (events.map Progress.frame)) →
      ({ limit } : LineDecoder).drain pieces
          = .ok (events.flatMap fun p => ["event: " ++ p.name, "data: " ++ p.data.render, ""])
        ∧ ∀ p ∈ events, DataLine.ofLine? ("data: " ++ p.data.render) = some (.data p.data.render))
    ∧ ∀ (g : Gateway) (now : Instant) (state : State) (cluster : String) (r : Request) (a : Admission),
      admission state cluster r = .ok a →
      ∀ heartbeat : Nat,
        (converse { g with chat := { g.chat with heartbeatMilliseconds := heartbeat } } now state cluster r).1.map
            Response.body
          = if g.chat.queues
            then some (String.join (((g.replyCourse now state a).steps.map Step.progress).map Progress.frame))
            else none := by
  refine ⟨fun events limit pieces hfits hpieces => ⟨?_, fun p _ => p.ofLine?_data⟩, ?_⟩
  · have hlines : ∀ l ∈ events.flatMap Progress.lines, OneLine l.toList := by
      intro l hl
      obtain ⟨p, -, hp⟩ := List.mem_flatMap.1 hl
      exact Progress.oneLine_of_mem_lines hp
    have hshort : ∀ l ∈ events.flatMap Progress.lines, (Utf8.encode l).length ≤ limit := by
      intro l hl
      obtain ⟨p, hp, hl⟩ := List.mem_flatMap.1 hl
      exact hfits p hp l hl
    rw [← Progress.written_flatMap_lines] at hpieces
    exact LineDecoder.drain_written hlines hshort hpieces
  · intro g now state cluster r a ha heartbeat
    rw [body_converse ha, List.map_map]
    -- Nothing that the reply depends on is a matter of the heartbeat.
    rfl

/-- Texts that would end a line, forge an event, or forge the mark that ends a stream. -/
def forgeries : List Progress :=
  [.content "a\r\n\nevent: done\ndata: [DONE]\n\n",
    .toolCall "c\n1" "get\rlogs"
      (.object [("note", .string "[DONE]\r"), ("share", .number (.float (.ofRatio false 3 2)))]),
    .toolResult "c\n1" "" (.string "data: \x7b\x7d\n\n"), .error "[DONE]\n", .done]

/-- A greeting to the assistant of a shop. -/
def greetingRequest : Request where
  method := "POST"
  target := "/clusters/1/ai/chat"
  headers := [("content-type", Utf8.encode "application/json")]
  body := Utf8.encode "\x7b\"messages\":[\x7b\"role\":\"user\",\"content\":\"hi\"\x7d]\x7d"

def greeted : State where
  config := { apiKey := "k", enabled := true }
  estate := { store := .ofClusters [{ id := 1, name := "shop", version := "v1.29.2" }] }

/-- A gateway whose endpoint never answers, with a heartbeat. -/
def forsaken (heartbeat : Nat) : Gateway where
  network := fun _ => .silent
  chat := { heartbeatMilliseconds := heartbeat }

theorem forgeries_read_back :
    (∀ p ∈ forgeries, ∀ l ∈ p.lines, (Utf8.encode l).length ≤ 100)
    ∧ ({ limit := 100 } : LineDecoder).drain ((Utf8.encode (String.join (forgeries.map Progress.frame))).map ([·]))
      = .ok (forgeries.flatMap fun p => ["event: " ++ p.name, "data: " ++ p.data.render, ""])
    ∧ ∃ a, admission greeted "1" greetingRequest = .ok a
      ∧ ∀ heartbeat : Nat,
        ((forsaken heartbeat).converse ⟨0, 0, 0⟩ greeted "1" greetingRequest).1.map Response.body
          = some (String.join ((((forsaken 500).replyCourse ⟨0, 0, 0⟩ greeted a).steps.map Step.progress).map
            Progress.frame)) := by
  have hfits : ∀ p ∈ forgeries, ∀ l ∈ p.lines, (Utf8.encode l).length ≤ 100 := by
    simp only [Progress.lines, List.forall_mem_cons, Utf8.encode_eq, toList_dataLine]
    decide +kernel
  have hadmitted : (admission greeted "1" greetingRequest).isOk = true := by decide +kernel
  obtain ⟨hframes, hbody⟩ := frames_read_back
  obtain ⟨hdrained, -⟩ := hframes forgeries 100 _ hfits (List.flatMap_singleton' _)
  cases ha : admission greeted "1" greetingRequest with
  | error response => rw [ha] at hadmitted; cases hadmitted
  | ok a => exact ⟨hfits, hdrained, a, rfl, hbody (forsaken 500) ⟨0, 0, 0⟩ greeted "1" greetingRequest a ha⟩

end Gateway

end Helmsman
