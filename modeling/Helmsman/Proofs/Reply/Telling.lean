import Helmsman.Proofs.Estate.Listing
import Helmsman.Proofs.Reply.Pace
/-!
# What a reply tells

The caller of a reply with a deadline hears text and calls, each call right before its result, and at the very end that
the reply is done. One error at most comes right before that. A call stays without its result only where it is the last
thing heard before the end, and then the reply has been called off or its time is up. The caller of a reply that breaks
down hears no end at all. It does so if its deadline is beyond what the clock can tell, and then nothing is heard of it,
or over a call that lists pods whose restarts cannot be added up, and then that call is the last thing heard.
-/

namespace Helmsman

namespace Course

def events (c : Course) : List Progress := c.steps.map Step.progress

theorem length_events (c : Course) : c.events.length = c.moments.length := by
  rw [events, steps, List.length_map, List.length_map]

theorem events_foldl_emit (pace : Nat → Nat) (made : List Step) (c : Course) :
    (made.foldl (emit pace) c).events = c.events ++ made.map Step.progress := by
  rw [events, steps_foldl_emit, List.map_append]
  rfl

end Course

namespace Reply

variable {a : Assignment}

/-- Text and calls with their results, in any order. -/
inductive Orderly : List Progress → Prop
  | nil : Orderly []
  | content {es : List Progress} (h : Orderly es) (text : String) : Orderly (es ++ [.content text])
  | call {es : List Progress} (h : Orderly es) (id name : String) (arguments result : Json) :
    Orderly (es ++ [.toolCall id name arguments, .toolResult id name result])

/-- All that is heard of a reply from its start to its end. The clock tells when it goes no further. -/
inductive Complete (l : Limits) (clock : Nat) : List Progress → Prop
  | closed {es : List Progress} (h : Orderly es) : Complete l clock (es ++ [.done])
  | failed {es : List Progress} (h : Orderly es) (message : String) : Complete l clock (es ++ [.error message, .done])
  /-- Called off before the result of a call. -/
  | calledOff {es : List Progress} (h : Orderly es) (id name : String) (arguments : Json)
    (fired : l.cancellation.Fired (es.length + 1) clock) : Complete l clock (es ++ [.toolCall id name arguments, .done])
  /-- Out of time before the result of a call. -/
  | late {es : List Progress} (h : Orderly es) (id name : String) (arguments : Json) {timeout : Nat}
    (due : l.deadline = some timeout) (passed : timeout ≤ clock) :
    Complete l clock (es ++ [.toolCall id name arguments, .error deadlineMessage, .done])

/-- All that is heard of a reply that breaks down where it stands. -/
inductive BrokenOff (a : Assignment) (c : Course) : List Progress → Prop
  /-- There is no time on the clock for its deadline. -/
  | unscheduled (undatable : a.datable = false) : BrokenOff a c []
  /-- The call that was announced last breaks down. -/
  | overflowed {es : List Progress} (h : Orderly es) (call : ToolCall) (breaks : (c.run a call).1 = .error .overflow) :
    BrokenOff a c (es ++ [(Step.call call).progress])

theorem Complete.getLast? {l : Limits} {clock : Nat} {es : List Progress} (h : Complete l clock es) :
    es.getLast? = some .done := by
  cases h <;> simp [List.getLast?_append]

namespace Orderly

theorem texts {es : List Progress} (h : Orderly es) (texts : List String) :
    Orderly (es ++ (texts.map Step.content).map Step.progress) := by
  induction texts generalizing es with
  | nil => rwa [List.map_nil, List.map_nil, List.append_nil]
  | cons text texts ih =>
    have htext := ih (h.content text)
    rwa [List.append_assoc] at htext

theorem results {es : List Progress} (h : Orderly es) (results : List (ToolCall × String)) :
    Orderly (es ++ (results.flatMap told).map Step.progress) := by
  induction results generalizing es with
  | nil => rwa [List.flatMap_nil, List.map_nil, List.append_nil]
  | cons p results ih =>
    have hcall := ih (h.call p.1.id p.1.name (embedJson p.1.arguments) (embedJson p.2))
    rw [List.append_assoc] at hcall
    rwa [List.flatMap_cons, List.map_append]

end Orderly

theorem Leads.events {c c' : Course} {made : List Step} (h : Leads a c made c') :
    c'.events = c.events ++ made.map Step.progress := by
  rw [Course.events, h.steps, List.map_append]
  rfl

theorem Tells.orderly {c c' : Course} (h : Tells a c c') (horderly : Orderly c.events) : Orderly c'.events := by
  obtain ⟨texts, hleads⟩ := h
  rw [hleads.events]
  exact horderly.texts texts

/-- A round that is begun in order and followed to where all its calls have results, and beyond. -/
theorem Leads.orderly {c c' : Course} {texts : List String} {results : List (ToolCall × String)} {made : List Step}
    (h : Leads a c (texts.map .content ++ (results.flatMap told ++ made)) c') (horderly : Orderly c.events) :
    ∃ es, Orderly es ∧ c'.events = es ++ made.map Step.progress := by
  refine ⟨_, (horderly.texts texts).results results, ?_⟩
  rw [h.events, List.map_append, List.map_append, List.append_assoc, List.append_assoc]

/-- What is heard of a reply that goes no further, its last steps included. -/
structure Heard (a : Assignment) (halt : Option Halt) (c : Course) : Prop where
  complete : halt ≠ some .crashed → Complete a.limits c.standing.clock (close a halt c).events
  brokenOff : halt = some .crashed → BrokenOff a c (close a halt c).events

theorem heard_of_orderly {c : Course} {halt : Option Halt} (horderly : Orderly c.events)
    (hstuck : halt ≠ some .stuck) (hcrashed : halt ≠ some .crashed) : Heard a halt c where
  complete _ := by
    rw [close, Course.events_foldl_emit]
    match halt, hstuck, hcrashed with
    | none, _, _ | some (.interrupted .cancelled), _, _ => exact .closed horderly
    | some (.interrupted .deadline), _, _ => exact .failed horderly deadlineMessage
    | some (.failed message), _, _ => exact .failed horderly message
  brokenOff hhalt := absurd hhalt hcrashed

theorem complete_of_struck {c : Course} {es : List Progress} {call : ToolCall} {i : Interrupt} (horderly : Orderly es)
    (hevents : c.events = es ++ [(Step.call call).progress]) (hstruck : a.limits.Struck c i) :
    Complete a.limits c.standing.clock (close a (some (.interrupted i)) c).events := by
  rw [close, Course.events_foldl_emit, hevents, List.append_assoc]
  cases i with
  | cancelled =>
    refine .calledOff horderly call.id call.name (embedJson call.arguments) ?_
    have hlength : es.length + 1 = c.moments.length := by
      rw [← Course.length_events, hevents, List.length_append]
      rfl
    rw [hlength]
    exact hstruck
  | deadline =>
    obtain ⟨timeout, hdue, hpassed⟩ := hstruck
    exact .late horderly call.id call.name (embedJson call.arguments) hdue hpassed

theorem heard_of_severed {c : Course} {es : List Progress} {call : ToolCall} {h : Halt} (horderly : Orderly es)
    (hevents : c.events = es ++ [(Step.call call).progress]) (hsevered : Severed a call c h) :
    Heard a (some h) c := by
  cases hsevered with
  | interrupted hstruck => exact ⟨fun _ => complete_of_struck horderly hevents hstruck, fun hhalt => by cases hhalt⟩
  | crashed hbreaks =>
    refine ⟨fun hhalt => absurd rfl hhalt, fun _ => ?_⟩
    show BrokenOff a c c.events
    rw [hevents]
    exact .overflowed horderly call hbreaks

theorem Rounded.orderly {n : Nat} {messages : List Message} {next : Option (List Message)} {c c' : Course}
    (h : Rounded a n messages c (.ok next) c') (horderly : Orderly c.events) : Orderly c'.events := by
  cases h with
  | satisfied tells => exact tells.orderly horderly
  | @answered _ _ _ texts results _ _ _ _ hleads =>
    have hleads' : Leads a (c.ask messages) (texts.map .content ++ (results.flatMap told ++ [])) c' := by
      rwa [List.append_nil]
    obtain ⟨es, hes, hevents⟩ := hleads'.orderly horderly
    rwa [hevents, List.map_nil, List.append_nil]

theorem Rounded.heard {n : Nat} {messages : List Message} {halt : Halt} {c c' : Course} {timeout : Nat}
    (h : Rounded a n messages c (.error halt) c') (hdeadline : a.limits.deadline = some timeout)
    (horderly : Orderly c.events) : Heard a (some halt) c' := by
  have hquits : ∀ {c₁ : Course}, Quits a c₁ halt c' → Orderly c₁.events → Heard a (some halt) c' := by
    intro c₁ hquits horderly
    refine heard_of_orderly (hquits.tells.orderly horderly) ?_ fun hhalt => hquits.whole (Option.some.inj hhalt)
    intro hhalt
    rw [hquits.stuck (Option.some.inj hhalt)] at hdeadline
    exact absurd hdeadline (by simp)
  cases h with
  | unasked quits => exact hquits quits horderly
  | broken quits => exact hquits quits horderly
  | cut _ _ _ hsevered hleads =>
    obtain ⟨es, hes, hevents⟩ := hleads.orderly horderly
    exact heard_of_severed hes hevents hsevered

theorem orderly_carries {timeout : Nat} (hdeadline : a.limits.deadline = some timeout) :
    Carries a (fun _ _ c => Orderly c.events) (Heard a none) (fun halt => Heard a (some halt)) where
  limit horderly := heard_of_orderly horderly (by simp) (by simp)
  satisfied horderly hround := heard_of_orderly (hround.orderly horderly) (by simp) (by simp)
  ended horderly hround := hround.heard hdeadline horderly
  next horderly hround := hround.orderly horderly

theorem ending_heard {a : Assignment} {timeout : Nat} (e : Estate) (hdeadline : a.limits.deadline = some timeout) :
    Heard a (ending a e).1 (ending a e).2 := by
  refine ending_of_carries (fun _ _ c => Orderly c.events) (Heard a) e (orderly_carries hdeadline) ?_ ?_ ?_
  · intro hundatable
    exact ⟨fun hhalt => absurd rfl hhalt, fun _ => .unscheduled hundatable⟩
  · intro f _
    exact heard_of_orderly Orderly.nil (by simp) (by simp)
  · intro text _
    exact Orderly.nil

/-- Whatever the model does, whenever a reply is called off, and however long its caller takes for each step, its events
are text and calls with their results, then perhaps a call whose result the end of the reply cut off, perhaps an error,
and the end itself. Only a reply that breaks down tells no end: it is heard up to the call over which it does, or not at
all. It never does if its deadline is on the clock and the restarts of all pods of the store can be added up. -/
theorem course_complete {a : Assignment} {timeout : Nat} (e : Estate) (hdeadline : a.limits.deadline = some timeout) :
    ((ending a e).1 ≠ some .crashed →
      Complete a.limits (ending a e).2.standing.clock (course a e).events)
    ∧ ((ending a e).1 = some .crashed → BrokenOff a (ending a e).2 (course a e).events)
    ∧ (a.datable = true → e.store.Countable → (ending a e).1 ≠ some .crashed) :=
  ⟨(ending_heard e hdeadline).complete, (ending_heard e hdeadline).brokenOff, ending_ne_crashed⟩

/-- A reply that is called off right behind the announcement of its first call. -/
def cutReply : Assignment where
  scope := ⟨⟨1, "production", "v1.29.0"⟩, "alice"⟩
  history := [.user "Which nodes are there?"]
  model _ := .stream [.call ⟨some "call_1", "list_nodes", "\x7b\x7d"⟩, .finish Turn.toolCallsReason]
  prompt := .file (some "Help.")
  limits := { cancellation := .behind 1, deadline := some defaultTimeout }
  now := ⟨19723, 0, 0⟩

/-- The same reply, not called off but heard by a caller who takes all the time that there is for the first step. -/
def lateReply : Assignment :=
  { cutReply with
    limits := { deadline := some defaultTimeout }
    pace := fun k => if k = 0 then defaultTimeout else 0 }

theorem lateReply_complete :
    (cutReply.limits.deadline = some defaultTimeout ∧ cutReply.datable = true ∧ Store.Countable {}
      ∧ Complete cutReply.limits (ending cutReply {}).2.standing.clock (course cutReply {}).events)
    ∧ (lateReply.limits.deadline = some defaultTimeout
      ∧ Complete lateReply.limits (ending lateReply {}).2.standing.clock (course lateReply {}).events
      ∧ (course lateReply {}).events
        = [.toolCall "call_1" "list_nodes" (embedJson "\x7b\x7d"), .error deadlineMessage, .done]) := by
  obtain ⟨hcut, -, hwhole⟩ := course_complete (a := cutReply) {} rfl
  obtain ⟨hlate, -, hwhole'⟩ := course_complete (a := lateReply) {} rfl
  have hstore : Store.Countable {} := by decide
  have hdatable : cutReply.datable = true := by decide
  have hsteps : (course lateReply {}).steps
      = [.call (.function "call_1" "list_nodes" "\x7b\x7d"), .failure deadlineMessage, .done] := by decide +kernel
  refine ⟨⟨rfl, hdatable, hstore, hcut (hwhole hdatable hstore)⟩, rfl, hlate (hwhole' (by decide) hstore), ?_⟩
  rw [Course.events, hsteps]
  rfl

/-- A reply that lists the pods of a store in which one was restarted too often. -/
def podLister : Assignment where
  scope := Estate.onlooker
  history := [.user "Which pods are there?"]
  model _ := .stream [.call ⟨some "call_1", "list_pods", "\x7b\x7d"⟩, .finish Turn.toolCallsReason]
  prompt := .file (some "Help.")
  limits := { deadline := some defaultTimeout }
  now := ⟨19723, 0, 0⟩

/-- The same reply with more time than the clock can tell. -/
def endlessLister : Assignment := { podLister with limits := { deadline := some clockEnd } }

/-- The one is heard up to the call, and the other is not heard at all. -/
theorem podLister_breaks :
    (course podLister (Estate.restarting [2147483647, 1])).events
      = [.toolCall "call_1" "list_pods" (embedJson "\x7b\x7d")]
    ∧ (∀ clock, ¬ Complete podLister.limits clock (course podLister (Estate.restarting [2147483647, 1])).events)
    ∧ (course endlessLister {}).events = []
    ∧ ∀ clock, ¬ Complete endlessLister.limits clock (course endlessLister {}).events := by
  have hsteps : (course podLister (Estate.restarting [2147483647, 1])).steps
      = [.call (.function "call_1" "list_pods" "\x7b\x7d")] := by decide +kernel
  have hbreaks : (course podLister (Estate.restarting [2147483647, 1])).events
      = [.toolCall "call_1" "list_pods" (embedJson "\x7b\x7d")] := by
    rw [Course.events, hsteps]
    rfl
  have hdatable : endlessLister.datable = false := by decide
  have hsilent : (course endlessLister {}).events = [] := by
    rw [(course_of_not_datable hdatable {}).2]
    rfl
  refine ⟨hbreaks, fun clock hcomplete => ?_, hsilent, fun clock hcomplete => ?_⟩
  · have hlast := hcomplete.getLast?
    rw [hbreaks] at hlast
    cases hlast
  · have hlast := hcomplete.getLast?
    rw [hsilent] at hlast
    cases hlast

end Reply

end Helmsman
