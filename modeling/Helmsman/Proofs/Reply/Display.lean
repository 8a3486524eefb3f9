import Helmsman.Proofs.Estate.Report
import Helmsman.Proofs.Json.OneLine
import Helmsman.Proofs.Reply.Effects
import Helmsman.Proofs.Reply.Pace
import Helmsman.Proofs.Reply.Telling
import Mathlib.Data.List.Basic
/-!
# The console sees what the model sees

The result of a call is written once and goes two ways. The model gets the text, and the console the value that is read
back from it. Reading back is harmless for an object that stands for itself (`Displayed`), and along a reply every
result is the text of such an object, whatever becomes of the call (`Shows`).

The other half is where the texts go. The requests of a reply are told apart by number, and each moment keeps the
requests that were made by then. So it is known of a request which results were told before it, and it holds these as
messages, in order, and no others behind the history (`Relayed`).
-/

namespace Helmsman

open Json

/-! ### Results as they are shown -/

/-- An object is shown as the object that was written. -/
theorem embedJson_render {members : List (String × Json)} (h : Stable depthLimit (.object members)) :
    embedJson (Json.object members).render = .object members := by
  obtain ⟨cs, hcs⟩ := chars_object members
  have hfirst : (Json.object members).render.toList = '\x7b' :: (cs ++ ['\x7d']) := by
    rw [render, String.toList_ofList, hcs]
    rfl
  rw [embedJson, trim_object, hfirst]
  dsimp only
  rw [if_pos (by decide), h.parse_render]
  rfl

/-- A text that is shown as an object, which is written as just that text. -/
def Displayed (text : String) : Prop := ∃ members, embedJson text = .object members ∧ (object members).render = text

theorem Json.StableObject.displayed {j : Json} (h : StableObject j) : Displayed j.render := by
  obtain ⟨members, rfl⟩ := h.object
  exact ⟨members, embedJson_render h.stable, rfl⟩

/-- The message to the model that goes with a step. -/
def Step.answer? : Step → Option Message
  | .result c text => some (.tool c.id text)
  | _ => none

/-- The message that tells the model what the console is shown. -/
def Progress.answer? : Progress → Option Message
  | .toolResult id _ result => some (.tool id result.render)
  | _ => none

/-- Whether a message answers a call. -/
def Message.answers (m : Message) : Bool := m.role == .tool

def Step.Shown (s : Step) : Prop := ∀ call text, s = .result call text → Displayed text

theorem Step.Shown.answer? {s : Step} (h : s.Shown) : s.progress.answer? = s.answer? := by
  cases s with
  | result call text =>
    obtain ⟨members, hshown, hwritten⟩ := h call text rfl
    rw [Step.progress, Progress.ofToolResult, hshown, Progress.answer?, hwritten, Step.answer?]
  | content | call | failure | done => rfl

theorem filterMap_answer? {steps : List Step} (h : ∀ s ∈ steps, s.Shown) :
    (steps.filterMap fun s => s.progress.answer?) = steps.filterMap Step.answer? :=
  List.filterMap_congr fun s hs => (h s hs).answer?

namespace Course

/-- The steps that are told before request `k` is made, where requests are counted from 0. -/
def stepsBefore (c : Course) (k : Nat) : List Step :=
  (c.moments.filter fun m => m.standing.requests.length ≤ k).map Moment.step

theorem mem_steps_of_mem_stepsBefore {c : Course} {k : Nat} {s : Step} (h : s ∈ c.stepsBefore k) : s ∈ c.steps := by
  obtain ⟨m, hm, rfl⟩ := List.mem_map.1 h
  exact List.mem_map_of_mem (List.mem_filter.1 hm).1

end Course

namespace Reply

variable {a : Assignment}

/-- Whatever a call is answered, its result is displayed. -/
theorem displayed_resultText {e : Estate} (he : e.store.Sound) {now : Instant} {scope : Scope} {name raw : String}
    {cancelled : Bool} {answer : Except ToolError String}
    (h : (e.execute now scope name raw cancelled).1 = answer.mapError .tool) : Displayed (resultText answer) := by
  obtain ⟨-, hanswer⟩ := Estate.execute_sound he now scope name raw cancelled
  cases answer with
  | ok text =>
    obtain ⟨j, hj, rfl⟩ := hanswer text h
    exact hj.displayed
  | error error =>
    apply StableObject.displayed
    refine .ofMembers ?_
    simp only [List.forall_mem_cons]
    exact ⟨.string _ _, List.forall_mem_nil _⟩

/-- What has been told since a course is shown, and the store is sound still. -/
structure Shows (c₀ c : Course) : Prop where
  store : c.estate.store.Sound
  told : ∃ made, c.steps = c₀.steps ++ made ∧ ∀ s ∈ made, s.Shown

namespace Shows

theorem refl {c : Course} (h : c.estate.store.Sound) : Shows c c :=
  ⟨h, [], (List.append_nil _).symm, List.forall_mem_nil _⟩

theorem emit {c₀ c : Course} {s : Step} (pace : Nat → Nat) (h : Shows c₀ c) (hs : s.Shown) :
    Shows c₀ (c.emit pace s) where
  store := h.store
  told := by
    obtain ⟨made, hsteps, hmade⟩ := h.told
    refine ⟨made ++ [s], ?_, List.forall_mem_append.2 ⟨hmade, List.forall_mem_singleton.2 hs⟩⟩
    rw [Course.steps_emit, hsteps, List.append_assoc]

theorem foldl_emit {c₀ c : Course} {steps : List Step} (pace : Nat → Nat) (h : Shows c₀ c)
    (hsteps : ∀ s ∈ steps, s.Shown) : Shows c₀ (steps.foldl (Course.emit pace) c) := by
  induction steps generalizing c with
  | nil => exact h
  | cons s steps ih =>
    obtain ⟨hs, hrest⟩ := List.forall_mem_cons.1 hsteps
    exact ih (h.emit pace hs) hrest

theorem withResult {c₀ c : Course} (h : Shows c₀ c) {call : ToolCall} {answer : Except ToolError String}
    (hanswer : (c.run a call).1 = answer.mapError .tool) : Shows c₀ (c.withResult a call answer) := by
  have hexecuted : Shows c₀ (c.putEstate (c.run a call).2) :=
    ⟨(Estate.execute_sound h.store a.now a.scope call.name call.arguments false).1, h.told⟩
  refine hexecuted.emit a.pace fun call' text heq => ?_
  obtain ⟨-, rfl⟩ := Step.result.inj heq
  exact displayed_resultText h.store hanswer

theorem paced (c₀ : Course) : Paced a (Shows c₀) (Shows c₀) (Shows c₀) fun _ => Shows c₀ where
  told h := h
  called h := h
  pause _ h := Act.ensures_pause (fun _ => ⟨h.store, h.told⟩) (fun _ _ _ => ⟨h.store, h.told⟩) fun _ _ => h
  ask _ h := ⟨h.store, h.told⟩
  content _ h := h.emit a.pace fun _ _ heq => (nomatch heq)
  call _ h := h.emit a.pace fun _ _ heq => (nomatch heq)
  result hanswer h := h.withResult hanswer
  crashed _ h := h
  cancelled h := h
  failed _ h := h

theorem close {c₀ c : Course} (h : Shows c₀ c) (halt : Option Halt) : Shows c₀ (close a halt c) := by
  apply h.foldl_emit
  intro s hs call text heq
  subst heq
  have hanswered : call ∈ answered (closing halt) := List.mem_filterMap.2 ⟨_, hs, rfl⟩
  rw [answered_closing] at hanswered
  exact absurd hanswered List.not_mem_nil

end Shows

theorem course_shows (a : Assignment) {e : Estate} (he : e.store.Sound) : Shows (.start e) (course a e) := by
  have hstart : Shows (.start e) (.start e) := .refl he
  have hshows : Shows (.start e) (ending a e).2 := ending_of_ensures (P := fun _ => Shows (.start e))
    ((Shows.paced (.start e)).conversation e hstart (fun _ => hstart) (fun _ _ => hstart) fun _ h => h)
  exact hshows.close (ending a e).1

/-! ### Results as the model gets them -/

/-- A conversation that holds behind the history the answers of some steps, and no others. -/
def Relays (a : Assignment) (messages : List Message) (steps : List Step) : Prop :=
  ∃ text turns, messages = .system text :: a.history ++ turns
    ∧ turns.filter Message.answers = steps.filterMap Step.answer?

theorem filterMap_answer?_texts (texts : List String) : (texts.map Step.content).filterMap Step.answer? = [] := by
  induction texts with
  | nil => rfl
  | cons text texts ih => exact ih

theorem filterMap_answer?_told (results : List (ToolCall × String)) :
    (results.flatMap told).filterMap Step.answer? = results.map answer := by
  induction results with
  | nil => rfl
  | cons p results ih =>
    rw [List.flatMap_cons, List.filterMap_append, ih]
    rfl

theorem filter_answers (results : List (ToolCall × String)) :
    (results.map answer).filter Message.answers = results.map answer := by
  refine List.filter_eq_self.2 fun m hm => ?_
  obtain ⟨p, -, rfl⟩ := List.mem_map.1 hm
  rfl

/-- The round of an answered turn adds the answers that it tells of. -/
theorem Relays.append {messages : List Message} {steps : List Step} (h : Relays a messages steps) (text : String)
    (calls : List ToolCall) (texts : List String) (results : List (ToolCall × String)) :
    Relays a (messages ++ { Message.assistant text with toolCalls := calls } :: results.map answer)
      (steps ++ (texts.map .content ++ results.flatMap told)) := by
  obtain ⟨prompt, turns, rfl, hturns⟩ := h
  refine ⟨prompt, turns ++ { Message.assistant text with toolCalls := calls } :: results.map answer, ?_, ?_⟩
  · rw [List.append_assoc]
  · rw [List.filter_append, hturns, List.filterMap_append, List.filterMap_append, filterMap_answer?_texts,
      filterMap_answer?_told, List.nil_append, List.filter_cons_of_neg (by simp [Message.answers, Message.assistant]),
      filter_answers]

/-- Each request that was made holds the answers that were told before it. No moment knows of a request that is still
to be made. -/
structure Relayed (a : Assignment) (c : Course) : Prop where
  timely : ∀ m ∈ c.moments, m.standing.requests.length ≤ c.requests.length
  asked : ∀ k q, c.requests[k]? = some q → Relays a q (c.stepsBefore k)

namespace Relayed

variable {c c' : Course}

theorem start (e : Estate) : Relayed a (.start e) where
  timely := List.forall_mem_nil _
  asked k q h := absurd h (by simp [Course.start, Course.requests])

/-- What is told behind a request is told before no request up to it. -/
theorem leads {made : List Step} (h : Relayed a c) (hleads : Leads a c made c') : Relayed a c' := by
  obtain ⟨later, hmoments, -, hlater⟩ := hleads.moments
  refine ⟨fun m hm => ?_, fun k q hq => ?_⟩
  · rw [hmoments] at hm
    rw [hleads.requests]
    rcases List.mem_append.1 hm with hm | hm
    · exact h.timely m hm
    · exact Nat.le_of_eq (by rw [hlater m hm])
  · rw [hleads.requests] at hq
    obtain ⟨hk, -⟩ := List.getElem?_eq_some_iff.1 hq
    have hnone : (later.filter fun m => m.standing.requests.length ≤ k) = [] := by
      refine List.filter_eq_nil_iff.2 fun m hm => ?_
      rw [hlater m hm]
      simpa using hk
    have hbefore : c'.stepsBefore k = c.stepsBefore k := by
      rw [Course.stepsBefore, hmoments, List.filter_append, hnone, List.append_nil]
      rfl
    exact hbefore ▸ h.asked k q hq

theorem tells (h : Relayed a c) (htells : Tells a c c') : Relayed a c' := by
  obtain ⟨texts, hleads⟩ := htells
  exact h.leads hleads

/-- The next request is made with all answers so far. -/
theorem ask {messages : List Message} (h : Relayed a c) (hmessages : Relays a messages c.steps) :
    Relayed a (c.ask messages) where
  timely m hm := by
    have hrequests : (c.ask messages).requests = c.requests ++ [messages] := rfl
    rw [hrequests, List.length_append]
    exact Nat.le_add_right_of_le (h.timely m hm)
  asked k q hq := by
    have hrequests : (c.ask messages).requests = c.requests ++ [messages] := rfl
    rw [hrequests, List.getElem?_append] at hq
    split at hq
    · exact h.asked k q hq
    · obtain ⟨hlt, rfl⟩ := List.getElem?_eq_some_iff.1 hq
      have hall : c.stepsBefore k = c.steps := by
        rw [Course.stepsBefore, List.filter_eq_self.2]
        · rfl
        · intro m hm
          have := h.timely m hm
          simp only [decide_eq_true_eq]
          omega
      rw [List.getElem_singleton]
      exact hall.symm ▸ hmessages

end Relayed

theorem Rounded.relayed {n : Nat} {messages : List Message} {c c' : Course} {r : Except Halt (Option (List Message))}
    (h : Rounded a n messages c r c') (hrelayed : Relayed a c) (hmessages : Relays a messages c.steps) :
    Relayed a c' := by
  have hasked := hrelayed.ask hmessages
  cases h with
  | unasked quits => exact hrelayed.tells quits.tells
  | broken quits => exact hasked.tells quits.tells
  | satisfied tells => exact hasked.tells tells
  | cut _ _ _ _ hleads => exact hasked.leads hleads
  | answered _ _ _ hleads => exact hasked.leads hleads

theorem Rounded.relays {n : Nat} {messages messages' : List Message} {c c' : Course}
    (h : Rounded a n messages c (.ok (some messages')) c') (hmessages : Relays a messages c.steps) :
    Relays a messages' c'.steps := by
  cases h with
  | @answered _ text calls texts results _ _ _ _ hleads =>
    have hsteps : c'.steps = c.steps ++ (texts.map .content ++ results.flatMap told) := hleads.steps
    rw [hsteps]
    exact hmessages.append text calls texts results

theorem relayed_carries : Carries a (fun _ messages c => Relayed a c ∧ Relays a messages c.steps) (Relayed a)
    (fun _ => Relayed a) where
  limit h := h.1
  satisfied h hround := hround.relayed h.1 h.2
  ended h hround := hround.relayed h.1 h.2
  next h hround := ⟨hround.relayed h.1 h.2, hround.relays h.2⟩

theorem course_relayed (a : Assignment) (e : Estate) : Relayed a (course a e) := by
  have hending : Relayed a (ending a e).2 := by
    apply ending_of_carries (fun _ messages c => Relayed a c ∧ Relays a messages c.steps) (fun _ => Relayed a) e
      relayed_carries
    · intro _
      exact Relayed.start e
    · intro f _
      exact Relayed.start e
    · intro text _
      exact ⟨Relayed.start e, text, [], (List.append_nil _).symm, rfl⟩
  exact hending.leads (Leads.foldl_emit _ (answered_closing _))

/-! ### Both together -/

/-- A round adds to the conversation the model's turn, and behind it the results that the console is shown meanwhile. -/
theorem round_shows {n : Nat} (hn : n < a.maxRounds) (messages : List Message) {c : Course}
    (hc : c.estate.store.Sound) :
    (round a n messages).Ensures c
      (fun next c' => ∀ messages', next = some messages' → ∃ turn told, turn.answers = false
        ∧ c'.events = c.events ++ told ∧ messages' = messages ++ turn :: told.filterMap Progress.answer?)
      (fun _ _ => True) := by
  have hshows := (Shows.paced c).round hn messages (Shows.refl hc)
  apply ((round_ensures n messages c).and hshows).mono
  · intro next c' h messages' hnext
    obtain ⟨hround, hshows⟩ := h
    subst hnext
    cases hround with
    | @answered _ text calls texts results _ _ _ _ hleads =>
      have hsteps : c'.steps = c.steps ++ (texts.map .content ++ results.flatMap told) := hleads.steps
      obtain ⟨made, htold, hmade⟩ := hshows.told
      obtain rfl : made = texts.map .content ++ results.flatMap told :=
        List.append_cancel_left (htold.symm.trans hsteps)
      have hanswers : ((texts.map Step.content ++ results.flatMap told).map Step.progress).filterMap Progress.answer?
          = results.map answer := by
        rw [List.filterMap_map]
        refine (filterMap_answer? hmade).trans ?_
        rw [List.filterMap_append, filterMap_answer?_texts, filterMap_answer?_told, List.nil_append]
      refine ⟨{ Message.assistant text with toolCalls := calls }, _, rfl, ?_, by rw [hanswers]⟩
      rw [Course.events, hsteps, List.map_append]
      rfl
  · exact fun _ _ _ => trivial

/-- **The console sees what the model sees.** On a sound store, as all that are loaded are, each result that the console
is shown is an object. As it is written it is what the model gets: request `k` is the prompt, the history and turns,
and of the turns those that answer calls are the results shown before it, in order. So is every conversation that a
round leaves behind, whether the model is asked with it or not. And where a round is cut later, so that there is no
conversation, each result is still shown as the object that its text is. -/
theorem course_displays (a : Assignment) {e : Estate} (he : e.store.Sound) :
    (∀ id name result, .toolResult id name result ∈ (course a e).events → ∃ members, result = .object members)
    ∧ (∀ k q, (course a e).requests[k]? = some q → ∃ text turns, q = .system text :: a.history ++ turns
      ∧ turns.filter Message.answers
        = ((course a e).stepsBefore k).filterMap fun s => s.progress.answer?)
    ∧ (∀ n < a.maxRounds, ∀ messages c, c.estate.store.Sound →
      (round a n messages).Ensures c
        (fun next c' => ∀ messages', next = some messages' → ∃ turn told, turn.answers = false
          ∧ c'.events = c.events ++ told ∧ messages' = messages ++ turn :: told.filterMap Progress.answer?)
        (fun _ _ => True))
    ∧ ∀ call text, .result call text ∈ (course a e).steps →
      ∃ members, embedJson text = .object members ∧ (Json.object members).render = text := by
  obtain ⟨made, hsteps, hmade⟩ := (course_shows a he).told
  have hshown : ∀ s ∈ (course a e).steps, s.Shown := by
    rw [hsteps]
    exact hmade
  refine ⟨fun id name result hmem => ?_, fun k q hq => ?_, fun n hn messages c hc => round_shows hn messages hc,
    fun call text hmem => hshown _ hmem call text rfl⟩
  · obtain ⟨s, hs, hresult⟩ := List.mem_map.1 hmem
    cases s with
    | result call text =>
      obtain ⟨members, hmembers, -⟩ := hshown _ hs call text rfl
      obtain ⟨-, -, rfl⟩ := Progress.toolResult.inj hresult
      exact ⟨members, hmembers⟩
    | content | call | failure | done => cases hresult
  · obtain ⟨text, turns, hq, hturns⟩ := (course_relayed a e).asked k q hq
    refine ⟨text, turns, hq, ?_⟩
    rw [filterMap_answer? fun s hs => hshown s (Course.mem_steps_of_mem_stepsBefore hs)]
    exact hturns

/-- A deployment is read, a change to it is left unconfirmed, and a call fails. -/
def threeCalls : Assignment where
  scope := ⟨⟨1, "shop", "v1.29.2"⟩, "alice"⟩
  history := [.user "Scale up the shop."]
  model := .ofList [.stream [.call ⟨some "call_1", "list_deployments", "\x7b\x7d"⟩,
    .call ⟨some "call_2", "scale_deployment",
      "\x7b\"namespace\":\"default\",\"name\":\"web\",\"replicas\":3\x7d"⟩,
    .call ⟨some "call_3", "erase", ""⟩, .finish Turn.toolCallsReason]] (.stream [.text "Shall I?", .done])
  prompt := .file (some "Help.")
  now := ⟨19723, 0, 0⟩

def webShop : Cluster where
  id := 1
  name := "shop"
  version := "v1.29.2"
  deployments := [{ (default : Deployment) with name := "web", ns := "default" }]

def shopEstate : Estate := { store := .ofClusters [webShop] }

theorem shopEstate_sound : shopEstate.store.Sound := by
  have hweb : Deployment.Sound { (default : Deployment) with name := "web", ns := "default" } :=
    ⟨by decide, by decide, by decide, by decide, List.Pairwise.nil⟩
  refine Store.Sound.ofClusters (List.forall_mem_singleton.2 ?_)
  exact {
    pods := List.forall_mem_nil _
    deployments := List.forall_mem_singleton.2 hweb
    nodes := List.forall_mem_nil _
    happenings := List.forall_mem_nil _
    podCount := by decide
    deploymentCount := by decide
    nodeCount := by decide
    serviceCount := by decide
    ingressCount := by decide }

private theorem threeCalls_requests : (course threeCalls shopEstate).requests.length = 2 := by decide +kernel

private theorem threeCalls_results :
    ((((course threeCalls shopEstate).stepsBefore 1).filterMap fun s => s.progress.answer?).map Message.toolCallId)
      = [some "call_1", some "call_2", some "call_3"] := by decide +kernel

/-- The second request holds the three results that were shown before it. -/
theorem threeCalls_displays : shopEstate.store.Sound
    ∧ ∃ q text turns, (course threeCalls shopEstate).requests[1]? = some q
      ∧ q = .system text :: threeCalls.history ++ turns
      ∧ turns.filter Message.answers
        = (((course threeCalls shopEstate).stepsBefore 1).filterMap fun s => s.progress.answer?)
      ∧ (turns.filter Message.answers).map Message.toolCallId = [some "call_1", some "call_2", some "call_3"] := by
  have hq : (course threeCalls shopEstate).requests[1]? = some _ :=
    List.getElem?_eq_getElem (by rw [threeCalls_requests]; decide)
  obtain ⟨text, turns, heq, hturns⟩ := (course_displays threeCalls shopEstate_sound).2.1 1 _ hq
  exact ⟨shopEstate_sound, _, text, turns, hq, heq, hturns, hturns ▸ threeCalls_results⟩

end Reply

end Helmsman
