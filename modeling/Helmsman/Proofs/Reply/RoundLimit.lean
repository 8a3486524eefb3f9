import Helmsman.Proofs.Reply.CallOff
import Helmsman.Proofs.Reply.Effects
import Helmsman.Proofs.Reply.Telling
import Helmsman.Proofs.Reply.Transcript
/-!
# How often the model is asked

A reply asks the model once a round, and of rounds there are no more than allowed. It tells that they are used up if
and only if the model asked for calls in all of them. One direction carries along the rounds what has been asked for
and done so far (`Counted`). For the other the model is known to ask for calls, and so each part of a round can only
come to the end that goes on, or to an interrupt.
-/

namespace Helmsman

/-- The model opens a stream, and the stream asks for the calls. -/
structure Opening.Calls (o : Opening) (calls : List ToolCall) : Prop where
  opened : o.wait ≠ none
  asks : ∃ (beats : List Beat) (text : String), o.outcome = .ok beats ∧ AsksFor beats text calls

theorem AsksFor.split {beats : List Beat} {text : String} {calls : List ToolCall} (h : AsksFor beats text calls) :
    ∃ rest, beats = beforeFinish beats ++ .event (.finish Turn.toolCallsReason) :: rest := by
  obtain ⟨hlt, hreason⟩ := List.getElem?_eq_some_iff.1 h.reason
  have htake : beforeFinish beats = beats.take (beforeFinish beats).length :=
    List.prefix_iff_eq_take.1 (List.takeWhile_prefix _)
  refine ⟨beats.drop ((beforeFinish beats).length + 1), ?_⟩
  rw [← hreason, ← List.drop_eq_getElem_cons hlt, htake, List.length_take_of_le (Nat.le_of_lt hlt),
    List.take_append_drop]

/-- The turn of a stream that asks for calls asks for them. -/
theorem AsksFor.requestsTools {beats : List Beat} {text : String} {calls : List ToolCall}
    (h : AsksFor beats text calls) :
    (((received beats).foldl Turn.hear {}).finish Turn.toolCallsReason).requestsTools = true := by
  have hcalls : ((received beats).foldl Turn.hear {}).calls = calls := by
    rw [h.calls_eq]
    exact Turn.foldl_hear_calls _ {}
  have hreason : ((received beats).foldl Turn.hear {}).reason = none := Turn.foldl_hear_reason _ {}
  simpa [Turn.requestsTools, Turn.finish, hreason, hcalls] using h.calls_ne

namespace Reply

variable {a : Assignment} {e : Estate}

/-! ### The one message for the round limit -/

private theorem first_append {s : String} (t : String) {x : Char} (h : s.toList.head? = some x) :
    (s ++ t).toList.head? = some x := by
  rw [String.toList_append, List.head?_append, h]
  rfl

private theorem ne_roundLimitMessage {s : String} {x : Char} (h : s.toList.head? = some x) (hx : x.isUpper = true) :
    s ≠ roundLimitMessage := by
  rintro rfl
  obtain rfl : 't' = x := Option.some.inj h
  exact absurd hx (by decide)

theorem message_ne_roundLimitMessage (e : ProviderError) : e.message ≠ roundLimitMessage := by
  cases e with
  | request => exact ne_roundLimitMessage (x := 'F') (first_append _ rfl) rfl
  | status => exact ne_roundLimitMessage (x := 'L') (first_append _ (first_append _ (first_append _ rfl))) rfl
  | stream => exact ne_roundLimitMessage (x := 'F') (first_append _ rfl) rfl
  | lineTooLong => exact ne_roundLimitMessage (x := 'S') (first_append _ (first_append _ rfl)) rfl
  | malformed => exact ne_roundLimitMessage (x := 'M') (first_append _ rfl) rfl
  | cancelled => exact ne_roundLimitMessage (x := 'L') rfl rfl

theorem failureMessage_ne_roundLimitMessage (f : Template.Failure) : Prompt.failureMessage f ≠ roundLimitMessage :=
  ne_roundLimitMessage (x := 'F') (first_append _ rfl) rfl

theorem eq_failed_of_mem_closing {halt : Option Halt} (hlimit : .failure roundLimitMessage ∈ closing halt) :
    halt = some (.failed roundLimitMessage) := by
  match halt with
  | none | some (.interrupted .cancelled) | some .stuck | some .crashed => exact absurd hlimit (by simp [closing])
  | some (.interrupted .deadline) => exact absurd hlimit (by decide)
  | some (.failed message) =>
    obtain rfl : roundLimitMessage = message := by simpa [closing] using hlimit
    rfl

/-! ### Rounds that are used up -/

/-- As many requests as allowed, in each of which the model asked for calls, and all of these have their results. -/
structure Spent (a : Assignment) (c : Course) : Prop where
  requests : c.requests.length = a.maxRounds
  answered : ∃ asked : List (List ToolCall), asked.length = a.maxRounds
    ∧ (∀ k calls, asked[k]? = some calls → (a.model k).Calls calls) ∧ answered c.steps = asked.flatten

theorem Spent.close {c : Course} (h : Spent a c) (halt : Option Halt) : Spent a (close a halt c) where
  requests := by
    rw [Reply.close, Course.requests_foldl_emit]
    exact h.requests
  answered := by
    rw [Reply.close, Course.steps_foldl_emit, answered_append, answered_closing, List.append_nil]
    exact h.answered

theorem Spent.calls {c : Course} (h : Spent a c) {k : Nat} (hk : k < a.maxRounds) :
    ∃ calls, (a.model k).Calls calls := by
  obtain ⟨asked, hlength, hcalls, -⟩ := h.answered
  exact ⟨_, hcalls k _ (List.getElem?_eq_getElem (hlength ▸ hk))⟩

/-- Before each round there has been one request a round, and what these have asked for is done. -/
structure Counted (a : Assignment) (e : Estate) (n : Nat) (c : Course) : Prop where
  requests : c.requests.length = n
  opened : ∀ k < n, (a.model k).wait ≠ none
  settled : ∃ asked, Settled a e n c asked

theorem Counted.spent {c : Course} (h : Counted a e a.maxRounds c) : Spent a c where
  requests := h.requests
  answered := by
    obtain ⟨asked, hsettled⟩ := h.settled
    refine ⟨asked, hsettled.count, fun k calls hk => ?_, hsettled.complete⟩
    obtain ⟨hlt, -⟩ := List.getElem?_eq_some_iff.1 hk
    exact ⟨h.opened k (hsettled.count ▸ hlt), hsettled.asks k calls hk⟩

/-- What is known of a reply that goes no further, by the reason why. -/
structure Bounded (a : Assignment) (halt : Option Halt) (c : Course) : Prop where
  requests : c.requests.length ≤ a.maxRounds
  spent : halt = some (.failed roundLimitMessage) → Spent a c
  stuck : halt = some .stuck → a.limits.deadline = none ∧ a.Stalls

/-- No round tells that the rounds are used up, and it waits for ever only if the model does not go on. -/
theorem unlimited_paced : Paced a (fun _ => True) (fun _ => True) (fun _ => True)
    (fun h _ => h ≠ .failed roundLimitMessage ∧ (h = .stuck → a.limits.deadline = none ∧ a.Stalls)) := by
  refine Paced.of_ends (fun wait c hwait => ?_) (fun _ => ⟨by simp, fun h => absurd h (by simp)⟩) (fun e _ => ?_)
    fun _ => ⟨by simp, fun h => absurd h (by simp)⟩
  · exact Act.ensures_pause (fun _ => trivial) (fun _ _ _ => ⟨by simp, fun h => absurd h (by simp)⟩)
      fun hnone hdeadline => ⟨by simp, fun _ => ⟨hdeadline, hwait hnone⟩⟩
  · exact ⟨fun h => message_ne_roundLimitMessage e (Halt.failed.inj h), fun h => absurd h (by simp)⟩

/-- A model that never answers lets no round come to an end of its own. -/
theorem round_of_unopened {n : Nat} (hwait : (a.model n).wait = none) (messages : List Message) (c : Course) :
    (round a n messages).Ensures c (fun _ _ => False) (fun _ _ => True) := by
  have hrequest : (request a n messages).Ensures c (fun _ _ => False) (fun _ _ => True) := by
    rw [request]
    refine Act.ensures_bind (Act.ensures_pause (fun time => ?_) (fun _ _ _ => trivial) fun _ _ => trivial)
    refine Act.ensures_bind (Act.ensures_ask ?_)
    dsimp only
    rw [hwait]
    exact Act.ensures_bind (Act.ensures_pause_none a.limits _)
  rw [round]
  exact hrequest.bind fun _ _ h => h.elim

theorem counted_counts : Counts a (fun n _ => Counted a e n) (Bounded a none) (fun h => Bounded a (some h)) where
  round {n} messages {c} hn hcounted := by
    have hopens : (round a n messages).Ensures c (fun _ _ => (a.model n).wait ≠ none) (fun _ _ => True) := by
      by_cases hwait : (a.model n).wait = none
      · exact (round_of_unopened hwait messages c).mono (fun _ _ => False.elim) fun _ _ _ => trivial
      · exact (unlimited_paced.round hn messages trivial).mono (fun _ _ _ => hwait) fun _ _ _ => trivial
    have hrequests : ∀ {r c'}, Rounded a n messages c r c' → c'.requests.length ≤ a.maxRounds := by
      intro r c' hround
      have hle := hround.requests.length_le
      rw [List.length_append, List.length_singleton, hcounted.requests] at hle
      omega
    apply (((round_ensures n messages c).and hopens).and (unlimited_paced.round hn messages trivial)).mono
    · intro next c' h
      obtain ⟨⟨hround, hopened⟩, -⟩ := h
      cases next with
      | none => exact ⟨hrequests hround, fun h => absurd h (by simp), fun h => absurd h (by simp)⟩
      | some messages' =>
        obtain ⟨asked, hsettled⟩ := hcounted.settled
        refine ⟨by rw [hround.length_requests, hcounted.requests], fun k hk => ?_, hsettled.next hround⟩
        rcases Nat.lt_succ_iff_lt_or_eq.1 hk with hk | rfl
        · exact hcounted.opened k hk
        · exact hopened
    · intro h c' hends
      obtain ⟨⟨hround, -⟩, hlimit, hstuck⟩ := hends
      exact ⟨hrequests hround, fun h => absurd (Option.some.inj h) hlimit, fun h => hstuck (Option.some.inj h)⟩
  limit hcounted := ⟨Nat.le_of_eq hcounted.requests, fun _ => hcounted.spent, fun h => absurd h (by simp)⟩

theorem ending_bounded (a : Assignment) (e : Estate) : Bounded a (ending a e).1 (ending a e).2 := by
  refine ending_of_ensures ((counted_counts (e := e)).conversation e ?_ ?_ ?_)
  · intro _
    exact ⟨Nat.zero_le _, fun h => absurd h (by simp), fun h => absurd h (by simp)⟩
  · intro f _
    refine ⟨Nat.zero_le _, fun h => ?_, fun h => absurd h (by simp)⟩
    exact absurd (Halt.failed.inj (Option.some.inj h)) (failureMessage_ne_roundLimitMessage f)
  · intro _ _
    exact ⟨rfl, fun k hk => absurd hk (Nat.not_lt_zero k), [], rfl, Asks.nil, rfl, rfl⟩

/-! ### A model that asks for calls -/

/-- An act that ends early has been interrupted or breaks down. -/
def Disturbed (a : Assignment) (h : Halt) (c : Course) : Prop := h = .crashed ∨ ∃ i, a.limits.Struck c i

/-- Nothing else keeps the act from what it comes to. -/
def Presses {α : Type} (a : Assignment) (x : Act α) (Q : α → Prop) : Prop :=
  ∀ c, x.Ensures c (fun b _ => Q b) (Disturbed a)

theorem Presses.pause_bind {α : Type} {wait : Option Nat} {f : Unit → Act α} {Q : α → Prop} (hwait : wait ≠ none)
    (hf : Presses a (f ()) Q) : Presses a (Act.pause a.limits wait >>= f) Q := by
  intro c
  refine Act.ensures_bind (Act.ensures_pause (fun time => hf _) (fun _ i hstruck => .inr ⟨i, hstruck⟩) ?_)
  exact fun hnone _ => absurd hnone hwait

theorem request_presses {n : Nat} {beats : List Beat} (hopened : (a.model n).wait ≠ none)
    (hbeats : (a.model n).outcome = .ok beats) (messages : List Message) :
    Presses a (request a n messages) (· = beats) := by
  rw [request]
  refine Presses.pause_bind (by simp) fun c => Act.ensures_bind (Act.ensures_ask ?_)
  refine Presses.pause_bind hopened (fun c' => ?_) _
  rw [hbeats]
  exact Act.ensures_pure rfl

/-- What is heard up to a reason to stop, if nothing ends the stream before. -/
theorem listen_presses {seen : List Beat} (hseen : ∀ b ∈ seen, b.proceeds = true) (reason : String) (rest : List Beat)
    (t : Turn) : Presses a (listen a (seen ++ .event (.finish reason) :: rest) t)
      (· = ((seen.filterMap Beat.event?).foldl Turn.hear t).finish reason) := by
  induction seen generalizing t with
  | nil =>
    rw [List.nil_append, listen]
    exact .pause_bind (by simp) fun c => Act.ensures_pure rfl
  | cons b seen ih =>
    have hrest := ih fun b hb => hseen b (List.mem_cons_of_mem _ hb)
    have hproceeds := hseen b List.mem_cons_self
    cases b with
    | wait time => exact .pause_bind (by simp) (hrest t)
    | silence => exact absurd hproceeds (by simp [Beat.proceeds])
    | event e =>
      rw [List.cons_append]
      unfold listen
      refine .pause_bind (by simp) ?_
      cases e with
      | text text => exact fun c => Act.ensures_bind (Act.ensures_emit (hrest _ _))
      | call f => exact hrest _
      | finish | done | error => exact absurd hproceeds (by simp [Beat.proceeds])

theorem round_presses {n : Nat} {calls : List ToolCall} (h : (a.model n).Calls calls) (messages : List Message) :
    Presses a (round a n messages) (· ≠ none) := by
  obtain ⟨beats, text, hbeats, hasks⟩ := h.asks
  obtain ⟨rest, hsplit⟩ := hasks.split
  intro c
  rw [round]
  refine (request_presses h.opened hbeats messages c).bind fun beats' c₁ hbeats' => ?_
  subst hbeats'
  rw [hsplit]
  refine (listen_presses hasks.proceeds _ rest {} c₁).bind fun t c₂ ht => ?_
  have hrequests : t.requestsTools = true := by
    rw [ht]
    exact hasks.requestsTools
  rw [if_pos hrequests]
  have hanswers : (answerCalls a t.calls).Ensures c₂ (fun _ _ => True) (Disturbed a) := by
    apply (answerCalls_ensures t.calls c₂).mono (fun _ _ _ => trivial)
    intro h c' hends
    obtain ⟨_, _, hsevered, _⟩ := hends
    cases hsevered with
    | interrupted hstruck => exact .inr ⟨_, hstruck⟩
    | crashed => exact .inl rfl
  exact hanswers.bind fun _ _ _ => Act.ensures_pure (by simp)

/-- A model that asks for calls in every round leads to the round limit, unless something disturbs the reply. -/
theorem ending_of_calls (hcalls : ∀ k < a.maxRounds, ∃ calls, (a.model k).Calls calls) {text : String}
    (hprompt : Prompt.system a.prompt a.scope.cluster = .ok text) (e : Estate) :
    (ending a e).1 = some (.failed roundLimitMessage) ∨ (ending a e).1 = some .crashed
      ∨ ∃ i, a.limits.Struck (ending a e).2 i := by
  have hcounts : Counts a (fun _ _ _ => True) (fun _ => False)
      (fun h c => h = .failed roundLimitMessage ∨ Disturbed a h c) := by
    refine ⟨fun {n messages c} hn _ => ?_, fun _ => .inl rfl⟩
    obtain ⟨calls, hasked⟩ := hcalls _ hn
    apply (round_presses hasked messages c).mono
    · intro next _ hnext
      cases next with
      | none => exact absurd rfl hnext
      | some _ => trivial
    · intro _ _ hdisturbed
      exact .inr hdisturbed
  have hends := hcounts.conversation e (fun _ => .inr (.inl rfl))
    (fun f hrefused => absurd (hprompt.symm.trans hrefused) (by simp)) fun _ _ => trivial
  refine ending_of_ensures (P := fun halt c => halt = some (.failed roundLimitMessage) ∨ halt = some .crashed
    ∨ ∃ i, a.limits.Struck c i) (hends.mono (fun _ _ => False.elim) ?_)
  rintro h c (rfl | rfl | hstruck)
  · exact .inl rfl
  · exact .inr (.inl rfl)
  · exact .inr (.inr hstruck)

/-- **The round limit.** A reply asks the model at most as often as it may. It comes to its end if the model does, or by
a deadline, unless it breaks down. If nobody interrupts it and it does not break down, it tells that its rounds are used
up if and only if the model asked for calls in each of them. And whenever it tells so, it has asked as often as it may,
and every call of every round has its result. -/
theorem course_bounded (a : Assignment) (e : Estate) :
    (course a e).requests.length ≤ a.maxRounds
    ∧ (a.limits.deadline ≠ none ∨ ¬ a.Stalls →
      (course a e).steps.getLast? = some .done ∨ (ending a e).1 = some .crashed)
    ∧ (∀ text, Prompt.system a.prompt a.scope.cluster = .ok text → (∀ i, ¬ a.limits.Struck (ending a e).2 i) →
      (ending a e).1 ≠ some .crashed →
      (.failure roundLimitMessage ∈ (course a e).steps ↔ ∀ k < a.maxRounds, ∃ calls, (a.model k).Calls calls))
    ∧ (.failure roundLimitMessage ∈ (course a e).steps → Spent a (course a e))
    ∧ (a.datable = true → e.store.Countable → (ending a e).1 ≠ some .crashed) := by
  have hbounded := ending_bounded a e
  have hspent : .failure roundLimitMessage ∈ (course a e).steps → Spent a (course a e) := by
    intro hlimit
    rw [steps_course] at hlimit
    rcases List.mem_append.1 hlimit with hlimit | hlimit
    · exact absurd ((ending_spared a e).isOpen _ hlimit) (by simp [Step.closes])
    · exact (hbounded.spent (eq_failed_of_mem_closing hlimit)).close (ending a e).1
  refine ⟨?_, ?_, ?_, hspent, ending_ne_crashed⟩
  · rw [requests_course]
    exact hbounded.requests
  · intro hgoesOn
    rcases closing_cases (ending a e).1 with hdone | ⟨-, hstuck | hcrashed⟩
    · left
      rw [steps_course, List.getLast?_append, hdone]
      rfl
    · obtain ⟨hdeadline, hstalls⟩ := hbounded.stuck hstuck
      rcases hgoesOn with hdated | hheard
      · exact absurd hdeadline hdated
      · exact absurd hstalls hheard
    · exact .inr hcrashed
  · intro text hprompt hfree hwhole
    refine ⟨fun hlimit k hk => (hspent hlimit).calls hk, fun hcalls => ?_⟩
    rcases ending_of_calls hcalls hprompt e with hlimit | hcrashed | ⟨i, hstruck⟩
    · rw [steps_course, hlimit]
      exact List.mem_append_right _ List.mem_cons_self
    · exact absurd hcrashed hwhole
    · exact absurd hstruck (hfree i)

/-- A reply in which the model asks for the same call in each of two rounds. -/
def insistent : Assignment := { lastRound with maxRounds := 2, limits := { deadline := some defaultTimeout } }

/-- It uses its two rounds up. -/
theorem insistent_bounded : insistent.limits.deadline ≠ none ∧ insistent.datable = true ∧ Store.Countable {}
    ∧ (ending insistent {}).1 ≠ some .crashed
    ∧ (course insistent {}).steps.getLast? = some .done
    ∧ Prompt.system insistent.prompt insistent.scope.cluster = .ok "Help."
    ∧ (∀ i, ¬ insistent.limits.Struck (ending insistent {}).2 i)
    ∧ (∀ k < insistent.maxRounds, ∃ calls, (insistent.model k).Calls calls)
    ∧ .failure roundLimitMessage ∈ (course insistent {}).steps ∧ Spent insistent (course insistent {}) := by
  have hdeadline : insistent.limits.deadline ≠ none := by decide
  have hdatable : insistent.datable = true := by decide
  have hstore : Store.Countable {} := by decide
  have hprompt : Prompt.system insistent.prompt insistent.scope.cluster = .ok "Help." := by rfl
  have hfree : ∀ i, ¬ insistent.limits.Struck (ending insistent {}).2 i := by
    intro i hstruck
    cases i with
    | cancelled => exact hstruck
    | deadline =>
      obtain ⟨d, hd, hlate⟩ := hstruck
      obtain rfl : defaultTimeout = d := Option.some.inj hd
      exact absurd hlate (by decide +kernel)
  have hlimit : .failure roundLimitMessage ∈ (course insistent {}).steps := by decide +kernel
  obtain ⟨-, hends, hiff, hspent, hwhole⟩ := course_bounded insistent {}
  have hcrashed := hwhole hdatable hstore
  exact ⟨hdeadline, hdatable, hstore, hcrashed, (hends (.inl hdeadline)).resolve_right hcrashed, hprompt, hfree,
    (hiff "Help." hprompt hfree hcrashed).1 hlimit, hlimit, hspent hlimit⟩

/-- A reply that lists pods in its only round. -/
def briefLister : Assignment := { podLister with maxRounds := 1 }

/-- The model has asked for calls as often as it may, nobody interrupts the reply, and it does not tell so. -/
theorem briefLister_untold :
    Prompt.system briefLister.prompt briefLister.scope.cluster = .ok "Help."
    ∧ (∀ i, ¬ briefLister.limits.Struck (course briefLister (Estate.restarting [2147483647, 1])) i)
    ∧ (∀ k < briefLister.maxRounds, ∃ calls, (briefLister.model k).Calls calls)
    ∧ .failure roundLimitMessage ∉ (course briefLister (Estate.restarting [2147483647, 1])).steps := by
  have hprompt : Prompt.system briefLister.prompt briefLister.scope.cluster = .ok "Help." := by rfl
  have hclock : ¬ defaultTimeout ≤ (course briefLister (Estate.restarting [2147483647, 1])).standing.clock := by
    decide +kernel
  have hlimit : .failure roundLimitMessage ∉ (course briefLister (Estate.restarting [2147483647, 1])).steps := by
    decide +kernel
  refine ⟨hprompt, fun i hstruck => ?_, fun k _ => ?_, hlimit⟩
  · cases i with
    | cancelled => exact hstruck
    | deadline =>
      obtain ⟨d, hd, hlate⟩ := hstruck
      obtain rfl : defaultTimeout = d := Option.some.inj hd
      exact hclock hlate
  · have hproceeds : ∀ b ∈ [Beat.event (.call ⟨some "call_1", "list_pods", "\x7b\x7d"⟩)], b.proceeds = true := by decide
    have hasks := asksFor_of_turn [] hproceeds rfl (by decide)
    exact ⟨_, by simp [briefLister, podLister, Opening.stream], _, _, rfl, hasks⟩

end Reply

end Helmsman
