import Helmsman.Reply.Loop
import Helmsman.Proofs.Chat.Turn
import Helmsman.Proofs.Estate.Attempt
import Helmsman.Proofs.Reply.Act
/-!
# What a round can come to

`Rounded` lists all ends of a round, and with each what the round has told, asked and done. Nearly everything that is
known of a reply is proved from this list: an invariant that survives each of the ends is true where the reply goes no
further (`ending_of_carries`), and then come its last steps. The loop of the rounds has one rule (`Counts`), and only
what has to do with single waits looks into a round again.

The estate is accounted for by the steps alone. `Leads` says that a stretch of a reply made certain steps, asked for
nothing and did to the estate what the results among its steps stand for, and stretches add up.
-/

namespace Helmsman

/-! ### What a stream asks for -/

namespace Beat

def event? : Beat → Option StreamEvent
  | .event e => some e
  | _ => none

def isFinish : Beat → Bool
  | .event (.finish _) => true
  | _ => false

/-- Whether a stream goes on behind the beat. -/
def proceeds : Beat → Bool
  | .event (.text _) | .event (.call _) | .wait _ => true
  | _ => false

end Beat

/-- A stream up to its first reason to stop. -/
def beforeFinish (beats : List Beat) : List Beat := beats.takeWhile fun b => !b.isFinish

/-- What is received before the first reason to stop. -/
def received (beats : List Beat) : List StreamEvent := (beforeFinish beats).filterMap Beat.event?

/-- A stream that stops in order to have calls run: nothing ends it earlier, and what it has brought by then is a text
and at least one call. -/
structure AsksFor (beats : List Beat) (text : String) (calls : List ToolCall) : Prop where
  proceeds : ∀ b ∈ beforeFinish beats, b.proceeds = true
  reason : beats[(beforeFinish beats).length]? = some (.event (.finish Turn.toolCallsReason))
  text_eq : text = String.join ((received beats).filterMap StreamEvent.text?)
  calls_eq : calls = assembled ((received beats).filterMap StreamEvent.fragment?)
  calls_ne : calls ≠ []

theorem AsksFor.ids_nodup {beats : List Beat} {text : String} {calls : List ToolCall} (h : AsksFor beats text calls) :
    (calls.map ToolCall.id).Nodup := by
  rw [h.calls_eq]
  exact assembled_ids_nodup _

theorem beforeFinish_append {seen : List Beat} (h : ∀ b ∈ seen, b.proceeds = true) (reason : String)
    (rest : List Beat) : beforeFinish (seen ++ .event (.finish reason) :: rest) = seen := by
  have hseen : ∀ b ∈ seen, (!b.isFinish) = true := by
    intro b hb
    have hproceeds := h b hb
    cases b with
    | event e => cases e <;> simp_all [Beat.proceeds, Beat.isFinish]
    | wait _ | silence => rfl
  rw [beforeFinish, List.takeWhile_append_of_pos hseen]
  exact List.append_nil seen

theorem asksFor_of_turn {seen : List Beat} (rest : List Beat) {t : Turn} (hseen : ∀ b ∈ seen, b.proceeds = true)
    (ht : t = (((seen.filterMap Beat.event?).foldl Turn.hear {}).finish Turn.toolCallsReason))
    (hrequests : t.requestsTools = true) :
    AsksFor (seen ++ .event (.finish Turn.toolCallsReason) :: rest) t.content t.calls := by
  have hbefore := beforeFinish_append hseen Turn.toolCallsReason rest
  have hreceived : received (seen ++ .event (.finish Turn.toolCallsReason) :: rest) = seen.filterMap Beat.event? := by
    rw [received, hbefore]
  refine ⟨?_, ?_, ?_, ?_, ?_⟩
  · rw [hbefore]
    exact hseen
  · rw [hbefore, List.getElem?_append_right (Nat.le_refl _), Nat.sub_self]
    rfl
  · rw [hreceived, ht]
    exact (Turn.foldl_hear_content _ {}).trans (String.empty_append)
  · rw [hreceived, ht]
    exact Turn.foldl_hear_calls _ {}
  · intro hnil
    simp [Turn.requestsTools, hnil] at hrequests

/-- The turn that comes of listening to a stream requests no tools, or the stream stopped to have calls run before
anything else could end it. -/
def Hears (beats : List Beat) (t t' : Turn) : Prop :=
  t.reason = none → t'.requestsTools = true →
    ∃ seen rest, beats = seen ++ .event (.finish Turn.toolCallsReason) :: rest ∧ (∀ b ∈ seen, b.proceeds = true)
      ∧ t' = ((seen.filterMap Beat.event?).foldl Turn.hear t).finish Turn.toolCallsReason

theorem Hears.idle (beats : List Beat) (t : Turn) : Hears beats t t := by
  intro hreason hrequests
  simp [Turn.requestsTools, hreason] at hrequests

theorem Hears.finish (reason : String) (rest : List Beat) (t : Turn) :
    Hears (.event (.finish reason) :: rest) t (t.finish reason) := by
  intro hreason hrequests
  have htools : reason = Turn.toolCallsReason := by
    have hboth : (t.finish reason).reason = some Turn.toolCallsReason := by
      simp only [Turn.requestsTools, Bool.and_eq_true, beq_iff_eq] at hrequests
      exact hrequests.1
    rw [Turn.finish, hreason] at hboth
    exact Option.some.inj hboth
  subst htools
  exact ⟨[], rest, rfl, fun b hb => absurd hb List.not_mem_nil, rfl⟩

theorem Hears.cons {b : Beat} {rest : List Beat} {t t' : Turn} (hproceeds : b.proceeds = true)
    (h : Hears rest (b.event?.elim t t.hear) t') : Hears (b :: rest) t t' := by
  intro hreason hrequests
  have hreason' : (b.event?.elim t t.hear).reason = none := by
    cases b.event? with
    | none => exact hreason
    | some e => exact (Turn.hear_reason t e).trans hreason
  obtain ⟨seen, rest', rfl, hseen, rfl⟩ := h hreason' hrequests
  refine ⟨b :: seen, rest', rfl, ?_, ?_⟩
  · intro x hx
    rcases List.mem_cons.1 hx with rfl | hx
    · exact hproceeds
    · exact hseen x hx
  · rw [List.filterMap_cons]
    cases b.event? <;> rfl

/-! ### Stretches of a reply -/

def Step.answered? : Step → Option ToolCall
  | .result c _ => some c
  | _ => none

/-- The calls whose results are among some steps, in order. -/
def Reply.answered (steps : List Step) : List ToolCall := steps.filterMap Step.answered?

theorem Reply.answered_append (steps steps' : List Step) :
    answered (steps ++ steps') = answered steps ++ answered steps' :=
  List.filterMap_append

namespace Assignment

def invocation (a : Assignment) (c : ToolCall) : Invocation := ⟨a.now, a.scope, c.name, c.arguments, false⟩

/-- What the results among steps stand for: their calls, run in order. -/
def replay (a : Assignment) (steps : List Step) (e : Estate) : Estate :=
  e.invokeAll ((Reply.answered steps).map a.invocation)

theorem replay_append (a : Assignment) (steps steps' : List Step) (e : Estate) :
    a.replay (steps ++ steps') e = a.replay steps' (a.replay steps e) := by
  rw [replay, Reply.answered_append, List.map_append, Estate.invokeAll_append]
  rfl

end Assignment

/-- What becomes of a call that is run where a reply stands. -/
def Course.run (c : Course) (a : Assignment) (call : ToolCall) : Except CallFailure String × Estate :=
  c.estate.execute a.now a.scope call.name call.arguments false

namespace Reply

variable {a : Assignment}

/-- A stretch of a reply that asks for nothing: its steps, and what it does to the estate. -/
structure Leads (a : Assignment) (c : Course) (made : List Step) (c' : Course) : Prop where
  moments : ∃ later : List Moment, c'.moments = c.moments ++ later ∧ later.map Moment.step = made
    ∧ ∀ m ∈ later, m.standing.requests = c.requests
  requests : c'.requests = c.requests
  estate : c'.estate = a.replay made c.estate

namespace Leads

theorem steps {c c' : Course} {made : List Step} (h : Leads a c made c') : c'.steps = c.steps ++ made := by
  obtain ⟨later, hmoments, rfl, -⟩ := h.moments
  rw [Course.steps, hmoments, List.map_append]
  rfl

theorem passTo (c : Course) (time : Nat) : Leads a c [] (c.passTo time) where
  moments := ⟨[], (List.append_nil _).symm, rfl, List.forall_mem_nil _⟩
  requests := rfl
  estate := rfl

theorem trans {c c' c'' : Course} {steps steps' : List Step} (h : Leads a c steps c') (h' : Leads a c' steps' c'') :
    Leads a c (steps ++ steps') c'' where
  moments := by
    obtain ⟨later, hmoments, rfl, hlater⟩ := h.moments
    obtain ⟨later', hmoments', rfl, hlater'⟩ := h'.moments
    refine ⟨later ++ later', ?_, List.map_append, List.forall_mem_append.2 ⟨hlater, ?_⟩⟩
    · rw [hmoments', hmoments, List.append_assoc]
    · intro m hm
      rw [hlater' m hm, h.requests]
  requests := h'.requests.trans h.requests
  estate := by rw [h'.estate, h.estate, Assignment.replay_append]

theorem emit (c : Course) {s : Step} (h : s.answered? = none) : Leads a c [s] (c.emit a.pace s) where
  moments := ⟨[⟨s, c.standing⟩], rfl, rfl, List.forall_mem_singleton.2 rfl⟩
  requests := rfl
  estate := by
    rw [Assignment.replay, answered, List.filterMap_cons_none h]
    rfl

theorem result (c : Course) (call : ToolCall) (text : String) :
    Leads a c [.result call text]
      ((c.putEstate (c.run a call).2).emit a.pace (.result call text)) where
  moments := ⟨[⟨.result call text, _⟩], rfl, rfl, List.forall_mem_singleton.2 rfl⟩
  requests := rfl
  estate := rfl

theorem foldl_emit (c : Course) {made : List Step} (h : answered made = []) :
    Leads a c made (made.foldl (Course.emit a.pace) c) where
  moments := by
    obtain ⟨later, hmoments, hmade, hlater⟩ := Course.moments_foldl_emit a.pace made c
    exact ⟨later, hmoments, hmade, fun m hm => (hlater m hm).requests⟩
  requests := Course.requests_foldl_emit a.pace made c
  estate := by
    rw [Course.estate_foldl_emit, Assignment.replay, h]
    rfl

end Leads

/-- A stretch that makes no steps but text. -/
def Tells (a : Assignment) (c c' : Course) : Prop := ∃ texts : List String, Leads a c (texts.map Step.content) c'

theorem Tells.passTo (c : Course) (time : Nat) : Tells a c (c.passTo time) := ⟨[], Leads.passTo c time⟩

theorem Tells.content (c : Course) (text : String) : Tells a c (c.emit a.pace (.content text)) :=
  ⟨[text], Leads.emit c rfl⟩

theorem Tells.trans {c c' c'' : Course} (h : Tells a c c') (h' : Tells a c' c'') : Tells a c c'' := by
  obtain ⟨texts, h⟩ := h
  obtain ⟨texts', h'⟩ := h'
  refine ⟨texts ++ texts', ?_⟩
  rw [List.map_append]
  exact h.trans h'

/-- A stretch of nothing but text that ends the reply. Only without a deadline can it end in waiting for ever, and it
does not break down. -/
structure Quits (a : Assignment) (c : Course) (h : Halt) (c' : Course) : Prop where
  tells : Tells a c c'
  stuck : h = .stuck → a.limits.deadline = none
  whole : h ≠ .crashed

theorem Quits.of_tells {c c' c'' : Course} {h : Halt} (htells : Tells a c c') (hquits : Quits a c' h c'') :
    Quits a c h c'' := ⟨htells.trans hquits.tells, hquits.stuck, hquits.whole⟩

theorem ensures_pause_bind {α : Type} {c : Course} {wait : Option Nat} {f : Unit → Act α} {Q : α → Course → Prop}
    {E : Halt → Course → Prop} (hquits : ∀ h c', Quits a c h c' → E h c')
    (h : ∀ time, (f ()).Ensures (c.passTo time) Q E) : Act.Ensures (Act.pause a.limits wait >>= f) c Q E := by
  apply Act.ensures_bind
  apply Act.ensures_pause h
  · intro time i _
    exact hquits _ _ ⟨Tells.passTo c time, fun h => absurd h (by simp), by simp⟩
  · intro _ hdeadline
    exact hquits _ _ ⟨Tells.passTo c c.standing.clock, fun _ => hdeadline, by simp⟩

/-! ### The parts of a round -/

theorem request_ensures (n : Nat) (messages : List Message) (c : Course) :
    (request a n messages).Ensures c
      (fun beats c' => (a.model n).outcome = .ok beats ∧ Tells a (c.ask messages) c')
      (fun h c' => Quits a c h c' ∨ Quits a (c.ask messages) h c') := by
  rw [request]
  refine ensures_pause_bind (fun _ _ => .inl) fun time => ?_
  refine Act.ensures_bind (Act.ensures_ask ?_)
  have hasked : Tells a (c.ask messages) ((c.passTo time).ask messages) := Tells.passTo (c.ask messages) time
  refine ensures_pause_bind (fun _ _ hquits => .inr (hquits.of_tells hasked)) fun time' => ?_
  have htells := hasked.trans (Tells.passTo _ time')
  split
  · rename_i beats hbeats
    exact Act.ensures_pure ⟨hbeats, htells⟩
  · exact Act.ensures_throw (.inr ⟨htells, fun h => absurd h (by simp), by simp⟩)
  · exact Act.ensures_throw (.inr ⟨htells, fun h => absurd h (by simp), by simp⟩)

theorem listen_ensures (beats : List Beat) (t : Turn) (c : Course) :
    (listen a beats t).Ensures c (fun t' c' => Tells a c c' ∧ Hears beats t t') (Quits a c) := by
  induction beats generalizing t c with
  | nil =>
    rw [listen]
    exact ensures_pause_bind (fun _ _ h => h) fun time =>
      Act.ensures_pure ⟨Tells.passTo c time, Hears.idle [] t⟩
  | cons b rest ih =>
    -- Where a beat does not end the stream, the rest of the stream has the same two ends.
    have hgoOn : ∀ {c₁ : Course} {t₁ : Turn}, b.proceeds = true → b.event?.elim t t.hear = t₁ → Tells a c c₁ →
        (listen a rest t₁).Ensures c₁ (fun t' c' => Tells a c c' ∧ Hears (b :: rest) t t') (Quits a c) := by
      intro c₁ t₁ hproceeds ht₁ htells
      subst ht₁
      apply (ih _ c₁).mono
      · intro t' c' h
        exact ⟨htells.trans h.1, Hears.cons hproceeds h.2⟩
      · intro h c' hquits
        exact hquits.of_tells htells
    cases b with
    | wait time =>
      rw [listen]
      exact ensures_pause_bind (fun _ _ h => h) fun time => hgoOn rfl rfl (Tells.passTo c time)
    | silence =>
      rw [listen]
      exact ensures_pause_bind (fun _ _ h => h) fun time =>
        Act.ensures_pure ⟨Tells.passTo c time, Hears.idle _ t⟩
    | event e =>
      unfold listen
      refine ensures_pause_bind (fun _ _ h => h) fun time => ?_
      have htells := Tells.passTo (a := a) c time
      cases e with
      | text text =>
        refine Act.ensures_bind (Act.ensures_emit ?_)
        exact hgoOn rfl rfl (htells.trans (Tells.content _ text))
      | call f => exact hgoOn rfl rfl htells
      | finish reason => exact Act.ensures_pure ⟨htells, Hears.finish reason rest t⟩
      | done => exact Act.ensures_pure ⟨htells, Hears.idle _ t⟩
      | error e => exact Act.ensures_throw ⟨htells, fun h => absurd h (by simp), by simp⟩

/-! ### Calls and their results -/

/-- The steps that a call leaves behind with its result. -/
def told (p : ToolCall × String) : List Step := [.call p.1, .result p.1 p.2]

def answer (p : ToolCall × String) : Message := .tool p.1.id p.2

/-- Why a call that has been announced has no result: an interrupt struck before it was run, or it broke down. -/
inductive Severed (a : Assignment) (call : ToolCall) (c : Course) : Halt → Prop
  | interrupted {i : Interrupt} (struck : a.limits.Struck c i) : Severed a call c (.interrupted i)
  | crashed (breaks : (c.run a call).1 = .error .overflow) : Severed a call c .crashed

/-- Calls are run in order, each with its result before the next begins. It ends early only behind the announcement of
a call, and that call has done nothing. -/
theorem answerCalls_ensures (calls : List ToolCall) (c : Course) :
    (answerCalls a calls).Ensures c
      (fun answers c' => ∃ results : List (ToolCall × String), results.map Prod.fst = calls
        ∧ answers = results.map answer ∧ Leads a c (results.flatMap told) c')
      (fun h c' => ∃ (results : List (ToolCall × String)) (call : ToolCall),
        Severed a call c' h ∧ results.map Prod.fst ++ [call] <+: calls
          ∧ Leads a c (results.flatMap told ++ [.call call]) c') := by
  induction calls generalizing c with
  | nil => exact Act.ensures_pure ⟨[], rfl, rfl, Leads.passTo c c.standing.clock⟩
  | cons call rest ih =>
    rw [answerCalls]
    refine Act.ensures_bind (Act.ensures_emit ?_)
    have hcall : Leads a c [.call call] (c.emit a.pace (.call call)) := Leads.emit c rfl
    have hbegun : [call] <+: call :: rest := List.prefix_append [call] rest
    apply Act.ensures_bind
    refine Act.ensures_pause ?_ ?_ (fun h => absurd h (by simp))
    · intro time
      have hpassed := hcall.trans (Leads.passTo _ time)
      refine Act.ensures_bind (Act.ensures_execute (fun answer _ => Act.ensures_bind (Act.ensures_emit ?_)) ?_)
      · -- Nothing that follows depends on what the call was answered.
        generalize resultText answer = text
        have hresult : Leads a c (told (call, text)) _ := hpassed.trans (Leads.result _ call text)
        apply Act.ensures_bind
        apply (ih _).mono
        · intro answers c' h
          obtain ⟨results, hcalls, hanswers, hleads⟩ := h
          refine Act.ensures_pure ⟨(call, text) :: results, ?_, ?_, hresult.trans hleads⟩
          · rw [List.map_cons, hcalls]
          · rw [hanswers, List.map_cons]
            rfl
        · intro h c' hends
          obtain ⟨results, call', hsevered, hcalls, hleads⟩ := hends
          refine ⟨(call, text) :: results, call', hsevered, ?_, hresult.trans hleads⟩
          exact (List.cons_prefix_cons).2 ⟨rfl, hcalls⟩
      · intro hbreaks
        exact ⟨[], call, .crashed hbreaks, hbegun, hpassed⟩
    · intro time i hstruck
      exact ⟨[], call, .interrupted hstruck, hbegun, hcall.trans (Leads.passTo _ time)⟩

/-! ### Whole rounds -/

/-- The ends of a round that is asked with some messages. -/
inductive Rounded (a : Assignment) (n : Nat) (messages : List Message) (c : Course) :
    Except Halt (Option (List Message)) → Course → Prop
  /-- The reply is ended before the model is asked. -/
  | unasked {h : Halt} {c' : Course} (quits : Quits a c h c') : Rounded a n messages c (.error h) c'
  /-- The reply is ended while the model answers. -/
  | broken {h : Halt} {c' : Course} (quits : Quits a (c.ask messages) h c') : Rounded a n messages c (.error h) c'
  /-- The model wants no more of the conversation. -/
  | satisfied {c' : Course} (tells : Tells a (c.ask messages) c') : Rounded a n messages c (.ok none) c'
  /-- The reply is ended between the announcement of a call and its result. -/
  | cut {beats : List Beat} {text : String} {calls : List ToolCall} {texts : List String}
      {results : List (ToolCall × String)} {call : ToolCall} {h : Halt} {c' : Course}
      (opened : (a.model n).outcome = .ok beats) (asks : AsksFor beats text calls)
      (begun : results.map Prod.fst ++ [call] <+: calls) (severed : Severed a call c' h)
      (leads : Leads a (c.ask messages) (texts.map .content ++ (results.flatMap told ++ [.call call])) c') :
      Rounded a n messages c (.error h) c'
  /-- Each call has its result, and the conversation goes on. -/
  | answered {beats : List Beat} {text : String} {calls : List ToolCall} {texts : List String}
      {results : List (ToolCall × String)} {c' : Course}
      (opened : (a.model n).outcome = .ok beats) (asks : AsksFor beats text calls)
      (complete : results.map Prod.fst = calls)
      (leads : Leads a (c.ask messages) (texts.map .content ++ results.flatMap told) c') :
      Rounded a n messages c
        (.ok (some (messages ++ { Message.assistant text with toolCalls := calls } :: results.map answer))) c'

theorem round_ensures (n : Nat) (messages : List Message) (c : Course) :
    (round a n messages).Ensures c (fun next c' => Rounded a n messages c (.ok next) c')
      (fun h c' => Rounded a n messages c (.error h) c') := by
  rw [round]
  apply Act.ensures_bind
  apply (request_ensures n messages c).mono
  · intro beats c₁ hrequest
    obtain ⟨hopened, hasked⟩ := hrequest
    apply Act.ensures_bind
    apply (listen_ensures beats {} c₁).mono
    · intro t c₂ hlisten
      obtain ⟨htells, hhears⟩ := hlisten
      obtain ⟨texts, hheard⟩ := hasked.trans htells
      split
      · rename_i hrequests
        obtain ⟨seen, rest, rfl, hseen, hturn⟩ := hhears rfl hrequests
        have hasks := asksFor_of_turn rest hseen hturn hrequests
        apply Act.ensures_bind
        apply (answerCalls_ensures t.calls c₂).mono
        · intro answers c₃ h
          obtain ⟨results, hcomplete, rfl, hleads⟩ := h
          have hmessage : t.toMessage = { Message.assistant t.content with toolCalls := t.calls } := by
            rw [Turn.toMessage, if_pos hrequests]
          rw [hmessage]
          exact Act.ensures_pure (.answered hopened hasks hcomplete (hheard.trans hleads))
        · intro h c₃ hends
          obtain ⟨results, call, hsevered, hbegun, hleads⟩ := hends
          exact .cut hopened hasks hbegun hsevered (hheard.trans hleads)
      · exact Act.ensures_pure (.satisfied ⟨texts, hheard⟩)
    · intro h c₂ hquits
      exact .broken (hquits.of_tells hasked)
  · intro h c₁ hends
    exact hends.elim .unasked .broken

/-! ### One round after another -/

/-- `Inv` is true of a reply before each of its rounds, and leads to `Q` where the model is satisfied and to `E` where
anything else ends the reply. -/
structure Counts (a : Assignment) (Inv : Nat → List Message → Course → Prop) (Q : Course → Prop)
    (E : Halt → Course → Prop) : Prop where
  round {n : Nat} {messages : List Message} {c : Course} : n < a.maxRounds → Inv n messages c →
    (round a n messages).Ensures c (fun next c' => next.elim (Q c') (Inv (n + 1) · c')) E
  limit {messages : List Message} {c : Course} : Inv a.maxRounds messages c → E (.failed roundLimitMessage) c

/-- The same by the ends of a round, without regard to how many rounds are left. -/
structure Carries (a : Assignment) (Inv : Nat → List Message → Course → Prop) (Q : Course → Prop)
    (E : Halt → Course → Prop) : Prop where
  limit {n : Nat} {messages : List Message} {c : Course} : Inv n messages c → E (.failed roundLimitMessage) c
  satisfied {n : Nat} {messages : List Message} {c c' : Course} :
    Inv n messages c → Rounded a n messages c (.ok none) c' → Q c'
  ended {n : Nat} {messages : List Message} {c c' : Course} {h : Halt} :
    Inv n messages c → Rounded a n messages c (.error h) c' → E h c'
  next {n : Nat} {messages messages' : List Message} {c c' : Course} :
    Inv n messages c → Rounded a n messages c (.ok (some messages')) c' → Inv (n + 1) messages' c'

section

variable {Inv : Nat → List Message → Course → Prop} {Q : Course → Prop} {E : Halt → Course → Prop}

theorem Counts.rounds (h : Counts a Inv Q E) {left n : Nat} {messages : List Message} {c : Course}
    (hleft : n + left = a.maxRounds) (hinv : Inv n messages c) :
    (rounds a left n messages).Ensures c (fun _ => Q) E := by
  induction left generalizing n messages c with
  | zero =>
    obtain rfl : n = a.maxRounds := hleft
    exact Act.ensures_throw (h.limit hinv)
  | succ left ih =>
    rw [Reply.rounds]
    refine (h.round (by omega) hinv).bind fun next c' hnext => ?_
    cases next with
    | none => exact Act.ensures_pure hnext
    | some messages' => exact ih (by omega) hnext

theorem Counts.conversation (h : Counts a Inv Q E) (e : Estate)
    (undatable : a.datable = false → E .crashed (.start e))
    (refused : ∀ f, Prompt.system a.prompt a.scope.cluster = .error f →
      E (.failed (Prompt.failureMessage f)) (.start e))
    (opened : ∀ text, Prompt.system a.prompt a.scope.cluster = .ok text →
      Inv 0 (.system text :: a.history) (.start e)) : (conversation a).Ensures (.start e) (fun _ => Q) E := by
  rw [Reply.conversation]
  refine Act.ensures_bind ?_
  rw [schedule]
  split
  · refine Act.ensures_pure (Act.ensures_bind ?_)
    rw [opening]
    cases hprompt : Prompt.system a.prompt a.scope.cluster with
    | error f => exact Act.ensures_throw (refused f hprompt)
    | ok text => exact Act.ensures_pure (h.rounds (Nat.zero_add _) (opened text hprompt))
  · rename_i hdatable
    exact Act.ensures_throw (undatable (Bool.eq_false_iff.2 hdatable))

theorem Carries.counts (h : Carries a Inv Q E) : Counts a Inv Q E where
  round {n messages c} _ hinv := by
    apply (round_ensures n messages c).mono
    · intro next c' hround
      cases next with
      | none => exact h.satisfied hinv hround
      | some messages' => exact h.next hinv hround
    · intro halt c' hround
      exact h.ended hinv hround
  limit hinv := h.limit hinv

end

/-! ### Whole replies -/

theorem steps_course (a : Assignment) (e : Estate) :
    (course a e).steps = (ending a e).2.steps ++ closing (ending a e).1 := Course.steps_foldl_emit ..

theorem requests_course (a : Assignment) (e : Estate) : (course a e).requests = (ending a e).2.requests :=
  Course.requests_foldl_emit ..

theorem conversation_of_not_datable (h : a.datable = false) (e : Estate) :
    conversation a (.start e) = .error .crashed (.start e) := by
  rw [conversation, schedule, h]
  rfl

/-- A reply whose deadline is beyond what the clock can tell does not even begin. -/
theorem course_of_not_datable (h : a.datable = false) (e : Estate) :
    (ending a e).1 = some .crashed ∧ course a e = .start e := by
  rw [course, ending, conversation_of_not_datable h]
  exact ⟨rfl, rfl⟩

theorem ending_of_ensures {P : Option Halt → Course → Prop} {e : Estate}
    (h : (conversation a).Ensures (.start e) (fun _ => P none) (fun halt => P (some halt))) :
    P (ending a e).1 (ending a e).2 := by
  rw [Act.Ensures] at h
  rw [ending]
  cases hconversation : conversation a (.start e) with
  | ok u c =>
    rw [hconversation] at h
    exact h
  | error halt c =>
    rw [hconversation] at h
    exact h

theorem ending_of_carries (Inv : Nat → List Message → Course → Prop) (P : Option Halt → Course → Prop) (e : Estate)
    (h : Carries a Inv (P none) fun halt => P (some halt))
    (undatable : a.datable = false → P (some .crashed) (.start e))
    (refused : ∀ f, Prompt.system a.prompt a.scope.cluster = .error f →
      P (some (.failed (Prompt.failureMessage f))) (.start e))
    (opened : ∀ text, Prompt.system a.prompt a.scope.cluster = .ok text →
      Inv 0 (.system text :: a.history) (.start e)) : P (ending a e).1 (ending a e).2 :=
  ending_of_ensures (h.counts.conversation e undatable refused opened)

end Reply

end Helmsman
