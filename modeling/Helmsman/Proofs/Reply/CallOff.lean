import Helmsman.Proofs.Reply.Round
/-!
# Calling a reply off

Every wait looks at the cancellation before it looks at anything else, and nearly everything that can fail is waited
for. So a failure that follows a wait is told only as long as the reply has not been called off: `Heeding` says this of
an act, and it survives putting acts together. Two failures follow no wait, that of the prompt and that of the round
limit, and these two are told to a caller who has called the reply off before. Nor is there a wait before the time of
the deadline is fixed, and a reply that breaks down over that does so whether it has been called off or not.
-/

namespace Helmsman

/-- Whether a step belongs to the end of a reply. -/
def Step.closes : Step → Bool
  | .failure _ | .done => true
  | _ => false

/-- No end of the reply has been told yet. -/
def Course.Open (c : Course) : Prop := ∀ s ∈ c.steps, s.closes = false

theorem Course.Open.emit {c : Course} {s : Step} (pace : Nat → Nat) (h : c.Open) (hs : s.closes = false) :
    (c.emit pace s).Open := by
  intro s' hs'
  rw [steps_emit] at hs'
  rcases List.mem_append.1 hs' with hs' | hs'
  · exact h s' hs'
  · exact List.mem_singleton.1 hs' ▸ hs

namespace Limits

variable {l : Limits} {c : Course}

/-- Whether the caller has called the reply off by now. -/
def CalledOff (l : Limits) (c : Course) : Prop := l.cancellation.Fired c.moments.length c.standing.clock

/-- As long as the cancellation lies ahead it has not taken effect. -/
theorem not_calledOff {time : Nat} (hclock : c.standing.clock ≤ time)
    (hahead : ∀ t, (l.cancellation.time? c).map (max c.standing.clock) = some t → time < t) :
    ¬ l.CalledOff (c.passTo time) := by
  intro hcalled
  have hcalled : l.cancellation.Fired c.moments.length time := hcalled
  cases hx : l.cancellation with
  | never => rwa [hx] at hcalled
  | behind n =>
    rw [hx] at hcalled hahead
    have hn : n ≤ c.moments.length := hcalled
    have := hahead c.standing.clock (by rw [Cancellation.time?, if_pos hn, Option.map_some, Nat.max_self])
    omega
  | atTime t =>
    rw [hx] at hcalled hahead
    have ht : t ≤ time := hcalled
    have := hahead (max c.standing.clock t) rfl
    omega

/-- What strikes next does not lie behind, and the cancellation lies no nearer, nor as near as a deadline that
strikes. -/
theorem ahead_of_next? {time : Nat} {i : Interrupt} (h : l.next? c = some (time, i)) :
    c.standing.clock ≤ time ∧ ∀ t, (l.cancellation.time? c).map (max c.standing.clock) = some t →
      time ≤ t ∧ (i = .deadline → time < t) := by
  have hclock : ∀ {o : Option Nat} {t : Nat}, o.map (max c.standing.clock) = some t → c.standing.clock ≤ t := by
    intro o t ht
    obtain ⟨t', -, rfl⟩ := Option.map_eq_some_iff.1 ht
    exact Nat.le_max_left ..
  rw [next?] at h
  split at h
  · rename_i t d ht hd
    split at h
    · obtain ⟨rfl, rfl⟩ := Prod.mk.inj (Option.some.inj h)
      refine ⟨hclock ht, fun t' ht' => ?_⟩
      rw [Option.some.inj (ht.symm.trans ht')]
      exact ⟨Nat.le_refl _, by simp⟩
    · obtain ⟨rfl, rfl⟩ := Prod.mk.inj (Option.some.inj h)
      refine ⟨hclock hd, fun t' ht' => ?_⟩
      rw [← Option.some.inj (ht.symm.trans ht')]
      omega
  · rename_i t ht hd
    obtain ⟨rfl, rfl⟩ := Prod.mk.inj (Option.some.inj h)
    refine ⟨hclock ht, fun t' ht' => ?_⟩
    rw [Option.some.inj (ht.symm.trans ht')]
    exact ⟨Nat.le_refl _, by simp⟩
  · rename_i d ht hd
    obtain ⟨rfl, rfl⟩ := Prod.mk.inj (Option.some.inj h)
    exact ⟨hclock hd, fun t' ht' => absurd (ht.symm.trans ht') (by simp)⟩
  · exact absurd h (by simp)

theorem cancellation_of_next?_eq_none (h : l.next? c = none) :
    (l.cancellation.time? c).map (max c.standing.clock) = none := by
  rw [next?] at h
  split at h
  · split at h <;> exact absurd h (by simp)
  · exact absurd h (by simp)
  · exact absurd h (by simp)
  · assumption

/-- The one reason to go no further once the reply has been called off is that it has. -/
def Heeds (l : Limits) (h : Halt) (c : Course) : Prop := l.CalledOff c → h = .interrupted .cancelled

end Limits

namespace Act

variable {α β : Type} {l : Limits}

/-- From an open course the act leads to an open one, and it ends the reply for no other reason once that has been
called off. -/
def Heeding (l : Limits) (x : Act α) : Prop :=
  ∀ c : Course, c.Open → x.Ensures c (fun _ => Course.Open) (fun h c' => c'.Open ∧ l.Heeds h c')

/-- What is waited for is there only if the reply has not been called off. -/
theorem ensures_pause_heeding {Q : Unit → Course → Prop} {E : Halt → Course → Prop} {wait : Option Nat} {c : Course}
    (passed : ∀ time, ¬ l.CalledOff (c.passTo time) → Q () (c.passTo time))
    (ended : ∀ h time, l.Heeds h (c.passTo time) → E h (c.passTo time)) : Ensures (pause l wait) c Q E := by
  rw [Ensures]
  -- If nothing will ever strike, the reply is not called off whenever the wait ends.
  have hnever : l.next? c = none → ∀ time, c.standing.clock ≤ time → ¬ l.CalledOff (c.passTo time) := by
    intro hnext time hclock
    apply Limits.not_calledOff hclock
    intro t ht
    rw [Limits.cancellation_of_next?_eq_none hnext] at ht
    exact absurd ht (by simp)
  cases hnext : l.next? c with
  | none =>
    rw [pause_eq, hnext]
    cases wait with
    | none =>
      have hlate : ¬ l.CalledOff c := hnever hnext c.standing.clock (Nat.le_refl _)
      exact ended .stuck c.standing.clock fun hcalled => absurd hcalled hlate
    | some span => exact passed _ (hnever hnext _ (Nat.le_add_right ..))
  | some strike =>
    obtain ⟨time, i⟩ := strike
    obtain ⟨hclock, hahead⟩ := Limits.ahead_of_next? hnext
    -- A deadline that strikes comes before the cancellation, which wins if both are due.
    have hstruck : l.Heeds (.interrupted i) (c.passTo time) := by
      intro hcalled
      cases i with
      | cancelled => rfl
      | deadline => exact absurd hcalled (Limits.not_calledOff hclock fun t ht => (hahead t ht).2 rfl)
    cases wait with
    | none =>
      rw [pause_eq, hnext]
      exact ended _ _ hstruck
    | some span =>
      by_cases hle : time ≤ c.standing.clock + span
      · rw [pause_of_le hnext hle]
        exact ended _ _ hstruck
      · rw [pause_of_not_le hnext hle]
        refine passed _ (Limits.not_calledOff (Nat.le_add_right ..) fun t ht => ?_)
        exact Nat.lt_of_lt_of_le (Nat.lt_of_not_le hle) (hahead t ht).1

namespace Heeding

variable {x : Act α}

theorem pure (a : α) : Heeding l (pure a : Act α) := fun _ hopen => ensures_pure hopen

theorem bind {y : Act β} {f : β → Act α} (hy : Heeding l y) (hf : ∀ b, Heeding l (f b)) : Heeding l (y >>= f) := by
  intro c hopen
  apply ensures_bind
  apply (hy c hopen).mono
  · intro b c' hopen'
    exact hf b c' hopen'
  · intro h c' hends
    exact hends

/-- What comes right behind a wait may fail in any way, since the reply has not been called off there. -/
theorem pause_bind {wait : Option Nat} {f : Unit → Act α}
    (hf : ∀ c : Course, c.Open → ¬ l.CalledOff c →
      (f ()).Ensures c (fun _ => Course.Open) (fun h c' => c'.Open ∧ l.Heeds h c')) :
    Heeding l (pause l wait >>= f) := by
  intro c hopen
  apply ensures_bind
  apply ensures_pause_heeding
  · intro time hlate
    exact hf _ hopen hlate
  · intro h time hheeds
    exact ⟨hopen, hheeds⟩

theorem pause (wait : Option Nat) : Heeding l (pause l wait) := fun _ hopen =>
  ensures_pause_heeding (fun _ _ => hopen) (fun _ _ hheeds => ⟨hopen, hheeds⟩)

theorem emit (pace : Nat → Nat) {s : Step} (hs : s.closes = false) : Heeding l (emit pace s) := fun _ hopen =>
  ensures_emit (hopen.emit pace hs)

theorem ask (messages : List Message) : Heeding l (ask messages) := fun _ hopen => ensures_ask hopen

end Heeding

end Act

namespace Reply

variable {a : Assignment}

theorem request_heeding (n : Nat) (messages : List Message) : Act.Heeding a.limits (request a n messages) := by
  rw [request]
  refine .bind (.pause _) fun _ => .bind (.ask messages) fun _ => .pause_bind fun c hopen hlate => ?_
  split
  · exact Act.ensures_pure hopen
  · exact Act.ensures_throw ⟨hopen, fun _ => rfl⟩
  · exact Act.ensures_throw ⟨hopen, fun hcalled => absurd hcalled hlate⟩

theorem listen_heeding (beats : List Beat) (t : Turn) : Act.Heeding a.limits (listen a beats t) := by
  induction beats generalizing t with
  | nil => exact .bind (.pause _) fun _ => .pure t
  | cons b rest ih =>
    cases b with
    | wait time => exact .bind (.pause _) fun _ => ih t
    | silence => exact .bind (.pause _) fun _ => .pure t
    | event e =>
      unfold listen
      cases e with
      | text text => exact .bind (.pause _) fun _ => .bind (.emit _ rfl) fun _ => ih _
      | call f => exact .bind (.pause _) fun _ => ih _
      | finish reason => exact .bind (.pause _) fun _ => .pure _
      | done => exact .bind (.pause _) fun _ => .pure t
      | error e =>
        exact .pause_bind fun c hopen hlate =>
          Act.ensures_throw ⟨hopen, fun hcalled => absurd hcalled hlate⟩

theorem answerCalls_heeding (calls : List ToolCall) : Act.Heeding a.limits (answerCalls a calls) := by
  induction calls with
  | nil => exact .pure []
  | cons call rest ih =>
    rw [answerCalls]
    refine .bind (.emit _ rfl) fun _ => .pause_bind fun c hopen hlate => ?_
    refine Act.ensures_bind (Act.ensures_execute (fun answer _ => ?_) fun _ => ?_)
    · exact Act.Heeding.bind (.emit _ rfl) (fun _ => .bind ih fun _ => .pure _) _ hopen
    · exact ⟨hopen, fun hcalled => absurd hcalled hlate⟩

theorem round_heeding (n : Nat) (messages : List Message) : Act.Heeding a.limits (round a n messages) := by
  rw [round]
  refine .bind (request_heeding n messages) fun beats => .bind (listen_heeding beats {}) fun t => ?_
  split
  · exact .bind (answerCalls_heeding t.calls) fun _ => .pure _
  · exact .pure none

/-- The reasons to go no further that follow no wait. -/
inductive Unguarded (a : Assignment) (c : Course) : Halt → Prop
  | clock (undatable : a.datable = false) : Unguarded a c .crashed
  | prompt {f : Template.Failure} (refused : Prompt.system a.prompt a.scope.cluster = .error f)
    (unasked : c.requests = []) : Unguarded a c (.failed (Prompt.failureMessage f))
  | limit (spent : c.requests.length = a.maxRounds) : Unguarded a c (.failed roundLimitMessage)

theorem Rounded.length_requests {n : Nat} {messages messages' : List Message} {c c' : Course}
    (h : Rounded a n messages c (.ok (some messages')) c') : c'.requests.length = c.requests.length + 1 := by
  cases h with
  | answered _ _ _ leads =>
    have hrequests : c'.requests = c.requests ++ [messages] := leads.requests
    rw [hrequests, List.length_append, List.length_singleton]

theorem heeding_counts : Counts a (fun n _ c => c.Open ∧ c.requests.length = n) Course.Open
    (fun h c => c.Open ∧ (a.limits.Heeds h c ∨ Unguarded a c h)) where
  round {n messages c} _ hinv := by
    obtain ⟨hopen, hcount⟩ := hinv
    apply ((round_heeding n messages c hopen).and (round_ensures n messages c)).mono
    · intro next c' h
      obtain ⟨hopen', hround⟩ := h
      cases next with
      | none => exact hopen'
      | some messages' => exact ⟨hopen', by rw [hround.length_requests, hcount]⟩
    · intro h c' hends
      exact ⟨hends.1.1, .inl hends.1.2⟩
  limit hinv := ⟨hinv.1, .inr (.limit hinv.2)⟩

theorem conversation_heeds (a : Assignment) (e : Estate) :
    (conversation a).Ensures (.start e) (fun _ => Course.Open)
      (fun h c => c.Open ∧ (a.limits.Heeds h c ∨ Unguarded a c h)) := by
  have hopen : (Course.start e).Open := fun s hs => absurd hs List.not_mem_nil
  exact heeding_counts.conversation e (fun hundatable => ⟨hopen, .inr (.clock hundatable)⟩)
    (fun f hprompt => ⟨hopen, .inr (.prompt hprompt rfl)⟩) fun _ _ => ⟨hopen, rfl⟩

/-- A reply is open up to its last steps, and only a reply that has not been called off is kept from them. -/
structure Spared (a : Assignment) (halt : Option Halt) (c : Course) : Prop where
  isOpen : c.Open
  heeds : ∀ h, halt = some h → a.limits.Heeds h c ∨ Unguarded a c h

theorem ending_spared (a : Assignment) (e : Estate) : Spared a (ending a e).1 (ending a e).2 := by
  refine ending_of_ensures (P := Spared a) ((conversation_heeds a e).mono ?_ ?_)
  · intro _ c hopen
    exact ⟨hopen, fun h hhalt => by cases hhalt⟩
  · intro h c hends
    exact ⟨hends.1, fun h' hhalt => Option.some.inj hhalt ▸ hends.2⟩

/-- A reply is told to be done unless it waits for ever or breaks down. -/
theorem closing_cases (halt : Option Halt) : (closing halt).getLast? = some .done
    ∨ closing halt = [] ∧ (halt = some .stuck ∨ halt = some .crashed) := by
  match halt with
  | none | some (.interrupted .cancelled) | some (.interrupted .deadline) | some (.failed _) => exact .inl rfl
  | some .stuck => exact .inr ⟨rfl, .inl rfl⟩
  | some .crashed => exact .inr ⟨rfl, .inr rfl⟩

/-- Once it has been called off, a reply neither waits for ever nor breaks down. -/
theorem Spared.closes {halt : Option Halt} {c : Course} (h : Spared a halt c) (hdatable : a.datable = true)
    (hcalled : a.limits.CalledOff c) : halt ≠ some .stuck ∧ halt ≠ some .crashed := by
  constructor
  · intro hhalt
    rcases h.heeds _ hhalt with hheeds | hunguarded
    · exact absurd (hheeds hcalled) (by simp)
    · cases hunguarded
  · intro hhalt
    rcases h.heeds _ hhalt with hheeds | hunguarded
    · exact absurd (hheeds hcalled) (by simp)
    · cases hunguarded with
      | clock undatable => exact absurd hdatable (by simp [undatable])

/-- A failure is told at most once, and then first of all. -/
theorem eq_zero_of_closing {halt : Option Halt} {i : Nat} {message : String}
    (hi : (closing halt)[i]? = some (.failure message)) : i = 0 := by
  match halt, i with
  | _, 0 => rfl
  | none, i + 1 | some (.interrupted .cancelled), i + 1 | some .stuck, i + 1 | some .crashed, i + 1 =>
    simp [closing] at hi
  | some (.interrupted .deadline), i + 1 | some (.failed _), i + 1 => cases i <;> simp [closing] at hi

/-- A failure is the first of the last steps, and so what holds where the reply goes no further holds there. -/
theorem failure_of_closing {halt : Option Halt} {c : Course} (hopen : c.Open) {i : Nat} {m : Moment}
    {message : String} (hm : (close a halt c).moments[i]? = some m) (hfailure : m.step = .failure message) :
    i = c.moments.length ∧ m.standing = c.standing ∧ (closing halt)[0]? = some (.failure message) := by
  obtain ⟨later, hmoments, hmade, -⟩ := Course.moments_foldl_emit a.pace (closing halt) c
  have hsplit := hm
  rw [close, hmoments, List.getElem?_append] at hsplit
  split at hsplit
  · have hstep : m.step ∈ c.steps := List.mem_map_of_mem (List.mem_of_getElem? hsplit)
    exact absurd (hopen _ hstep) (by simp [hfailure, Step.closes])
  · have hs : (closing halt)[i - c.moments.length]? = some (.failure message) := by
      rw [← hmade, List.getElem?_map, hsplit, Option.map_some, hfailure]
    obtain rfl : i = c.moments.length := by
      have := eq_zero_of_closing hs
      omega
    rw [Nat.sub_self] at hs
    rw [close, Course.getElem?_foldl_emit, hs] at hm
    obtain rfl := Option.some.inj hm
    exact ⟨rfl, rfl, hs⟩

/-- What is told of a failure to a caller who has called the reply off before is one that follows no wait. -/
theorem Spared.unguarded {halt : Option Halt} {c : Course} {message : String} (h : Spared a halt c)
    (hs : (closing halt)[0]? = some (.failure message)) (hcalled : a.limits.CalledOff c) :
    (∃ f, Prompt.system a.prompt a.scope.cluster = .error f ∧ message = Prompt.failureMessage f ∧ c.requests = [])
    ∨ (message = roundLimitMessage ∧ c.requests.length = a.maxRounds) := by
  cases hhalt : halt with
  | none =>
    rw [hhalt] at hs
    exact absurd hs (by simp [closing])
  | some reason =>
    rw [hhalt] at hs
    rcases h.heeds reason hhalt with hheeds | hunguarded
    · rw [hheeds hcalled] at hs
      exact absurd hs (by simp [closing])
    · cases hunguarded with
      | clock => exact absurd hs (by simp [closing])
      | prompt refused unasked =>
        obtain rfl := Step.failure.inj (Option.some.inj hs)
        exact .inl ⟨_, refused, rfl, unasked⟩
      | limit spent =>
        obtain rfl := Step.failure.inj (Option.some.inj hs)
        exact .inr ⟨rfl, spent⟩

/-- A reply that is called off comes to its end, unless its deadline is beyond what the clock can tell. It tells no
failure from then on unless its prompt is refused or it has asked the model as often as it may. -/
theorem course_called_off (a : Assignment) (e : Estate) :
    (a.datable = true → a.limits.CalledOff (course a e) → (course a e).steps.getLast? = some .done)
    ∧ ∀ (i : Nat) (m : Moment) (message : String), (course a e).moments[i]? = some m → m.step = .failure message →
      a.limits.cancellation.Fired i m.standing.clock →
        (∃ f, Prompt.system a.prompt a.scope.cluster = .error f ∧ message = Prompt.failureMessage f
          ∧ (course a e).requests = [])
        ∨ (message = roundLimitMessage ∧ (course a e).requests.length = a.maxRounds) := by
  have hspared := ending_spared a e
  constructor
  · intro hdatable hcalled
    rcases closing_cases (ending a e).1 with hdone | ⟨hclosing, hends⟩
    · rw [steps_course, List.getLast?_append, hdone]
      rfl
    · -- Without last steps a reply is called off where it goes no further.
      have hending : course a e = (ending a e).2 := by
        rw [course, close, hclosing]
        rfl
      obtain ⟨hstuck, hcrashed⟩ := hspared.closes hdatable (hending ▸ hcalled)
      exact absurd hends (not_or.2 ⟨hstuck, hcrashed⟩)
  · intro i m message hm hfailure hfired
    obtain ⟨rfl, hstanding, hs⟩ := failure_of_closing hspared.isOpen hm hfailure
    rw [hstanding] at hfired
    rw [requests_course]
    exact hspared.unguarded hs hfired

/-- A reply with one round, called off right behind the result of the only call. -/
def lastRound : Assignment where
  scope := ⟨⟨1, "production", "v1.29.0"⟩, "alice"⟩
  history := [.user "Which nodes are there?"]
  model _ := .stream [.call ⟨some "call_1", "list_nodes", "\x7b\x7d"⟩, .finish Turn.toolCallsReason]
  prompt := .file (some "Help.")
  maxRounds := 1
  limits := { cancellation := .behind 2, deadline := some defaultTimeout }
  now := ⟨19723, 0, 0⟩

private theorem lastRound_third : (course lastRound {}).moments[2]?.map Moment.step
    = some (.failure roundLimitMessage) := by decide +kernel

/-- The round limit is told to a caller who has called the reply off before. -/
theorem lastRound_fails : ∃ m : Moment, (course lastRound {}).moments[2]? = some m
    ∧ m.step = .failure roundLimitMessage ∧ lastRound.limits.cancellation.Fired 2 m.standing.clock := by
  obtain ⟨m, hm, hstep⟩ := Option.map_eq_some_iff.1 lastRound_third
  exact ⟨m, hm, hstep, Nat.le_refl 2⟩

theorem lastRound_called_off : lastRound.datable = true ∧ lastRound.limits.CalledOff (course lastRound {})
    ∧ (course lastRound {}).steps.getLast? = some .done
    ∧ ∃ m : Moment, (course lastRound {}).moments[2]? = some m ∧ m.step = .failure roundLimitMessage
      ∧ lastRound.limits.cancellation.Fired 2 m.standing.clock
      ∧ ((∃ f, Prompt.system lastRound.prompt lastRound.scope.cluster = .error f
          ∧ roundLimitMessage = Prompt.failureMessage f ∧ (course lastRound {}).requests = [])
        ∨ (roundLimitMessage = roundLimitMessage ∧ (course lastRound {}).requests.length = lastRound.maxRounds)) := by
  have hcalled : lastRound.limits.CalledOff (course lastRound {}) := by
    show 2 ≤ (course lastRound {}).moments.length
    decide +kernel
  obtain ⟨m, hm, hstep⟩ := Option.map_eq_some_iff.1 lastRound_third
  have hfired : lastRound.limits.cancellation.Fired 2 m.standing.clock := Nat.le_refl 2
  have hdatable : lastRound.datable = true := by decide
  exact ⟨hdatable, hcalled, (course_called_off lastRound {}).1 hdatable hcalled, m, hm, hstep, hfired,
    (course_called_off lastRound {}).2 2 m roundLimitMessage hm hstep hfired⟩

end Reply

end Helmsman
