import Helmsman.Proofs.Reply.Round
/-!
# The pace of a reply

A reply waits, then does one thing and tells of it, and nearly always waits again before the next. `Paced` makes use of
that pace: a property of courses that is to be carried through a reply is given in three strengths, for right behind a
wait, for between the parts of a reply and for behind the announcement of a call, and what is to be shown is how waits
and single steps lead from one to another. The loops over beats and calls are opened here once for all such properties.
-/

namespace Helmsman

/-- Whether the model ever leaves a reply waiting for what does not come: it never answers, or it opens a stream that
falls silent. -/
def Opening.Stalls (o : Opening) : Prop := o.wait = none ∨ ∃ beats, o.outcome = .ok beats ∧ Beat.silence ∈ beats

def Assignment.Stalls (a : Assignment) : Prop := ∃ n < a.maxRounds, (a.model n).Stalls

/-- The course with a call run and its answer told. -/
def Course.withResult (c : Course) (a : Assignment) (call : ToolCall) (answer : Except ToolError String) : Course :=
  (c.putEstate (c.run a call).2).emit a.pace (.result call (Reply.resultText answer))

namespace Reply

variable {a : Assignment}

/-- What is kept to along a reply: `Waited` holds behind every wait, `Told` where a part of the reply begins or ends,
`Called` behind the announcement of a call, and `E` where the reply goes no further. -/
structure Paced (a : Assignment) (Waited Told Called : Course → Prop) (E : Halt → Course → Prop) : Prop where
  told {c : Course} : Waited c → Told c
  called {c : Course} : Told c → Called c
  pause {wait : Option Nat} {c : Course} : (wait = none → a.Stalls) → Called c →
    (Act.pause a.limits wait).Ensures c (fun _ => Waited) E
  ask {c : Course} (messages : List Message) : Waited c → Waited (c.ask messages)
  content {c : Course} (text : String) : Waited c → Told (c.emit a.pace (.content text))
  call {c : Course} (call : ToolCall) : Told c → Called (c.emit a.pace (.call call))
  result {c : Course} {call : ToolCall} {answer : Except ToolError String}
    (answered : (c.run a call).1 = answer.mapError .tool) : Waited c → Told (c.withResult a call answer)
  crashed {c : Course} {call : ToolCall} (breaks : (c.run a call).1 = .error .overflow) : Waited c → E .crashed c
  cancelled {c : Course} : Waited c → E (.interrupted .cancelled) c
  failed {c : Course} (e : ProviderError) : Waited c → E (.failed e.message) c

/-- What is to be shown of the ends alone has to do with nothing but waits and failures. -/
theorem Paced.of_ends {E : Halt → Course → Prop}
    (pause : ∀ (wait : Option Nat) (c : Course), (wait = none → a.Stalls) →
      (Act.pause a.limits wait).Ensures c (fun _ _ => True) E)
    (cancelled : ∀ c, E (.interrupted .cancelled) c)
    (failed : ∀ (e : ProviderError) (c : Course), E (.failed e.message) c) (crashed : ∀ c, E .crashed c) :
    Paced a (fun _ => True) (fun _ => True) (fun _ => True) E where
  told _ := trivial
  called _ := trivial
  pause hwait _ := pause _ _ hwait
  ask _ _ := trivial
  content _ _ := trivial
  call _ _ := trivial
  result _ _ := trivial
  crashed _ _ := crashed _
  cancelled _ := cancelled _
  failed e _ := failed e _

section

variable {Waited Told Called : Course → Prop} {E : Halt → Course → Prop}

theorem Paced.pause_bind {α : Type} {Q : α → Course → Prop} (h : Paced a Waited Told Called E) {wait : Option Nat}
    {f : Unit → Act α} {c : Course} (hwait : wait = none → a.Stalls) (hcalled : Called c)
    (hf : ∀ c', Waited c' → (f ()).Ensures c' Q E) : Act.Ensures (Act.pause a.limits wait >>= f) c Q E :=
  (h.pause hwait hcalled).bind fun _ c' hwaited => hf c' hwaited

theorem Paced.request (h : Paced a Waited Told Called E) {n : Nat} (hn : n < a.maxRounds) (messages : List Message)
    {c : Course} (htold : Told c) :
    (request a n messages).Ensures c (fun beats c' => (a.model n).outcome = .ok beats ∧ Waited c') E := by
  rw [Reply.request]
  refine h.pause_bind (fun hnone => absurd hnone (by simp)) (h.called htold) fun c₁ hwaited => ?_
  refine Act.ensures_bind (Act.ensures_ask ?_)
  have hasked := h.called (h.told (h.ask messages hwaited))
  refine h.pause_bind (fun hnone => ⟨n, hn, .inl hnone⟩) hasked fun c₂ hwaited => ?_
  split
  · rename_i beats hbeats
    exact Act.ensures_pure ⟨hbeats, hwaited⟩
  · exact Act.ensures_throw (h.cancelled hwaited)
  · rename_i e _ _
    exact Act.ensures_throw (h.failed e hwaited)

theorem Paced.listen (h : Paced a Waited Told Called E) (beats : List Beat) (hbeats : Beat.silence ∈ beats → a.Stalls)
    (t : Turn) {c : Course} (htold : Told c) : (listen a beats t).Ensures c (fun _ => Told) E := by
  induction beats generalizing t c with
  | nil =>
    exact h.pause_bind (fun hnone => absurd hnone (by simp)) (h.called htold) fun _ hwaited =>
      Act.ensures_pure (h.told hwaited)
  | cons b rest ih =>
    have hrest := ih fun hmem => hbeats (List.mem_cons_of_mem b hmem)
    cases b with
    | wait time =>
      exact h.pause_bind (fun hnone => absurd hnone (by simp)) (h.called htold) fun _ hwaited =>
        hrest t (h.told hwaited)
    | silence =>
      exact h.pause_bind (fun _ => hbeats List.mem_cons_self) (h.called htold) fun _ hwaited =>
        Act.ensures_pure (h.told hwaited)
    | event e =>
      unfold Reply.listen
      refine h.pause_bind (fun hnone => absurd hnone (by simp)) (h.called htold) fun c' hwaited => ?_
      cases e with
      | text text => exact Act.ensures_bind (Act.ensures_emit (hrest _ (h.content text hwaited)))
      | call f => exact hrest _ (h.told hwaited)
      | finish reason => exact Act.ensures_pure (h.told hwaited)
      | done => exact Act.ensures_pure (h.told hwaited)
      | error e => exact Act.ensures_throw (h.failed e hwaited)

theorem Paced.answerCalls (h : Paced a Waited Told Called E) (calls : List ToolCall) {c : Course} (htold : Told c) :
    (answerCalls a calls).Ensures c (fun _ => Told) E := by
  induction calls generalizing c with
  | nil => exact Act.ensures_pure htold
  | cons call rest ih =>
    rw [Reply.answerCalls]
    refine Act.ensures_bind (Act.ensures_emit ?_)
    refine h.pause_bind (fun hnone => absurd hnone (by simp)) (h.call call htold) fun c' hwaited => ?_
    refine Act.ensures_bind (Act.ensures_execute (fun answer hanswer => ?_) fun hbreaks => h.crashed hbreaks hwaited)
    refine Act.ensures_bind (Act.ensures_emit ?_)
    exact (ih (h.result hanswer hwaited)).bind fun _ _ htold' => Act.ensures_pure htold'

theorem Paced.round (h : Paced a Waited Told Called E) {n : Nat} (hn : n < a.maxRounds) (messages : List Message)
    {c : Course} (htold : Told c) : (round a n messages).Ensures c (fun _ => Told) E := by
  rw [Reply.round]
  refine (h.request hn messages htold).bind fun beats c₁ hrequest => ?_
  obtain ⟨hbeats, hwaited⟩ := hrequest
  have hstalls : Beat.silence ∈ beats → a.Stalls := fun hsilence => ⟨n, hn, .inr ⟨beats, hbeats, hsilence⟩⟩
  refine (h.listen beats hstalls {} (h.told hwaited)).bind fun t c₂ htold₂ => ?_
  split
  · exact (h.answerCalls t.calls htold₂).bind fun _ _ htold₃ => Act.ensures_pure htold₃
  · exact Act.ensures_pure htold₂

end

/-! ### Whole replies -/

/-- What is kept to along the rounds is kept to along the whole conversation, if it survives the ends that are no part
of a round. -/
theorem Paced.conversation {Waited Told Called : Course → Prop} {E : Halt → Course → Prop}
    (h : Paced a Waited Told Called E) (e : Estate) (hstart : Told (.start e))
    (undatable : a.datable = false → E .crashed (.start e))
    (refused : ∀ f, Prompt.system a.prompt a.scope.cluster = .error f →
      E (.failed (Prompt.failureMessage f)) (.start e))
    (limit : ∀ c, Told c → E (.failed roundLimitMessage) c) :
    (conversation a).Ensures (.start e) (fun _ => Told) E := by
  have hcounts : Counts a (fun _ _ => Told) Told E := by
    refine ⟨fun {n messages c} hn htold => ?_, fun {_ c} htold => limit c htold⟩
    apply (h.round hn messages htold).mono
    · intro next c' htold'
      cases next <;> exact htold'
    · intro halt c' hends
      exact hends
  exact hcounts.conversation e undatable refused fun _ _ => hstart

/-- No call changes a pod, and so no reply breaks down over a sum if the store that it starts with has no such pod. -/
theorem ending_ne_crashed {e : Estate} (hdatable : a.datable = true) (hstore : e.store.Countable) :
    (ending a e).1 ≠ some .crashed := by
  have hpaced : Paced a (fun c => c.estate.store.Countable) (fun c => c.estate.store.Countable)
      (fun c => c.estate.store.Countable) (fun h _ => h ≠ .crashed) :=
    { told := id
      called := id
      pause := fun _ hc => Act.ensures_pause (fun _ => hc) (fun _ _ _ => by simp) fun _ _ => by simp
      ask := fun _ hc => hc
      content := fun _ hc => hc
      call := fun _ hc => hc
      result := fun {c call _} _ hc => Estate.invoke_countable (a.invocation call) hc
      crashed := fun hbreaks hc => absurd hc (Estate.eq_of_execute_overflow hbreaks).2.2
      cancelled := fun _ => by simp
      failed := fun _ _ => by simp }
  have hends := hpaced.conversation e hstore (fun hundatable => absurd hdatable (by simp [hundatable]))
    (fun _ _ => by simp) fun _ _ => by simp
  refine ending_of_ensures (P := fun halt _ => halt ≠ some .crashed) (hends.mono (fun _ _ _ => by simp) ?_)
  intro h _ hne hhalt
  exact hne (Option.some.inj hhalt)

end Reply

end Helmsman
