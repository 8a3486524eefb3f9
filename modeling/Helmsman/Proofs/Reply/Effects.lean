import Helmsman.Proofs.Reply.Round
/-!
# What a reply does

A reply changes nothing but by the calls whose results it reports: what it leaves behind is what these calls do when
they are run by themselves, in the order of their results. And it reports results only of calls that a stream has asked
for, round by round and in order, so that a call of a stream that ends in any other way is never run.
-/

namespace Helmsman

namespace Reply

variable {a : Assignment} {e : Estate}

theorem answered_texts (texts : List String) : answered (texts.map .content) = [] := by
  induction texts with
  | nil => rfl
  | cons text texts ih => exact ih

theorem answered_told (results : List (ToolCall × String)) :
    answered (results.flatMap told) = results.map Prod.fst := by
  induction results with
  | nil => rfl
  | cons p results ih =>
    rw [List.flatMap_cons, answered_append, ih]
    rfl

theorem answered_closing (halt : Option Halt) : answered (closing halt) = [] := by
  match halt with
  | none | some (.interrupted .cancelled) | some (.interrupted .deadline) | some (.failed _) | some .stuck
  | some .crashed => rfl

/-- The calls that the first rounds ask for, a list for each round. -/
def Asks (a : Assignment) (asked : List (List ToolCall)) : Prop :=
  ∀ k calls, asked[k]? = some calls →
    ∃ (beats : List Beat) (text : String), (a.model k).outcome = .ok beats ∧ AsksFor beats text calls

theorem Asks.nil : Asks a [] := by
  intro k calls hk
  rw [List.getElem?_nil] at hk
  exact absurd hk (by simp)

theorem Asks.snoc {asked : List (List ToolCall)} {beats : List Beat} {text : String} {calls : List ToolCall}
    (h : Asks a asked) (hopened : (a.model asked.length).outcome = .ok beats) (hasks : AsksFor beats text calls) :
    Asks a (asked ++ [calls]) := by
  intro k calls' hk
  rw [List.getElem?_append] at hk
  split at hk
  · exact h k calls' hk
  · obtain ⟨hlt, rfl⟩ := List.getElem?_eq_some_iff.1 hk
    have hk' : k = asked.length := by
      rw [List.length_singleton] at hlt
      omega
    subst hk'
    simp only [Nat.sub_self, List.getElem_cons_zero]
    exact ⟨beats, text, hopened, hasks⟩

/-- Before each round the estate is as the results so far have left it, and these are the results of all that was asked
for. -/
structure Settled (a : Assignment) (e : Estate) (n : Nat) (c : Course) (asked : List (List ToolCall)) : Prop where
  estate : c.estate = a.replay c.steps e
  asks : Asks a asked
  count : asked.length = n
  complete : answered c.steps = asked.flatten

/-- What is left at the end, where the last round that was asked for may have got some of its results only. -/
def Accounted (a : Assignment) (e : Estate) (c : Course) : Prop :=
  c.estate = a.replay c.steps e ∧ ∃ asked, Asks a asked ∧ answered c.steps <+: asked.flatten

theorem Leads.replay {c c' : Course} {made : List Step} (h : Leads a c made c')
    (hestate : c.estate = a.replay c.steps e) : c'.estate = a.replay c'.steps e := by
  rw [h.estate, hestate, h.steps, Assignment.replay_append]

theorem Leads.answered {c c' : Course} {made : List Step} (h : Leads a c made c') :
    answered c'.steps = answered c.steps ++ answered made := by
  rw [h.steps, answered_append]

theorem Settled.accounted {n : Nat} {c : Course} {asked : List (List ToolCall)} (h : Settled a e n c asked) :
    Accounted a e c := ⟨h.estate, asked, h.asks, h.complete ▸ List.prefix_rfl⟩

theorem Settled.tells {n : Nat} {c c' : Course} {asked : List (List ToolCall)} (h : Settled a e n c asked)
    (htells : Tells a c c') : Settled a e n c' asked := by
  obtain ⟨texts, hleads⟩ := htells
  refine ⟨hleads.replay h.estate, h.asks, h.count, ?_⟩
  rw [hleads.answered, answered_texts, List.append_nil, h.complete]

theorem Settled.ask {n : Nat} {c : Course} {asked : List (List ToolCall)} (h : Settled a e n c asked)
    (messages : List Message) : Settled a e n (c.ask messages) asked := ⟨h.estate, h.asks, h.count, h.complete⟩

/-- A round that is answered leaves no call without its result. -/
theorem Settled.next {n : Nat} {messages messages' : List Message} {c c' : Course} {asked : List (List ToolCall)}
    (h : Settled a e n c asked) (hround : Rounded a n messages c (.ok (some messages')) c') :
    ∃ asked', Settled a e (n + 1) c' asked' := by
  have hasked := h.ask messages
  cases hround with
  | @answered beats text calls texts results _ hopened hasks hcomplete hleads =>
    refine ⟨asked ++ [calls], hleads.replay hasked.estate, h.asks.snoc (h.count ▸ hopened) hasks, ?_, ?_⟩
    · rw [List.length_append, h.count, List.length_singleton]
    · rw [hleads.answered, hasked.complete, answered_append, answered_texts, answered_told, hcomplete,
        List.flatten_append, List.flatten_singleton]
      rfl

theorem Settled.ends {n : Nat} {messages : List Message} {c c' : Course} {asked : List (List ToolCall)}
    {r : Except Halt (Option (List Message))} (h : Settled a e n c asked) (hround : Rounded a n messages c r c') :
    Accounted a e c' := by
  have hasked := h.ask messages
  cases hround with
  | unasked quits => exact (h.tells quits.tells).accounted
  | broken quits => exact (hasked.tells quits.tells).accounted
  | satisfied tells => exact (hasked.tells tells).accounted
  | answered hopened hasks hcomplete hleads =>
    obtain ⟨_, hnext⟩ := h.next (.answered hopened hasks hcomplete hleads : Rounded a n messages c _ _)
    exact hnext.accounted
  | @cut beats text calls texts results call _ _ hopened hasks hbegun _ hleads =>
    refine ⟨hleads.replay hasked.estate, asked ++ [calls], h.asks.snoc (h.count ▸ hopened) hasks, ?_⟩
    have hnew : answered (texts.map .content ++ (results.flatMap told ++ [.call call])) = results.map Prod.fst := by
      rw [answered_append, answered_texts, answered_append, answered_told]
      exact List.append_nil _
    rw [hleads.answered, hnew, hasked.complete, List.flatten_append, List.flatten_singleton]
    exact (List.prefix_append_right_inj _).2 ((List.prefix_append ..).trans hbegun)

theorem settled_carries : Carries a (fun n _ c => ∃ asked, Settled a e n c asked) (Accounted a e)
    (fun _ => Accounted a e) where
  limit h := by
    obtain ⟨asked, hsettled⟩ := h
    exact hsettled.accounted
  satisfied h hround := by
    obtain ⟨asked, hsettled⟩ := h
    exact hsettled.ends hround
  ended h hround := by
    obtain ⟨asked, hsettled⟩ := h
    exact hsettled.ends hround
  next h hround := by
    obtain ⟨asked, hsettled⟩ := h
    exact hsettled.next hround

theorem ending_accounted (a : Assignment) (e : Estate) : Accounted a e (ending a e).2 := by
  have hstart : Settled a e 0 (.start e) [] := ⟨rfl, Asks.nil, rfl, rfl⟩
  exact ending_of_carries (fun n _ c => ∃ asked, Settled a e n c asked) (fun _ => Accounted a e) e settled_carries
    (fun _ => hstart.accounted) (fun _ _ => hstart.accounted) fun _ _ => ⟨[], hstart⟩

/-- The last steps of a reply stand for nothing. -/
theorem Accounted.close {c : Course} (h : Accounted a e c) (halt : Option Halt) : Accounted a e (close a halt c) := by
  have hleads : Leads a c (closing halt) (Reply.close a halt c) := Leads.foldl_emit c (answered_closing halt)
  obtain ⟨hestate, asked, hasks, hbegun⟩ := h
  refine ⟨hleads.replay hestate, asked, hasks, ?_⟩
  rwa [hleads.answered, answered_closing, List.append_nil]

/-- What a reply leaves behind, the store and the audit log, is what the calls with a result among its steps do when
they are run on their own, in the order of their results. It does not matter which wait is interrupted, nor how long the
caller takes for which step. The calls are the first of those that the streams of the rounds have asked for, up to the
round that a reply came to. -/
theorem course_runs_answered (a : Assignment) (e : Estate) :
    (course a e).estate = e.invokeAll ((answered (course a e).steps).map a.invocation)
    ∧ ∃ asked : List (List ToolCall),
      (∀ k calls, asked[k]? = some calls →
        ∃ (beats : List Beat) (text : String), (a.model k).outcome = .ok beats ∧ AsksFor beats text calls)
      ∧ answered (course a e).steps <+: asked.flatten :=
  (ending_accounted a e).close (ending a e).1

end Reply

end Helmsman
