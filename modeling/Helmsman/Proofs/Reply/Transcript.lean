import Helmsman.Proofs.Reply.Round
import Mathlib.Data.List.Chain
/-!
# What the model is asked

The requests of a reply are one conversation that grows. The first is the system prompt and the caller's history, and
each later one is the one before with an answered turn behind it: a turn of the model that asks for calls, and an
answer to each of them. An answered turn cannot be built without calls or with two calls of one id, so that neither is
proved again.
-/

namespace Helmsman

/-- A turn of the model that asks for calls, together with what each call was answered. -/
structure AnsweredTurn where
  text : String
  results : List (ToolCall × String)
  asked : results ≠ []
  distinct : (results.map fun p => p.1.id).Nodup

namespace AnsweredTurn

def calls (x : AnsweredTurn) : List ToolCall := x.results.map Prod.fst

/-- The turn, and behind it the answers in the order of the calls. -/
def messages (x : AnsweredTurn) : List Message :=
  { Message.assistant x.text with toolCalls := x.calls } :: x.results.map Reply.answer

end AnsweredTurn

theorem AsksFor.exists_answeredTurn {beats : List Beat} {text : String} {results : List (ToolCall × String)}
    (h : AsksFor beats text (results.map Prod.fst)) : ∃ x : AnsweredTurn, x.text = text ∧ x.results = results := by
  have hasked : results ≠ [] := by
    intro hnil
    apply h.calls_ne
    rw [hnil, List.map_nil]
  have hdistinct := h.ids_nodup
  rw [List.map_map] at hdistinct
  exact ⟨⟨text, results, hasked, hdistinct⟩, rfl, rfl⟩

namespace Reply

variable {a : Assignment}

/-- Requests that are one growing conversation: `first` is how it begins, and `next` is what each round adds. -/
structure Transcript (a : Assignment) (requests : List (List Message)) : Prop where
  first : ∀ q, requests[0]? = some q →
    ∃ text, Prompt.system a.prompt a.scope.cluster = .ok text ∧ q = .system text :: a.history
  next : ∀ k q q', requests[k]? = some q → requests[k + 1]? = some q' → ∃ (x : AnsweredTurn) (beats : List Beat),
    (a.model k).outcome = .ok beats ∧ AsksFor beats x.text x.calls ∧ q' = q ++ x.messages

namespace Transcript

theorem nil : Transcript a [] := ⟨fun q h => absurd h (by simp), fun k q q' h => absurd h (by simp)⟩

theorem opened {text : String} (h : Prompt.system a.prompt a.scope.cluster = .ok text) :
    Transcript a [.system text :: a.history] where
  first q hq := ⟨text, h, (Option.some.inj hq).symm⟩
  next k q q' _ hq' := absurd hq' (by simp)

private theorem getElem?_of_begins {α : Type} {l l' : List α} {k : Nat} {x : α} (hbegins : l <+: l')
    (h : l[k]? = some x) : l'[k]? = some x := by
  obtain ⟨hk, rfl⟩ := List.getElem?_eq_some_iff.1 h
  exact List.prefix_iff_getElem?.1 hbegins k hk

theorem of_begins {requests requests' : List (List Message)} (h : Transcript a requests')
    (hbegins : requests <+: requests') : Transcript a requests where
  first q hq := h.first q (getElem?_of_begins hbegins hq)
  next k q q' hq hq' := h.next k q q' (getElem?_of_begins hbegins hq) (getElem?_of_begins hbegins hq')

/-- One more request, if it is the last one with the answered turn of the round that the last one began. -/
theorem snoc {requests : List (List Message)} {q : List Message} {x : AnsweredTurn} {beats : List Beat}
    (h : Transcript a (requests ++ [q])) (hopened : (a.model requests.length).outcome = .ok beats)
    (hasks : AsksFor beats x.text x.calls) : Transcript a (requests ++ [q] ++ [q ++ x.messages]) where
  first q' hq' := by
    rw [List.getElem?_append_left (by simp)] at hq'
    exact h.first q' hq'
  next k q₁ q₂ hq₁ hq₂ := by
    rcases Nat.lt_trichotomy k requests.length with hk | rfl | hk
    · rw [List.getElem?_append_left (by simp; omega)] at hq₁ hq₂
      exact h.next k q₁ q₂ hq₁ hq₂
    · rw [List.getElem?_append_left (by simp), List.getElem?_concat_length] at hq₁
      have hlength : (requests ++ [q]).length = requests.length + 1 := by simp
      rw [← hlength, List.getElem?_concat_length] at hq₂
      obtain rfl := Option.some.inj hq₁
      exact ⟨x, beats, hopened, hasks, (Option.some.inj hq₂).symm⟩
    · rw [List.getElem?_eq_none (by simp; omega)] at hq₂
      exact absurd hq₂ (by simp)

theorem eq_answeredTurns {requests : List (List Message)} (h : Transcript a requests) {k : Nat} {q : List Message}
    (hq : requests[k]? = some q) : ∃ (text : String) (xs : List AnsweredTurn),
      Prompt.system a.prompt a.scope.cluster = .ok text
        ∧ q = .system text :: a.history ++ xs.flatMap AnsweredTurn.messages := by
  induction k generalizing q with
  | zero =>
    obtain ⟨text, hprompt, rfl⟩ := h.first q hq
    exact ⟨text, [], hprompt, (List.append_nil _).symm⟩
  | succ k ih =>
    obtain ⟨hk, -⟩ := List.getElem?_eq_some_iff.1 hq
    have hbefore : requests[k]? = some requests[k] := List.getElem?_eq_getElem (Nat.lt_of_succ_lt hk)
    obtain ⟨text, xs, hprompt, hq₀⟩ := ih hbefore
    obtain ⟨x, -, -, -, rfl⟩ := h.next k _ q hbefore hq
    refine ⟨text, xs ++ [x], hprompt, ?_⟩
    rw [hq₀, List.append_assoc, List.flatMap_append, List.flatMap_singleton]

theorem nested {requests : List (List Message)} (h : Transcript a requests) :
    requests.Pairwise (· <+: ·) := by
  let prefixTrans : @Trans (List Message) _ _ (· <+: ·) (· <+: ·) (· <+: ·) := ⟨List.IsPrefix.trans⟩
  rw [← List.isChain_iff_pairwise, List.isChain_iff_getElem]
  intro k hk
  have hbefore : requests[k]? = some requests[k] := List.getElem?_eq_getElem (Nat.lt_of_succ_lt hk)
  obtain ⟨x, -, -, -, hq⟩ := h.next k _ _ hbefore (List.getElem?_eq_getElem hk)
  exact ⟨x.messages, hq.symm⟩

end Transcript

/-- Before each round the requests are a transcript with the round's own conversation at its end. -/
structure Asked (a : Assignment) (n : Nat) (messages : List Message) (c : Course) : Prop where
  count : c.requests.length = n
  transcript : Transcript a (c.requests ++ [messages])

theorem Rounded.requests {n : Nat} {messages : List Message} {c c' : Course} {r : Except Halt (Option (List Message))}
    (h : Rounded a n messages c r c') : c'.requests <+: c.requests ++ [messages] := by
  cases h with
  | unasked quits =>
    obtain ⟨texts, hleads⟩ := quits.tells
    rw [hleads.requests]
    exact List.prefix_append ..
  | broken quits =>
    obtain ⟨texts, hleads⟩ := quits.tells
    exact hleads.requests ▸ List.prefix_rfl
  | satisfied tells =>
    obtain ⟨texts, hleads⟩ := tells
    exact hleads.requests ▸ List.prefix_rfl
  | cut _ _ _ _ hleads => exact hleads.requests ▸ List.prefix_rfl
  | answered _ _ _ hleads => exact hleads.requests ▸ List.prefix_rfl

theorem Asked.next {n : Nat} {messages messages' : List Message} {c c' : Course} (h : Asked a n messages c)
    (hround : Rounded a n messages c (.ok (some messages')) c') : Asked a (n + 1) messages' c' := by
  cases hround with
  | answered hopened hasks hcomplete hleads =>
    subst hcomplete
    obtain ⟨x, rfl, rfl⟩ := hasks.exists_answeredTurn
    have hrequests : c'.requests = c.requests ++ [messages] := hleads.requests
    constructor
    · rw [hrequests, List.length_append, h.count, List.length_singleton]
    · rw [hrequests]
      exact h.transcript.snoc (h.count ▸ hopened) hasks

theorem asked_carries :
    Carries a (Asked a) (fun c => Transcript a c.requests) (fun _ c => Transcript a c.requests) where
  limit h := h.transcript.of_begins (List.prefix_append ..)
  satisfied h hround := h.transcript.of_begins hround.requests
  ended h hround := h.transcript.of_begins hround.requests
  next := Asked.next

theorem course_transcript (a : Assignment) (e : Estate) : Transcript a (course a e).requests := by
  rw [requests_course]
  apply ending_of_carries (Asked a) (fun _ c => Transcript a c.requests) e asked_carries
  · intro _
    exact Transcript.nil
  · intro f _
    exact Transcript.nil
  · intro text hprompt
    exact ⟨rfl, Transcript.opened hprompt⟩

/-- The model is asked with the system prompt and the history, and then with the same again and an answered turn for
each round that has passed: the text and the calls of its stream, each call answered once and in order. The
conversation only ever grows, and behind the history there is nothing but answered turns. -/
theorem requests_grow_by_answeredTurn (a : Assignment) (e : Estate) :
    (∀ q, (course a e).requests[0]? = some q →
      ∃ text, Prompt.system a.prompt a.scope.cluster = .ok text ∧ q = .system text :: a.history)
    ∧ (∀ k q q', (course a e).requests[k]? = some q → (course a e).requests[k + 1]? = some q' →
      ∃ (x : AnsweredTurn) (beats : List Beat), (a.model k).outcome = .ok beats ∧ AsksFor beats x.text x.calls
        ∧ q' = q ++ x.messages)
    ∧ (∀ q ∈ (course a e).requests, ∃ (text : String) (xs : List AnsweredTurn),
      Prompt.system a.prompt a.scope.cluster = .ok text
        ∧ q = .system text :: a.history ++ xs.flatMap AnsweredTurn.messages)
    ∧ (course a e).requests.Pairwise (· <+: ·) := by
  have htranscript := course_transcript a e
  refine ⟨htranscript.first, htranscript.next, ?_, htranscript.nested⟩
  intro q hq
  obtain ⟨k, hk⟩ := List.getElem?_of_mem hq
  exact htranscript.eq_answeredTurns hk

end Reply

end Helmsman
