import Helmsman.Proofs.Reply.CallOff
/-!
# Replies under closer limits

Two replies that are the same but for an interrupt that may strike only the second take one course until it strikes.
`Follows` says this of two acts: the second comes to what the first comes to, or it is interrupted at a course that the
first goes on from. What the first goes on to is told no earlier than the interrupt struck, and what was told, asked and
done before stays (`Continues`). Only waits look at the limits, and so the relation is proved of them and put together
from there (`conversation_follows`).
-/

namespace Helmsman

/-! ### Later courses -/

namespace Course

/-- What was told and asked stays, and whatever else is told is told no earlier. -/
structure Begins (c c' : Course) : Prop where
  requests : c.requests <+: c'.requests
  moments : ∃ later, c'.moments = c.moments ++ later ∧ ∀ m ∈ later, c.standing.clock ≤ m.standing.clock

/-- A course later on. -/
structure Continues (c c' : Course) : Prop extends Begins c c' where
  clock : c.standing.clock ≤ c'.standing.clock

theorem begins_of_eq {c c' : Course} (hrequests : c'.requests = c.requests) (hmoments : c'.moments = c.moments) :
    c.Begins c' :=
  ⟨hrequests ▸ List.prefix_rfl, [], hmoments.trans (List.append_nil _).symm, fun _ hm => absurd hm List.not_mem_nil⟩

namespace Continues

theorem passTo {c : Course} {time : Nat} (h : c.standing.clock ≤ time) : c.Continues (c.passTo time) :=
  ⟨begins_of_eq (Eq.refl _) (Eq.refl _), h⟩

theorem rfl {c : Course} : c.Continues c := passTo (Nat.le_refl _)

theorem trans {c c' c'' : Course} (h : c.Continues c') (h' : c'.Continues c'') : c.Continues c'' := by
  obtain ⟨later, hmoments, hlater⟩ := h.moments
  obtain ⟨later', hmoments', hlater'⟩ := h'.moments
  refine ⟨⟨h.requests.trans h'.requests, later ++ later', ?_, ?_⟩, Nat.le_trans h.clock h'.clock⟩
  · rw [hmoments', hmoments, List.append_assoc]
  · intro m hm
    rcases List.mem_append.1 hm with hm | hm
    · exact hlater m hm
    · exact Nat.le_trans h.clock (hlater' m hm)

theorem emit (pace : Nat → Nat) (c : Course) (s : Step) : c.Continues (c.emit pace s) := by
  refine ⟨⟨List.prefix_rfl, [⟨s, c.standing⟩], Eq.refl _, fun m hm => ?_⟩, Nat.le_add_right ..⟩
  obtain rfl := List.mem_singleton.1 hm
  exact Nat.le_refl _

theorem ask (c : Course) (messages : List Message) : c.Continues (c.ask messages) :=
  ⟨⟨List.prefix_append .., [], (List.append_nil _).symm, fun _ hm => absurd hm List.not_mem_nil⟩, Nat.le_refl _⟩

theorem putEstate (c : Course) (e : Estate) : c.Continues (c.putEstate e) :=
  ⟨begins_of_eq (Eq.refl _) (Eq.refl _), Nat.le_refl _⟩

theorem foldl_emit (pace : Nat → Nat) (made : List Step) (c : Course) :
    c.Continues (made.foldl (Course.emit pace) c) := by
  induction made generalizing c with
  | nil => exact rfl
  | cons s made ih => exact (emit pace c s).trans (ih _)

end Continues

end Course

/-! ### One more interrupt -/

namespace Limits

/-- What strikes next under the second limits is what does under the first, or it is the interrupt, and no later. -/
def Adds (i : Interrupt) (l l' : Limits) : Prop := ∀ c : Course, l'.next? c = l.next? c ∨
  ∃ time, l'.next? c = some (time, i) ∧ ∀ time' i', l.next? c = some (time', i') → time ≤ time'

theorem adds_cancellation (x : Cancellation) (d : Option Nat) : Adds .cancelled ⟨.never, d⟩ ⟨x, d⟩ := by
  intro c
  have hnever : Cancellation.never.time? c = none := rfl
  rw [next?, next?, hnever]
  cases x.time? c with
  | none => exact .inl rfl
  | some t =>
    cases d with
    | none => exact .inr ⟨_, rfl, fun _ _ h => absurd h (by simp)⟩
    | some d =>
      dsimp only [Option.map_some, Option.map_none]
      split
      · rename_i hle
        refine .inr ⟨_, rfl, fun time' i' h => ?_⟩
        obtain ⟨rfl, -⟩ := Prod.mk.inj (Option.some.inj h)
        exact hle
      · exact .inl rfl

theorem adds_deadline (d : Nat) : Adds .deadline {} { deadline := some d } := by
  intro c
  exact .inr ⟨max c.standing.clock d, rfl, fun _ _ h => absurd h (by simp [next?, Cancellation.time?])⟩

end Limits

namespace Act

variable {α β : Type} {l l' : Limits} {i : Interrupt} {c : Course}

/-- From the one course the act gets as far as the other and then goes on. An act that waits there for ever is taken to
have come as far as any later time. -/
def Outlasts (x : Act α) (c c' : Course) : Prop :=
  x.Ensures c (fun _ => c'.Continues) fun h c₁ => c'.Continues c₁ ∨ h = .stuck ∧ c' = c₁.passTo c'.standing.clock

/-- The second act comes to what the first comes to, or the interrupt strikes and it gets only part of the way. -/
structure Follows (i : Interrupt) (l : Limits) (x y : Act α) : Prop where
  continues : ∀ c, x.Ensures c (fun _ => c.Continues) (fun _ => c.Continues)
  follows : ∀ c, y c = x c ∨ ∃ c', y c = .error (.interrupted i) c' ∧ l.Struck c' i ∧ x.Outlasts c c'

namespace Follows

theorem of_continues {x : Act α} (h : ∀ c, x.Ensures c (fun _ => c.Continues) (fun _ => c.Continues)) :
    Follows i l x x := ⟨h, fun _ => .inl rfl⟩

theorem pure (a : α) : Follows i l (pure a : Act α) (pure a) := of_continues fun _ => ensures_pure .rfl

theorem throw (h : Halt) : Follows i l (throw h : Act α) (throw h) := of_continues fun _ => ensures_throw .rfl

theorem emit (pace : Nat → Nat) (s : Step) : Follows i l (emit pace s) (emit pace s) :=
  of_continues fun c => ensures_emit (.emit pace c s)

theorem ask (messages : List Message) : Follows i l (ask messages) (ask messages) :=
  of_continues fun c => ensures_ask (.ask c messages)

theorem execute (now : Instant) (scope : Scope) (call : ToolCall) :
    Follows i l (execute now scope call) (execute now scope call) :=
  of_continues fun c => ensures_execute (fun _ _ => .putEstate c _) fun _ => .rfl

theorem bind {x y : Act β} {f g : β → Act α} (h : Follows i l x y) (hf : ∀ b, Follows i l (f b) (g b)) :
    Follows i l (x >>= f) (y >>= g) where
  continues c := (h.continues c).bind fun b c' hc' =>
    ((hf b).continues c').mono (fun _ _ => hc'.trans) (fun _ _ => hc'.trans)
  follows c := by
    show EStateM.bind y g c = EStateM.bind x f c ∨ ∃ c', EStateM.bind y g c = .error (.interrupted i) c'
      ∧ l.Struck c' i ∧ (x >>= f).Outlasts c c'
    rcases h.follows c with hsame | ⟨c', hstopped, hstruck, houtlasts⟩
    · rw [EStateM.bind, EStateM.bind, hsame]
      cases hx : x c with
      | error halt c₁ => exact .inl rfl
      | ok b c₁ =>
        rcases (hf b).follows c₁ with hsame' | ⟨c', hstopped, hstruck, houtlasts⟩
        · exact .inl hsame'
        · refine .inr ⟨c', hstopped, hstruck, ensures_bind ?_⟩
          rw [Ensures, hx]
          exact houtlasts
    · refine .inr ⟨c', ?_, hstruck, ?_⟩
      · rw [EStateM.bind, hstopped]
      · exact houtlasts.bind fun b c₁ hc₁ =>
          ((hf b).continues c₁).mono (fun _ _ => hc₁.trans) (fun _ _ h => .inl (hc₁.trans h))

end Follows

/-! ### Waits -/

theorem pause_continues (l : Limits) (wait : Option Nat) (c : Course) :
    (pause l wait).Ensures c (fun _ => c.Continues) (fun _ => c.Continues) := by
  rw [Ensures]
  cases hnext : l.next? c with
  | none =>
    rw [pause_eq, hnext]
    cases wait with
    | none => exact .rfl
    | some span => exact .passTo (Nat.le_add_right ..)
  | some p =>
    have hahead := (Limits.ahead_of_next? hnext).1
    cases wait with
    | none =>
      rw [pause_eq, hnext]
      exact .passTo hahead
    | some span =>
      by_cases hle : p.1 ≤ c.standing.clock + span
      · rw [pause_of_le hnext hle]
        exact .passTo hahead
      · rw [pause_of_not_le hnext hle]
        exact .passTo (Nat.le_add_right ..)

/-- A wait that would not have ended earlier goes on from where it is cut short. -/
theorem pause_outlasts {time : Nat} (hfirst : ∀ time' i', l.next? c = some (time', i') → time ≤ time')
    {wait : Option Nat} (hwait : ∀ span, wait = some span → time ≤ c.standing.clock + span) :
    (pause l wait).Outlasts c (c.passTo time) := by
  have hlater : ∀ time', time ≤ time' → (c.passTo time).Continues (c.passTo time') := fun time' hle =>
    Course.Continues.passTo (c := c.passTo time) hle
  rw [Outlasts, Ensures]
  cases hnext : l.next? c with
  | none =>
    rw [pause_eq, hnext]
    cases wait with
    | none => exact .inr ⟨rfl, rfl⟩
    | some span => exact hlater _ (hwait span rfl)
  | some p =>
    have hstrikes := hlater p.1 (hfirst p.1 p.2 hnext)
    cases wait with
    | none =>
      rw [pause_eq, hnext]
      exact .inl hstrikes
    | some span =>
      by_cases hle : p.1 ≤ c.standing.clock + span
      · rw [pause_of_le hnext hle]
        exact .inl hstrikes
      · rw [pause_of_not_le hnext hle]
        exact hlater _ (hwait span rfl)

/-- Under the added interrupt a wait ends as it would, or it is cut short. -/
theorem Follows.pause (hadds : l.Adds i l') (wait : Option Nat) : Follows i l' (pause l wait) (pause l' wait) where
  continues := pause_continues l wait
  follows c := by
    rcases hadds c with hsame | ⟨time, hnext, hfirst⟩
    · exact .inl (by rw [pause_eq, pause_eq, hsame])
    · have hstruck := Limits.struck_of_next? hnext
      cases wait with
      | none =>
        refine .inr ⟨c.passTo time, ?_, hstruck, pause_outlasts hfirst fun span h => absurd h (by simp)⟩
        rw [pause_eq, hnext]
        rfl
      | some span =>
        by_cases hle : time ≤ c.standing.clock + span
        · refine .inr ⟨c.passTo time, pause_of_le hnext hle, hstruck, pause_outlasts hfirst fun span' h => ?_⟩
          rwa [← Option.some.inj h]
        · left
          rw [pause_of_not_le hnext hle]
          cases hnext' : l.next? c with
          | none =>
            rw [pause_eq, hnext']
            rfl
          | some p =>
            have hlater := hfirst p.1 p.2 hnext'
            rw [pause_of_not_le hnext' (by omega)]

end Act

/-! ### Replies -/

/-- The same reply under other limits. -/
def Assignment.under (a : Assignment) (l : Limits) : Assignment := { a with limits := l }

namespace Reply

variable {l l' : Limits} {i : Interrupt}

section

variable (a : Assignment) (hadds : l.Adds i l')
include hadds

theorem request_follows (n : Nat) (messages : List Message) :
    Act.Follows i l' (request (a.under l) n messages) (request (a.under l') n messages) := by
  rw [request, request]
  refine .bind (.pause hadds _) fun _ => .bind (.ask messages) fun _ => .bind (.pause hadds _) fun _ => ?_
  have hmodel : ∀ l, (a.under l).model = a.model := fun _ => rfl
  rw [hmodel, hmodel]
  cases (a.model n).outcome with
  | ok beats => exact .pure beats
  | error e => cases e <;> exact .throw _

theorem listen_follows (beats : List Beat) (t : Turn) :
    Act.Follows i l' (listen (a.under l) beats t) (listen (a.under l') beats t) := by
  induction beats generalizing t with
  | nil => exact .bind (.pause hadds _) fun _ => .pure t
  | cons b rest ih =>
    cases b with
    | wait time => exact .bind (.pause hadds _) fun _ => ih t
    | silence => exact .bind (.pause hadds _) fun _ => .pure t
    | event e =>
      unfold listen
      refine .bind (.pause hadds _) fun _ => ?_
      cases e with
      | text text => exact .bind (.emit _ _) fun _ => ih _
      | call f => exact ih _
      | finish reason => exact .pure _
      | done => exact .pure t
      | error e => exact .throw _

theorem answerCalls_follows (calls : List ToolCall) :
    Act.Follows i l' (answerCalls (a.under l) calls) (answerCalls (a.under l') calls) := by
  induction calls with
  | nil => exact .pure []
  | cons call rest ih =>
    rw [answerCalls, answerCalls]
    refine .bind (.emit _ _) fun _ => .bind (.pause hadds _) fun _ => .bind (.execute _ _ call) fun answer => ?_
    exact .bind (.emit _ _) fun _ => .bind ih fun _ => .pure _

theorem round_follows (n : Nat) (messages : List Message) :
    Act.Follows i l' (round (a.under l) n messages) (round (a.under l') n messages) := by
  rw [round, round]
  refine .bind (request_follows a hadds n messages) fun beats => .bind (listen_follows a hadds beats {}) fun t => ?_
  split
  · exact .bind (answerCalls_follows a hadds t.calls) fun _ => .pure _
  · exact .pure none

theorem rounds_follows (left n : Nat) (messages : List Message) :
    Act.Follows i l' (rounds (a.under l) left n messages) (rounds (a.under l') left n messages) := by
  induction left generalizing n messages with
  | zero => exact .throw _
  | succ left ih =>
    rw [rounds, rounds]
    refine .bind (round_follows a hadds n messages) fun next => ?_
    cases next with
    | none => exact .pure ()
    | some messages' => exact ih (n + 1) messages'

theorem conversation_follows (hdatable : (a.under l').datable = (a.under l).datable) :
    Act.Follows i l' (conversation (a.under l)) (conversation (a.under l')) := by
  have hschedule : schedule (a.under l') = schedule (a.under l) := by rw [schedule, schedule, hdatable]
  have hopening : opening (a.under l') = opening (a.under l) := rfl
  rw [conversation, conversation, hschedule, hopening]
  refine .bind ?_ fun _ => .bind ?_ fun messages => rounds_follows a hadds a.maxRounds 0 messages
  · rw [schedule]
    split
    · exact .pure _
    · exact .throw _
  · rw [opening]
    split
    · exact .pure _
    · exact .throw _

/-- A reply under one more interrupt is the same reply, or it is interrupted with the beginning of the other one behind
it. The other one then goes on from there or waits for ever. -/
theorem course_follows (hdatable : (a.under l').datable = (a.under l).datable) (e : Estate) :
    conversation (a.under l') (.start e) = conversation (a.under l) (.start e)
    ∨ ∃ c, conversation (a.under l') (.start e) = .error (.interrupted i) c ∧ l'.Struck c i
      ∧ c.Begins (course (a.under l) e)
      ∧ (c.Continues (ending (a.under l) e).2 ∨ (ending (a.under l) e).1 = some .stuck) := by
  rcases (conversation_follows a hadds hdatable).follows (.start e) with hsame | ⟨c, hstopped, hstruck, houtlasts⟩
  · exact .inl hsame
  · refine .inr ⟨c, hstopped, hstruck, ?_⟩
    rw [Act.Outlasts, Act.Ensures] at houtlasts
    rw [course, ending]
    cases hfree : conversation (a.under l) (.start e) with
    | ok u c₁ =>
      rw [hfree] at houtlasts
      exact ⟨(houtlasts.trans (.foldl_emit _ _ c₁)).toBegins, .inl houtlasts⟩
    | error halt c₁ =>
      rw [hfree] at houtlasts
      rcases houtlasts with hcontinues | ⟨rfl, hwaits⟩
      · exact ⟨(hcontinues.trans (.foldl_emit _ _ c₁)).toBegins, .inl hcontinues⟩
      · exact ⟨hwaits ▸ Course.begins_of_eq rfl rfl, .inr rfl⟩

end

end Reply

end Helmsman
