import Helmsman.Proofs.Estate.Breakdown
import Helmsman.Reply.Course
/-!
# Reasoning about acts

An act ends with a value or with a reason to go no further, and with a course either way. `Ensures` says what holds of
both ends at once, so that an early end is never left out of a proof. There is one rule for each way to put acts
together and one for each act that everything else is made of. The rule for `pause` is what most proofs need to know
about interrupts: time passes and nothing else changes, and whoever is interrupted has been called off or is late. The
caller may take time for steps too, and nothing else changes with a step either (`Standing.Agrees`).
-/

namespace Helmsman

/-- Nothing has come about between the one and the other but the time that the caller takes for steps. -/
structure Standing.Agrees (pace : Nat → Nat) (s s' : Standing) : Prop where
  estate : s'.estate = s.estate
  requests : s'.requests = s.requests
  atOnce : (∀ k, pace k = 0) → s'.clock = s.clock

namespace Standing.Agrees

variable {pace : Nat → Nat} {s s' s'' : Standing}

theorem rfl : s.Agrees pace s := ⟨Eq.refl _, Eq.refl _, fun _ => Eq.refl _⟩

theorem symm (h : s.Agrees pace s') : s'.Agrees pace s :=
  ⟨h.estate.symm, h.requests.symm, fun hpace => (h.atOnce hpace).symm⟩

theorem trans (h : s.Agrees pace s') (h' : s'.Agrees pace s'') : s.Agrees pace s'' :=
  ⟨h'.estate.trans h.estate, h'.requests.trans h.requests, fun hpace => (h'.atOnce hpace).trans (h.atOnce hpace)⟩

/-- If steps take no time, nothing at all has come about. -/
theorem eq (h : s.Agrees pace s') (hpace : ∀ k, pace k = 0) : s' = s := by
  obtain ⟨hestate, hrequests, hclock⟩ := h
  cases s
  cases s'
  simp_all

end Standing.Agrees

namespace Course

def requests (c : Course) : List (List Message) := c.standing.requests

def estate (c : Course) : Estate := c.standing.estate

def passTo (c : Course) (time : Nat) : Course := { c with standing := { c.standing with clock := time } }

def ask (c : Course) (messages : List Message) : Course :=
  { c with standing := { c.standing with requests := c.standing.requests ++ [messages] } }

def putEstate (c : Course) (estate : Estate) : Course := { c with standing := { c.standing with estate } }

variable (pace : Nat → Nat)

theorem moments_emit (c : Course) (s : Step) : (c.emit pace s).moments = c.moments ++ [⟨s, c.standing⟩] := rfl

theorem steps_emit (c : Course) (s : Step) : (c.emit pace s).steps = c.steps ++ [s] := by
  rw [steps, moments_emit, List.map_append]
  rfl

theorem agrees_emit (c : Course) (s : Step) : c.standing.Agrees pace (c.emit pace s).standing where
  estate := rfl
  requests := rfl
  atOnce hpace := by rw [emit, hpace, Nat.add_zero]

theorem agrees_foldl_emit (made : List Step) (c : Course) :
    c.standing.Agrees pace (made.foldl (emit pace) c).standing := by
  induction made generalizing c with
  | nil => exact .rfl
  | cons s made ih => exact (agrees_emit pace c s).trans (ih (c.emit pace s))

/-- What steps leave behind that are made one right behind the other. -/
theorem moments_foldl_emit (made : List Step) (c : Course) :
    ∃ later : List Moment, (made.foldl (emit pace) c).moments = c.moments ++ later ∧ later.map Moment.step = made
      ∧ ∀ m ∈ later, c.standing.Agrees pace m.standing := by
  induction made generalizing c with
  | nil => exact ⟨[], (List.append_nil _).symm, rfl, List.forall_mem_nil _⟩
  | cons s made ih =>
    obtain ⟨later, hmoments, rfl, hlater⟩ := ih (c.emit pace s)
    refine ⟨⟨s, c.standing⟩ :: later, ?_, rfl, List.forall_mem_cons.2 ⟨.rfl, fun m hm => ?_⟩⟩
    · rw [List.foldl_cons, hmoments, moments_emit, List.append_assoc, List.singleton_append]
    · exact (agrees_emit pace c s).trans (hlater m hm)

/-- The first of them is made where things stand. -/
theorem getElem?_foldl_emit (made : List Step) (c : Course) :
    (made.foldl (emit pace) c).moments[c.moments.length]? = made[0]?.map (⟨·, c.standing⟩) := by
  cases made with
  | nil => exact List.getElem?_eq_none (Nat.le_refl _)
  | cons s made =>
    obtain ⟨later, hmoments, -, -⟩ := moments_foldl_emit pace made (c.emit pace s)
    rw [List.foldl_cons, hmoments, moments_emit, List.append_assoc, List.getElem?_append_right (Nat.le_refl _),
      Nat.sub_self]
    rfl

theorem steps_foldl_emit (made : List Step) (c : Course) :
    (made.foldl (emit pace) c).steps = c.steps ++ made := by
  obtain ⟨later, hmoments, rfl, -⟩ := moments_foldl_emit pace made c
  rw [steps, hmoments, List.map_append]
  rfl

theorem estate_foldl_emit (made : List Step) (c : Course) : (made.foldl (emit pace) c).estate = c.estate :=
  (agrees_foldl_emit pace made c).estate

theorem requests_foldl_emit (made : List Step) (c : Course) :
    (made.foldl (emit pace) c).requests = c.requests :=
  (agrees_foldl_emit pace made c).requests

end Course

/-- Whether the cancellation takes effect once so many steps are made and at such a time. -/
def Cancellation.Fired (steps clock : Nat) : Cancellation → Prop
  | .never => False
  | .behind n => n ≤ steps
  | .atTime t => t ≤ clock

/-- Whether an interrupt has its cause: the caller has called the reply off, or its deadline has passed. -/
def Limits.Struck (l : Limits) (c : Course) : Interrupt → Prop
  | .cancelled => l.cancellation.Fired c.moments.length c.standing.clock
  | .deadline => ∃ d, l.deadline = some d ∧ d ≤ c.standing.clock

theorem Cancellation.fired_of_time? {x : Cancellation} {c : Course} {t time : Nat} (h : x.time? c = some t)
    (htime : t ≤ time) : x.Fired c.moments.length time := by
  cases x with
  | never => simp [time?] at h
  | behind n =>
    by_cases hn : n ≤ c.moments.length
    · exact hn
    · simp [time?, hn] at h
  | atTime t' => exact (Option.some.inj h).symm ▸ htime

theorem Limits.struck_of_next? {l : Limits} {c : Course} {time : Nat} {i : Interrupt}
    (h : l.next? c = some (time, i)) : l.Struck (c.passTo time) i := by
  have hcancelled : ∀ t, (l.cancellation.time? c).map (max c.standing.clock) = some t →
      l.Struck (c.passTo t) .cancelled := by
    intro t ht
    obtain ⟨t', ht', rfl⟩ := Option.map_eq_some_iff.1 ht
    have hfired := Cancellation.fired_of_time? ht' (Nat.le_max_right c.standing.clock t')
    exact hfired
  have hdeadline : ∀ t, l.deadline.map (max c.standing.clock) = some t → l.Struck (c.passTo t) .deadline := by
    intro t ht
    obtain ⟨t', ht', rfl⟩ := Option.map_eq_some_iff.1 ht
    exact ⟨t', ht', Nat.le_max_right ..⟩
  rw [next?] at h
  split at h
  · rename_i t d ht hd
    split at h
    · obtain ⟨rfl, rfl⟩ := Prod.mk.inj (Option.some.inj h)
      exact hcancelled t ht
    · obtain ⟨rfl, rfl⟩ := Prod.mk.inj (Option.some.inj h)
      exact hdeadline d hd
  · rename_i t ht hd
    obtain ⟨rfl, rfl⟩ := Prod.mk.inj (Option.some.inj h)
    exact hcancelled t ht
  · rename_i d ht hd
    obtain ⟨rfl, rfl⟩ := Prod.mk.inj (Option.some.inj h)
    exact hdeadline d hd
  · exact absurd h (by simp)

theorem Limits.next?_eq_none {l : Limits} {c : Course} (h : l.next? c = none) : l.deadline = none := by
  rw [next?] at h
  split at h
  · split at h <;> exact absurd h (by simp)
  · exact absurd h (by simp)
  · exact absurd h (by simp)
  · rename_i hd
    exact Option.map_eq_none_iff.1 hd

namespace Act

variable {α β : Type} {c : Course} {Q : α → Course → Prop} {E : Halt → Course → Prop}

/-- The act ends with a value and a course of which the one holds, or stops with a reason and a course of which the
other does. -/
def Ensures (x : Act α) (c : Course) (Q : α → Course → Prop) (E : Halt → Course → Prop) : Prop :=
  match x c with
  | .ok a c' => Q a c'
  | .error h c' => E h c'

theorem Ensures.mono {x : Act α} {Q' : α → Course → Prop} {E' : Halt → Course → Prop} (h : x.Ensures c Q E)
    (hQ : ∀ a c', Q a c' → Q' a c') (hE : ∀ h c', E h c' → E' h c') : x.Ensures c Q' E' := by
  rw [Ensures] at h ⊢
  cases hx : x c with
  | ok a c' => rw [hx] at h; exact hQ a c' h
  | error halt c' => rw [hx] at h; exact hE halt c' h

theorem Ensures.and {x : Act α} {c : Course} {Q Q' : α → Course → Prop} {E E' : Halt → Course → Prop}
    (h : x.Ensures c Q E) (h' : x.Ensures c Q' E') :
    x.Ensures c (fun a c' => Q a c' ∧ Q' a c') (fun halt c' => E halt c' ∧ E' halt c') := by
  rw [Ensures] at h h' ⊢
  cases hx : x c with
  | ok a c' =>
    rw [hx] at h h'
    exact ⟨h, h'⟩
  | error halt c' =>
    rw [hx] at h h'
    exact ⟨h, h'⟩

theorem ensures_pure {a : α} (h : Q a c) : Ensures (pure a) c Q E := h

theorem ensures_throw {halt : Halt} (h : E halt c) : Ensures (throw halt : Act α) c Q E := h

theorem ensures_bind {x : Act β} {f : β → Act α} (h : x.Ensures c (fun b c' => (f b).Ensures c' Q E) E) :
    Ensures (x >>= f) c Q E := by
  rw [Ensures] at h
  show match EStateM.bind x f c with
    | .ok a c' => Q a c'
    | .error halt c' => E halt c'
  rw [EStateM.bind]
  cases hx : x c with
  | ok b c' => rw [hx] at h; exact h
  | error halt c' => rw [hx] at h; exact h

theorem Ensures.bind {x : Act β} {f : β → Act α} {Q' : β → Course → Prop} (h : x.Ensures c Q' E)
    (hf : ∀ b c', Q' b c' → (f b).Ensures c' Q E) : Ensures (x >>= f) c Q E :=
  ensures_bind (h.mono hf fun _ _ hE => hE)

theorem ensures_emit {Q : Unit → Course → Prop} {pace : Nat → Nat} {s : Step} (h : Q () (c.emit pace s)) :
    Ensures (emit pace s) c Q E := h

theorem ensures_ask {Q : Unit → Course → Prop} {messages : List Message} (h : Q () (c.ask messages)) :
    Ensures (ask messages) c Q E := h

theorem execute_eq (now : Instant) (scope : Scope) (call : ToolCall) (c : Course) : execute now scope call c =
    let run := c.estate.execute now scope call.name call.arguments false
    match run.1 with
    | .ok text => .ok (.ok text) (c.putEstate run.2)
    | .error (.tool e) => .ok (.error e) (c.putEstate run.2)
    | .error .overflow => .error .crashed (c.putEstate run.2) := by
  have hget : ∀ f : Course → Act (Except ToolError String), (get >>= f) c = f c c := fun _ => rfl
  rw [execute, hget]
  dsimp only [Course.estate]
  obtain ⟨answer, estate⟩ := c.standing.estate.execute now scope call.name call.arguments false
  match answer with
  | .ok text | .error (.tool e) | .error .overflow => rfl

/-- A call is answered, or it breaks down and nothing has come of it. -/
theorem ensures_execute {Q : Except ToolError String → Course → Prop} {now : Instant} {scope : Scope}
    {call : ToolCall}
    (answered : ∀ answer, (c.estate.execute now scope call.name call.arguments false).1 = answer.mapError .tool →
      Q answer (c.putEstate (c.estate.execute now scope call.name call.arguments false).2))
    (crashed : (c.estate.execute now scope call.name call.arguments false).1 = .error .overflow → E .crashed c) :
    Ensures (execute now scope call) c Q E := by
  rw [Ensures, execute_eq]
  dsimp only
  cases hrun : (c.estate.execute now scope call.name call.arguments false).1 with
  | ok text => exact answered (.ok text) hrun
  | error failure =>
    cases failure with
    | tool error => exact answered (.error error) hrun
    | overflow =>
      obtain ⟨-, hsame, -⟩ := Estate.eq_of_execute_overflow hrun
      rw [hsame]
      exact crashed hrun

theorem pause_eq (l : Limits) (wait : Option Nat) (c : Course) : pause l wait c =
    match l.next? c, wait.map (c.standing.clock + ·) with
    | some (time, i), some arrival =>
      if time ≤ arrival then .error (.interrupted i) (c.passTo time) else .ok () (c.passTo arrival)
    | some (time, i), none => .error (.interrupted i) (c.passTo time)
    | none, some arrival => .ok () (c.passTo arrival)
    | none, none => .error .stuck c := by
  have hget : ∀ f : Course → Act Unit, (get >>= f) c = f c c := fun _ => rfl
  rw [pause, hget]
  cases l.next? c with
  | none => cases wait <;> rfl
  | some p =>
    cases wait with
    | none => rfl
    | some span =>
      by_cases hle : p.1 ≤ c.standing.clock + span
      · simp only [Option.map_some, if_pos hle]
        rfl
      · simp only [Option.map_some, if_neg hle]
        rfl

theorem pause_of_le {l : Limits} {c : Course} {time span : Nat} {i : Interrupt} (hnext : l.next? c = some (time, i))
    (hle : time ≤ c.standing.clock + span) : pause l (some span) c = .error (.interrupted i) (c.passTo time) := by
  rw [pause_eq, hnext]
  exact if_pos hle

theorem pause_of_not_le {l : Limits} {c : Course} {time span : Nat} {i : Interrupt}
    (hnext : l.next? c = some (time, i)) (hle : ¬ time ≤ c.standing.clock + span) :
    pause l (some span) c = .ok () (c.passTo (c.standing.clock + span)) := by
  rw [pause_eq, hnext]
  exact if_neg hle

/-- A wait ends with what was waited for or with an interrupt that has its cause. One that never ends is a wait for
what never comes, without a deadline. -/
theorem ensures_pause {Q : Unit → Course → Prop} {l : Limits} {wait : Option Nat}
    (passed : ∀ time, Q () (c.passTo time))
    (interrupted : ∀ time i, l.Struck (c.passTo time) i → E (.interrupted i) (c.passTo time))
    (stuck : wait = none → l.deadline = none → E .stuck c) : Ensures (pause l wait) c Q E := by
  rw [Ensures]
  cases hnext : l.next? c with
  | none =>
    have hdeadline := Limits.next?_eq_none hnext
    rw [pause_eq, hnext]
    cases wait with
    | none => exact stuck rfl hdeadline
    | some span => exact passed _
  | some strike =>
    have hstruck := Limits.struck_of_next? hnext
    cases wait with
    | none =>
      rw [pause_eq, hnext]
      exact interrupted _ _ hstruck
    | some span =>
      by_cases hle : strike.1 ≤ c.standing.clock + span
      · rw [pause_of_le hnext hle]
        exact interrupted _ _ hstruck
      · rw [pause_of_not_le hnext hle]
        exact passed _

/-- Nobody waits for what never comes until it does. -/
theorem ensures_pause_none {Q : Unit → Course → Prop} (l : Limits) (c : Course) :
    (pause l none).Ensures c Q (fun _ _ => True) := by
  rw [Ensures, pause_eq]
  cases l.next? c <;> trivial

end Act

end Helmsman
