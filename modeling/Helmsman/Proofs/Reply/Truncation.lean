import Helmsman.Proofs.Reply.Curtail
import Helmsman.Proofs.Reply.Pace
/-!
# A reply that is called off is cut short

A reply that is called off right behind one of its steps takes the same course as one that is left alone up to that
step, and from there on brings nothing about: it may announce one more call, and then it ends. Between two waits a reply
makes no step but that announcement without having done something before it, which is what `At` and `Past` keep track
of, and the next wait ends a reply that has been called off at once (`pause_of_behind`).
-/

namespace Helmsman

namespace Course

/-- How things stood right behind so many steps. -/
def behind? (e : Estate) (n : Nat) (c : Course) : Option Standing :=
  (({ estate := e } : Standing) :: c.moments.map Moment.standing)[n]?

/-- So many steps have been made, and things stand as they did right behind them. -/
def StandsBehind (pace : Nat → Nat) (e : Estate) (n : Nat) (c : Course) (s : Standing) : Prop :=
  ∃ s', c.behind? e n = some s' ∧ s'.Agrees pace s

/-- Nothing has come about since the last step but the time that the caller takes for it. -/
def Fresh (pace : Nat → Nat) (e : Estate) (c : Course) : Prop := c.StandsBehind pace e c.moments.length c.standing

theorem behind?_of_begins {e : Estate} {n : Nat} {c c' : Course} {s : Standing} (hbegins : c.moments <+: c'.moments)
    (h : c.behind? e n = some s) : c'.behind? e n = some s := by
  have hstandings : ({ estate := e } :: c.moments.map Moment.standing)
      <+: ({ estate := e } :: c'.moments.map Moment.standing) :=
    List.cons_prefix_cons.2 ⟨rfl, hbegins.map _⟩
  obtain ⟨hn, hs⟩ := List.getElem?_eq_some_iff.1 h
  rw [behind?, ← hs]
  exact List.prefix_iff_getElem?.1 hstandings n hn

theorem StandsBehind.of_begins {pace : Nat → Nat} {e : Estate} {n : Nat} {c c' : Course} {s : Standing}
    (h : c.StandsBehind pace e n s) (hbegins : c.moments <+: c'.moments) : c'.StandsBehind pace e n s := by
  obtain ⟨s', hs', hagrees⟩ := h
  exact ⟨s', behind?_of_begins hbegins hs', hagrees⟩

variable (pace : Nat → Nat)

theorem fresh_emit (e : Estate) (c : Course) (s : Step) : (c.emit pace s).Fresh pace e := by
  refine ⟨c.standing, ?_, agrees_emit pace c s⟩
  rw [behind?, moments_emit, List.length_append, List.length_singleton, List.getElem?_cons_succ, List.map_append,
    List.getElem?_append_right (by simp), List.length_map, Nat.sub_self]
  rfl

theorem begins_foldl_emit (made : List Step) (c : Course) : c.moments <+: (made.foldl (emit pace) c).moments := by
  obtain ⟨later, hmoments, -⟩ := moments_foldl_emit pace made c
  exact hmoments ▸ List.prefix_append ..

/-- Steps that are made one right behind the other find the same standing. -/
theorem standsBehind_foldl_emit {e : Estate} {n : Nat} {c : Course} {made : List Step}
    (hbefore : n < c.moments.length + 1 → c.StandsBehind pace e n c.standing)
    (hn : n ≤ (made.foldl (emit pace) c).moments.length) :
    (made.foldl (emit pace) c).StandsBehind pace e n c.standing := by
  by_cases hlt : n < c.moments.length + 1
  · exact (hbefore hlt).of_begins (begins_foldl_emit pace made c)
  · obtain ⟨k, rfl⟩ : ∃ k, n = c.moments.length + k + 1 := ⟨n - c.moments.length - 1, by omega⟩
    obtain ⟨later, hmoments, -, hlater⟩ := moments_foldl_emit pace made c
    rw [hmoments, List.length_append] at hn
    have hk : k < later.length := by omega
    refine ⟨later[k].standing, ?_, (hlater _ (List.getElem_mem hk)).symm⟩
    rw [behind?, hmoments, List.getElem?_cons_succ, List.map_append, List.getElem?_append_right (by simp),
      List.length_map, Nat.add_sub_cancel_left, List.getElem?_map, List.getElem?_eq_getElem hk]
    rfl

end Course

/-! ### Called off behind a step -/

/-- The same reply, called off in another place or not at all. -/
def Assignment.calledOff (a : Assignment) (x : Cancellation) : Assignment := a.under ⟨x, a.limits.deadline⟩

namespace Act

/-- A reply that has been called off behind one of its steps goes no further than its next wait. -/
theorem pause_of_behind {n : Nat} {c : Course} (h : n ≤ c.moments.length) (d wait : Option Nat) :
    pause ⟨.behind n, d⟩ wait c = .error (.interrupted .cancelled) c := by
  have hnext : Limits.next? ⟨.behind n, d⟩ c = some (c.standing.clock, .cancelled) := by
    rw [Limits.next?, Cancellation.time?, if_pos h, Option.map_some, Nat.max_self]
    cases d with
    | none => rfl
    | some d => exact if_pos (Nat.le_max_left ..)
  cases wait with
  | none =>
    rw [pause_eq, hnext]
    rfl
  | some span => exact pause_of_le hnext (Nat.le_add_right ..)

end Act

namespace Reply

variable {a : Assignment} {e : Estate} {n : Nat}

/-- Where a reply can be before its next wait if it can be called off behind its `n`-th step. -/
inductive Near (a : Assignment) (e : Estate) (n : Nat) : Course → Prop
  | ahead {c : Course} (h : c.moments.length < n) : Near a e n c
  | made {c : Course} (h : c.moments.length = n) (fresh : c.Fresh a.pace e) : Near a e n c

/-- The same with a call announced in between. -/
inductive Due (a : Assignment) (e : Estate) (n : Nat) : Course → Prop
  | near {c : Course} (h : Near a e n c) : Due a e n c
  | announced {c : Course} (h : c.moments.length = n) (fresh : c.Fresh a.pace e) (call : ToolCall) :
    Due a e n (c.emit a.pace (.call call))

theorem near_emit {c : Course} (s : Step) (h : c.moments.length < n) : Near a e n (c.emit a.pace s) := by
  have hlength : (c.emit a.pace s).moments.length = c.moments.length + 1 := List.length_append
  rcases Nat.lt_or_eq_of_le (Nat.succ_le_of_lt h) with hlt | heq
  · exact .ahead (hlength ▸ hlt)
  · exact .made (hlength.trans heq) (Course.fresh_emit a.pace e c s)

theorem Near.announce {c : Course} (h : Near a e n c) (call : ToolCall) : Due a e n (c.emit a.pace (.call call)) := by
  cases h with
  | ahead h => exact .near (near_emit _ h)
  | made h fresh => exact .announced h fresh call

namespace Due

variable {c : Course}

theorem length_le (h : Due a e n c) : c.moments.length ≤ n + 1 := by
  cases h with
  | near h => cases h <;> omega
  | announced h fresh call =>
    rw [Course.moments_emit, List.length_append, List.length_singleton]
    omega

theorem extra (h : Due a e n c) {m : Moment} (hm : c.moments[n]? = some m) : ∃ call, m.step = .call call := by
  obtain ⟨hn, -⟩ := List.getElem?_eq_some_iff.1 hm
  cases h with
  | near h => cases h <;> omega
  | announced h fresh call =>
    rw [Course.moments_emit, ← h, List.getElem?_concat_length] at hm
    exact ⟨call, Option.some.inj hm ▸ rfl⟩

theorem standsBehind (h : Due a e n c) (hn : n ≤ c.moments.length) : c.StandsBehind a.pace e n c.standing := by
  cases h with
  | near h =>
    cases h with
    | ahead h => omega
    | made h fresh => exact h ▸ fresh
  | @announced c h fresh call =>
    obtain ⟨s, hs, hagrees⟩ := fresh
    rw [h] at hs
    exact ⟨s, Course.behind?_of_begins (Course.begins_foldl_emit a.pace [.call call] c) hs,
      hagrees.trans (Course.agrees_emit a.pace c (.call call))⟩

end Due

theorem due_paced (hbehind : a.limits.cancellation = .behind n) :
    Paced a (fun c => c.moments.length < n) (Near a e n) (Due a e n) (fun _ => Due a e n) where
  told hahead := .ahead hahead
  called h := .near h
  pause {wait c} _ hdue := by
    by_cases hn : n ≤ c.moments.length
    · have hlimits : a.limits = ⟨.behind n, a.limits.deadline⟩ := by rw [← hbehind]
      rw [Act.Ensures, hlimits, Act.pause_of_behind hn]
      exact hdue
    · have hahead : c.moments.length < n := Nat.lt_of_not_le hn
      exact Act.ensures_pause (fun _ => hahead) (fun _ _ _ => .near (.ahead hahead)) fun _ _ => .near (.ahead hahead)
  ask _ hahead := hahead
  content _ hahead := near_emit _ hahead
  call call h := h.announce call
  result _ hahead := near_emit _ hahead
  crashed _ hahead := .near (.ahead hahead)
  cancelled hahead := .near (.ahead hahead)
  failed _ hahead := .near (.ahead hahead)

theorem conversation_due (hbehind : a.limits.cancellation = .behind n) (e : Estate) :
    (conversation a).Ensures (.start e) (fun _ => Due a e n) (fun _ => Due a e n) := by
  have hpaced : Paced a _ (Near a e n) (Due a e n) _ := due_paced hbehind
  have hstart : Near a e n (.start e) := by
    rcases Nat.eq_zero_or_pos n with rfl | hpos
    · exact .made rfl ⟨_, rfl, .rfl⟩
    · exact .ahead hpos
  apply (hpaced.conversation e hstart (fun _ => .near hstart) (fun _ _ => .near hstart) fun _ h => .near h).mono
  · intro _ c h
    exact .near h
  · intro _ c h
    exact h

/-- How a reply that is called off behind so many steps compares with the same reply left alone. -/
structure CutBehind (pace : Nat → Nat) (e : Estate) (n : Nat) (free cut : Course) : Prop where
  begins : cut.moments.take n = free.moments.take n
  /-- Its last steps aside, it tells what the other one does, and at most one call more than it was left. -/
  body : ∃ body last : List Moment, cut.moments = body ++ last ∧ body <+: free.moments
    ∧ (∀ m ∈ body, m.step.closes = false) ∧ body.length ≤ n + 1
    ∧ (∀ m, body[n]? = some m → ∃ call, m.step = .call call)
    ∧ (last.map Moment.step = [.done] ∨ ∃ message, last.map Moment.step = [.failure message, .done])
    ∧ ∀ m ∈ last, m.standing.Agrees pace cut.standing
  /-- What it leaves behind is what the other one had brought about by then. -/
  standing : free.StandsBehind pace e n cut.standing

theorem closing_of_ne {halt : Option Halt} (hstuck : halt ≠ some .stuck) (hcrashed : halt ≠ some .crashed) :
    closing halt = [.done] ∨ ∃ message, closing halt = [.failure message, .done] := by
  match halt, hstuck, hcrashed with
  | none, _, _ | some (.interrupted .cancelled), _, _ => exact .inl rfl
  | some (.interrupted .deadline), _, _ | some (.failed _), _, _ => exact .inr ⟨_, rfl⟩

theorem Due.cutBehind {free c : Course} {halt : Option Halt} (hdue : Due a e n c) (hopen : c.Open)
    (hstuck : halt ≠ some .stuck) (hcrashed : halt ≠ some .crashed) (hbegins : c.moments <+: free.moments)
    (htake : (close a halt c).moments.take n = free.moments.take n)
    (hstanding : free.StandsBehind a.pace e n c.standing) : CutBehind a.pace e n free (close a halt c) := by
  have hagrees := Course.agrees_foldl_emit a.pace (closing halt) c
  refine ⟨htake, ?_, ?_⟩
  · obtain ⟨last, hmoments, hlast, hlater⟩ := Course.moments_foldl_emit a.pace (closing halt) c
    refine ⟨c.moments, last, hmoments, hbegins, ?_, hdue.length_le, fun m => hdue.extra, ?_, ?_⟩
    · intro m hm
      exact hopen m.step (List.mem_map_of_mem hm)
    · rw [hlast]
      exact closing_of_ne hstuck hcrashed
    · intro m hm
      exact (hlater m hm).symm.trans hagrees
  · obtain ⟨s, hs, hsame⟩ := hstanding
    exact ⟨s, hs, hsame.trans hagrees⟩

/-- A reply that is called off too late to make a difference is cut where it ends anyway. -/
theorem cutBehind_self (hbehind : a.limits.cancellation = .behind n) (hdatable : a.datable = true) (e : Estate)
    (hn : n ≤ (course a e).moments.length) : CutBehind a.pace e n (course a e) (course a e) := by
  have hspared := ending_spared a e
  have hdue : Due a e n (ending a e).2 := ending_of_ensures (P := fun _ => Due a e n) (conversation_due hbehind e)
  have hbegins : (ending a e).2.moments <+: (course a e).moments := Course.begins_foldl_emit a.pace _ _
  have hstanding : (course a e).StandsBehind a.pace e n (ending a e).2.standing :=
    Course.standsBehind_foldl_emit a.pace (fun hlt => hdue.standsBehind (Nat.le_of_lt_succ hlt)) hn
  -- A reply that has no last steps had been called off where it goes no further.
  have hends : (ending a e).1 ≠ some .stuck ∧ (ending a e).1 ≠ some .crashed := by
    rcases closing_cases (ending a e).1 with hdone | ⟨hclosing, -⟩
    · constructor <;>
      · intro hhalt
        rw [hhalt] at hdone
        cases hdone
    · refine hspared.closes hdatable ?_
      rw [Limits.CalledOff, hbehind]
      rw [course, close, hclosing] at hn
      exact hn
  exact hdue.cutBehind hspared.isOpen hends.1 hends.2 hbegins rfl hstanding

/-- Wherever a reply is called off, it is the same as if it had not been, or it is interrupted with the beginning of
that behind it. -/
theorem course_calledOff_begins (a : Assignment) (x : Cancellation) (e : Estate) :
    course (a.calledOff x) e = course (a.calledOff .never) e
    ∨ ∃ c, conversation (a.calledOff x) (.start e) = .error (.interrupted .cancelled) c
      ∧ (a.calledOff x).limits.Struck c .cancelled ∧ c.moments <+: (course (a.calledOff .never) e).moments := by
  rcases course_follows a (Limits.adds_cancellation x a.limits.deadline) rfl e with
    hsame | ⟨c, hstopped, hstruck, hbegins, -⟩
  · left
    have hending : ending (a.calledOff x) e = ending (a.calledOff .never) e := by
      rw [ending, ending, Assignment.calledOff, hsame]
      rfl
    rw [course, course, hending]
    rfl
  · obtain ⟨later, hmoments, -⟩ := hbegins.moments
    exact .inr ⟨c, hstopped, hstruck, later, hmoments.symm⟩

/-- **Cancellation only truncates.** A reply that is called off right behind its `n`-th step is the same reply cut
short: it makes the same first steps, then at most announces one more call, and ends. All it leaves behind, the store,
the audit log and the requests to the model, is what had come about when that step was made. A reply whose deadline is
beyond what the clock can tell does not begin, called off or not. -/
theorem course_cut_behind (a : Assignment) (e : Estate) (n : Nat) :
    ((course (a.calledOff .never) e).moments.length < n →
      course (a.calledOff (.behind n)) e = course (a.calledOff .never) e)
    ∧ (a.datable = true → n ≤ (course (a.calledOff .never) e).moments.length →
      CutBehind a.pace e n (course (a.calledOff .never) e) (course (a.calledOff (.behind n)) e))
    ∧ (a.datable = false →
      course (a.calledOff .never) e = .start e ∧ course (a.calledOff (.behind n)) e = .start e) := by
  have hunbegun : ∀ x, a.datable = false → course (a.calledOff x) e = .start e := fun x hdatable =>
    (course_of_not_datable (a := a.calledOff x) hdatable e).2
  rcases course_calledOff_begins a (.behind n) e with hsame | ⟨c, hstopped, hstruck, hbegins⟩
  · refine ⟨fun _ => hsame, fun hdatable hn => ?_, fun hdatable => ⟨hunbegun _ hdatable, hunbegun _ hdatable⟩⟩
    have hself := cutBehind_self (a := a.calledOff (.behind n)) rfl hdatable e (hsame ▸ hn)
    rwa [hsame] at hself ⊢
  · have hn : n ≤ c.moments.length := hstruck
    refine ⟨fun hlt => absurd hbegins.length_le (by omega), fun _ _ => ?_,
      fun hdatable => ⟨hunbegun _ hdatable, hunbegun _ hdatable⟩⟩
    have hends := (conversation_heeds (a.calledOff (.behind n)) e).and (conversation_due rfl e)
    rw [Act.Ensures, hstopped] at hends
    obtain ⟨⟨hopen, -⟩, hdue⟩ := hends
    have hcourse : course (a.calledOff (.behind n)) e
        = close (a.calledOff (.behind n)) (some (.interrupted .cancelled)) c := by
      rw [course, ending, hstopped]
    rw [hcourse]
    refine Due.cutBehind (a := a.calledOff (.behind n)) hdue hopen (by simp) (by simp) hbegins ?_
      ((hdue.standsBehind hn).of_begins hbegins)
    obtain ⟨later, hmoments⟩ := hbegins
    obtain ⟨last, hlast, -⟩ := Course.moments_foldl_emit (a.calledOff (.behind n)).pace
      (closing (some (.interrupted .cancelled))) c
    rw [close, hlast, ← hmoments, List.take_append_of_le_length hn, List.take_append_of_le_length hn]

/-- A reply in whose only round the model asks for two calls, and whose caller takes its time. -/
def twoCalls : Assignment :=
  { lastRound with
    pace := fun _ => 250
    model := fun _ => .stream [.call ⟨some "call_1", "list_nodes", "\x7b\x7d"⟩,
      .call ⟨some "call_2", "list_nodes", "\x7b\x7d"⟩, .finish Turn.toolCallsReason] }

private theorem twoCalls_length : (course (twoCalls.calledOff .never) {}).moments.length = 6 := by decide +kernel

/-- Called off behind the first result, it announces the second call and no more. -/
theorem twoCalls_cut_behind : twoCalls.datable = true ∧ 2 ≤ (course (twoCalls.calledOff .never) {}).moments.length
    ∧ CutBehind twoCalls.pace {} 2 (course (twoCalls.calledOff .never) {})
      (course (twoCalls.calledOff (.behind 2)) {}) := by
  have hn : 2 ≤ (course (twoCalls.calledOff .never) {}).moments.length := by
    rw [twoCalls_length]
    decide
  have hdatable : twoCalls.datable = true := by decide
  exact ⟨hdatable, hn, (course_cut_behind twoCalls {} 2).2.1 hdatable hn⟩

end Reply

end Helmsman
