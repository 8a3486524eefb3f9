import Helmsman.Proofs.Reply.Curtail
import Helmsman.Proofs.Reply.Telling
/-!
# A reply that has a deadline

A reply with a deadline is the reply without one as far as that gets before the deadline. If it is over by then, the two
are the same; otherwise the one with the deadline makes the steps that the other makes before that time, tells that its
time is up, and ends. Every wait that would last to the deadline is cut there, and so all that a reply has told when a
wait is over it has told in time (`InTime`). This is so where time passes in waits alone and the caller takes none for a
step; with a slow caller a reply may be cut as late as at the first wait behind the deadline.
-/

namespace Helmsman

namespace Course

def momentsBefore (time : Nat) (c : Course) : List Moment := c.moments.filter fun m => m.standing.clock < time

/-- The store and the audit log right before a time. They change with the step that tells of the change, and so they
are what they were with the last step that was made by then. -/
def estateBefore (e : Estate) (time : Nat) (c : Course) : Estate :=
  (c.momentsBefore time).getLast?.elim e fun m => m.standing.estate

/-- The reply is done before the time. -/
def DoneBefore (time : Nat) (c : Course) : Prop := ∃ m ∈ c.moments, m.step = .done ∧ m.standing.clock < time

instance (time : Nat) (c : Course) : Decidable (c.DoneBefore time) :=
  inferInstanceAs (Decidable (∃ m ∈ c.moments, m.step = .done ∧ m.standing.clock < time))

theorem momentsBefore_eq {c : Course} {time : Nat} {moments later : List Moment}
    (hmoments : c.moments = moments ++ later) (hbefore : ∀ m ∈ moments, m.standing.clock < time)
    (hlater : ∀ m ∈ later, time ≤ m.standing.clock) : c.momentsBefore time = moments := by
  have hkept : (moments.filter fun m => m.standing.clock < time) = moments := by
    rw [List.filter_eq_self]
    intro m hm
    exact decide_eq_true (hbefore m hm)
  have hleft : (later.filter fun m => m.standing.clock < time) = [] := by
    rw [List.filter_eq_nil_iff]
    intro m hm
    simpa using hlater m hm
  rw [momentsBefore, hmoments, List.filter_append, hkept, hleft, List.append_nil]

end Course

namespace Reply

variable {a : Assignment} {e : Estate} {timeout : Nat}

/-- All steps so far were made before the time, and the last of them has told of the last change. -/
structure Told (e : Estate) (timeout : Nat) (c : Course) : Prop where
  moments : ∀ m ∈ c.moments, m.standing.clock < timeout
  estate : c.estate = c.moments.getLast?.elim e fun m => m.standing.estate

/-- The time has not come yet. -/
structure InTime (e : Estate) (timeout : Nat) (c : Course) : Prop extends Told e timeout c where
  clock : c.standing.clock < timeout

theorem InTime.emit {c : Course} {pace : Nat → Nat} (h : InTime e timeout c) (hpace : ∀ k, pace k = 0)
    (estate : Estate) (s : Step) : InTime e timeout ((c.putEstate estate).emit pace s) where
  moments m hm := by
    rcases List.mem_append.1 hm with hm | hm
    · exact h.moments m hm
    · obtain rfl := List.mem_singleton.1 hm
      exact h.clock
  estate := by
    rw [Course.moments_emit, List.getLast?_concat]
    rfl
  clock := by
    rw [Course.emit, hpace, Nat.add_zero]
    exact h.clock

/-- A reply that goes no further has made its steps in time, and it waits for nothing beyond the deadline. -/
def Ends (e : Estate) (timeout : Nat) (h : Halt) (c : Course) : Prop :=
  Told e timeout c ∧ h ≠ .stuck
    ∧ (c.standing.clock < timeout ∨ h = .interrupted .deadline ∧ c.standing.clock = timeout)

theorem InTime.ends {c : Course} {h : Halt} (hin : InTime e timeout c) (hstuck : h ≠ .stuck) :
    Ends e timeout h c := ⟨hin.toTold, hstuck, .inl hin.clock⟩

theorem ensures_pause_inTime {wait : Option Nat} {c : Course} (h : InTime e timeout c) :
    (Act.pause { deadline := some timeout } wait).Ensures c (fun _ => InTime e timeout) (Ends e timeout) := by
  have hnext : Limits.next? { deadline := some timeout } c = some (timeout, .deadline) := by
    show some (max c.standing.clock timeout, Interrupt.deadline) = _
    rw [Nat.max_eq_right (Nat.le_of_lt h.clock)]
  have hlate : Ends e timeout (.interrupted .deadline) (c.passTo timeout) :=
    ⟨⟨h.moments, h.estate⟩, by simp, .inr ⟨rfl, rfl⟩⟩
  rw [Act.Ensures]
  cases wait with
  | none =>
    rw [Act.pause_eq, hnext]
    exact hlate
  | some span =>
    by_cases hle : timeout ≤ c.standing.clock + span
    · rw [Act.pause_of_le hnext hle]
      exact hlate
    · rw [Act.pause_of_not_le hnext hle]
      exact ⟨⟨h.moments, h.estate⟩, Nat.lt_of_not_le hle⟩

theorem inTime_paced (hlimits : a.limits = { deadline := some timeout }) (hpace : ∀ k, a.pace k = 0) :
    Paced a (InTime e timeout) (InTime e timeout) (InTime e timeout) (Ends e timeout) where
  told h := h
  called h := h
  pause _ h := hlimits ▸ ensures_pause_inTime h
  ask _ h := ⟨⟨h.moments, h.estate⟩, h.clock⟩
  content _ h := h.emit hpace _ _
  call _ h := h.emit hpace _ _
  result _ h := h.emit hpace _ _
  crashed _ h := h.ends (by simp)
  cancelled h := h.ends (by simp)
  failed _ h := h.ends (by simp)

theorem conversation_inTime (hlimits : a.limits = { deadline := some timeout }) (hpace : ∀ k, a.pace k = 0)
    (hpos : 0 < timeout) (e : Estate) :
    (conversation a).Ensures (.start e) (fun _ => Ends e timeout (.interrupted .cancelled)) (Ends e timeout) := by
  have hstart : InTime e timeout (.start e) := ⟨⟨fun m hm => absurd hm List.not_mem_nil, rfl⟩, hpos⟩
  have hpaced : Paced a _ (InTime e timeout) _ _ := inTime_paced (e := e) hlimits hpace
  apply (hpaced.conversation e hstart (fun _ => hstart.ends (by simp)) (fun _ _ => hstart.ends (by simp))
    fun _ h => h.ends (by simp)).mono
  · intro _ c h
    exact h.ends (by simp)
  · intro _ c h
    exact h

/-- Without a deadline nothing is ended by one. -/
theorem conversation_undated (hdeadline : a.limits.deadline = none) (e : Estate) :
    (conversation a).Ensures (.start e) (fun _ _ => True) (fun h _ => h ≠ .interrupted .deadline) := by
  have hpaced : Paced a (fun _ => True) (fun _ => True) (fun _ => True) (fun h _ => h ≠ .interrupted .deadline) := by
    refine Paced.of_ends (fun wait c _ => ?_) (fun _ => by simp) (fun _ _ => by simp) fun _ => by simp
    refine Act.ensures_pause (fun _ => trivial) (fun time i hstruck => ?_) fun _ _ => by simp
    rintro ⟨⟩
    obtain ⟨d, hd, -⟩ := hstruck
    rw [hdeadline] at hd
    exact absurd hd (by simp)
  exact hpaced.conversation e trivial (fun _ => by simp) (fun _ _ => by simp) fun _ _ => by simp

/-- How a reply that has to be cut at a time compares with the same reply without a deadline. -/
structure CutAt (e : Estate) (timeout : Nat) (free timed : Course) : Prop where
  /-- It tells what the other one tells before that time, then that its time is up. -/
  moments : timed.moments
    = free.momentsBefore timeout ++ [.failure deadlineMessage, .done].map (⟨·, timed.standing⟩)
  clock : timed.standing.clock = timeout
  /-- It leaves the store and the audit log as the other one has them right before that time. -/
  estate : timed.estate = free.estateBefore e timeout
  requests : timed.requests <+: free.requests

theorem cutAt_of_later {free c : Course} {later : List Moment} (hpace : ∀ k, a.pace k = 0)
    (htold : Told e timeout c) (hclock : c.standing.clock = timeout) (hmoments : free.moments = c.moments ++ later)
    (hlater : ∀ m ∈ later, timeout ≤ m.standing.clock) (hrequests : c.requests <+: free.requests) :
    CutAt e timeout free (close a (some (.interrupted .deadline)) c) := by
  have hbefore := Course.momentsBefore_eq hmoments htold.moments hlater
  obtain ⟨last, hlast, hmade, hagrees⟩ :=
    Course.moments_foldl_emit a.pace (closing (some (.interrupted .deadline))) c
  have hstanding := (Course.agrees_foldl_emit a.pace (closing (some (.interrupted .deadline))) c).eq hpace
  -- If steps take no time, the last ones all find the same standing.
  have hall : last = (closing (some (.interrupted .deadline))).map (⟨·, c.standing⟩) := by
    rw [← hmade, List.map_map]
    refine (List.map_id last).symm.trans (List.map_congr_left fun m hm => ?_)
    show m = ⟨m.step, c.standing⟩
    rw [← (hagrees m hm).eq hpace]
  refine ⟨?_, ?_, ?_, ?_⟩
  · rw [close, hstanding, hlast, hall, hbefore]
    rfl
  · rwa [close, hstanding]
  · rw [Course.estate, close, hstanding, Course.estateBefore, hbefore]
    exact htold.estate
  · rwa [Course.requests, close, hstanding]

theorem not_doneBefore_of_later {free c : Course} {later : List Moment} (hopen : c.Open)
    (hmoments : free.moments = c.moments ++ later) (hlater : ∀ m ∈ later, timeout ≤ m.standing.clock) :
    ¬ free.DoneBefore timeout := by
  rintro ⟨m, hm, hdone, hearly⟩
  rw [hmoments] at hm
  rcases List.mem_append.1 hm with hm | hm
  · have hcloses := hopen m.step (List.mem_map_of_mem hm)
    rw [hdone] at hcloses
    exact absurd hcloses (by simp [Step.closes])
  · exact absurd (hlater m hm) (Nat.not_le_of_lt hearly)

/-- The reply breaks down before the time. -/
def CrashedBefore (a : Assignment) (e : Estate) (time : Nat) : Prop :=
  (ending a e).1 = some .crashed ∧ (ending a e).2.standing.clock < time

/-- A reply that goes no further before a deadline strikes is done by then, or it breaks down by then. -/
theorem over_of_undisturbed {halt : Option Halt} {c : Course} (hpace : ∀ k, a.pace k = 0)
    (hclock : c.standing.clock < timeout) (hstuck : halt ≠ some .stuck) :
    (close a halt c).DoneBefore timeout ∨ halt = some .crashed := by
  rcases closing_cases halt with hdone | ⟨-, hends⟩
  · left
    obtain ⟨last, hlast, hmade, hagrees⟩ := Course.moments_foldl_emit a.pace (closing halt) c
    rw [← hmade] at hdone
    obtain ⟨m, hm, hstep⟩ := List.mem_map.1 (List.mem_of_getLast? hdone)
    refine ⟨m, ?_, hstep, ?_⟩
    · rw [close, hlast]
      exact List.mem_append_right _ hm
    · rwa [(hagrees m hm).atOnce hpace]
  · exact .inr (hends.resolve_left hstuck)

theorem ending_over (hpace : ∀ k, a.pace k = 0) (hundated : a.limits.deadline = none)
    (h : (conversation a).Ensures (.start e) (fun _ => Ends e timeout (.interrupted .cancelled)) (Ends e timeout)) :
    (course a e).DoneBefore timeout ∨ CrashedBefore a e timeout := by
  have hends : (ending a e).2.standing.clock < timeout ∧ (ending a e).1 ≠ some .stuck := by
    refine ending_of_ensures (P := fun halt c => c.standing.clock < timeout ∧ halt ≠ some .stuck)
      ((h.and (conversation_undated hundated e)).mono ?_ ?_)
    · intro _ c hends
      exact ⟨hends.1.2.2.resolve_right fun hlate => by simp at hlate, by simp⟩
    · intro halt c hends
      exact ⟨hends.1.2.2.resolve_right fun hlate => hends.2 hlate.1, fun hhalt => hends.1.2.1 (Option.some.inj hhalt)⟩
  exact (over_of_undisturbed hpace hends.1 hends.2).imp_right fun hcrashed => ⟨hcrashed, hends.1⟩

/-- If the deadline does not strike, the reply is the same as without one, and it is over by then. -/
theorem same_of_undisturbed (hpos : 0 < timeout) (hpace : ∀ k, a.pace k = 0) (e : Estate)
    (hsame : conversation (a.under { deadline := some timeout }) (.start e) = conversation (a.under {}) (.start e)) :
    course (a.under { deadline := some timeout }) e = course (a.under {}) e
    ∧ ((course (a.under {}) e).DoneBefore timeout ∨ CrashedBefore (a.under {}) e timeout) := by
  have htimed := conversation_inTime (a := a.under { deadline := some timeout }) rfl hpace hpos e
  rw [Act.Ensures, hsame, ← Act.Ensures] at htimed
  refine ⟨?_, ending_over (a := a.under {}) hpace rfl htimed⟩
  rw [course, course, ending, ending, hsame]
  rfl

/-- If the deadline strikes, the reply is cut there, and without a deadline it is not over by then. -/
theorem cut_of_struck (hpos : 0 < timeout) (hpace : ∀ k, a.pace k = 0) {e : Estate} {c : Course}
    (hstopped : conversation (a.under { deadline := some timeout }) (.start e) = .error (.interrupted .deadline) c)
    (hlate : timeout ≤ c.standing.clock) (hbegins : c.Begins (course (a.under {}) e))
    (hlasts : c.Continues (ending (a.under {}) e).2 ∨ (ending (a.under {}) e).1 = some .stuck) :
    ¬ ((course (a.under {}) e).DoneBefore timeout ∨ CrashedBefore (a.under {}) e timeout)
    ∧ CutAt e timeout (course (a.under {}) e) (course (a.under { deadline := some timeout }) e) := by
  have hends := (conversation_inTime (a := a.under { deadline := some timeout }) rfl hpace hpos e).and
    (conversation_heeds (a.under { deadline := some timeout }) e)
  rw [Act.Ensures, hstopped] at hends
  obtain ⟨⟨htold, -, hearly⟩, hopen, -⟩ := hends
  have hclock : c.standing.clock = timeout := by
    rcases hearly with hearly | ⟨-, hclock⟩
    · omega
    · exact hclock
  obtain ⟨later, hmoments, hlater⟩ := hbegins.moments
  rw [hclock] at hlater
  have hwhole : ¬ CrashedBefore (a.under {}) e timeout := by
    rintro ⟨hcrashed, hbefore⟩
    rcases hlasts with hcontinues | hstuck
    · exact absurd hcontinues.clock (Nat.not_le_of_lt (hclock ▸ hbefore))
    · rw [hstuck] at hcrashed
      cases hcrashed
  have hcourse : course (a.under { deadline := some timeout }) e
      = close (a.under { deadline := some timeout }) (some (.interrupted .deadline)) c := by
    rw [course, ending, hstopped]
  rw [hcourse]
  exact ⟨not_or.2 ⟨not_doneBefore_of_later hopen hmoments hlater, hwhole⟩,
    cutAt_of_later hpace htold hclock hmoments hlater hbegins.requests⟩

/-- **The deadline spans the whole reply and cuts it exactly.** If steps take no time, a reply that is done before the
deadline, or breaks down by then, is the same as without one. Any other tells what it would have told before that time,
then that its time is up, and the store and the audit log are left as they were right before. Only a reply whose
deadline is beyond what the clock can tell does not begin at all. -/
theorem course_deadline (a : Assignment) (e : Estate) {timeout : Nat} (hpos : 0 < timeout)
    (hpace : ∀ k, a.pace k = 0) :
    let timed := a.under { deadline := some timeout }
    let free := a.under {}
    (timed.datable = true → (course free e).DoneBefore timeout ∨ CrashedBefore free e timeout →
      course timed e = course free e)
    ∧ (timed.datable = true → ¬ (course free e).DoneBefore timeout → ¬ CrashedBefore free e timeout →
      CutAt e timeout (course free e) (course timed e))
    ∧ (timed.datable = false → course timed e = .start e) := by
  intro timed free
  by_cases hdatable : timed.datable = true
  · have hlives : ¬ timed.datable = false := by simp [hdatable]
    rcases course_follows a (Limits.adds_deadline timeout) hdatable e with
      hsame | ⟨c, hstopped, ⟨d, hd, hlate⟩, hbegins, hlasts⟩
    · obtain ⟨hcourse, hover⟩ := same_of_undisturbed hpos hpace e hsame
      exact ⟨fun _ _ => hcourse, fun _ hdone hcrashed => absurd hover (not_or.2 ⟨hdone, hcrashed⟩),
        fun h => absurd h hlives⟩
    · obtain rfl := Option.some.inj hd
      obtain ⟨hunder, hcut⟩ := cut_of_struck hpos hpace hstopped hlate hbegins hlasts
      exact ⟨fun _ hover => absurd hover hunder, fun _ _ _ => hcut, fun h => absurd h hlives⟩
  · exact ⟨fun h => absurd h hdatable, fun h => absurd h hdatable,
      fun hundatable => (course_of_not_datable hundatable e).2⟩

/-- A reply whose second and last round is over after 700 milliseconds. -/
def unhurried : Assignment :=
  { lastRound with
    model := .ofList [⟨some 100, .ok [.event (.text "Let me look."), .wait 200,
        .event (.call ⟨some "call_1", "list_nodes", "\x7b\x7d"⟩), .event (.finish Turn.toolCallsReason)]⟩,
      ⟨some 100, .ok [.event (.text "There are "), .wait 300, .event (.text "none.")]⟩] .never
    maxRounds := 10 }

/-- A deadline at the very time at which it would be done cuts it, and one right behind that does not. -/
theorem unhurried_deadline :
    (∀ k, unhurried.pace k = 0)
    ∧ (0 < 700 ∧ (unhurried.under { deadline := some 700 }).datable = true
      ∧ ¬ (course (unhurried.under {}) {}).DoneBefore 700 ∧ ¬ CrashedBefore (unhurried.under {}) {} 700
      ∧ CutAt {} 700 (course (unhurried.under {}) {}) (course (unhurried.under { deadline := some 700 }) {}))
    ∧ (0 < 701 ∧ (unhurried.under { deadline := some 701 }).datable = true
      ∧ (course (unhurried.under {}) {}).DoneBefore 701
      ∧ course (unhurried.under { deadline := some 701 }) {} = course (unhurried.under {}) {}) := by
  have hpace : ∀ k, unhurried.pace k = 0 := fun _ => rfl
  have hcut : ¬ (course (unhurried.under {}) {}).DoneBefore 700 := by decide +kernel
  have hdone : (course (unhurried.under {}) {}).DoneBefore 701 := by decide +kernel
  have hwhole : ¬ CrashedBefore (unhurried.under {}) {} 700 := fun hcrashed =>
    ending_ne_crashed (by decide) (by decide) hcrashed.1
  have hdatable : (unhurried.under { deadline := some 700 }).datable = true := by decide
  have hdatable' : (unhurried.under { deadline := some 701 }).datable = true := by decide
  have hpos : 0 < 700 := by decide
  have hpos' : 0 < 701 := by decide
  obtain ⟨-, hcuts, -⟩ := course_deadline unhurried {} hpos hpace
  obtain ⟨hsame, -, -⟩ := course_deadline unhurried {} hpos' hpace
  exact ⟨hpace, ⟨hpos, hdatable, hcut, hwhole, hcuts hdatable hcut hwhole⟩,
    hpos', hdatable', hdone, hsame hdatable' (.inl hdone)⟩

/-- Two replies for which it does not. One would be done, but its deadline is beyond what the clock can tell, and so it
does not begin. The other breaks down in time, and so it is not done; with a deadline too it tells no end. -/
theorem uncut_replies :
    ((∀ k, unhurried.pace k = 0) ∧ 0 < clockEnd ∧ (course (unhurried.under {}) {}).DoneBefore clockEnd
      ∧ course (unhurried.under { deadline := some clockEnd }) {} ≠ course (unhurried.under {}) {})
    ∧ ((∀ k, podLister.pace k = 0)
      ∧ ¬ (course (podLister.under {}) (Estate.restarting [2147483647, 1])).DoneBefore defaultTimeout
      ∧ ¬ CutAt (Estate.restarting [2147483647, 1]) defaultTimeout
        (course (podLister.under {}) (Estate.restarting [2147483647, 1]))
        (course (podLister.under { deadline := some defaultTimeout }) (Estate.restarting [2147483647, 1]))) := by
  have hdone : (course (unhurried.under {}) {}).DoneBefore clockEnd := by decide +kernel
  have hunbegun : course (unhurried.under { deadline := some clockEnd }) {} = .start {} :=
    (course_of_not_datable (by decide) {}).2
  have hlength : (course (podLister.under { deadline := some defaultTimeout })
      (Estate.restarting [2147483647, 1])).moments.length = 1 := by decide +kernel
  have hundone : ¬ (course (podLister.under {}) (Estate.restarting [2147483647, 1])).DoneBefore defaultTimeout := by
    decide +kernel
  refine ⟨⟨fun _ => rfl, by decide, hdone, fun hsame => ?_⟩, fun _ => rfl, hundone, fun hcut => ?_⟩
  · obtain ⟨m, hm, -⟩ := hdone
    rw [← hsame, hunbegun] at hm
    exact List.not_mem_nil hm
  · rw [hcut.moments, List.length_append, List.length_map] at hlength
    simp at hlength

end Reply

end Helmsman
