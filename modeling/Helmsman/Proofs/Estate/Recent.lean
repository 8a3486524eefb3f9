import Helmsman.Proofs.Estate.Listing
/-!
# Which events are shown

Of the events that are asked for, a list shows the last fifty in the order of the store (`Operation.read_listEvents`),
and the order of the store is whatever the snapshot had. Where that is the order of time the list shows the most recent
events, and no later one is left out (`Report.not_later_of_chronological`). Where it is not, the latest of all can be
missing.
-/

namespace Helmsman

/-- The order of time. -/
def Instant.Before (t u : Instant) : Prop :=
  t.day < u.day ∨ t.day = u.day ∧ (t.second < u.second ∨ t.second = u.second ∧ t.nano < u.nano)

instance (t u : Instant) : Decidable (t.Before u) := inferInstanceAs (Decidable (_ ∨ _))

namespace Happening

/-- Both were seen at some time, and this one later than the other. -/
def Later (e e' : Happening) : Prop := ∃ t ∈ e.lastSeen, ∃ u ∈ e'.lastSeen, u.Before t

instance (e e' : Happening) : Decidable (e.Later e') := inferInstanceAs (Decidable (∃ _ ∈ _, _))

/-- The events of a cluster that the members ask for. -/
def matching (members : List (String × Json)) (c : Cluster) : List Happening :=
  c.happenings.filter fun e =>
    Arguments.admits "namespace" members e.ns && Arguments.admits "resource_name" members e.objectName

end Happening

namespace Report

/-- What a list of events has no room for, and what it shows. -/
def leftOut (wanted : List Happening) : List Happening := wanted.take (wanted.length - eventCount)
def shown (wanted : List Happening) : List Happening := wanted.drop (wanted.length - eventCount)

theorem leftOut_append_shown (wanted : List Happening) : leftOut wanted ++ shown wanted = wanted :=
  List.take_append_drop _ wanted

theorem length_shown (wanted : List Happening) : (shown wanted).length = min eventCount wanted.length := by
  rw [shown, List.length_drop]
  omega

/-- In the order of time, what comes last is the most recent. -/
theorem not_later_of_chronological {wanted : List Happening} (h : wanted.Pairwise fun e e' => ¬ e.Later e')
    {e e' : Happening} (he : e ∈ leftOut wanted) (he' : e' ∈ shown wanted) : ¬ e.Later e' := by
  rw [← leftOut_append_shown wanted] at h
  exact (List.pairwise_append.1 h).2.2 e he e' he'

end Report

open Report (leftOut shown)

theorem Operation.read_listEvents {s : Store} {id : Nat} {c : Cluster} (hready : s.ready id = .ok c) (now : Instant)
    (members : List (String × Json)) : Operation.listEvents.read now s id (.ofObject members)
      = .ok (Report.listing "events" ((shown (Happening.matching members c)).map (Report.happening now))) := by
  have hname : ∀ name, ((Arguments.ofObject members).resourceFilter.all fun n => name == n)
      = Arguments.admits "resource_name" members name := by
    intro name
    rw [← Arguments.all_filter_ofObject, Arguments.resourceFilter]
    congr 1
    funext n
    exact BEq.comm
  simp only [Operation.read, Store.listHappenings, hready, Except.map, Operation.found_ok, Report.happenings,
    Arguments.inNamespace_ofObject, hname, List.filter_filter, Happening.matching, shown, Bool.and_comm]

namespace Estate

variable {e : Estate} {scope : Scope} {c : Cluster} {raw : String} {members : List (String × Json)}

/-- **The last events are shown.** Of the events that are asked for a list shows fifty, or all if there are no more, and
these are the last in the order of the store. If that is the order of time, no event that is left out was last seen
later than one that is shown. -/
theorem events_shown (hready : e.store.ready scope.cluster.id = .ok c) (now : Instant)
    (hgiven : Arguments.Given raw members) :
    let wanted := Happening.matching members c
    ∃ j left returned, e.Answers now scope .listEvents raw j
      ∧ j.get? "total" = some (.ofNat (min 50 wanted.length))
      ∧ j.get? "events" = some (.array (returned.map (Report.happening now)))
      ∧ wanted = left ++ returned ∧ returned.length = min 50 wanted.length
      ∧ ((wanted.Pairwise fun e e' => ¬ e.Later e') → ∀ e ∈ left, ∀ e' ∈ returned, ¬ e.Later e') := by
  intro wanted
  refine ⟨_, leftOut wanted, shown wanted,
    answers_of_read rfl (by simp) hgiven (Operation.read_listEvents hready now members), ?_, Json.get?_of_lookup rfl,
    (Report.leftOut_append_shown wanted).symm, Report.length_shown wanted,
    fun h e he e' he' => Report.not_later_of_chronological h he he'⟩
  have hcount : ((shown wanted).map (Report.happening now)).length = min 50 wanted.length := by
    rw [List.length_map, Report.length_shown]
    rfl
  rw [← hcount]
  exact Json.get?_of_lookup rfl

/-- An event on each of fifty-one days. -/
def daily : List Happening :=
  (List.range 51).map fun n : Nat =>
    { (default : Happening) with objectName := "web", lastSeen := some ⟨19723 + n, 0, 0⟩ }

def eventful (happenings : List Happening) : Cluster := { id := 1, name := "shop", version := "v1.29.2", happenings }

/-- An estate with a cluster that holds these events. -/
def recording (happenings : List Happening) : Estate := { store := .ofClusters [eventful happenings] }

/-- The first day is left out, and no other. -/
theorem daily_shown : (recording daily).store.ready 1 = .ok (eventful daily) ∧ Arguments.Given "" []
    ∧ ∃ j left returned, (recording daily).Answers ⟨19800, 0, 0⟩ onlooker .listEvents "" j
      ∧ j.get? "events" = some (.array (returned.map (Report.happening ⟨19800, 0, 0⟩)))
      ∧ daily = left ++ returned ∧ returned.length = 50 ∧ ∀ e ∈ left, ∀ e' ∈ returned, ¬ e.Later e' := by
  have hready : (recording daily).store.ready 1 = .ok (eventful daily) := rfl
  have hgiven : Arguments.Given "" [] := .nothing (.inl (by decide))
  have hwanted : Happening.matching [] (eventful daily) = daily := by decide +kernel
  have hordered : daily.Pairwise fun e e' => ¬ e.Later e' := by decide +kernel
  have hfifty : min 50 daily.length = 50 := by decide
  obtain ⟨j, left, returned, hj, -, hevents, hall, hlength, hrecent⟩ :=
    @events_shown (recording daily) onlooker _ _ _ hready ⟨19800, 0, 0⟩ hgiven
  rw [hwanted] at hall hlength hrecent
  rw [hfifty] at hlength
  exact ⟨hready, hgiven, j, left, returned, hj, hevents, hall, hlength, hrecent hordered⟩

/-- Where the last day comes first, the latest event is the one that is left out. -/
theorem newestFirst_misses_latest : ∃ j latest returned,
    (recording daily.reverse).Answers ⟨19800, 0, 0⟩ onlooker .listEvents "" j
      ∧ j.get? "events" = some (.array (returned.map (Report.happening ⟨19800, 0, 0⟩)))
      ∧ Happening.matching [] (eventful daily.reverse) = latest :: returned ∧ returned.length = 50
      ∧ ∀ e ∈ returned, latest.Later e := by
  have hready : (recording daily.reverse).store.ready 1 = .ok (eventful daily.reverse) := rfl
  have hgiven : Arguments.Given "" [] := .nothing (.inl (by decide))
  have hwanted : Happening.matching [] (eventful daily.reverse) = daily.reverse := by decide +kernel
  have hshown : shown daily.reverse = daily.reverse.tail := by decide +kernel
  have hread := Operation.read_listEvents hready ⟨19800, 0, 0⟩ []
  rw [hwanted, hshown] at hread
  refine ⟨_, { (default : Happening) with objectName := "web", lastSeen := some ⟨19773, 0, 0⟩ }, daily.reverse.tail,
    answers_of_read rfl (by simp) hgiven hread, Json.get?_of_lookup rfl, ?_, ?_, ?_⟩
  · rw [hwanted]
    decide +kernel
  all_goals decide +kernel

end Estate

end Helmsman
