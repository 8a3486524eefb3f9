import Helmsman.Proofs.Chat.Turn
import Mathlib.Data.List.Induction
/-!
# Whose a fragment is

A fragment belongs to the call that it names, and one that names none to the call that was named last before it. The
definitions say so of a list of fragments, with no turn in sight: `attributed` looks back from each fragment, and
`attributedCalls` gathers what belongs to each id. A turn holds places instead of ids. That it gathers the same calls
(`foldl_receive_eq`) is one invariant, `Attributes`, which a fragment keeps (`Attributes.merge`): the calls stand in the
order in which their ids first came, and the open place is that of the last id.
-/

namespace Helmsman

/-- The id that was named last. -/
def lastId (fragments : List CallFragment) : Option String := fragments.reverse.findSome? CallFragment.id

/-- The id that a fragment belongs to: its own, or the nearest one before it. -/
def CallFragment.owner? (f : CallFragment) (earlier : List CallFragment) : Option String := f.id.or (lastId earlier)

/-- Each fragment with its owner. -/
def attributed (fragments : List CallFragment) : List (Option String × CallFragment) :=
  fragments.mapIdx fun i f => (f.owner? (fragments.take i), f)

/-- The owners, each once, in the order in which they first come. -/
def owners (fragments : List CallFragment) : List String := ((attributed fragments).filterMap Prod.fst).eraseDups

/-- The fragments of an owner, in order. -/
def ownedBy (id : String) (fragments : List CallFragment) : List CallFragment :=
  ((attributed fragments).filter fun p => p.1 == some id).map Prod.snd

/-- The call that the fragments of an owner make up. -/
def ownedCall (fragments : List CallFragment) (id : String) : ToolCall :=
  .function id (String.join ((ownedBy id fragments).map CallFragment.name))
    (String.join ((ownedBy id fragments).map CallFragment.arguments))

def attributedCalls (fragments : List CallFragment) : List ToolCall := (owners fragments).map (ownedCall fragments)

/-! ### One more fragment -/

variable {fragments : List CallFragment} {f : CallFragment} {id : String}

@[simp] theorem lastId_concat (fragments : List CallFragment) (f : CallFragment) :
    lastId (fragments ++ [f]) = f.owner? fragments := by
  rw [lastId, List.reverse_concat, List.findSome?_cons, CallFragment.owner?]
  cases f.id <;> rfl

theorem attributed_concat (fragments : List CallFragment) (f : CallFragment) :
    attributed (fragments ++ [f]) = attributed fragments ++ [(f.owner? fragments, f)] := by
  rw [attributed, List.mapIdx_concat, List.take_left, attributed]
  congr 1
  apply List.ext_getElem?
  intro i
  rw [List.getElem?_mapIdx, List.getElem?_mapIdx]
  cases hi : fragments[i]? with
  | none => rfl
  | some g =>
    have hle : i ≤ fragments.length := Nat.le_of_lt (List.getElem?_eq_some_iff.1 hi).1
    rw [List.take_append_of_le_length hle]

theorem ownedBy_concat (id : String) (fragments : List CallFragment) (f : CallFragment) :
    ownedBy id (fragments ++ [f]) = ownedBy id fragments ++ if f.owner? fragments = some id then [f] else [] := by
  rw [ownedBy, attributed_concat, List.filter_append, List.map_append, ownedBy]
  by_cases h : f.owner? fragments = some id <;> simp [h]

theorem owners_concat_of_none (h : f.owner? fragments = none) : owners (fragments ++ [f]) = owners fragments := by
  simp [owners, attributed_concat, h]

theorem owners_concat_of_mem (h : f.owner? fragments = some id) (hmem : id ∈ owners fragments) :
    owners (fragments ++ [f]) = owners fragments := by
  have hold : id ∈ (attributed fragments).filterMap Prod.fst := List.mem_eraseDups.1 hmem
  rw [owners, attributed_concat, List.filterMap_append, List.eraseDups_append, owners]
  simp [h, List.removeAll, hold]

theorem owners_concat_of_notMem (h : f.owner? fragments = some id) (hmem : id ∉ owners fragments) :
    owners (fragments ++ [f]) = owners fragments ++ [id] := by
  have hnew : id ∉ (attributed fragments).filterMap Prod.fst := fun hold => hmem (List.mem_eraseDups.2 hold)
  rw [owners, attributed_concat, List.filterMap_append, List.eraseDups_append, owners]
  simp [h, List.removeAll, hnew, List.eraseDups_cons]

theorem owners_nodup (fragments : List CallFragment) : (owners fragments).Nodup := by
  induction fragments using List.reverseRecOn with
  | nil => exact List.nodup_nil
  | append_singleton fragments f ih =>
    cases h : f.owner? fragments with
    | none => rwa [owners_concat_of_none h]
    | some id =>
      by_cases hmem : id ∈ owners fragments
      · rwa [owners_concat_of_mem h hmem]
      · rw [owners_concat_of_notMem h hmem]
        exact List.nodup_append.2 ⟨ih, by simp, by grind⟩

theorem mem_owners_concat (h : f.owner? fragments = some id) : id ∈ owners (fragments ++ [f]) := by
  by_cases hmem : id ∈ owners fragments
  · rwa [owners_concat_of_mem h hmem]
  · rw [owners_concat_of_notMem h hmem]
    exact List.mem_append_right _ List.mem_cons_self

theorem mem_owners_of_lastId (h : lastId fragments = some id) : id ∈ owners fragments := by
  cases fragments using List.reverseRecOn with
  | nil => exact absurd h (by simp [lastId])
  | append_singleton fragments f => exact mem_owners_concat (lastId_concat fragments f ▸ h)

theorem ownedBy_of_notMem (h : id ∉ owners fragments) : ownedBy id fragments = [] := by
  rw [ownedBy, List.map_eq_nil_iff, List.filter_eq_nil_iff]
  intro p hp howner
  apply h
  rw [owners, List.mem_eraseDups]
  exact List.mem_filterMap.2 ⟨p, hp, eq_of_beq howner⟩

theorem ownedCall_concat (fragments : List CallFragment) (f : CallFragment) (id : String) :
    ownedCall (fragments ++ [f]) id = if f.owner? fragments = some id
      then Turn.extend (ownedCall fragments id) f.name f.arguments else ownedCall fragments id := by
  rw [ownedCall, ownedBy_concat, ownedCall]
  by_cases h : f.owner? fragments = some id
  · simp [h, Turn.extend, ToolCall.function, String.join_append]
  · simp [h]

/-! ### What becomes of the calls -/

theorem attributedCalls_concat_of_none (h : f.owner? fragments = none) :
    attributedCalls (fragments ++ [f]) = attributedCalls fragments := by
  rw [attributedCalls, owners_concat_of_none h, attributedCalls]
  apply List.map_congr_left
  intro id hid
  rw [ownedCall_concat, h, if_neg (by simp)]

theorem attributedCalls_concat_of_mem (h : f.owner? fragments = some id) (hmem : id ∈ owners fragments) :
    attributedCalls (fragments ++ [f]) = (attributedCalls fragments).modify ((owners fragments).idxOf id)
      fun c => Turn.extend c f.name f.arguments := by
  rw [attributedCalls, owners_concat_of_mem h hmem, attributedCalls]
  apply List.ext_getElem?
  intro i
  rw [List.getElem?_modify, List.getElem?_map, List.getElem?_map]
  cases hi : (owners fragments)[i]? with
  | none => rfl
  | some id' =>
    have hplace : (owners fragments).idxOf id = i ↔ id = id' := by
      obtain ⟨hlt, hi⟩ := List.getElem?_eq_some_iff.1 hi
      constructor
      · rintro rfl
        rw [← hi, List.getElem_idxOf]
      · rintro rfl
        rw [← hi, (owners_nodup fragments).idxOf_getElem]
    simp only [Option.map_some, ownedCall_concat, h, Option.some.injEq, hplace]
    split <;> rfl

theorem attributedCalls_concat_of_notMem (h : f.owner? fragments = some id) (hmem : id ∉ owners fragments) :
    attributedCalls (fragments ++ [f]) = attributedCalls fragments ++ [.function id f.name f.arguments] := by
  rw [attributedCalls, owners_concat_of_notMem h hmem, List.map_append, attributedCalls]
  congr 1
  · apply List.map_congr_left
    intro id' hid'
    have hne : f.owner? fragments ≠ some id' := by
      rintro howner
      obtain rfl := Option.some.inj (h.symm.trans howner)
      exact hmem hid'
    rw [ownedCall_concat, if_neg hne]
  · rw [List.map_singleton, ownedCall_concat, if_pos h, ownedCall, ownedBy_of_notMem hmem]
    simp [Turn.extend, ToolCall.function]

theorem findIdx?_attributedCalls (fragments : List CallFragment) (id : String) :
    ((attributedCalls fragments).findIdx? fun c => c.id == id)
      = if id ∈ owners fragments then some ((owners fragments).idxOf id) else none := by
  rw [attributedCalls, List.findIdx?_map]
  show (owners fragments).findIdx? (· == id) = _
  split
  · rename_i hmem
    rw [List.findIdx?_eq_some_iff_findIdx_eq]
    exact ⟨List.idxOf_lt_length_of_mem hmem, rfl⟩
  · rename_i hmem
    rw [List.findIdx?_eq_none_iff]
    intro id' hid'
    simp only [beq_eq_false_iff_ne]
    rintro rfl
    exact hmem hid'

/-! ### Nothing is lost -/

/-- What several ids own, in the order in which it came. -/
def ownedByAny (ids : List String) (fragments : List CallFragment) : List CallFragment :=
  ((attributed fragments).filter fun p => p.1 ∈ ids.map some).map Prod.snd

theorem flatMap_ownedBy_perm {ids : List String} (hids : ids.Nodup) (fragments : List CallFragment) :
    (ids.flatMap fun id => ownedBy id fragments).Perm (ownedByAny ids fragments) := by
  induction ids with
  | nil => simp [ownedByAny]
  | cons id ids ih =>
    obtain ⟨hid, hids⟩ := List.nodup_cons.1 hids
    have hfirst : (ownedByAny (id :: ids) fragments).Perm (ownedBy id fragments ++ ownedByAny ids fragments) := by
      rw [ownedByAny, ownedBy, ownedByAny, ← List.map_append]
      apply List.Perm.map
      refine (List.filter_append_perm (fun p => p.1 == some id) _).symm.trans (.of_eq ?_)
      rw [List.filter_filter, List.filter_filter]
      congr 1
      all_goals
        apply List.filter_congr
        rintro ⟨owner, f⟩ -
        by_cases howner : owner = some id <;> simp [howner, hid]
    rw [List.flatMap_cons]
    exact ((ih hids).append_left _).trans hfirst.symm

/-- Each fragment that has an owner goes to one call, and none goes to two. -/
theorem owned_perm (fragments : List CallFragment) :
    ((owners fragments).flatMap fun id => ownedBy id fragments).Perm
      (((attributed fragments).filter fun p => p.1.isSome).map Prod.snd) := by
  have hall : ownedByAny (owners fragments) fragments
      = ((attributed fragments).filter fun p => p.1.isSome).map Prod.snd := by
    rw [ownedByAny]
    congr 1
    apply List.filter_congr
    rintro ⟨owner, f⟩ hp
    cases owner with
    | none => simp
    | some id =>
      have hmem : id ∈ owners fragments := List.mem_eraseDups.2 (List.mem_filterMap.2 ⟨_, hp, rfl⟩)
      simpa using hmem
  exact hall ▸ flatMap_ownedBy_perm (owners_nodup fragments) fragments

/-! ### A turn attributes -/

namespace Turn

/-- A turn that has gathered its calls from fragments. -/
structure Attributes (t : Turn) (fragments : List CallFragment) : Prop where
  calls : t.calls = attributedCalls fragments
  current : t.current = (lastId fragments).map fun id => (owners fragments).idxOf id

namespace Attributes

variable {t : Turn}

theorem start : Attributes {} [] := ⟨rfl, rfl⟩

/-- A fragment that has an owner is taken in. -/
theorem merge_owned (h : t.Attributes fragments) (howner : f.owner? fragments = some id) :
    (t.merge f).2 = true ∧ (t.merge f).1.Attributes (fragments ++ [f]) := by
  by_cases hmem : id ∈ owners fragments
  · -- The owner has a call: the place of its id is where the fragment goes.
    have hmerge : t.merge f = ({ t with
        calls := t.extendAt ((owners fragments).idxOf id) f
        current := some ((owners fragments).idxOf id) }, true) := by
      rw [CallFragment.owner?] at howner
      rw [merge]
      cases hid : f.id with
      | some own =>
        obtain rfl : own = id := by simpa [hid] using howner
        simp only [h.calls, findIdx?_attributedCalls, if_pos hmem]
      | none =>
        have hlast : lastId fragments = some id := by simpa [hid] using howner
        simp only [h.current, hlast, Option.map_some]
    rw [hmerge]
    refine ⟨rfl, ?_, ?_⟩
    · rw [attributedCalls_concat_of_mem howner hmem, ← h.calls]
      rfl
    · rw [lastId_concat, howner, owners_concat_of_mem howner hmem]
      rfl
  · have hid : f.id = some id := by
      cases hid : f.id with
      | some own => simpa [CallFragment.owner?, hid] using howner
      | none =>
        have hlast : lastId fragments = some id := by simpa [CallFragment.owner?, hid] using howner
        exact absurd (mem_owners_of_lastId hlast) hmem
    have hmerge : t.merge f = ({ t with
        calls := t.calls ++ [.function id f.name f.arguments], current := some t.calls.length }, true) := by
      rw [merge]
      simp only [hid, h.calls, findIdx?_attributedCalls, if_neg hmem]
    rw [hmerge]
    refine ⟨rfl, ?_, ?_⟩
    · rw [attributedCalls_concat_of_notMem howner hmem, ← h.calls]
    · rw [lastId_concat, howner, owners_concat_of_notMem howner hmem, h.calls, attributedCalls]
      simp [List.idxOf_append, hmem]

/-- A fragment that has none leaves the turn as it is. -/
theorem merge_orphan (h : t.Attributes fragments) (howner : f.owner? fragments = none) :
    t.merge f = (t, false) ∧ t.Attributes (fragments ++ [f]) := by
  have hids : f.id = none ∧ lastId fragments = none := Option.or_eq_none_iff.1 howner
  refine ⟨?_, ?_, ?_⟩
  · rw [merge]
    simp only [hids.1, h.current, hids.2, Option.map_none]
  · rw [h.calls, attributedCalls_concat_of_none howner]
  · rw [h.current, hids.2, lastId_concat, howner]
    rfl

theorem merge_iff (h : t.Attributes fragments) (f : CallFragment) :
    ((t.merge f).2 = false ↔ f.owner? fragments = none) ∧ (t.merge f).1.Attributes (fragments ++ [f]) := by
  cases howner : f.owner? fragments with
  | none =>
    obtain ⟨hmerge, hkept⟩ := h.merge_orphan howner
    simp [hmerge, hkept]
  | some id =>
    obtain ⟨htaken, hkept⟩ := h.merge_owned howner
    simp [htaken, hkept]

end Attributes

end Turn

/-! ### All that a turn receives -/

def StreamEvent.reason? : StreamEvent → Option String
  | .finish reason => some reason
  | _ => none

namespace Turn

theorem receive_events (events : List StreamEvent) :
    (events.foldl receive {}).content = String.join (events.filterMap StreamEvent.text?)
    ∧ (events.foldl receive {}).reason = events.findSome? StreamEvent.reason?
    ∧ (events.foldl receive {}).Attributes (events.filterMap StreamEvent.fragment?) := by
  induction events using List.reverseRecOn with
  | nil => exact ⟨rfl, rfl, Attributes.start⟩
  | append_singleton events e ih =>
    obtain ⟨hcontent, hreason, hcalls⟩ := ih
    rw [List.foldl_append, List.foldl_cons, List.foldl_nil, List.filterMap_append, List.findSome?_append,
      List.filterMap_append, ← hreason]
    generalize events.foldl receive {} = t at *
    cases e with
    | text s =>
      refine ⟨?_, (Option.or_none ..).symm, ?_⟩
      · simp [receive, hear, pushText, StreamEvent.text?, hcontent, String.join_append]
      · exact (List.append_nil _).symm ▸ ⟨hcalls.calls, hcalls.current⟩
    | call f =>
      refine ⟨?_, ?_, (hcalls.merge_iff f).2⟩
      · exact (merge_content t f).trans (hcontent.trans (congrArg String.join (List.append_nil _).symm))
      · exact (merge_reason t f).trans (Option.or_none ..).symm
    | finish reason =>
      refine ⟨?_, ?_, ?_⟩
      · exact hcontent.trans (congrArg String.join (List.append_nil _).symm)
      · show some (t.reason.getD reason) = t.reason.or (some reason)
        cases t.reason <;> rfl
      · exact (List.append_nil _).symm ▸ ⟨hcalls.calls, hcalls.current⟩
    | done | error =>
      refine ⟨?_, (Option.or_none ..).symm, ?_⟩
      · exact hcontent.trans (congrArg String.join (List.append_nil _).symm)
      · exact (List.append_nil _).symm ▸ hcalls

/-- Text, fragments and the first reason to stop are all that matters, and not how they lie between one another. -/
theorem foldl_receive_congr {events events' : List StreamEvent}
    (hfragments : events'.filterMap StreamEvent.fragment? = events.filterMap StreamEvent.fragment?)
    (htexts : events'.filterMap StreamEvent.text? = events.filterMap StreamEvent.text?)
    (hreasons : events'.findSome? StreamEvent.reason? = events.findSome? StreamEvent.reason?) :
    events'.foldl receive {} = events.foldl receive {} := by
  obtain ⟨hcontent, hreason, hcalls⟩ := receive_events events
  obtain ⟨hcontent', hreason', hcalls'⟩ := receive_events events'
  rw [hfragments] at hcalls'
  have hcontents := hcontent'.trans ((congrArg String.join htexts).trans hcontent.symm)
  have hfirst := hreason'.trans (hreasons.trans hreason.symm)
  have hgathered := hcalls'.calls.trans hcalls.calls.symm
  have hopen := hcalls'.current.trans hcalls.current.symm
  generalize events'.foldl receive {} = t' at *
  generalize events.foldl receive {} = t at *
  cases t'
  cases t
  rw [mk.injEq]
  exact ⟨hcontents, hgathered, hopen, hfirst⟩

theorem toMessage_eq (t : Turn) : t.toMessage = { Message.assistant t.content with
    toolCalls := if t.reason = some toolCallsReason then t.calls else [] } := by
  rw [toMessage, requestsTools]
  by_cases hreason : t.reason = some toolCallsReason
  · cases hcalls : t.calls <;> simp [hreason]
  · simp [hreason]

/-- A turn gathers each call from the fragments that belong to it and the text from its pieces, and asks for the calls
if that is the first reason it was given to stop. -/
theorem receive_attributes (events : List StreamEvent) :
    let t := events.foldl receive {}
    let fragments := events.filterMap StreamEvent.fragment?
    (∀ f, (t.merge f).2 = false ↔ f.owner? fragments = none)
    ∧ t.calls = attributedCalls fragments
    ∧ t.toMessage = { Message.assistant (String.join (events.filterMap StreamEvent.text?)) with
        toolCalls := if events.findSome? StreamEvent.reason? = some toolCallsReason then attributedCalls fragments
          else [] }
    ∧ ((owners fragments).flatMap fun id => ownedBy id fragments).Perm
        (((attributed fragments).filter fun p => p.1.isSome).map Prod.snd)
    ∧ (∀ (reason again : String) (between later : List StreamEvent),
        (events ++ (.finish reason :: between ++ .finish again :: later)).foldl receive {}
          = (events ++ (.finish reason :: between ++ later)).foldl receive {})
    ∧ ∀ events' : List StreamEvent, events'.filterMap StreamEvent.fragment? = fragments →
        events'.filterMap StreamEvent.text? = events.filterMap StreamEvent.text? →
        events'.findSome? StreamEvent.reason? = events.findSome? StreamEvent.reason? →
        events'.foldl receive {} = t := by
  intro t fragments
  obtain ⟨hcontent, hreason, hcalls⟩ := receive_events events
  refine ⟨fun f => (hcalls.merge_iff f).1, hcalls.calls, ?_, owned_perm fragments, ?_, ?_⟩
  · rw [toMessage_eq, hcontent, hreason, hcalls.calls]
  · intro reason again between later
    apply foldl_receive_congr
    · simp [List.filterMap_append, List.filterMap_cons, StreamEvent.fragment?]
    · simp [List.filterMap_append, List.filterMap_cons, StreamEvent.text?]
    · simp [List.findSome?_append, List.findSome?_cons, StreamEvent.reason?]
  · intro events' hfragments htexts hreasons
    exact foldl_receive_congr hfragments htexts hreasons

/-- Two calls whose fragments and texts lie between one another: a fragment that belongs to none, a call that is
taken up again, and a second reason to stop. -/
def tangled : List StreamEvent :=
  [.call ⟨none, "lost", "\x7b"⟩, .text "Let me ", .call ⟨some "a", "list_", "\x7b"⟩, .call ⟨some "b", "get_node", ""⟩,
    .text "look.", .finish "tool_calls", .call ⟨some "a", "pods", ""⟩, .call ⟨none, "", "\x7d"⟩, .finish "stop"]

/-- The same texts and fragments, the texts first. -/
def combed : List StreamEvent :=
  [.text "Let me ", .text "look.", .finish "tool_calls", .call ⟨none, "lost", "\x7b"⟩,
    .call ⟨some "a", "list_", "\x7b"⟩, .call ⟨some "b", "get_node", ""⟩, .call ⟨some "a", "pods", ""⟩,
    .call ⟨none, "", "\x7d"⟩]

theorem tangled_attributes :
    combed.filterMap StreamEvent.fragment? = tangled.filterMap StreamEvent.fragment?
    ∧ combed.filterMap StreamEvent.text? = tangled.filterMap StreamEvent.text?
    ∧ combed.findSome? StreamEvent.reason? = tangled.findSome? StreamEvent.reason?
    ∧ combed.foldl receive {} = tangled.foldl receive {}
    ∧ (tangled.foldl receive {}).toMessage = { Message.assistant "Let me look." with
        toolCalls := [.function "a" "list_pods" "\x7b\x7d", .function "b" "get_node" ""] } := by
  obtain ⟨-, -, hmessage, -, -, hsame⟩ := receive_attributes tangled
  refine ⟨rfl, rfl, rfl, hsame combed rfl rfl rfl, hmessage.trans ?_⟩
  decide +kernel

end Turn

end Helmsman
