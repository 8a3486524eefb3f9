import Helmsman.Chat.Turn
/-!
# Putting a turn together

Text and fragments of calls do not meet in a turn: `hear` takes what arrives in any order, and what comes of it is the
text in one piece (`foldl_hear_content`) beside the calls that the fragments alone would have made
(`foldl_hear_calls`). However the fragments were cut and repeated, no two of these calls have one id. Calls that were
cut one after the other, the id in the first fragment of each, are put together again (`assembled_cuts`).
-/

namespace Helmsman

namespace Turn

def hear (t : Turn) : StreamEvent → Turn
  | .text text => t.pushText text
  | .call f => (t.merge f).1
  | _ => t

/-- Every event that has a place in a turn, a reason to stop among them. -/
def receive (t : Turn) : StreamEvent → Turn
  | .finish reason => t.finish reason
  | e => t.hear e

end Turn

/-- The calls that fragments make up. -/
def assembled (fragments : List CallFragment) : List ToolCall :=
  (fragments.foldl (fun t f => (Turn.merge t f).1) {}).calls

namespace StreamEvent

def text? : StreamEvent → Option String
  | .text s => some s
  | _ => none

def fragment? : StreamEvent → Option CallFragment
  | .call f => some f
  | _ => none

end StreamEvent

namespace Turn

/-- A fragment neither looks at the text nor touches it. -/
theorem merge_withContent (t : Turn) (content : String) (f : CallFragment) :
    (merge { t with content } f).1 = { (t.merge f).1 with content } := by
  obtain ⟨id, name, arguments⟩ := f
  cases id with
  | some id =>
    dsimp only [merge, extendAt]
    split <;> rfl
  | none =>
    dsimp only [merge, extendAt]
    split <;> rfl

@[simp] theorem merge_content (t : Turn) (f : CallFragment) : (t.merge f).1.content = t.content := by
  rw [merge]
  split <;> split <;> rfl

@[simp] theorem merge_reason (t : Turn) (f : CallFragment) : (t.merge f).1.reason = t.reason := by
  rw [merge]
  split <;> split <;> rfl

theorem hear_reason (t : Turn) (e : StreamEvent) : (t.hear e).reason = t.reason := by
  cases e with
  | call f => exact merge_reason t f
  | _ => rfl

theorem foldl_hear_content (events : List StreamEvent) (t : Turn) :
    (events.foldl hear t).content = t.content ++ String.join (events.filterMap StreamEvent.text?) := by
  induction events generalizing t with
  | nil => rw [List.foldl_nil, List.filterMap_nil, String.join_nil, String.append_empty]
  | cons e rest ih =>
    rw [List.foldl_cons, ih]
    cases e with
    | text s =>
      simp only [List.filterMap_cons, StreamEvent.text?, String.join_cons, ← String.append_assoc]
      rfl
    | call f =>
      simp only [List.filterMap_cons, StreamEvent.text?]
      exact congrArg (· ++ _) (merge_content t f)
    | finish | done | error => rfl

private theorem foldl_hear_withContent (events : List StreamEvent) (t : Turn) (content : String) :
    (events.foldl hear { t with content }).calls = (events.foldl hear t).calls := by
  induction events generalizing t content with
  | nil => rfl
  | cons e rest ih =>
    rw [List.foldl_cons, List.foldl_cons]
    cases e with
    | text text => exact (ih t (content ++ text)).trans (ih t (t.content ++ text)).symm
    | call f =>
      show (rest.foldl hear (merge { t with content } f).1).calls = _
      rw [merge_withContent]
      exact ih (t.merge f).1 content
    | finish | done | error => exact ih t content

theorem foldl_hear_calls (events : List StreamEvent) (t : Turn) :
    (events.foldl hear t).calls
      = ((events.filterMap StreamEvent.fragment?).foldl (fun t f => (merge t f).1) t).calls := by
  induction events generalizing t with
  | nil => rfl
  | cons e rest ih =>
    rw [List.foldl_cons]
    cases e with
    | text s => exact (foldl_hear_withContent rest t (t.content ++ s)).trans (ih t)
    | call f => exact ih (t.merge f).1
    | finish | done | error => exact ih t

theorem foldl_hear_reason (events : List StreamEvent) (t : Turn) : (events.foldl hear t).reason = t.reason := by
  induction events generalizing t with
  | nil => rfl
  | cons e rest ih => rw [List.foldl_cons, ih, hear_reason]

/-! ### Ids -/

private theorem map_id_extendAt (t : Turn) (i : Nat) (f : CallFragment) :
    (t.extendAt i f).map ToolCall.id = t.calls.map ToolCall.id := by
  ext1 j
  rw [List.getElem?_map, List.getElem?_map, extendAt, List.getElem?_modify]
  cases t.calls[j]? with
  | none => rfl
  | some c =>
    simp only [Option.map_some, Option.map_eq_map]
    split <;> rfl

theorem merge_ids_nodup {t : Turn} (h : (t.calls.map ToolCall.id).Nodup) (f : CallFragment) :
    ((t.merge f).1.calls.map ToolCall.id).Nodup := by
  rw [merge]
  split
  · rename_i id _
    split
    · rw [map_id_extendAt]
      exact h
    · rename_i hnone
      -- A call is opened only where none has the id yet.
      have hfresh : id ∉ t.calls.map ToolCall.id := by
        intro hmem
        obtain ⟨c, hc, hid⟩ := List.mem_map.1 hmem
        have hne := List.findIdx?_eq_none_iff.1 hnone c hc
        exact absurd hid (by simpa using hne)
      rw [List.map_append, List.nodup_append]
      refine ⟨h, List.pairwise_singleton _ _, ?_⟩
      intro x hx y hy hxy
      apply hfresh
      have hy : y = id := List.mem_singleton.1 hy
      rw [← hy, ← hxy]
      exact hx
  · split
    · rw [map_id_extendAt]
      exact h
    · exact h

end Turn

theorem assembled_ids_nodup (fragments : List CallFragment) : ((assembled fragments).map ToolCall.id).Nodup := by
  have hfold : ∀ t : Turn, (t.calls.map ToolCall.id).Nodup →
      ((fragments.foldl (fun t f => (Turn.merge t f).1) t).calls.map ToolCall.id).Nodup := by
    induction fragments with
    | nil =>
      intro t h
      exact h
    | cons f rest ih =>
      intro t h
      exact ih (t.merge f).1 (Turn.merge_ids_nodup h f)
  exact hfold {} List.nodup_nil

namespace Turn

/-! ### Calls that come one after the other -/

/-- A fragment with a new id opens a call. -/
theorem merge_opens {t : Turn} {f : CallFragment} {id : String} (hid : f.id = some id)
    (h : id ∉ t.calls.map ToolCall.id) : (t.merge f).1
      = { t with calls := t.calls ++ [.function id f.name f.arguments], current := some t.calls.length } := by
  have hnone : (t.calls.findIdx? fun c => c.id == id) = none := by
    rw [List.findIdx?_eq_none_iff]
    intro c hc
    exact beq_false_of_ne fun hid => h (List.mem_map.2 ⟨c, hc, hid⟩)
  rw [merge, hid]
  dsimp only
  rw [hnone]

/-- A fragment without an id continues the call that was opened last. -/
theorem merge_continues {t : Turn} {before : List ToolCall} {c : ToolCall} (hcalls : t.calls = before ++ [c])
    (hcurrent : t.current = some before.length) {f : CallFragment} (hid : f.id = none) :
    (t.merge f).1 = { t with calls := before ++ [extend c f.name f.arguments] } := by
  have hlast : t.extendAt before.length f = before ++ [extend c f.name f.arguments] := by
    rw [extendAt, hcalls]
    exact List.modifyTailIdx_add _ 0 before [c]
  rw [merge, hid, hcurrent]
  dsimp only
  rw [hlast]

theorem foldl_merge_continues {fragments : List CallFragment} (hids : ∀ f ∈ fragments, f.id = none) {t : Turn}
    {before : List ToolCall} {c : ToolCall} (hcalls : t.calls = before ++ [c])
    (hcurrent : t.current = some before.length) : fragments.foldl (fun t f => (merge t f).1) t
      = { t with calls := before ++ [extend c (String.join (fragments.map CallFragment.name))
          (String.join (fragments.map CallFragment.arguments))] } := by
  induction fragments generalizing t c with
  | nil =>
    rw [List.foldl_nil, List.map_nil, List.map_nil, String.join_nil, extend, String.append_empty, String.append_empty,
      ← hcalls]
  | cons f fragments ih =>
    have hf := merge_continues hcalls hcurrent (hids f List.mem_cons_self)
    rw [List.foldl_cons, ih (fun f hf => hids f (List.mem_cons_of_mem _ hf)) (congrArg Turn.calls hf)
      ((congrArg Turn.current hf).trans hcurrent), hf]
    simp only [extend, List.map_cons, String.join_cons, String.append_assoc]

end Turn

/-- The fragments that a call was cut into. The first one carries the id, and only that. -/
structure CutOf (c : ToolCall) (fragments : List CallFragment) : Prop where
  kind : c.kind = "function"
  opens : fragments.head?.bind CallFragment.id = some c.id
  continues : ∀ f ∈ fragments.tail, f.id = none
  name : String.join (fragments.map CallFragment.name) = c.name
  arguments : String.join (fragments.map CallFragment.arguments) = c.arguments

namespace Turn

theorem foldl_merge_cut {c : ToolCall} {fragments : List CallFragment} (hcut : CutOf c fragments) {t : Turn}
    (h : c.id ∉ t.calls.map ToolCall.id) : fragments.foldl (fun t f => (merge t f).1) t
      = { t with calls := t.calls ++ [c], current := some t.calls.length } := by
  cases fragments with
  | nil => exact absurd hcut.opens (by simp)
  | cons f rest =>
    have hopened := merge_opens hcut.opens h
    have hcall : extend (.function c.id f.name f.arguments) (String.join (rest.map CallFragment.name))
        (String.join (rest.map CallFragment.arguments)) = c := by
      have hname := hcut.name
      have harguments := hcut.arguments
      rw [List.map_cons, String.join_cons] at hname harguments
      rw [extend, ToolCall.function, hname, harguments, ← hcut.kind]
    have hrest : ∀ f ∈ rest, f.id = none := hcut.continues
    rw [List.foldl_cons, foldl_merge_continues hrest (congrArg Turn.calls hopened) (congrArg Turn.current hopened),
      hopened, hcall]

theorem foldl_merge_cuts {calls : List ToolCall} {cut : ToolCall → List CallFragment}
    (hcut : ∀ c ∈ calls, CutOf c (cut c)) {t : Turn} (hids : ((t.calls ++ calls).map ToolCall.id).Nodup) :
    ((calls.flatMap cut).foldl (fun t f => (merge t f).1) t).calls = t.calls ++ calls := by
  induction calls generalizing t with
  | nil => exact (List.append_nil t.calls).symm
  | cons c calls ih =>
    have hfresh : c.id ∉ t.calls.map ToolCall.id := by
      intro hmem
      rw [List.map_append, List.nodup_append] at hids
      exact hids.2.2 _ hmem _ List.mem_cons_self rfl
    rw [List.append_cons] at hids
    rw [List.flatMap_cons, List.foldl_append, foldl_merge_cut (hcut c List.mem_cons_self) hfresh,
      ih (fun c hc => hcut c (List.mem_cons_of_mem _ hc)) hids, ← List.append_cons]

end Turn

/-- Calls with ids of their own are put together again, wherever they were cut. -/
theorem assembled_cuts {calls : List ToolCall} {cut : ToolCall → List CallFragment}
    (hcut : ∀ c ∈ calls, CutOf c (cut c)) (hids : (calls.map ToolCall.id).Nodup) :
    assembled (calls.flatMap cut) = calls := by
  have hstart : ((({} : Turn).calls ++ calls).map ToolCall.id).Nodup := hids
  exact Turn.foldl_merge_cuts hcut hstart

end Helmsman
