import Helmsman.Proofs.Chat.Turn
import Helmsman.Proofs.Json.Record
import Helmsman.Proofs.Stream.Body
/-!
# Chunks, written and read

A delta is what one chunk brings: some of the text and some fragments of calls. It is written as a record in which
everything that it has nothing to say of is left out, and it is read as the events that it stands for (`parse_chunk`).
The members are followed shape by shape, from the fragment's function up to the chunk.
-/

namespace Helmsman

open Json

/-- A fragment as it is written: what it says of its call, and where the call stands in the turn. -/
structure WrittenFragment where
  index : Option UInt32 := none
  id : Option String := none
  kind : Option String := none
  name : Option String := none
  arguments : Option String := none
  deriving Repr, DecidableEq

namespace WrittenFragment

/-- The fragment that it stands for. An empty id is none. -/
def fragment (w : WrittenFragment) : CallFragment :=
  ⟨w.id.filter fun id => !id.isEmpty, w.name.getD "", w.arguments.getD ""⟩

def functionJson (w : WrittenFragment) : Json :=
  .object ([member? "name" (w.name.map .string), member? "arguments" (w.arguments.map .string)].flatten)

def toJson (w : WrittenFragment) : Json :=
  .object ([member? "index" (w.index.map fun i => .ofNat i.toNat), member? "id" (w.id.map .string),
    member? "type" (w.kind.map .string), member? "function" (some w.functionJson)].flatten)

end WrittenFragment

/-- What one chunk brings. -/
structure Delta where
  content : Option String := none
  calls : List WrittenFragment := []
  deriving Repr, DecidableEq

namespace Delta

def toJson (d : Delta) : Json :=
  let calls := if d.calls.isEmpty then none else some (.array (d.calls.map WrittenFragment.toJson))
  .object ([member? "content" (d.content.map .string), member? "tool_calls" calls].flatten)

def chunk (d : Delta) (reason : Option String) : Json :=
  .object [("choices", .array [.object ([member? "delta" (some d.toJson),
    member? "finish_reason" (reason.map .string)].flatten)])]

end Delta

/-! ### What a chunk is read as -/

theorem direct_shape : Chunk.shape.Direct := by
  have hfunction : Chunk.functionShape.Direct := by
    refine .record _ ?_
    simp only [List.forall_mem_cons]
    exact ⟨.text, .text, List.forall_mem_nil _⟩
  have hcall : Chunk.callShape.Direct := by
    refine .record _ ?_
    simp only [List.forall_mem_cons]
    exact ⟨.text, hfunction, List.forall_mem_nil _⟩
  have hdelta : Chunk.deltaShape.Direct := by
    refine .record _ ?_
    simp only [List.forall_mem_cons]
    exact ⟨.text, .list hcall, List.forall_mem_nil _⟩
  have hchoice : Chunk.choiceShape.Direct := by
    refine .record _ ?_
    simp only [List.forall_mem_cons]
    exact ⟨hdelta, .text, List.forall_mem_nil _⟩
  refine .record _ ?_
  simp only [List.forall_mem_cons]
  exact ⟨.list hchoice, List.forall_mem_nil _⟩

theorem check_functionJson (w : WrittenFragment) : check false Chunk.functionShape w.functionJson
    = .ok (.object [("name", ofText? w.name), ("arguments", ofText? w.arguments)]) := by
  apply check_object
  · simp only [List.flatten_cons, List.flatten_nil]
    rw [checkMembers_text rfl rfl _ rfl, checkMembers_text rfl rfl _ (by simp), checkMembers_nil]
  · rw [complete_text w.name (by simp), complete_text w.arguments (by simp), complete_nil]
    rfl

/-- A written fragment with what it leaves out filled in. -/
def WrittenFragment.filled (w : WrittenFragment) : Json := .object [("id", ofText? w.id),
  ("function", .object [("name", ofText? w.name), ("arguments", ofText? w.arguments)])]

theorem check_fragment (w : WrittenFragment) : check false Chunk.callShape w.toJson = .ok w.filled := by
  have hfunction : checkField (Shape.optional "function" Chunk.functionShape) w.functionJson
      = .ok (.object [("name", ofText? w.name), ("arguments", ofText? w.arguments)]) := check_functionJson w
  apply check_object
  · simp only [List.flatten_cons, List.flatten_nil]
    -- Neither the index nor the type of a call is a field of the shape.
    rw [checkMembers_unknown rfl, checkMembers_text rfl rfl _ rfl, checkMembers_unknown rfl,
      checkMembers_known rfl hfunction (by simp), checkMembers_nil]
  · rw [complete_text w.id (by simp),
      complete_cons (.object [("name", ofText? w.name), ("arguments", ofText? w.arguments)]) (by simp [Shape.optional]),
      complete_nil]
    rfl

/-- A delta with what it leaves out filled in. -/
def Delta.filled (d : Delta) : Json := .object [("content", ofText? d.content),
  ("tool_calls", if d.calls.isEmpty then .null else .array (d.calls.map WrittenFragment.filled))]

theorem check_delta (d : Delta) : check false Chunk.deltaShape d.toJson = .ok d.filled := by
  have hcalls : checkField (Shape.nullable "tool_calls" (.list Chunk.callShape) .null)
      (.array (d.calls.map WrittenFragment.toJson)) = .ok (.array (d.calls.map WrittenFragment.filled)) := by
    show check false (.list Chunk.callShape) _ = _
    rw [check, checkItems_map check_fragment]
    rfl
  rw [Delta.toJson, Delta.filled]
  cases d.calls.isEmpty with
  | true =>
    apply check_object
    · simp only [List.flatten_cons, List.flatten_nil]
      rw [checkMembers_text rfl rfl _ rfl]
      rfl
    · rw [complete_text d.content (by simp), complete_cons .null (by simp [Shape.nullable, Need.missing?]),
        complete_nil]
      rfl
  | false =>
    apply check_object
    · simp only [List.flatten_cons, List.flatten_nil]
      rw [checkMembers_text rfl rfl _ rfl]
      exact checkMembers_known rfl hcalls (by simp) []
    · rw [complete_text d.content (by simp), complete_cons _ (by simp [Shape.nullable]; rfl), complete_nil]
      rfl

theorem check_chunk (d : Delta) (reason : Option String) : check false Chunk.shape (d.chunk reason)
    = .ok (.object [("choices", .array [.object [("delta", d.filled), ("finish_reason", ofText? reason)]])]) := by
  have hdelta : checkField (Shape.fallback "delta" Chunk.deltaShape (.object [])) d.toJson = .ok d.filled :=
    check_delta d
  have hchoice : check false Chunk.choiceShape (.object ([member? "delta" (some d.toJson),
      member? "finish_reason" (reason.map .string)].flatten))
      = .ok (.object [("delta", d.filled), ("finish_reason", ofText? reason)]) := by
    apply check_object
    · simp only [List.flatten_cons, List.flatten_nil]
      rw [checkMembers_known rfl hdelta rfl, checkMembers_text rfl rfl _ (by simp), checkMembers_nil]
    · rw [complete_cons d.filled (by simp [Shape.fallback]), complete_text reason (by simp), complete_nil]
      rfl
  have hchoices : checkField (Shape.fallback "choices" (.list Chunk.choiceShape) (.array []))
      (.array [.object ([member? "delta" (some d.toJson), member? "finish_reason" (reason.map .string)].flatten)])
      = .ok (.array [.object [("delta", d.filled), ("finish_reason", ofText? reason)]]) := by
    show check false (.list Chunk.choiceShape) _ = _
    rw [check, checkItems, hchoice]
    rfl
  apply check_object
  · exact checkMembers_known rfl hchoices rfl []
  · rw [complete_cons _ (by simp [Shape.fallback]; rfl), complete_nil]
    rfl

theorem events_filled (content calls reason : Json) :
    Chunk.events (.object [("choices", .array [.object [("delta",
      .object [("content", content), ("tool_calls", calls)]), ("finish_reason", reason)]])])
    = ((content.string?.filter fun s => !s.isEmpty).map StreamEvent.text).toList
      ++ calls.items.map (fun call => .call ⟨(call.getD "id").string?.filter fun s => !s.isEmpty,
        ((call.getD "function").getD "name").text, ((call.getD "function").getD "arguments").text⟩)
      ++ ((reason.string?.filter fun s => !s.isEmpty).map StreamEvent.finish).toList := rfl

namespace Delta

def events (d : Delta) : List StreamEvent :=
  ((d.content.filter fun s => !s.isEmpty).map StreamEvent.text).toList ++ d.calls.map fun w => .call w.fragment

end Delta

theorem events_chunk (d : Delta) (reason : Option String) :
    Chunk.events (.object [("choices", .array [.object [("delta", d.filled), ("finish_reason", ofText? reason)]])])
      = d.events ++ ((reason.filter fun s => !s.isEmpty).map StreamEvent.finish).toList := by
  rw [Delta.filled, events_filled, string?_ofText?, string?_ofText?]
  have hcalls : (if d.calls.isEmpty then .null else .array (d.calls.map WrittenFragment.filled) : Json).items
      = d.calls.map WrittenFragment.filled := by
    cases d.calls <;> rfl
  have hfragment : ∀ w : WrittenFragment, StreamEvent.call ⟨(w.filled.getD "id").string?.filter fun s => !s.isEmpty,
      ((w.filled.getD "function").getD "name").text, ((w.filled.getD "function").getD "arguments").text⟩
        = .call w.fragment := by
    intro w
    show StreamEvent.call ⟨(ofText? w.id).string?.filter _, (ofText? w.name).text, (ofText? w.arguments).text⟩ = _
    rw [string?_ofText?, text_ofText?, text_ofText?]
    rfl
  rw [hcalls, List.map_map, Delta.events]
  congr 2
  exact List.map_congr_left fun w _ => hfragment w

/-! ### Chunks are read back -/

theorem readable_functionJson (depth : Nat) (w : WrittenFragment) : Readable (depth + 2) w.functionJson := by
  refine .object (readable_members ?_)
  simp only [List.forall_mem_cons]
  exact ⟨readable_text _ _ _, readable_text _ _ _, List.forall_mem_nil _⟩

theorem readable_fragment (depth : Nat) (w : WrittenFragment) : Readable (depth + 3) w.toJson := by
  have hindex : ∀ j ∈ w.index.map fun i => Json.ofNat i.toNat, Readable (depth + 2) j := by
    intro j hj
    cases hi : w.index with
    | none =>
      rw [hi] at hj
      cases hj
    | some i =>
      rw [hi] at hj
      obtain rfl := Option.some.inj hj
      have hlimit := i.toNat_lt
      refine .int _ _ (by omega) ?_
      rw [greatestSignificand, Word.unsigned64]
      omega
  have hfunction : ∀ j ∈ some w.functionJson, Readable (depth + 2) j := by
    intro j hj
    obtain rfl := Option.some.inj hj
    exact readable_functionJson depth w
  refine .object (readable_members ?_)
  simp only [List.forall_mem_cons]
  exact ⟨readable_member? _ hindex, readable_text _ _ _, readable_text _ _ _, readable_member? _ hfunction,
    List.forall_mem_nil _⟩

theorem readable_delta (depth : Nat) (d : Delta) : Readable (depth + 5) d.toJson := by
  have hcalls : ∀ j ∈ (if d.calls.isEmpty then none
      else some (.array (d.calls.map WrittenFragment.toJson)) : Option Json), Readable (depth + 4) j := by
    intro j hj
    split at hj
    · cases hj
    · obtain rfl := Option.some.inj hj
      refine .array fun j hj => ?_
      obtain ⟨w, -, rfl⟩ := List.mem_map.1 hj
      exact readable_fragment depth w
  refine .object (readable_members ?_)
  simp only [List.forall_mem_cons]
  exact ⟨readable_text _ _ _, readable_member? _ hcalls, List.forall_mem_nil _⟩

theorem readable_chunk (d : Delta) (reason : Option String) : Readable depthLimit (d.chunk reason) := by
  have hdelta : ∀ j ∈ some d.toJson, Readable 125 j := by
    intro j hj
    obtain rfl := Option.some.inj hj
    exact readable_delta 120 d
  have hchoice : Readable 126 (.object ([member? "delta" (some d.toJson),
      member? "finish_reason" (reason.map .string)].flatten)) := by
    refine .object (readable_members ?_)
    simp only [List.forall_mem_cons]
    exact ⟨readable_member? _ hdelta, readable_text _ _ _, List.forall_mem_nil _⟩
  have hchoices : Readable 127 (.array [.object ([member? "delta" (some d.toJson),
      member? "finish_reason" (reason.map .string)].flatten)]) := by
    refine .array ?_
    simp only [List.forall_mem_cons]
    exact ⟨hchoice, List.forall_mem_nil _⟩
  refine .object ?_
  simp only [List.forall_mem_cons]
  exact ⟨hchoices, List.forall_mem_nil _⟩

theorem parse_chunk (d : Delta) (reason : Option String) : Chunk.parse (d.chunk reason).render
    = .ok (d.events ++ ((reason.filter fun s => !s.isEmpty).map StreamEvent.finish).toList) := by
  have hread := readText_render direct_shape (readable_chunk d reason) (check_chunk d reason)
  rw [Chunk.parse, hread]
  exact congrArg Except.ok (events_chunk d reason)

end Helmsman
