import Helmsman.Proofs.Json.Canonical
import Helmsman.Proofs.Json.Record
import Helmsman.Provider.Request
/-!
# Messages, written and read

A message is written in two orders: as a record in the order of its fields, and inside a request with its keys sorted.
Either way it leaves out the calls and the answered call where there are none, and what is left out counts as just that
when the message is read. So both texts of a list of messages are read as that list, whatever texts the messages hold
(`listOfText_render`).
-/

namespace Helmsman

open Json Json.Shape

/-! ### Calls -/

namespace ToolCall

theorem direct_shape : shape.Direct := by
  have hfunction : (Shape.record "FunctionCall" [fallback "name" .text (.string ""),
      fallback "arguments" .text (.string "")]).Direct := by
    refine .record _ ?_
    simp only [List.forall_mem_cons]
    exact ⟨.text, .text, List.forall_mem_nil _⟩
  refine .record _ ?_
  simp only [List.forall_mem_cons]
  exact ⟨.text, .text, hfunction, List.forall_mem_nil _⟩

theorem canonical_toJson (c : ToolCall) : c.toJson.canonical
    = .object [("function", .object [("arguments", .string c.arguments), ("name", .string c.name)]),
      ("id", .string c.id), ("type", .string c.kind)] := by
  simp +decide only [toJson, canonical, canonicalMembers, sortMembers, insertMember, List.foldl_cons, List.foldl_nil,
    if_true, if_false]

theorem readable_toJson (depth : Nat) (c : ToolCall) : Readable (depth + 4) c.toJson := by
  have hfunction : Readable (depth + 3) (.object [("name", .string c.name), ("arguments", .string c.arguments)]) := by
    refine .object ?_
    simp only [List.forall_mem_cons]
    exact ⟨.string _ _, .string _ _, List.forall_mem_nil _⟩
  refine .object ?_
  simp only [List.forall_mem_cons]
  exact ⟨.string _ _, .string _ _, hfunction, List.forall_mem_nil _⟩

theorem check_toJson (c : ToolCall) : check false shape c.toJson = .ok c.toJson := rfl

theorem check_canonical (c : ToolCall) : check false shape c.toJson.canonical = .ok c.toJson := by
  rw [canonical_toJson]
  rfl

theorem ofJson_toJson (c : ToolCall) : ofJson c.toJson = c := rfl

end ToolCall

/-! ### Messages -/

namespace Message

/-- A message with its calls and the answered call filled in, as it is read in either order. -/
def filled (m : Message) : Json := .object [("role", .string m.role.name), ("content", .string m.content),
  ("tool_calls", .array (m.toolCalls.map ToolCall.toJson)), ("tool_call_id", ofText? m.toolCallId)]

/-- The calls as they are written in some form, unless there are none. -/
def callsJson (form : ToolCall → Json) (m : Message) : Option Json :=
  if m.toolCalls.isEmpty then none else some (.array (m.toolCalls.map form))

theorem ofJson_filled (m : Message) : ofJson m.filled = m := by
  have hrole : Role.ofName? m.role.name = some m.role := by cases m.role <;> rfl
  have hcalls : (m.toolCalls.map ToolCall.toJson).map ToolCall.ofJson = m.toolCalls := by
    rw [List.map_map]
    exact List.map_id _
  calc ofJson m.filled
      = ⟨(Role.ofName? m.role.name).getD .user, m.content, (m.toolCalls.map ToolCall.toJson).map ToolCall.ofJson,
          (ofText? m.toolCallId).string?⟩ := rfl
    _ = m := by rw [hrole, hcalls, string?_ofText?, Option.getD_some]

theorem direct_shape : shape.Direct := by
  refine .record _ ?_
  simp only [List.forall_mem_cons]
  exact ⟨.choice _, .text, .list ToolCall.direct_shape, .text, List.forall_mem_nil _⟩

theorem toJson_eq (m : Message) : m.toJson = .object ([member? "role" (some (.string m.role.name)),
    member? "content" (some (.string m.content)), member? "tool_calls" (m.callsJson ToolCall.toJson),
    member? "tool_call_id" (m.toolCallId.map .string)].flatten) := by
  rw [toJson, callsJson]
  cases m.toolCalls.isEmpty <;> cases m.toolCallId <;> rfl

theorem canonicalItems_calls (calls : List ToolCall) :
    canonicalItems (calls.map ToolCall.toJson) = calls.map fun c => c.toJson.canonical := by
  rw [canonicalItems_eq, List.map_map]
  rfl

theorem canonical_toJson (m : Message) : m.toJson.canonical = .object ([member? "content" (some (.string m.content)),
    member? "role" (some (.string m.role.name)), member? "tool_call_id" (m.toolCallId.map .string),
    member? "tool_calls" (m.callsJson fun c => c.toJson.canonical)].flatten) := by
  rw [toJson_eq, callsJson, callsJson]
  cases m.toolCalls.isEmpty <;> cases m.toolCallId <;>
    simp +decide only [member?, canonical, canonicalMembers, canonicalItems_calls, sortMembers, insertMember,
      List.foldl_cons, List.foldl_nil, List.flatten_cons, List.flatten_nil, List.cons_append, List.nil_append,
      Option.elim_some, Option.elim_none, Option.map_some, Option.map_none, if_true, if_false]

theorem readable_toJson (depth : Nat) (m : Message) : Readable (depth + 6) m.toJson := by
  have hcalls : ∀ j ∈ m.callsJson ToolCall.toJson, Readable (depth + 5) j := by
    intro j hj
    rw [callsJson] at hj
    split at hj
    · cases hj
    · obtain rfl := Option.some.inj hj
      refine .array fun j hj => ?_
      obtain ⟨c, -, rfl⟩ := List.mem_map.1 hj
      exact c.readable_toJson depth
  rw [toJson_eq]
  refine .object (readable_members ?_)
  simp only [List.forall_mem_cons]
  exact ⟨readable_text _ _ (some _), readable_text _ _ (some _), readable_member? _ hcalls, readable_text _ _ _,
    List.forall_mem_nil _⟩

/-! ### What a message is read as -/

theorem checkField_role (m : Message) : checkField (required "role" (.choice (Role.all.map Role.name)))
    (.string m.role.name) = .ok (.string m.role.name) := by
  cases m.role <;> rfl

theorem checkField_content (m : Message) :
    checkField (nullable "content" .text (.string "")) (.string m.content) = .ok (.string m.content) := rfl

/-- Calls that are left out are as good as none. -/
theorem checkMembers_calls {form : ToolCall → Json} (h : ∀ c, check false ToolCall.shape (form c) = .ok c.toJson)
    (m : Message) {fields : List (Json.Field Shape)}
    (hfield : findField? "tool_calls" fields = some (fallback "tool_calls" (.list ToolCall.shape) (.array [])))
    {found : Members} (hfresh : found? "tool_calls" found = none) (members : Members) :
    checkMembers false fields found (member? "tool_calls" (m.callsJson form) ++ members)
      = checkMembers false fields (member? "tool_calls" (m.callsJson ToolCall.toJson) ++ found) members := by
  have hcalls : checkField (fallback "tool_calls" (.list ToolCall.shape) (.array []))
      (.array (m.toolCalls.map form)) = .ok (.array (m.toolCalls.map ToolCall.toJson)) := by
    show check false (.list ToolCall.shape) _ = _
    rw [check, checkItems_map h]
    rfl
  rw [callsJson, callsJson]
  cases m.toolCalls.isEmpty with
  | true => rfl
  | false => exact checkMembers_known hfield hcalls hfresh members

private def fields : List (Json.Field Shape) :=
  [required "role" (.choice (Role.all.map Role.name)), nullable "content" .text (.string ""),
    fallback "tool_calls" (.list ToolCall.shape) (.array []), nullable "tool_call_id" .text .null]

/-- It counts what was found for each field, and not in which order. -/
theorem check_filled (m : Message) {members found : Members}
    (hfound : checkMembers false fields [] members = .ok found)
    (hrole : found? "role" found = some (.string m.role.name))
    (hcontent : found? "content" found = some (.string m.content))
    (hcalls : found? "tool_calls" found = m.callsJson ToolCall.toJson)
    (hanswered : found? "tool_call_id" found = m.toolCallId.map .string) :
    check false shape (.object members) = .ok m.filled := by
  have hrole : (found? "role" found).or none = some (.string m.role.name) := by rw [hrole, Option.or_none]
  have hcontent : (found? "content" found).or (some (.string "")) = some (.string m.content) := by
    rw [hcontent, Option.some_or]
  have hcalls : (found? "tool_calls" found).or (some (.array []))
      = some (.array (m.toolCalls.map ToolCall.toJson)) := by
    rw [hcalls, callsJson]
    cases m.toolCalls <;> rfl
  have hanswered : (found? "tool_call_id" found).or (some .null) = some (ofText? m.toolCallId) := by
    rw [hanswered]
    cases m.toolCallId <;> rfl
  apply check_object hfound
  rw [fields, complete_cons _ hrole, complete_cons _ hcontent, complete_cons _ hcalls, complete_cons _ hanswered,
    complete_nil]
  rfl

theorem check_toJson (m : Message) : check false shape m.toJson = .ok m.filled := by
  rw [toJson_eq]
  apply check_filled m
  · simp only [List.flatten_cons, List.flatten_nil]
    rw [checkMembers_known rfl m.checkField_role rfl, checkMembers_known rfl m.checkField_content (by simp),
      checkMembers_calls ToolCall.check_toJson m rfl (by simp), checkMembers_text rfl rfl _ (by simp), checkMembers_nil]
  all_goals simp

theorem check_canonical (m : Message) : check false shape m.toJson.canonical = .ok m.filled := by
  rw [canonical_toJson]
  apply check_filled m
  · simp only [List.flatten_cons, List.flatten_nil]
    rw [checkMembers_known rfl m.checkField_content rfl, checkMembers_known rfl m.checkField_role (by simp),
      checkMembers_text rfl rfl _ (by simp), checkMembers_calls ToolCall.check_canonical m rfl (by simp),
      checkMembers_nil]
  all_goals simp

/-! ### Lists of messages -/

/-- Any form of messages will do that can be read at all and is checked for the messages themselves. -/
theorem listOfText_of_check {form : Message → Json} (hread : ∀ m, Readable 127 (form m))
    (hcheck : ∀ m, check false shape (form m) = .ok m.filled) (ms : List Message) :
    listOfText (Utf8.encode (Json.array (ms.map form)).render) = .ok ms := by
  have hreadable : Readable depthLimit (.array (ms.map form)) := by
    refine .array fun j hj => ?_
    obtain ⟨m, -, rfl⟩ := List.mem_map.1 hj
    exact hread m
  have hlist : readValue listShape (.array (ms.map form)) = .ok (.array (ms.map filled)) := by
    rw [readValue, listShape, check, checkItems_map hcheck]
    rfl
  have hms : (ms.map filled).map ofJson = ms := by
    rw [List.map_map, show ofJson ∘ filled = id from funext ofJson_filled, List.map_id]
  rw [listOfText, listShape, readText_render (.list direct_shape) hreadable hlist]
  exact congrArg Except.ok hms

theorem get?_payload (model : String) (ms : List Message) (tools : List Tool) (stream : Bool) :
    (ModelRequest.payload model ms tools stream).get? "messages"
      = some (.array (ms.map fun m => m.toJson.canonical)) := by
  rw [ModelRequest.payload, get?_ofMembers]
  cases tools.isEmpty <;> rfl

/-- **Messages survive the wire.** Every list of messages, of any roles and with any texts, calls and answered calls, is
read from the text that is written for it as the same list; and so it is from the text of the messages in a request to
the model, where the keys of every object are sorted. -/
theorem listOfText_render (ms : List Message) :
    listOfText (Utf8.encode (Json.array (ms.map toJson)).render) = .ok ms
    ∧ ∀ (model : String) (tools : List Tool) (stream : Bool), ∃ messages,
      (ModelRequest.payload model ms tools stream).get? "messages" = some messages
      ∧ listOfText (Utf8.encode messages.render) = .ok ms := by
  constructor
  · exact listOfText_of_check (fun m => m.readable_toJson 121) check_toJson ms
  · intro model tools stream
    refine ⟨_, get?_payload model ms tools stream, ?_⟩
    exact listOfText_of_check (fun m => (m.readable_toJson 121).canonical) check_canonical ms

end Message

end Helmsman
