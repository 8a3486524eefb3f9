import Helmsman.Proofs.Json.Need
import Helmsman.Provider.Config
/-!
# Settings, shown and sent back

What is shown of the settings is their masked form. It says of the key only whether there is one. Whoever sends it
back means the settings as they are: it is read as it was written (`readFront_toJson`), and its mask stands for the
stored key (`updated_masked`).
-/

namespace Helmsman

open Json Json.Shape

/-- A name is one of a backend if it is the backend's, but for case and for blanks around it. -/
theorem Backend.ofName?_isSome_iff (s : String) :
    (ofName? s).isSome ↔ ∃ b : Backend, b.name = (Text.trim s).map Char.toLower := by
  rw [ofName?, List.find?_isSome]
  simp only [beq_iff_eq]
  exact ⟨fun ⟨b, _, hb⟩ => ⟨b, hb⟩, fun ⟨b, hb⟩ => ⟨b, by cases b <;> decide, hb⟩⟩

namespace AiConfig

/-- The settings stored after somebody has asked for others, or for none. A mask asks for the key that is stored. -/
def updated (stored : AiConfig) : Option AiConfig → AiConfig
  | none => stored
  | some u => { u with apiKey := if u.apiKey = mask then stored.apiKey else u.apiKey }

/-! ### The mask -/

/-- Of two keys that are there the masked settings do not tell which it is. -/
theorem masked_eq {c c' : AiConfig} (hsame : c' = { c with apiKey := c'.apiKey }) (hkey : c.apiKey ≠ "")
    (hkey' : c'.apiKey ≠ "") : c.masked = c'.masked := by
  have hfilled : c.apiKey.isEmpty = false := by simpa [String.isEmpty_iff] using hkey
  have hfilled' : c'.apiKey.isEmpty = false := by simpa [String.isEmpty_iff] using hkey'
  rw [masked, masked, hfilled, hfilled', hsame]

/-- Settings that look alike look alike after every update. -/
theorem masked_updated {c c' : AiConfig} (h : c.masked = c'.masked) (update : Option AiConfig) :
    (c.updated update).masked = (c'.updated update).masked := by
  cases update with
  | none => exact h
  | some u =>
    rw [updated, updated]
    split
    · exact congrArg (fun m : AiConfig => { u with apiKey := m.apiKey }) h
    · rfl

/-- Settings that are sent back as they are shown stay as they are. -/
theorem updated_masked (c : AiConfig) : c.updated (some c.masked) = c := by
  by_cases hkey : c.apiKey.isEmpty = true
  · have hempty : c.apiKey = "" := String.isEmpty_iff.1 hkey
    have hnone : c.masked = c := by rw [masked, if_pos hkey, ← hempty]
    have hother : c.apiKey ≠ mask := hempty ▸ by decide
    rw [hnone, updated, if_neg hother]
  · rw [updated, masked, if_neg hkey, if_pos rfl]

/-! ### Whether they are enough -/

/-- Whether the settings are enough to reach a model: the backend is looked at first, then the endpoint, then the
key. -/
theorem checkConnection_eq (c : AiConfig) : c.checkConnection =
    if (Backend.ofName? c.provider).isNone then .error (.unsupportedProvider c.provider)
    else if Text.isBlankText c.endpoint then .error .missingEndpoint
    else if c.apiKey.isEmpty then .error .missingApiKey else .ok () := by
  rw [checkConnection, backend]
  cases Backend.ofName? c.provider with
  | none => rfl
  | some b => cases Text.isBlankText c.endpoint <;> cases c.apiKey.isEmpty <;> rfl

theorem check_eq (c : AiConfig) : c.check = if c.enabled then c.checkConnection else .error .disabled := by
  rw [check]
  cases c.enabled <;> rfl

/-- Settings that are enough for a conversation are enough for whoever looks at the connection again. -/
theorem checkConnection_of_check {c : AiConfig} (h : c.check = .ok ()) : c.checkConnection = .ok () := by
  rw [check_eq] at h
  split at h
  · exact h
  · cases h

/-! ### Reading what is shown -/

theorem direct_shape : shape.Direct := by
  refine .record _ ?_
  simp only [List.forall_mem_cons]
  exact ⟨.text, .text, .text, .text, .flag, List.forall_mem_nil _⟩

theorem readable_toJson (c : AiConfig) : Readable depthLimit c.toJson := by
  refine .object ?_
  simp only [List.forall_mem_cons]
  exact ⟨.string _ _, .string _ _, .string _ _, .string _ _, .bool _ _, List.forall_mem_nil _⟩

theorem readValue_toJson (c : AiConfig) : readValue shape c.toJson = .ok c.toJson := rfl

theorem ofJson_toJson (c : AiConfig) : ofJson c.toJson = c := rfl

theorem readFront_toJson (c : AiConfig) : readFront shape (Utf8.encode c.toJson.render) = .ok (c.toJson, []) :=
  readFront_render direct_shape c.readable_toJson c.readValue_toJson

/-! ### A key that is left out -/

/-- The shape of settings that have to say what the key is. -/
def keyedShape : Shape :=
  match shape with
  | .record name fields => .record name (needing "api_key" fields)
  | shape => shape

/-- Settings are read with the key required as they are without, or they do not say what the key is, and then there is
none. -/
theorem readFront_keyedShape {text rest : Octets} {body : Json} (h : readFront shape text = .ok (body, rest)) :
    readFront keyedShape text = .ok (body, rest)
      ∨ ((∃ e, readFront keyedShape text = .error e) ∧ (ofJson body).apiKey = "") := by
  have hneed : (fallback "api_key" .text (.string "")).need = .fallback (.string "") := rfl
  rcases shapeFrom_needing (by decide) (by simp) hneed h with hsame | ⟨herror, hkey⟩
  · exact .inl hsame
  · refine .inr ⟨herror, ?_⟩
    rw [ofJson]
    exact congrArg Json.text hkey

end AiConfig

end Helmsman
