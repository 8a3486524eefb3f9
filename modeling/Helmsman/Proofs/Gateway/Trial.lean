import Helmsman.Proofs.Gateway.Stored
/-!
# Which settings a trial tries

The settings of a trial are other settings overlaid with what its body gives (`Trial.overlay`). Backend and key are
those that are stored. The endpoint and the model are the usual ones and not those that are stored (`Trial.config_eq`):
a body that leaves them blank has the stored key sent to the usual endpoint, wherever the stored one may be.
-/

namespace Helmsman

/-- A request is written for the address behind the endpoint, and with the key. -/
theorem Endpoint.of_ofConfig {c : AiConfig} {e : Endpoint} (h : ofConfig c = .ok e) :
    Url.read (address c.endpoint) = .ok e.url ∧ e.authorization = "Bearer " ++ c.apiKey := by
  rw [ofConfig] at h
  split at h
  · cases h
  · rename_i url hurl
    dsimp only at h
    split at h
    · cases h
    · split at h
      · cases h
      · split at h
        · cases h
        · obtain rfl := Except.ok.inj h
          exact ⟨hurl, rfl⟩

/-- Where there is an endpoint and a key, all that is asked of the settings is a known backend. -/
theorem AiConfig.checkConnection_eq_ok_iff {c : AiConfig} (hendpoint : Text.isBlankText c.endpoint = false)
    (hkey : c.apiKey ≠ "") : c.checkConnection = .ok () ↔ (Backend.ofName? c.provider).isSome := by
  have hkey : c.apiKey.isEmpty = false := by simpa using hkey
  rw [checkConnection, backend, hendpoint, hkey]
  cases Backend.ofName? c.provider with
  | none => constructor <;> intro h <;> cases h
  | some b => exact ⟨fun _ => rfl, fun _ => rfl⟩

namespace Gateway

/-! ### What a body gives -/

namespace Trial

/-- The text in a field of the body, unless it is blank. -/
def given? (body : Json) (field : String) : Option String :=
  let text := (body.getD field).text
  if Text.isBlankText text then none else some text

/-- The key in the body, unless it is empty or the mask. -/
def givenKey? (body : Json) : Option String :=
  let key := (body.getD "api_key").text
  if key.isEmpty || key = AiConfig.mask then none else some key

/-- Settings with what a body gives in place of their own. -/
def overlay (c : AiConfig) (body : Json) : AiConfig where
  provider := (given? body "provider").getD c.provider
  endpoint := (given? body "endpoint").getD c.endpoint
  apiKey := (givenKey? body).getD c.apiKey
  model := (given? body "model").getD c.model
  enabled := true

theorem orElse_eq (body : Json) (field otherwise : String) :
    orElse (body.getD field).text otherwise = (given? body field).getD otherwise := by
  rw [orElse, given?]
  split <;> rfl

/-- Settings with the usual endpoint and model in place of their own. -/
def usual (c : AiConfig) : AiConfig :=
  { c with endpoint := AiConfig.defaultEndpoint, model := AiConfig.defaultModel }

/-- Of the stored settings a trial overlays the backend and the key, but neither the endpoint nor the model. -/
theorem config_eq (stored : AiConfig) (body : Json) : config stored body = overlay (usual stored) body := by
  have hkey : (if (body.getD "api_key").text.isEmpty || (body.getD "api_key").text = AiConfig.mask then stored.apiKey
      else (body.getD "api_key").text) = (givenKey? body).getD stored.apiKey := by
    rw [givenKey?]
    split <;> rfl
  rw [config, orElse_eq, orElse_eq, orElse_eq, overlay]
  exact congrArg (fun key => AiConfig.mk _ _ key _ true) hkey

/-- Something is always tried for the endpoint. -/
theorem isBlankText_endpoint (stored : AiConfig) (body : Json) :
    Text.isBlankText (config stored body).endpoint = false := by
  show Text.isBlankText (orElse _ AiConfig.defaultEndpoint) = false
  rw [orElse]
  split
  · decide +kernel
  · rename_i h
    exact Bool.eq_false_iff.2 h

theorem getD_eq_getD_iff {α : Type} (given : Option α) (a b : α) :
    given.getD a = given.getD b ↔ given.isSome ∨ b = a := by
  cases given with
  | none => simp [eq_comm]
  | some c => simp

/-- The stored settings are what is tried only where their endpoint and model are given or are the usual ones. -/
theorem config_eq_overlay_iff (stored : AiConfig) (body : Json) : config stored body = overlay stored body
    ↔ ((given? body "endpoint").isSome ∨ stored.endpoint = AiConfig.defaultEndpoint)
      ∧ ((given? body "model").isSome ∨ stored.model = AiConfig.defaultModel) := by
  rw [config_eq, ← getD_eq_getD_iff, ← getD_eq_getD_iff]
  constructor
  · intro h
    exact ⟨congrArg AiConfig.endpoint h, congrArg AiConfig.model h⟩
  · rintro ⟨hendpoint, hmodel⟩
    exact congrArg₂ (fun endpoint model => AiConfig.mk _ endpoint _ model true) hendpoint hmodel

end Trial

/-! ### What is sent -/

/-- Whether a request is one for a trial. -/
def Request.IsTrial (r : Request) : Prop := Route.ofPath? r.path = some .trial ∧ r.method = "POST"

instance (r : Request) : Decidable r.IsTrial := inferInstanceAs (Decidable (_ ∧ _))

theorem handle_trial {r : Request} (h : r.IsTrial) (g : Gateway) (now : Instant) (state : State) :
    g.handle now state r = (some (g.tryConnection state r).1, (g.tryConnection state r).2) := by
  rw [handle, h.1]
  dsimp only
  rw [h.2]
  rfl

/-- Whether a request with some settings is sent at all, and arrives. -/
def Reaches (g : Gateway) (state : State) (c : AiConfig) : Prop :=
  c.apiKey ≠ "" ∧ (Backend.ofName? c.provider).isSome ∧ (Endpoint.ofConfig c).isOk ∧ (g.networkFrom state 0).arrives

theorem ask_sent (network : Network) (c : AiConfig) :
    ((Trial.ask network c).2 ≠ [] ↔ (Endpoint.ofConfig c).isOk ∧ (network 0).arrives)
    ∧ (Trial.ask network c).2.length ≤ 1
    ∧ ∀ q ∈ (Trial.ask network c).2, ∃ e, q = .whole e c.model [.user Trial.question]
      ∧ Url.read (Endpoint.address c.endpoint) = .ok e.url ∧ e.authorization = "Bearer " ++ c.apiKey := by
  cases he : Endpoint.ofConfig c with
  | error e =>
    have hask : (Trial.ask network c).2 = [] := by rw [Trial.ask, he]
    rw [hask]
    exact ⟨⟨fun h => absurd rfl h, fun h => nomatch h.1⟩, Nat.zero_le 1, List.forall_mem_nil _⟩
  | ok e =>
    have hask : (Trial.ask network c).2
        = if (network 0).arrives then [.whole e c.model [.user Trial.question]] else [] := by rw [Trial.ask, he]
    rw [hask]
    split
    · rename_i harrives
      refine ⟨⟨fun _ => ⟨rfl, harrives⟩, fun _ => List.cons_ne_nil _ _⟩, Nat.le_refl 1, fun q hq => ?_⟩
      obtain rfl := List.mem_singleton.1 hq
      exact ⟨e, rfl, Endpoint.of_ofConfig he⟩
    · rename_i harrives
      exact ⟨⟨fun h => absurd rfl h, fun h => absurd h.2 harrives⟩, Nat.zero_le 1, List.forall_mem_nil _⟩

theorem tryConnection_sent (g : Gateway) (state : State) {r : Request} {body : Json}
    (hread : r.read Trial.shape = .ok body) : ∃ sent, (g.tryConnection state r).2
        = { state with received := state.received ++ sent }
      ∧ (sent ≠ [] ↔ g.Reaches state (Trial.config state.config body))
      ∧ sent.length ≤ 1
      ∧ ∀ q ∈ sent, ∃ e, q = .whole e (Trial.config state.config body).model [.user Trial.question]
        ∧ Url.read (Endpoint.address (Trial.config state.config body).endpoint) = .ok e.url
        ∧ e.authorization = "Bearer " ++ (Trial.config state.config body).apiKey := by
  have hblank := Trial.isBlankText_endpoint state.config body
  obtain ⟨c, hc⟩ : ∃ c, Trial.config state.config body = c := ⟨_, rfl⟩
  rw [hc] at hblank
  rw [tryConnection, hread]
  dsimp only
  rw [hc, Reaches]
  by_cases hkey : c.apiKey = ""
  · rw [if_pos (by simp [hkey])]
    exact ⟨[], by simp, by simp [hkey], by simp, by simp⟩
  · rw [if_neg (by simpa using hkey)]
    have hknown := AiConfig.checkConnection_eq_ok_iff hblank hkey
    cases hcheck : c.checkConnection with
    | error e =>
      rw [hcheck] at hknown
      exact ⟨[], by simp, by simp [← hknown], by simp, by simp⟩
    | ok =>
      rw [hcheck] at hknown
      obtain ⟨hsent, hone, hmem⟩ := ask_sent (g.networkFrom state) c
      exact ⟨_, rfl, by simp [hsent, hkey, ← hknown], hone, hmem⟩

/-- **What a trial sends.** It is one request at most. Backend and key are given or stored, endpoint and model are given
or the usual ones; so the stored key goes to the given endpoint or else to the usual one. -/
theorem trial_requests (g : Gateway) (now : Instant) (state : State) {r : Request} (htrial : r.IsTrial) :
    ∃ sent, (g.handle now state r).2 = { state with received := state.received ++ sent }
      ∧ (sent ≠ [] → (r.read Trial.shape).isOk)
      ∧ ∀ body, r.read Trial.shape = .ok body →
        let tried := Trial.overlay (Trial.usual state.config) body
        (sent ≠ [] ↔ g.Reaches state tried)
        ∧ sent.length ≤ 1
        ∧ (∀ q ∈ sent, ∃ e, q = .whole e tried.model [.user Trial.question]
          ∧ Url.read (Endpoint.address tried.endpoint) = .ok e.url ∧ e.authorization = "Bearer " ++ tried.apiKey)
        -- The stored endpoint and model are tried only where they are given, or are the usual ones.
        ∧ (tried = Trial.overlay state.config body
          ↔ ((Trial.given? body "endpoint").isSome ∨ state.config.endpoint = AiConfig.defaultEndpoint)
            ∧ ((Trial.given? body "model").isSome ∨ state.config.model = AiConfig.defaultModel)) := by
  rw [handle_trial htrial]
  cases hread : r.read Trial.shape with
  | error e =>
    refine ⟨[], ?_, fun h => absurd rfl h, fun body h => nomatch h⟩
    rw [tryConnection, hread, List.append_nil]
  | ok body =>
    obtain ⟨sent, hstate, hreaches, hone, hmem⟩ := tryConnection_sent g state hread
    have hstored := Trial.config_eq_overlay_iff state.config body
    rw [Trial.config_eq] at hreaches hmem hstored
    refine ⟨sent, hstate, fun _ => rfl, fun body' hbody => ?_⟩
    obtain rfl := Except.ok.inj hbody
    exact ⟨hreaches, hone, hmem, hstored⟩

/-- A trial that leaves everything blank. -/
def blankTrial : Request where
  method := "POST"
  target := "/ai/config/test"
  headers := [("content-type", Utf8.encode "application/json")]
  body := Utf8.encode "\x7b\"endpoint\":\" \",\"api_key\":\"******\"\x7d"

/-- Settings with an endpoint, a key and a model of their own. -/
def housed : State where
  config := { provider := "custom", endpoint := "http://llm.internal/v1", apiKey := "sk-house", model := "llama3" }
  estate := { store := .ofClusters [] }

/-- What is tried for a request, if its body can be read. -/
def tried? (c : AiConfig) (r : Request) : Option AiConfig :=
  (r.read Trial.shape).toOption.map fun body => Trial.overlay c body

theorem blankTrial_requests : blankTrial.IsTrial
    ∧ ∃ sent, (lonely.handle ⟨19723, 0, 0⟩ housed blankTrial).2 = { housed with received := sent } ∧ sent ≠ []
      ∧ ∀ q ∈ sent, ∃ e, q = .whole e AiConfig.defaultModel [.user Trial.question]
        ∧ Url.read (Endpoint.address AiConfig.defaultEndpoint) = .ok e.url ∧ e.authorization = "Bearer sk-house" := by
  have htrial : blankTrial.IsTrial := by decide +kernel
  have htried : tried? (Trial.usual housed.config) blankTrial
      = some { provider := "custom", apiKey := "sk-house", enabled := true } := by decide +kernel
  have hreached : lonely.Reaches housed { provider := "custom", apiKey := "sk-house", enabled := true } := by
    refine ⟨by decide, ?_, ?_, rfl⟩ <;> decide +kernel
  obtain ⟨sent, hstate, -, hsent⟩ := trial_requests lonely ⟨19723, 0, 0⟩ housed htrial
  cases hread : blankTrial.read Trial.shape with
  | error e =>
    rw [tried?, hread] at htried
    cases htried
  | ok body =>
    rw [tried?, hread] at htried
    obtain ⟨hreaches, -, hmem, -⟩ := hsent body hread
    have htried : Trial.overlay (Trial.usual housed.config) body = _ := Option.some.inj htried
    rw [htried] at hreaches hmem
    exact ⟨htrial, sent, hstate, hreaches.2 hreached, hmem⟩

/-- With the mask for a key and no endpoint, the stored key is sent to an endpoint that is neither given nor stored. -/
theorem blankTrial_strays : ((lonely.handle ⟨19723, 0, 0⟩ housed blankTrial).2.received.map fun q =>
      (q.endpoint.url.text, q.endpoint.authorization, (q.body.getD "model").text))
        = [("https://api.openai.com/v1/chat/completions", "Bearer sk-house", "gpt-4o")]
    ∧ tried? housed.config blankTrial = some { housed.config with enabled := true }
    ∧ housed.config.endpoint = "http://llm.internal/v1" := by
  refine ⟨?_, ?_, rfl⟩ <;> decide +kernel

end Gateway

end Helmsman
