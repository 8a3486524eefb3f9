import Helmsman.Gateway.Routes
import Helmsman.Proofs.Provider.Config
import Mathlib.Data.List.Induction
/-!
# The stored settings

A gateway handles one request after the other (`serve`). Of all requests only a PUT of settings with a known backend
touches the stored ones (`config_handle`): it replaces them, and a mask leaves the stored key in its place. So the
stored key is the last one that was sent and is no mask, and settings that are sent back as they were shown change
nothing (`stored_config`).
-/

namespace Helmsman.Gateway

open Json Json.Shape

/-! ### Requests in order -/

/-- A request, and when it arrives. -/
structure Arrival where
  time : Instant
  request : Request
  deriving Repr

/-- The responses to requests that are handled in order, and how things stand behind them. -/
def serve (g : Gateway) (state : State) : List Arrival → List (Option Response) × State
  | [] => ([], state)
  | a :: rest =>
    let handled := g.handle a.time state a.request
    let served := g.serve handled.2 rest
    (handled.1 :: served.1, served.2)

theorem serve_append (g : Gateway) (state : State) (arrivals more : List Arrival) :
    g.serve state (arrivals ++ more) = ((g.serve state arrivals).1 ++ (g.serve (g.serve state arrivals).2 more).1,
      (g.serve (g.serve state arrivals).2 more).2) := by
  induction arrivals generalizing state with
  | nil => rfl
  | cons a arrivals ih => rw [List.cons_append, serve, ih, serve, List.cons_append]

theorem serve_concat (g : Gateway) (state : State) (arrivals : List Arrival) (a : Arrival) :
    (g.serve state (arrivals ++ [a])).2 = (g.handle a.time (g.serve state arrivals).2 a.request).2 := by
  rw [serve_append, serve, serve]

/-! ### Requests for other settings -/

/-- Whether a request is one for the settings, with a method. -/
def Request.IsConfig (r : Request) (method : String) : Prop :=
  Route.ofPath? r.path = some .config ∧ r.method = method

instance (r : Request) (method : String) : Decidable (r.IsConfig method) :=
  inferInstanceAs (Decidable (_ ∧ _))

/-- The settings that a request has stored: a PUT whose body can be read as settings, with the name of a known
backend. -/
def Request.update? (r : Request) : Option AiConfig :=
  if r.IsConfig "PUT" then
    match r.read AiConfig.shape with
    | .ok body =>
      if (Backend.ofName? (AiConfig.ofJson body).provider).isSome then some (AiConfig.ofJson body) else none
    | .error _ => none
  else none

theorem handle_get {r : Request} (h : r.IsConfig "GET") (g : Gateway) (now : Instant) (state : State) :
    g.handle now state r = (some (showConfig state), state) := by
  rw [handle, h.1]
  dsimp only
  rw [h.2]
  rfl

theorem handle_put {r : Request} (h : r.IsConfig "PUT") (g : Gateway) (now : Instant) (state : State) :
    g.handle now state r = (some (replaceConfig state r).1, (replaceConfig state r).2) := by
  rw [handle, h.1]
  dsimp only
  rw [h.2]
  rfl

theorem of_update?_eq_some {r : Request} {u : AiConfig} (h : r.update? = some u) : r.IsConfig "PUT"
    ∧ ∃ body b, r.read AiConfig.shape = .ok body ∧ AiConfig.ofJson body = u ∧ Backend.ofName? u.provider = some b := by
  rw [Request.update?] at h
  split at h
  · rename_i hput
    split at h
    · rename_i body hread
      split at h
      · rename_i hknown
        obtain rfl := Option.some.inj h
        obtain ⟨b, hb⟩ := Option.isSome_iff_exists.1 hknown
        exact ⟨hput, body, b, hread, rfl, hb⟩
      · cases h
    · cases h
  · cases h

theorem replacement_eq (stored u : AiConfig) : replacement stored u = stored.updated (some u) := by
  rw [replacement, AiConfig.updated]
  split <;> rfl

/-- Settings that are accepted are stored, and shown. -/
theorem replaceConfig_of_some {r : Request} {u : AiConfig} (h : r.update? = some u) (state : State) :
    replaceConfig state r = (.json 200 (state.config.updated (some u)).masked.toJson,
      { state with config := state.config.updated (some u) }) := by
  obtain ⟨-, body, b, hread, rfl, hb⟩ := of_update?_eq_some h
  rw [replaceConfig, hread]
  dsimp only
  rw [AiConfig.backend, hb, replacement_eq]
  rfl

/-- A PUT that is rejected leaves everything as it is, and what it is told depends on its body alone. -/
theorem replaceConfig_of_none {r : Request} (hput : r.IsConfig "PUT") (h : r.update? = none) :
    ∃ message, ∀ state, replaceConfig state r = (.badRequest message, state) := by
  rw [Request.update?, if_pos hput] at h
  cases hread : r.read AiConfig.shape with
  | error e =>
    refine ⟨"Invalid request body: " ++ e.message, fun state => ?_⟩
    rw [replaceConfig, hread]
    rfl
  | ok body =>
    rw [hread] at h
    dsimp only at h
    cases hb : Backend.ofName? (AiConfig.ofJson body).provider with
    | none =>
      refine ⟨(ConfigError.unsupportedProvider (AiConfig.ofJson body).provider).message, fun state => ?_⟩
      rw [replaceConfig, hread]
      dsimp only
      rw [AiConfig.backend, hb]
    | some b =>
      rw [hb] at h
      cases h

/-! ### What a request does to the settings -/

theorem config_tryConnection (g : Gateway) (state : State) (r : Request) :
    (g.tryConnection state r).2.config = state.config := by
  rw [tryConnection]
  split
  · rfl
  · dsimp only
    split
    · rfl
    · split <;> rfl

theorem config_converse (g : Gateway) (now : Instant) (state : State) (cluster : String) (r : Request) :
    (g.converse now state cluster r).2.config = state.config := by
  rw [converse]
  split
  · rfl
  · split <;> rfl

/-- Of all requests only a PUT of settings that can be accepted changes the stored ones. -/
theorem config_handle (g : Gateway) (now : Instant) (state : State) (r : Request) :
    (g.handle now state r).2.config = state.config.updated r.update? := by
  by_cases hput : r.IsConfig "PUT"
  · rw [handle_put hput]
    cases h : r.update? with
    | none =>
      obtain ⟨message, hrejects⟩ := replaceConfig_of_none hput h
      rw [hrejects]
      rfl
    | some u => rw [replaceConfig_of_some h]
  · have hnone : r.update? = none := if_neg hput
    rw [hnone, handle]
    split
    · rfl
    · rename_i route hroute
      split
      · rfl
      · cases route with
        | config =>
          have hother : ¬ (r.method == "PUT") = true := fun h => hput ⟨hroute, eq_of_beq h⟩
          dsimp only
          rw [if_neg hother]
          split <;> rfl
        | trial => exact config_tryConnection g state r
        | chat cluster =>
          dsimp only
          split
          · rfl
          · exact config_converse g now state _ r

theorem config_serve_concat (g : Gateway) (state : State) (arrivals : List Arrival) (a : Arrival) :
    (g.serve state (arrivals ++ [a])).2.config = (g.serve state arrivals).2.config.updated a.request.update? := by
  rw [serve_concat, config_handle]

/-! ### The stored key -/

/-- The keys that arrivals send and have stored: a mask is none. -/
def keys (arrivals : List Arrival) : List String :=
  ((arrivals.filterMap fun a => a.request.update?).map AiConfig.apiKey).filter (· ≠ AiConfig.mask)

/-- The stored key is the last one that was sent. -/
theorem apiKey_serve (g : Gateway) (state : State) (arrivals : List Arrival) :
    (g.serve state arrivals).2.config.apiKey = (keys arrivals).getLast?.getD state.config.apiKey := by
  induction arrivals using List.reverseRecOn with
  | nil => rfl
  | append_singleton arrivals a ih =>
    rw [config_serve_concat, keys, List.filterMap_append, List.map_append, List.filter_append, ← keys]
    cases hu : a.request.update? with
    | none => simp [hu, AiConfig.updated, ih]
    | some u =>
      by_cases hmask : u.apiKey = AiConfig.mask
      · simp [hu, AiConfig.updated, hmask, ih]
      · simp [hu, AiConfig.updated, hmask]

/-! ### Sending back what was shown -/

/-- A PUT of what a GET has shown is read as the masked settings, if it is accepted. -/
theorem update?_of_shown {r : Request} {u c : AiConfig} (hu : r.update? = some u)
    (hbody : r.body = Utf8.encode c.masked.toJson.render) : u = c.masked := by
  obtain ⟨-, body, b, hread, rfl, -⟩ := of_update?_eq_some hu
  rw [Request.read, hbody, AiConfig.readFront_toJson] at hread
  split at hread
  · cases hread
  · split at hread
    · cases hread
    · obtain rfl := Except.ok.inj hread
      exact c.masked.ofJson_toJson

/-- A PUT that is accepted reads the same with its key required, or it leaves the key out and asks for the empty one. -/
theorem update?_keyed {r : Request} {u : AiConfig} (hu : r.update? = some u) :
    (∃ body, r.read AiConfig.keyedShape = .ok body ∧ AiConfig.ofJson body = u)
      ∨ ((∃ e, r.read AiConfig.keyedShape = .error e) ∧ u.apiKey = "") := by
  obtain ⟨-, body, b, hread, rfl, -⟩ := of_update?_eq_some hu
  rw [Request.read] at hread ⊢
  split at hread
  · cases hread
  · rename_i hannounced
    split at hread
    · cases hread
    · rename_i hshort
      rw [if_neg hannounced, if_neg hshort]
      split at hread
      · rename_i j rest hfront
        obtain rfl := Except.ok.inj hread
        rcases AiConfig.readFront_keyedShape hfront with hsame | ⟨⟨e, he⟩, hkey⟩
        · exact .inl ⟨_, by rw [hsame], rfl⟩
        · exact .inr ⟨⟨_, by rw [he]⟩, hkey⟩
      · cases hread

/-- **The stored settings are the last ones that were accepted**, with the last key that was sent. -/
theorem stored_config (g : Gateway) (initial : State) (arrivals : List Arrival) :
    -- One more request replaces the settings if it is a PUT that is accepted, and leaves them alone else.
    (∀ a : Arrival, (g.serve initial (arrivals ++ [a])).2.config
      = match a.request.update? with
        | none => (g.serve initial arrivals).2.config
        | some u => { u with
            apiKey := if u.apiKey = AiConfig.mask then (g.serve initial arrivals).2.config.apiKey else u.apiKey })
    -- The stored key is the last one that such a PUT has sent, masks left aside.
    ∧ (g.serve initial arrivals).2.config.apiKey
      = (((arrivals.filterMap fun a => a.request.update?).map AiConfig.apiKey).filter
          (· ≠ AiConfig.mask)).getLast?.getD initial.config.apiKey
    -- A PUT whose body cannot be read with the key required, but is accepted, sends the empty key.
    ∧ (∀ (r : Request) (u : AiConfig), r.update? = some u →
      (∃ body, r.read AiConfig.keyedShape = .ok body ∧ AiConfig.ofJson body = u)
        ∨ ((∃ e, r.read AiConfig.keyedShape = .error e) ∧ u.apiKey = ""))
    -- A PUT that is not accepted is answered as a bad request and leaves everything as it is.
    ∧ (∀ put : Arrival, put.request.IsConfig "PUT" →
      let handled := g.handle put.time (g.serve initial arrivals).2 put.request
      if put.request.update?.isSome then handled.1.map Response.status = some 200
      else handled.1.map Response.status = some 400 ∧ handled.2 = (g.serve initial arrivals).2)
    -- A PUT of what a GET has just shown leaves the settings as they are.
    ∧ ∀ (get put : Arrival) (shown : String), get.request.IsConfig "GET" → put.request.IsConfig "PUT" →
      (g.handle get.time (g.serve initial arrivals).2 get.request).1.map Response.body = some shown →
      put.request.body = Utf8.encode shown →
      (g.serve initial (arrivals ++ [get, put])).2.config = (g.serve initial arrivals).2.config := by
  refine ⟨fun a => ?_, apiKey_serve g initial arrivals, fun r u => update?_keyed, fun put hput => ?_,
    fun get put shown hget hput hshows hbody => ?_⟩
  · rw [config_serve_concat]
    cases a.request.update? <;> rfl
  · dsimp only
    rw [handle_put hput]
    cases hu : put.request.update? with
    | none =>
      obtain ⟨message, hrejects⟩ := replaceConfig_of_none hput hu
      rw [hrejects]
      exact ⟨rfl, rfl⟩
    | some u =>
      rw [replaceConfig_of_some hu]
      rfl
  · obtain ⟨c, hc⟩ : ∃ c, (g.serve initial arrivals).2.config = c := ⟨_, rfl⟩
    have hshown : (g.serve initial (arrivals ++ [get])).2.config = c := by
      rw [serve_concat, handle_get hget, hc]
    rw [handle_get hget, Option.map_some, showConfig, hc] at hshows
    obtain rfl := Option.some.inj hshows
    rw [List.append_cons, config_serve_concat, hshown, hc]
    cases hu : put.request.update? with
    | none => rfl
    | some u => rw [update?_of_shown hu hbody, AiConfig.updated_masked]

/-- A request about the settings, its body announced as JSON. -/
def configRequest (method : String) (body : Octets) : Request where
  method := method
  target := "/ai/config"
  headers := [("content-type", Utf8.encode "application/json")]
  body := body

def configArrival (method : String) (body : Octets) : Arrival := ⟨⟨19723, 0, 0⟩, configRequest method body⟩

def getArrival : Arrival := configArrival "GET" []

/-- A PUT that leaves everything out. -/
def bareArrival : Arrival := configArrival "PUT" (Utf8.encode "\x7b\x7d")

/-- A PUT of settings with an unknown backend. -/
def strangeArrival : Arrival := configArrival "PUT" (Utf8.encode "\x7b\"provider\":\"bard\",\"api_key\":\"sk-2\"\x7d")

/-- Two PUTs that are accepted, the second one with a mask, among others that are not. -/
def configArrivals : List Arrival :=
  [getArrival, configArrival "PUT" (Utf8.encode "\x7b\"provider\":\" Azure\",\"api_key\":\"sk-1\"\x7d"),
    strangeArrival, configArrival "PUT" (Utf8.encode "\x7b\"api_key\":\"******\",\"enabled\":true\x7d"),
    configArrival "PUT" (Utf8.encode "oops")]

/-- A gateway that nobody answers, with settings that it would not accept itself. -/
def quaint : State where
  config := { provider := "bard", apiKey := "sk-0" }
  estate := { store := .ofClusters [] }

def lonely : Gateway := { network := fun _ => .silent }

theorem configArrivals_stored :
    (lonely.serve quaint configArrivals).2.config.apiKey = "sk-1"
    ∧ (lonely.serve quaint (configArrivals ++ [bareArrival])).2.config = {}
    ∧ (bareArrival.request.update? = some {} ∧ ∃ e, bareArrival.request.read AiConfig.keyedShape = .error e)
    ∧ (strangeArrival.request.IsConfig "PUT"
      ∧ (lonely.handle strangeArrival.time (lonely.serve quaint configArrivals).2
        strangeArrival.request).1.map Response.status = some 400)
    ∧ ∃ shown, (lonely.handle getArrival.time (lonely.serve quaint []).2 getArrival.request).1.map Response.body
        = some shown
      ∧ (lonely.serve quaint ([] ++ [getArrival, configArrival "PUT" (Utf8.encode shown)])).2.config
        = quaint.config := by
  have hkeys : (((configArrivals.filterMap fun a => a.request.update?).map AiConfig.apiKey).filter
      (· ≠ AiConfig.mask)) = ["sk-1"] := by decide +kernel
  have hbare : bareArrival.request.update? = some {} := by decide +kernel
  have hstrange : strangeArrival.request.update? = none := by decide +kernel
  have hput : strangeArrival.request.IsConfig "PUT" := by decide +kernel
  have hrequired : (bareArrival.request.read AiConfig.keyedShape).isOk = false := by decide +kernel
  obtain ⟨hstep, hkey, hkeyless, hanswer, -⟩ := stored_config lonely quaint configArrivals
  have hbareStored := hstep bareArrival
  have hrejected := hanswer strangeArrival hput
  rw [hkeys] at hkey
  rw [hbare] at hbareStored
  rw [hstrange] at hrejected
  refine ⟨hkey, hbareStored, ⟨hbare, ?_⟩, ⟨hput, hrejected.1⟩, ?_⟩
  · rcases hkeyless bareArrival.request {} hbare with ⟨body, hbody, -⟩ | ⟨herror, -⟩
    · rw [hbody] at hrequired
      cases hrequired
    · exact herror
  · obtain ⟨-, -, -, -, hsent⟩ := stored_config lonely quaint []
    have hroute : Route.ofPath? (configRequest "GET" []).path = some .config := by decide +kernel
    have hget : getArrival.request.IsConfig "GET" := ⟨hroute, rfl⟩
    have hshows : (lonely.handle getArrival.time (lonely.serve quaint []).2 getArrival.request).1.map Response.body
        = some (showConfig quaint).body := by rw [handle_get hget]; rfl
    exact ⟨_, hshows, hsent getArrival (configArrival "PUT" _) _ hget ⟨hroute, rfl⟩ hshows rfl⟩

end Helmsman.Gateway
