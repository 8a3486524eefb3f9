import Helmsman.Proofs.Gateway.Stored
/-!
# What the settings tell of the key

Two gateways whose settings look alike once they are masked answer every request about the settings alike, and their
settings still look alike behind it (`handle_alike`): whether a request is accepted is a matter of its body alone, and
what is shown of the settings is their masked form. So no sequence of such requests tells one key from another
(`responses_hide_key`).
-/

namespace Helmsman.Gateway

variable {state state' : State}

theorem showConfig_alike (h : state.config.masked = state'.config.masked) : showConfig state = showConfig state' := by
  rw [showConfig, showConfig, h]

theorem replaceConfig_alike (h : state.config.masked = state'.config.masked) {r : Request} (hput : r.IsConfig "PUT") :
    (replaceConfig state r).1 = (replaceConfig state' r).1 := by
  cases hu : r.update? with
  | none =>
    obtain ⟨message, hrejects⟩ := replaceConfig_of_none hput hu
    rw [hrejects, hrejects]
  | some u => rw [replaceConfig_of_some hu, replaceConfig_of_some hu, AiConfig.masked_updated h]

/-- One request about the settings. -/
theorem handle_alike (g g' : Gateway) (now : Instant) (h : state.config.masked = state'.config.masked) {r : Request}
    (hr : Route.ofPath? r.path = some .config) :
    (g.handle now state r).1 = (g'.handle now state' r).1
      ∧ (g.handle now state r).2.config.masked = (g'.handle now state' r).2.config.masked := by
  refine ⟨?_, by rw [config_handle, config_handle, AiConfig.masked_updated h]⟩
  by_cases hput : r.method = "PUT"
  · rw [handle_put ⟨hr, hput⟩, handle_put ⟨hr, hput⟩, replaceConfig_alike h ⟨hr, hput⟩]
  · have hother : ¬ (r.method == "PUT") = true := fun heq => hput (eq_of_beq heq)
    rw [handle, handle, hr]
    dsimp only
    rw [if_neg hother, if_neg hother, showConfig_alike h]
    split
    · rfl
    · split <;> rfl

theorem serve_alike (g g' : Gateway) (h : state.config.masked = state'.config.masked) {arrivals : List Arrival}
    (hconfig : ∀ a ∈ arrivals, Route.ofPath? a.request.path = some .config) :
    (g.serve state arrivals).1 = (g'.serve state' arrivals).1 := by
  induction arrivals generalizing state state' with
  | nil => rfl
  | cons a arrivals ih =>
    obtain ⟨hresponse, hnext⟩ := handle_alike g g' a.time h (hconfig a List.mem_cons_self)
    rw [serve, serve]
    dsimp only
    rw [hresponse, ih hnext fun a ha => hconfig a (List.mem_cons_of_mem _ ha)]

/-- **The settings do not tell the key.** Two gateways whose settings differ in the key and nowhere else give the same
responses to the same requests about the settings, whatever these send and whether or not it is accepted. -/
theorem responses_hide_key (g g' : Gateway)
    (hsame : state'.config = { state.config with apiKey := state'.config.apiKey })
    (hkey : state.config.apiKey ≠ "") (hkey' : state'.config.apiKey ≠ "") {arrivals : List Arrival}
    (hconfig : ∀ a ∈ arrivals, Route.ofPath? a.request.path = some .config) :
    (g.serve state arrivals).1 = (g'.serve state' arrivals).1 :=
  serve_alike g g' (AiConfig.masked_eq hsame hkey hkey') hconfig

/-- The settings are asked for, sent back with the mask, sent wrongly, and given a key of their own. -/
def probes : List Arrival :=
  [getArrival, configArrival "PUT" (Utf8.encode "\x7b\"api_key\":\"******\"\x7d"),
    strangeArrival, configArrival "PUT" (Utf8.encode "oops"), configArrival "DELETE" [], bareArrival,
    configArrival "PUT" (Utf8.encode "\x7b\"api_key\":\"sk-3\"\x7d"), getArrival]

/-- The same settings with another key. -/
def rekeyed : State := { quaint with config := { quaint.config with apiKey := "another" } }

theorem probes_hide_key :
    rekeyed.config = { quaint.config with apiKey := rekeyed.config.apiKey }
    ∧ quaint.config.apiKey ≠ "" ∧ rekeyed.config.apiKey ≠ ""
    ∧ (∀ a ∈ probes, Route.ofPath? a.request.path = some .config)
    ∧ (lonely.serve quaint probes).1 = (lonely.serve rekeyed probes).1 := by
  have hconfig : ∀ a ∈ probes, Route.ofPath? a.request.path = some .config := by
    have hroute : Route.ofPath? (configRequest "GET" []).path = some .config := by decide +kernel
    simp only [probes, List.forall_mem_cons]
    exact ⟨hroute, hroute, hroute, hroute, hroute, hroute, hroute, hroute, List.forall_mem_nil _⟩
  have hsame : rekeyed.config = { quaint.config with apiKey := rekeyed.config.apiKey } := rfl
  have hkey : quaint.config.apiKey ≠ "" := by decide
  have hkey' : rekeyed.config.apiKey ≠ "" := by decide
  exact ⟨hsame, hkey, hkey', hconfig, responses_hide_key lonely lonely hsame hkey hkey' hconfig⟩

end Helmsman.Gateway
