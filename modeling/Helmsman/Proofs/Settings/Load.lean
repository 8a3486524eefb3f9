import Helmsman.Proofs.Settings.Layer
import Helmsman.Settings.Load
/-!
# What entries say

Entries add up to settings if their four sections are there to be read and every field of them can be
(`ofEntries_eq_ok_iff`). Sections of entries that differ in one setting differ in one field at most, and every other is
read from both alike (`DifferAt.sectionOf`).
-/

namespace Helmsman.Settings

/-! ### Reading the sections -/

/-- The sections that settings are read from. -/
structure Sections where
  server : Section
  ai : Section
  chat : Section
  cluster : Section

namespace Sections

/-- The sections are those of the entries. -/
structure Of (p : Sections) (root : Entries) : Prop where
  server : sectionOf "server" ["host", "port"] root = .ok p.server
  ai : sectionOf "ai" ["provider", "endpoint", "api_key", "model", "enabled"] root = .ok p.ai
  chat : sectionOf "chat" ["max_rounds", "timeout_secs", "channel_capacity", "heartbeat_ms", "system_prompt"] root
    = .ok p.chat
  cluster : sectionOf "cluster" ["snapshot_path"] root = .ok p.cluster

/-- Every field of the sections can be read, and this is what they say. -/
structure Tell (p : Sections) (s : Settings) : Prop where
  host : p.server.text "host" ({} : Settings).host = .ok s.host
  port : p.server.count Word.unsigned16 "port" ({} : Settings).port = .ok s.port
  provider : p.ai.text "provider" ({} : AiConfig).provider = .ok s.ai.provider
  endpoint : p.ai.text "endpoint" ({} : AiConfig).endpoint = .ok s.ai.endpoint
  apiKey : p.ai.text "api_key" ({} : AiConfig).apiKey = .ok s.ai.apiKey
  model : p.ai.text "model" ({} : AiConfig).model = .ok s.ai.model
  enabled : p.ai.read Setting.toFlag? "enabled" ({} : AiConfig).enabled = .ok s.ai.enabled
  maxRounds : p.chat.count Word.unsigned64 "max_rounds" ({} : ChatSettings).maxRounds = .ok s.chat.maxRounds
  timeoutSeconds :
    p.chat.count Word.unsigned64 "timeout_secs" ({} : ChatSettings).timeoutSeconds = .ok s.chat.timeoutSeconds
  channelCapacity :
    p.chat.count Word.unsigned64 "channel_capacity" ({} : ChatSettings).channelCapacity = .ok s.chat.channelCapacity
  heartbeatMilliseconds : p.chat.count Word.unsigned64 "heartbeat_ms" ({} : ChatSettings).heartbeatMilliseconds
    = .ok s.chat.heartbeatMilliseconds
  systemPrompt : p.chat.read? Setting.toText? "system_prompt" = .ok s.chat.systemPrompt
  snapshotPath : p.cluster.read? Setting.toText? "snapshot_path" = .ok s.snapshotPath

end Sections

theorem bind_eq_ok_iff {ε α β : Type} {x : Except ε α} {f : α → Except ε β} {b : β} :
    (x >>= f) = .ok b ↔ ∃ a, x = .ok a ∧ f a = .ok b := by
  cases x <;> simp [bind, Except.bind]

theorem ofEntries_eq_ok_iff {root : Entries} {s : Settings} :
    ofEntries root = .ok s ↔ ∃ p : Sections, p.Of root ∧ p.Tell s := by
  simp only [ofEntries, bind_eq_ok_iff]
  constructor
  · rintro ⟨server, hserver, ai, hai, chat, hchat, cluster, hcluster, host, hhost, port, hport, provider, hprovider,
      endpoint, hendpoint, apiKey, hapiKey, model, hmodel, enabled, henabled, maxRounds, hmaxRounds, timeoutSeconds,
      htimeout, channelCapacity, hcapacity, heartbeat, hheartbeat, systemPrompt, hprompt, snapshotPath, hsnapshot, h⟩
    obtain rfl := Except.ok.inj h
    exact ⟨⟨server, ai, chat, cluster⟩, ⟨hserver, hai, hchat, hcluster⟩, ⟨hhost, hport, hprovider, hendpoint, hapiKey,
      hmodel, henabled, hmaxRounds, htimeout, hcapacity, hheartbeat, hprompt, hsnapshot⟩⟩
  · rintro ⟨p, hof, htell⟩
    exact ⟨_, hof.server, _, hof.ai, _, hof.chat, _, hof.cluster, _, htell.host, _, htell.port, _, htell.provider, _,
      htell.endpoint, _, htell.apiKey, _, htell.model, _, htell.enabled, _, htell.maxRounds, _, htell.timeoutSeconds, _,
      htell.channelCapacity, _, htell.heartbeatMilliseconds, _, htell.systemPrompt, _, htell.snapshotPath, rfl⟩

/-- Sections that say the same of every field but one. -/
structure Section.Alike (field : String) (p p' : Section) : Prop where
  name : p.name = p'.name
  fields : ∀ other ≠ field, p.fields.lookup other = p'.fields.lookup other

namespace Section.Alike

variable {field other : String} {p p' : Section} (h : p.Alike field p')

include h

theorem read?_eq {α : Type} (convert : Setting → Option α) (hother : other ≠ field) :
    p'.read? convert other = p.read? convert other := by
  rw [Section.read?, Section.read?, h.fields other hother, h.name]

theorem read_eq {α : Type} (convert : Setting → Option α) (otherwise : α) (hother : other ≠ field) :
    p'.read convert other otherwise = p.read convert other otherwise := by
  rw [Section.read, Section.read, h.read?_eq convert hother]

end Section.Alike

/-- A section of entries that differ in one setting, with the same names of fields. -/
theorem DifferAt.sectionOf {home field : String} {x y : Setting} {root root' : Entries}
    (h : DifferAt home field x y root root') {name : String} {names : List String} {p : Section}
    (hp : sectionOf name names root = .ok p) : ∃ p', sectionOf name names root' = .ok p' ∧ p.Alike field p'
      ∧ (name = home → p'.fields.lookup field = some y) := by
  by_cases hname : name = home
  · subst hname
    obtain ⟨fields, fields', hhome, hhome', -, hy, hrest⟩ := h.within
    rw [Settings.sectionOf, hhome] at hp
    obtain rfl := Except.ok.inj hp
    exact ⟨⟨name, fields'⟩, by rw [Settings.sectionOf, hhome']; rfl, ⟨rfl, hrest⟩, fun _ => hy⟩
  · rw [Settings.sectionOf, h.elsewhere name hname] at hp
    exact ⟨p, hp, ⟨rfl, fun _ _ => rfl⟩, fun heq => absurd heq hname⟩

end Helmsman.Settings
