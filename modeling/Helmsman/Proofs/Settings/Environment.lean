import Helmsman.Proofs.Number.Decimal
import Helmsman.Proofs.Settings.Load
/-!
# Texts from the environment

What becomes of the value of a variable whose setting is a text. No value is refused, and none changes any other
setting. But a value is taken for a yes or no or for a number if it can be, and what arrives is that number written out
(`arrived`). So a value arrives as it is if it has a character that no number has (`arrived_of_not_isGuessedChar`) or is
a whole number in its usual digits (`arrived_ofInt`), while zeros in front of digits are lost. A text in the file is not
treated like that: it has its quotes, and is taken for nothing else.
-/

namespace Helmsman

namespace Settings

/-! ### How a text arrives -/

/-- The text that a setting becomes whose variable has been set to a value: what the value is taken for, written out. -/
def arrived (value : String) : String :=
  if value.toLower = "true" then "true"
  else if value.toLower = "false" then "false"
  else match Decimal.readInt? Word.lowest64 Word.highest64 value with
    | some n => Decimal.ofInt n
    | none => ((Decimal.readBinary64? value).map DecimalStyle.plain.write).getD value

theorem toText?_ofUntyped (value : String) : (Setting.ofUntyped value).toText? = some (arrived value) := by
  rw [Setting.ofUntyped, arrived]
  split
  case h_1 htrue => rw [if_pos htrue]; rfl
  case h_2 hfalse => rw [if_neg (by rw [hfalse]; decide), if_pos hfalse]; rfl
  case h_3 htrue hfalse =>
    rw [if_neg htrue, if_neg hfalse]
    cases Decimal.readInt? Word.lowest64 Word.highest64 value with
    | some n => rfl
    | none => cases Decimal.readBinary64? value <;> rfl

/-- No text is taken for a table. -/
theorem laid_ofUntyped (value : String) (old : Option Setting) :
    laid (.ofUntyped value) [] old = .ofUntyped value := by
  refine laid_of_ne_table (fun incoming htable => ?_) old
  have htext := toText?_ofUntyped value
  rw [htable] at htext
  cases htext

example : arrived "TRUE" = "true" ∧ arrived "1.50" = "1.5" ∧ arrived "127.0.0.1" = "127.0.0.1" := by decide +kernel

theorem map_toLower_of_toLower_eq {value : String} {word : List Char} (h : value.toLower = String.ofList word) :
    value.toList.map Char.toLower = word := by
  rw [← String.toList_ofList (l := word), ← h, String.toLower, String.toList_map]

/-- A whole number in its usual digits arrives as it is. -/
theorem arrived_ofInt {n : Int} (hlow : Word.lowest64 ≤ n) (hhigh : n ≤ Word.highest64) :
    arrived (Decimal.ofInt n) = Decimal.ofInt n := by
  have hword : ∀ word : List Char, 'e' ∈ word → (Decimal.ofInt n).toLower ≠ String.ofList word := by
    intro word hletter hlower
    rw [← map_toLower_of_toLower_eq hlower] at hletter
    obtain ⟨c, hc, hletter⟩ := List.mem_map.1 hletter
    rcases Decimal.mem_ofInt hc with rfl | hdigit
    · exact absurd hletter (by decide)
    · rw [Decimal.toLower_of_isDigit hdigit] at hletter
      exact absurd (hletter ▸ hdigit) (by decide)
  rw [arrived, if_neg (hword ['t', 'r', 'u', 'e'] (by decide)), if_neg (hword ['f', 'a', 'l', 's', 'e'] (by decide)),
    Decimal.readInt?_ofInt hlow hhigh]

/-- The characters that a text may have which is taken for anything but a text. -/
def isGuessedChar (c : Char) : Bool :=
  Decimal.isNumberChar c || ['t', 'r', 'u', 'e', 'f', 'a', 'l', 's'].contains c.toLower

theorem arrived_of_not_isGuessedChar {value : String} {c : Char} (hc : c ∈ value.toList) (h : isGuessedChar c = false) :
    arrived value = value := by
  rw [isGuessedChar, Bool.or_eq_false_iff] at h
  have hword : ∀ word : List Char, word ⊆ ['t', 'r', 'u', 'e', 'f', 'a', 'l', 's'] →
      value.toLower ≠ String.ofList word := by
    intro word hletters hlower
    have hmem : c.toLower ∈ word := map_toLower_of_toLower_eq hlower ▸ List.mem_map_of_mem hc
    rw [List.contains_iff_mem.2 (hletters hmem)] at h
    exact absurd h.2 (by decide)
  have hint : Decimal.readInt? Word.lowest64 Word.highest64 value = none :=
    Option.eq_none_iff_forall_ne_some.2 fun n hn => by
      rw [Decimal.isNumberChar_of_readInt? hn c hc] at h
      exact absurd h.1 (by decide)
  have hdecimal : Decimal.readBinary64? value = none :=
    Option.eq_none_iff_forall_ne_some.2 fun x hx => by
      rw [Decimal.isNumberChar_of_readBinary64? hx c hc] at h
      exact absurd h.1 (by decide)
  rw [arrived, if_neg (hword ['t', 'r', 'u', 'e'] (by decide)), if_neg (hword ['f', 'a', 'l', 's', 'e'] (by decide)),
    hint, hdecimal]
  rfl

/-! ### Reading what arrives -/

theorem Section.read?_ofUntyped {p : Section} {field value : String}
    (h : p.fields.lookup field = some (.ofUntyped value)) :
    p.read? Setting.toText? field = .ok (some (arrived value)) := by
  rw [Section.read?, h]
  dsimp only
  rw [toText?_ofUntyped]

theorem Section.text_ofUntyped {p : Section} {field value : String}
    (h : p.fields.lookup field = some (.ofUntyped value)) (otherwise : String) :
    p.text field otherwise = .ok (arrived value) := by
  rw [Section.text, Section.read, Section.read?_ofUntyped h]
  rfl

end Settings

/-! ### Settings that are texts -/

/-- The settings that are texts. -/
inductive TextSetting
  | host
  | provider
  | endpoint
  | apiKey
  | model
  | systemPrompt
  | snapshotPath
  deriving Repr, DecidableEq

namespace TextSetting

open Settings

/-- The section of a setting. -/
def home : TextSetting → String
  | host => "server"
  | provider | endpoint | apiKey | model => "ai"
  | systemPrompt => "chat"
  | snapshotPath => "cluster"

def field : TextSetting → String
  | host => "host"
  | provider => "provider"
  | endpoint => "endpoint"
  | apiKey => "api_key"
  | model => "model"
  | systemPrompt => "system_prompt"
  | snapshotPath => "snapshot_path"

/-- The name of the setting's variable. -/
def variableName (t : TextSetting) : String := environmentName (t.home ++ "." ++ t.field)

/-- The text of a setting, if there is one. -/
def get? : TextSetting → Settings → Option String
  | host, s => s.host
  | provider, s => s.ai.provider
  | endpoint, s => s.ai.endpoint
  | apiKey, s => s.ai.apiKey
  | model, s => s.ai.model
  | systemPrompt, s => s.chat.systemPrompt
  | snapshotPath, s => s.snapshotPath

/-- Settings with another text, and everything else as it was. -/
def set (text : String) : TextSetting → Settings → Settings
  | host, s => { s with host := text }
  | provider, s => { s with ai.provider := text }
  | endpoint, s => { s with ai.endpoint := text }
  | apiKey, s => { s with ai.apiKey := text }
  | model, s => { s with ai.model := text }
  | systemPrompt, s => { s with chat.systemPrompt := some text }
  | snapshotPath, s => { s with snapshotPath := some text }

theorem get?_set (t : TextSetting) (text : String) (s : Settings) : t.get? (t.set text s) = some text := by
  cases t <;> rfl

/-! ### Variables of settings -/

theorem nameOf?_variableName (t : TextSetting) : nameOf? t.variableName = some (t.home ++ "." ++ t.field) := by
  cases t <;> decide +kernel

theorem pathOf_name (t : TextSetting) : pathOf (lower (t.home ++ "." ++ t.field)) = [t.home, t.field] := by
  have hlower : lower (t.home ++ "." ++ t.field) = t.home ++ "." ++ t.field := by
    cases t <;> decide +kernel
  rw [hlower]
  apply pathOf_append <;> cases t <;> decide

/-- Nothing in the environment names the file but its own variable. -/
theorem variableName_ne (t : TextSetting) : t.variableName ≠ fileVariable := by
  cases t <;> decide +kernel

/-- A text from the environment in place of what was there. Every other setting is read as before. -/
theorem ofEntries_set (t : TextSetting) {x : Setting} {value : String} {root root' : Entries} {s : Settings}
    (hdiffer : DifferAt t.home t.field x (.ofUntyped value) root root') (h : ofEntries root = .ok s) :
    ofEntries root' = .ok (t.set (arrived value) s) := by
  obtain ⟨p, hof, htell⟩ := ofEntries_eq_ok_iff.1 h
  obtain ⟨server, hserver, kserver, nserver⟩ := hdiffer.sectionOf hof.server
  obtain ⟨ai, hai, kai, nai⟩ := hdiffer.sectionOf hof.ai
  obtain ⟨chat, hchat, kchat, nchat⟩ := hdiffer.sectionOf hof.chat
  obtain ⟨cluster, hcluster, kcluster, ncluster⟩ := hdiffer.sectionOf hof.cluster
  refine ofEntries_eq_ok_iff.2 ⟨⟨server, ai, chat, cluster⟩, ⟨hserver, hai, hchat, hcluster⟩, ?_⟩
  exact {
    host := by
      cases t
      case host => exact Section.text_ofUntyped (nserver rfl) _
      all_goals exact (kserver.read_eq _ _ (by decide)).trans htell.host
    port := by cases t <;> exact (kserver.read_eq _ _ (by decide)).trans htell.port
    provider := by
      cases t
      case provider => exact Section.text_ofUntyped (nai rfl) _
      all_goals exact (kai.read_eq _ _ (by decide)).trans htell.provider
    endpoint := by
      cases t
      case endpoint => exact Section.text_ofUntyped (nai rfl) _
      all_goals exact (kai.read_eq _ _ (by decide)).trans htell.endpoint
    apiKey := by
      cases t
      case apiKey => exact Section.text_ofUntyped (nai rfl) _
      all_goals exact (kai.read_eq _ _ (by decide)).trans htell.apiKey
    model := by
      cases t
      case model => exact Section.text_ofUntyped (nai rfl) _
      all_goals exact (kai.read_eq _ _ (by decide)).trans htell.model
    enabled := by cases t <;> exact (kai.read_eq _ _ (by decide)).trans htell.enabled
    maxRounds := by cases t <;> exact (kchat.read_eq _ _ (by decide)).trans htell.maxRounds
    timeoutSeconds := by cases t <;> exact (kchat.read_eq _ _ (by decide)).trans htell.timeoutSeconds
    channelCapacity := by cases t <;> exact (kchat.read_eq _ _ (by decide)).trans htell.channelCapacity
    heartbeatMilliseconds := by cases t <;> exact (kchat.read_eq _ _ (by decide)).trans htell.heartbeatMilliseconds
    systemPrompt := by
      cases t
      case systemPrompt => exact Section.read?_ofUntyped (nchat rfl)
      all_goals exact (kchat.read?_eq _ (by decide)).trans htell.systemPrompt
    snapshotPath := by
      cases t
      case snapshotPath => exact Section.read?_ofUntyped (ncluster rfl)
      all_goals exact (kcluster.read?_eq _ (by decide)).trans htell.snapshotPath }

/-! ### Environments -/

/-- An environment in which a setting's variable has a value. -/
def within (t : TextSetting) (before after : List (String × String)) (value : String) : List (String × String) :=
  before ++ (t.variableName, value) :: after

/-- Without a file the variables alone add up to the settings. -/
theorem load_of_no_file {environment : List (String × String)} (h : environment.lookup fileVariable = none) :
    load environment [] = ofEntries (overlayLayer (ofEnvironment environment) []) := by
  have hnone : find? [] usualFile = none := by
    rw [find?]
    split <;> rfl
  rw [load, ofFile, h, Option.getD_none, hnone]
  rfl

theorem ofFile_within (t : TextSetting) (before after : List (String × String)) (value value' : String)
    (files : Files) : ofFile (t.within before after value') files = ofFile (t.within before after value) files := by
  have hlookup : (t.within before after value').lookup fileVariable
      = (t.within before after value).lookup fileVariable := by
    have hother : (fileVariable == t.variableName) = false := beq_false_of_ne (Ne.symm t.variableName_ne)
    rw [within, within, List.lookup_append, List.lookup_append, List.lookup_cons, List.lookup_cons, hother]
  rw [ofFile, ofFile, hlookup]

/-- The value is laid over what the file and the variables before it add up to, and the other variables over that. -/
theorem overlayLayer_within (t : TextSetting) (before after : List (String × String)) (value : String)
    (under : Entries) : overlayLayer (ofEnvironment (t.within before after value)) under
      = overlayLayer (ofEnvironment after)
          (overlayAt (.ofUntyped value) [t.home, t.field] (overlayLayer (ofEnvironment before) under)) := by
  rw [within, ofEnvironment_append, ofEnvironment_cons t.nameOf?_variableName, overlayLayer_append, overlayLayer_cons,
    t.pathOf_name]

/-- Variables that do not speak of a setting: neither of its section as a whole nor of what it might hold. -/
def Silent (t : TextSetting) (environment : List (String × String)) : Prop :=
  ∀ e ∈ environment, ∀ name ∈ nameOf? e.1, Apart (pathOf (lower name)) [t.home, t.field]

/-- **No value of a setting's variable is refused, and what it is taken for arrives as a text.** If the settings can be
read with some value of the variable, they can be read with every value, and differ in this one text. It is the value
itself as soon as that has a character which is in no number, in neither `true` nor `false`, and in no word for what is
no finite number. -/
theorem load_within (t : TextSetting) {before after : List (String × String)} {files : Files} {given : String}
    {s : Settings} (h : load (t.within before after given) files = .ok s) (hafter : t.Silent after) (value : String) :
    load (t.within before after value) files = .ok (t.set (arrived value) s)
      ∧ t.get? (t.set (arrived value) s) = some (arrived value)
      ∧ ((∃ c ∈ value.toList, isGuessedChar c = false) → arrived value = value) := by
  obtain ⟨file, hfile, hentries⟩ := bind_eq_ok_iff.1 h
  have hlayer : ∀ e ∈ ofEnvironment after, Apart (pathOf (lower e.1)) [t.home, t.field] := by
    intro e he
    obtain ⟨v, hv, hname⟩ := exists_of_mem_ofEnvironment he
    exact hafter v hv e.1 hname
  rw [overlayLayer_within] at hentries
  have hdiffer := (differAt_overlayAt t.home t.field (laid_ofUntyped given) (laid_ofUntyped value)
    (overlayLayer (ofEnvironment before) (overlayLayer file []))).overlayLayer hlayer
  refine ⟨bind_eq_ok_iff.2 ⟨file, ?_, ?_⟩, t.get?_set _ s, fun ⟨c, hc, hchar⟩ => arrived_of_not_isGuessedChar hc hchar⟩
  · rw [ofFile_within t before after given value, hfile]
  · rw [overlayLayer_within]
    exact t.ofEntries_set hdiffer hentries

/-- A variable in front of that of a key. -/
def earlier : List (String × String) := [("POLARIS_SERVER__PORT", "9090")]

/-- A variable behind that of a key. -/
def later : List (String × String) := [("POLARIS_AI__MODEL", "llama3")]

/-- A key of digits in an environment with a port and a model. -/
theorem paddedKey_arrives : load (apiKey.within earlier later "007") []
      = .ok { port := 9090, ai := { apiKey := "7", model := "llama3" } } := by
  have hearlier : nameOf? "POLARIS_SERVER__PORT" = some ("server" ++ "." ++ "port") := by decide +kernel
  have hlater : nameOf? "POLARIS_AI__MODEL" = some (model.home ++ "." ++ model.field) := by decide +kernel
  have hport : pathOf (lower ("server" ++ "." ++ "port")) = ["server", "port"] := by
    rw [show lower ("server" ++ "." ++ "port") = "server" ++ "." ++ "port" by decide +kernel]
    apply pathOf_append <;> decide
  have hsilent : apiKey.Silent later := by
    intro e he name hname
    obtain rfl := List.mem_singleton.1 he
    obtain rfl := Option.some.inj (hlater.symm.trans hname)
    rw [pathOf_name]
    decide
  have h : load (apiKey.within earlier later "sk-test") []
      = .ok { port := 9090, ai := { apiKey := "sk-test", model := "llama3" } } := by
    rw [load_of_no_file (by decide +kernel), overlayLayer_within, earlier, later, ofEnvironment_cons hearlier,
      ofEnvironment_cons hlater, overlayLayer_cons, overlayLayer_cons, hport, pathOf_name]
    decide +kernel
  have hdigits : arrived "007" = "7" := by decide +kernel
  rw [(load_within apiKey h hsilent "007").1, hdigits]
  rfl

/-- The zeros in front of a key of digits are lost, although everything else is as it should be. -/
theorem paddedKey_differs : load [] [] = .ok {} ∧ load (apiKey.within [] [] "007") [] = .ok { ai := { apiKey := "7" } }
    ∧ apiKey.get? { ai := { apiKey := "7" } } ≠ some "007" := by
  refine ⟨?_, ?_, by decide⟩
  · rw [load_of_no_file rfl]
    decide +kernel
  · rw [load_of_no_file (by decide +kernel), overlayLayer_within]
    decide +kernel

end TextSetting

end Helmsman
