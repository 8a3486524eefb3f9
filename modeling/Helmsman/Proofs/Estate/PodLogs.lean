import Helmsman.Proofs.Estate.Listing
import Helmsman.Proofs.Text.Lines
/-!
# Logs of a pod

Asked for the log of a pod, a call answers the last hundred lines of one container's log, as far as 65536 octets reach.
Which container is meant is said by `LoggedPod.Means`. Nothing but the end of what would be too long is left out, and
the answer says so (`Report.podLogs_cut`).
-/

namespace Helmsman

namespace LoggedPod

/-- Whose log is meant: that of the container that is asked for; or else that of the pod's first container; or else, if
the pod has no containers, the first log there is. -/
inductive Means (p : LoggedPod) (asked : String) : String → Prop
  | asked (h : asked ≠ "") : Means p asked asked
  | first {c : Container} {rest : List Container} (h : asked = "") (hcontainers : p.pod.containers = c :: rest) :
    Means p asked c.name
  | logged {name log : String} {rest : Labels} (h : asked = "") (hcontainers : p.pod.containers = [])
    (hlogs : p.logs = (name, log) :: rest) : Means p asked name

theorem Means.getD_eq {p : LoggedPod} {members : List (String × Json)} {name : String}
    (h : p.Means (Arguments.textFor "container" members) name) :
    (Arguments.ofObject members).containerFilter.getD p.defaultContainer = name := by
  rw [Arguments.containerFilter, Arguments.filter, Arguments.text_ofObject]
  cases h with
  | asked h => rw [if_neg (by simpa using h), Option.getD_some]
  | first h hcontainers =>
    rw [h, if_pos (by decide), Option.getD_none, defaultContainer, hcontainers]
  | logged h hcontainers hlogs =>
    rw [h, if_pos (by decide), Option.getD_none, defaultContainer, hcontainers, hlogs]

end LoggedPod

/-- What is told of a log, against the text that would be told if there were room. -/
theorem Report.podLogs_cut (a : Arguments) (tail : String) : ∃ logs rest truncated,
    (podLogs a tail).get? "logs" = some (.string logs) ∧ (podLogs a tail).get? "truncated" = some (.bool truncated)
      ∧ logs ++ rest = tail ∧ Utf8.size logs ≤ logOctets ∧ (truncated = true ↔ logs ≠ tail)
      ∧ (truncated = true → logOctets < Utf8.size logs + 4) := by
  obtain ⟨rest, htail, hfits, -⟩ := Text.takeOctets_cut logOctets tail
  obtain ⟨hwhole, hlast⟩ := Text.takeOctets_eq_self_iff logOctets tail
  refine ⟨_, rest, _, Json.get?_of_lookup rfl, Json.get?_of_lookup rfl, htail, hfits, ?_, ?_⟩
  · rw [decide_eq_true_iff, ne_eq, hwhole, Nat.not_le]
  · intro h
    exact hlast (of_decide_eq_true h)

namespace Estate

/-- **Logs are cut at their end only.** Of the log that is meant the last hundred lines are told, or all if there are no
more, and of these the beginning that 65536 octets have room for. It ends behind a whole character, and is told to be
cut just if something is missing. In that case no more than three octets are left unused. -/
theorem podLogs_told {e : Estate} {scope : Scope} {c : Cluster} (hready : e.store.ready scope.cluster.id = .ok c)
    (now : Instant) {raw : String} {members : List (String × Json)} (hgiven : Arguments.Given raw members)
    {p : LoggedPod} (hpod : c.pods.find? (Store.isPod (Arguments.textFor "namespace" members)
      (Arguments.textFor "name" members)) = some p)
    {name log : String} (hmeans : p.Means (Arguments.textFor "container" members) name)
    (hlog : p.logs.get? name = some log) :
    ∃ lines, (∀ ls, Text.LinesOf log ls ↔ ls = lines)
      ∧ let tail := "\n".intercalate (lines.drop (lines.length - min 100 lines.length))
      ∃ j logs rest truncated, e.Answers now scope .getPodLogs raw j
        ∧ j.get? "logs" = some (.string logs) ∧ j.get? "truncated" = some (.bool truncated)
        ∧ logs ++ rest = tail ∧ Utf8.size logs ≤ 65536
        ∧ (truncated = true ↔ logs ≠ tail) ∧ (truncated = true → 65533 ≤ Utf8.size logs) := by
  refine ⟨Text.lines log, fun ls => Text.linesOf_iff, ?_⟩
  intro tail
  have htail : Text.tail Report.logLines log = tail := by
    have hcount : (Text.lines log).length - Report.logLines
        = (Text.lines log).length - min 100 (Text.lines log).length := by
      rw [Report.logLines]
      omega
    rw [Text.tail, hcount]
  have hread : Operation.getPodLogs.read now e.store scope.cluster.id (.ofObject members)
      = .ok (Report.podLogs (.ofObject members) tail) := by
    simp only [Operation.read, Store.podLogs, Store.findPod, hready, Arguments.ns_ofObject, Arguments.name_ofObject,
      hpod, hmeans.getD_eq, hlog, htail, bind, Except.bind]
    rfl
  obtain ⟨logs, rest, truncated, hlogs, htruncated, hcut, hfits, hwhole, hlast⟩ :=
    Report.podLogs_cut (.ofObject members) tail
  refine ⟨_, logs, rest, truncated, answers_of_read rfl (by simp) hgiven hread, hlogs, htruncated, hcut, hfits, hwhole,
    fun h => ?_⟩
  have hoctets : Report.logOctets = 65536 := rfl
  have := hlast h
  omega

/-- A line of characters that take three octets each. -/
def euros (count : Nat) : String := String.ofList (List.replicate count '€')

theorem euros_unbroken (count : Nat) : '\n' ∉ (euros count).toList := by
  rw [euros, String.toList_ofList]
  intro h
  exact absurd (List.eq_of_mem_replicate h) (by decide)

theorem size_euros (count : Nat) : Utf8.size (euros count) = count * 3 := by
  rw [euros, Text.size_ofList, Text.octetCount, List.map_replicate, List.sum_replicate_nat]
  rfl

theorem size_up_euros (count : Nat) : Utf8.size ("up\n" ++ euros count) = 3 + count * 3 := by
  have hsize : Utf8.size ("up\n" ++ euros count) = Utf8.size "up\n" + Utf8.size (euros count) :=
    String.utf8ByteSize_append
  rw [hsize, size_euros]
  rfl

/-- A pod without containers, with one log all the same, whose last line is too long. -/
def talkative : LoggedPod := ⟨{ (default : Pod) with name := "web" }, [("app", "up\r" ++ "\n" ++ euros 30000)]⟩

def talking : Cluster := { id := 1, name := "shop", version := "v1.29.2", pods := [talkative] }

theorem lines_talkative {lines : List String} (h : Text.LinesOf ("up\r" ++ "\n" ++ euros 30000) lines) :
    lines = ["up", euros 30000] := by
  have hne : euros 30000 ≠ "" := by
    intro hempty
    have hsize := size_euros 30000
    rw [hempty] at hsize
    exact absurd hsize (by decide)
  have hreturn : Text.withoutReturn "up\r" = "up" := by decide
  rw [Text.linesOf_iff.1 h, Text.lines_line (by decide), hreturn, Text.lines_last hne (euros_unbroken 30000)]

/-- The log is cut within the line, and the answer says so. -/
theorem talkative_told : Store.ready (.ofClusters [talking]) 1 = .ok talking
    ∧ talkative.Means "" "app"
    ∧ ∃ raw j logs rest, Arguments.Given raw [("namespace", .string ""), ("name", .string "web")]
      ∧ Estate.Answers { store := .ofClusters [talking] } ⟨19723, 0, 0⟩ onlooker .getPodLogs raw j
      ∧ j.get? "logs" = some (.string logs) ∧ j.get? "truncated" = some (.bool true)
      ∧ logs ++ rest = "up\n" ++ euros 30000 ∧ Utf8.size logs ≤ 65536 ∧ 65533 ≤ Utf8.size logs := by
  have hready : Store.ready (.ofClusters [talking]) 1 = .ok talking := rfl
  have hmeans : talkative.Means "" "app" := .logged rfl rfl rfl
  obtain ⟨raw, hraw⟩ := given_of_names "" "web"
  obtain ⟨lines, hlines, j, logs, rest, truncated, hj, hlogs, htruncated, hcut, hfits, hwhole, hlast⟩ :=
    @podLogs_told { store := .ofClusters [talking] } onlooker talking hready ⟨19723, 0, 0⟩ raw _ hraw
      talkative rfl "app" _ hmeans rfl
  obtain rfl := lines_talkative ((hlines lines).2 rfl)
  have htail : "\n".intercalate (["up", euros 30000].drop 0) = "up\n" ++ euros 30000 := by
    apply String.toList_injective
    rw [List.drop_zero, String.toList_intercalate]
    simp
  have hcut : logs ++ rest = "up\n" ++ euros 30000 := hcut.trans htail
  -- Told in full the log would be longer than there is room for.
  obtain rfl : truncated = true := by
    refine hwhole.2 fun heq => ?_
    have hsize : Utf8.size logs = 3 + 30000 * 3 := (congrArg Utf8.size (heq.trans htail)).trans (size_up_euros 30000)
    omega
  exact ⟨hready, hmeans, raw, j, logs, rest, hraw, hj, hlogs, htruncated, hcut, hfits, hlast rfl⟩

end Estate

end Helmsman
