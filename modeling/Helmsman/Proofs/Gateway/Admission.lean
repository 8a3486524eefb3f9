import Helmsman.Gateway.Routes
import Helmsman.Proofs.Gateway.Relay
import Helmsman.Proofs.Number.Decimal
import Helmsman.Proofs.Provider.Config
/-!
# Who is let in

A conversation is begun if all of its checks pass, and otherwise refused by the first that does not. The checks are
independent of each other (`Check.Passes`), but their order is not free: `admission_of_first` has one case for each of
them, with all the earlier ones at hand. The connection is looked at twice on the way, and the second look finds nothing
that the first has not (`AiConfig.checkConnection_of_check`). Behind all checks there may still be no queue for the
events of the conversation, and then it is not answered at all.
-/

namespace Helmsman.Gateway

open Json

/-! ### The checks -/

/-- What is checked before a conversation, in this order. -/
inductive Check
  | number
  | body
  | messages
  | enabled
  | provider
  | endpoint
  | key
  | cluster
  deriving Repr, DecidableEq

namespace Check

/-- The place of a check in the order. -/
def rank : Check → Nat
  | number => 0
  | body => 1
  | messages => 2
  | enabled => 3
  | provider => 4
  | endpoint => 5
  | key => 6
  | cluster => 7

variable (state : State) (text : String) (r : Request)

/-- What a check asks for: of the text in the place of the cluster's number, of the request, of the stored settings, and
of the store. A body is read (`Request.read`) if it is announced as JSON, is no longer than any body may be, and holds
JSON of the shape of a conversation, whatever follows. Whether the cluster is ready is not asked. -/
def Passes : Check → Prop
  | number => ∃ n ≤ Word.unsigned64, Decimal.Numeral text n
  | body => ∃ j, r.read chatShape = .ok j
  | messages => ∃ j, r.read chatShape = .ok j ∧ Message.listOfJson (j.getD "messages") ≠ []
  | enabled => state.config.enabled = true
  | provider => ∃ b : Backend, b.name = (Text.trim state.config.provider).map Char.toLower
  | endpoint => ∃ c ∈ state.config.endpoint.toList, Text.isBlank c = false
  | key => state.config.apiKey ≠ ""
  | cluster => ∃ n ≤ Word.unsigned64, Decimal.Numeral text n ∧ ∃ c ∈ state.estate.store.clusters, c.id = n

/-- What is wrong with a body. -/
def bodyFault : String :=
  match r.read chatShape with
  | .error e => e.message
  | .ok _ => ""

/-- What is said of a check that fails. -/
def complaint : Check → String
  | number => "Invalid cluster id: " ++ text
  | body => "Invalid request body: " ++ bodyFault r
  | messages => "Messages must not be empty"
  | enabled => "AI assistant is not enabled"
  | provider => "Unsupported AI provider: " ++ state.config.provider
  | endpoint => "AI assistant has no endpoint configured"
  | key => "AI assistant has no API key configured"
  | cluster => "Cluster " ++ Decimal.ofNat ((Decimal.readNat? Word.unsigned64 text).getD 0) ++ " does not exist"

def status : Check → Nat
  | cluster => 404
  | _ => 400

/-- The answer if a check is the first to fail. -/
def refusal (c : Check) : Response := .error c.status (c.complaint state text r)

theorem refusal_body : body.refusal state text r = .badRequest ("Invalid request body: " ++ bodyFault r) := rfl

theorem refusal_cluster : cluster.refusal state text r
    = .error 404 (ClusterError.unknownCluster ((Decimal.readNat? Word.unsigned64 text).getD 0)).message := rfl

theorem passes_number : number.Passes state text r ↔ ∃ n, Decimal.readNat? Word.unsigned64 text = some n := by
  simp only [Passes, Decimal.readNat?_eq_some_iff, and_comm]

theorem passes_provider : provider.Passes state text r ↔ (Backend.ofName? state.config.provider).isNone = false := by
  rw [Passes, ← Backend.ofName?_isSome_iff]
  cases Backend.ofName? state.config.provider <;> simp

theorem passes_endpoint : endpoint.Passes state text r ↔ Text.isBlankText state.config.endpoint = false := by
  rw [Passes, Text.isBlankText, List.all_eq_false]
  simp only [Bool.not_eq_true]

theorem passes_key : key.Passes state text r ↔ state.config.apiKey.isEmpty = false := by
  rw [Passes]
  simp

theorem passes_cluster : cluster.Passes state text r ↔
    ∃ n, Decimal.readNat? Word.unsigned64 text = some n ∧ (state.estate.store.find? n).isSome := by
  simp only [Passes, Decimal.readNat?_eq_some_iff, Store.find?, List.find?_isSome, beq_iff_eq]
  exact exists_congr fun n => ⟨fun ⟨hle, hn, hc⟩ => ⟨⟨hn, hle⟩, hc⟩, fun ⟨⟨hn, hle⟩, hc⟩ => ⟨hle, hn, hc⟩⟩

/-- Of checks that do not all pass one is the first to fail. -/
theorem exists_first (h : ¬∀ c : Check, c.Passes state text r) : ∃ c : Check,
    ¬c.Passes state text r ∧ ∀ c' : Check, c'.rank < c.rank → c'.Passes state text r := by
  obtain ⟨c, hc⟩ := not_forall.1 h
  obtain ⟨c, hc, hleast⟩ := (measure rank).wf.has_min {c | ¬c.Passes state text r} ⟨c, hc⟩
  exact ⟨c, hc, fun c' hbefore => by_contra fun hc' => hleast c' hc' hbefore⟩

end Check

/-! ### What they come to -/

section

variable {state : State} {text : String} {r : Request}

open Check

/-- The number and the history of a request whose own checks all pass. -/
theorem exists_history (hnumber : number.Passes state text r) (hmessages : messages.Passes state text r) :
    ∃ n j, Decimal.readNat? Word.unsigned64 text = some n ∧ r.read chatShape = .ok j
      ∧ (Message.listOfJson (j.getD "messages")).isEmpty = false := by
  obtain ⟨n, hn⟩ := (passes_number state text r).1 hnumber
  obtain ⟨j, hj, hne⟩ := hmessages
  exact ⟨n, j, hn, hj, by simpa using hne⟩

/-- Behind the checks of the request itself come those of the settings. -/
theorem admission_of_check_error (hnumber : number.Passes state text r) (hmessages : messages.Passes state text r)
    {e : ConfigError} (h : state.config.check = .error e) :
    admission state text r = .error (.badRequest e.message) := by
  obtain ⟨n, j, hn, hj, hne⟩ := exists_history hnumber hmessages
  simp only [admission, hn, hj, hne, h]
  rfl

theorem check_of_passes (henabled : enabled.Passes state text r) (hprovider : provider.Passes state text r)
    (hendpoint : endpoint.Passes state text r) (hkey : key.Passes state text r) : state.config.check = .ok () := by
  have henabled : state.config.enabled = true := henabled
  rw [passes_provider] at hprovider
  rw [passes_endpoint] at hendpoint
  rw [passes_key] at hkey
  rw [AiConfig.check_eq, henabled, AiConfig.checkConnection_eq, hprovider, hendpoint, hkey]
  rfl

/-- If a check of the settings is the first to fail, the settings are refused for this reason. -/
theorem check_of_first (c : Check) (hlate : enabled.rank ≤ c.rank) (hearly : c.rank ≤ key.rank)
    (hc : ¬c.Passes state text r) (hbefore : ∀ c' : Check, c'.rank < c.rank → c'.Passes state text r) :
    ∃ e, state.config.check = .error e ∧ .badRequest e.message = c.refusal state text r := by
  cases c with
  | number | body | messages => exact absurd hlate (by decide)
  | cluster => exact absurd hearly (by decide)
  | enabled =>
    have hdisabled : state.config.enabled = false := by simpa [Passes] using hc
    refine ⟨.disabled, ?_, rfl⟩
    rw [AiConfig.check_eq, hdisabled]
    rfl
  | provider =>
    have henabled : state.config.enabled = true := hbefore enabled (by decide)
    rw [passes_provider, Bool.not_eq_false] at hc
    refine ⟨.unsupportedProvider state.config.provider, ?_, rfl⟩
    rw [AiConfig.check_eq, henabled, AiConfig.checkConnection_eq, hc]
    rfl
  | endpoint =>
    have henabled : state.config.enabled = true := hbefore enabled (by decide)
    have hprovider := (passes_provider state text r).1 (hbefore provider (by decide))
    rw [passes_endpoint, Bool.not_eq_false] at hc
    refine ⟨.missingEndpoint, ?_, rfl⟩
    rw [AiConfig.check_eq, henabled, AiConfig.checkConnection_eq, hprovider, hc]
    rfl
  | key =>
    have henabled : state.config.enabled = true := hbefore enabled (by decide)
    have hprovider := (passes_provider state text r).1 (hbefore provider (by decide))
    have hendpoint := (passes_endpoint state text r).1 (hbefore endpoint (by decide))
    rw [passes_key, Bool.not_eq_false] at hc
    refine ⟨.missingApiKey, ?_, rfl⟩
    rw [AiConfig.check_eq, henabled, AiConfig.checkConnection_eq, hprovider, hendpoint, hc]
    rfl

/-- The first check that fails decides the answer. -/
theorem admission_of_first (c : Check) (hc : ¬c.Passes state text r)
    (hbefore : ∀ c' : Check, c'.rank < c.rank → c'.Passes state text r) :
    admission state text r = .error (c.refusal state text r) := by
  cases c with
  | number =>
    have hnone : Decimal.readNat? Word.unsigned64 text = none :=
      Option.eq_none_iff_forall_ne_some.2 fun n hn => hc ((passes_number state text r).2 ⟨n, hn⟩)
    rw [admission, hnone]
    rfl
  | body =>
    have hnumber : number.Passes state text r := hbefore number (by decide)
    obtain ⟨n, hn⟩ := (passes_number state text r).1 hnumber
    cases hread : r.read chatShape with
    | error e =>
      have hfault : bodyFault r = e.message := by rw [bodyFault, hread]
      simp only [admission, hn, hread]
      rw [refusal_body, hfault, Response.unreadable]
    | ok j => exact absurd ⟨j, hread⟩ hc
  | messages =>
    have hnumber : number.Passes state text r := hbefore number (by decide)
    have hbody : body.Passes state text r := hbefore body (by decide)
    obtain ⟨n, hn⟩ := (passes_number state text r).1 hnumber
    obtain ⟨j, hj⟩ := hbody
    have hempty : (Message.listOfJson (j.getD "messages")).isEmpty = true :=
      List.isEmpty_iff.2 (by_contra fun hne => hc ⟨j, hj, hne⟩)
    simp only [admission, hn, hj, hempty, if_true]
    rfl
  | enabled | provider | endpoint | key =>
    obtain ⟨e, hcheck, hmessage⟩ := check_of_first _ (by decide) (by decide) hc hbefore
    rw [← hmessage]
    exact admission_of_check_error (hbefore number (by decide)) (hbefore messages (by decide)) hcheck
  | cluster =>
    obtain ⟨n, j, hn, hj, hne⟩ := exists_history (hbefore number (by decide)) (hbefore messages (by decide))
    have hcheck := check_of_passes (hbefore enabled (by decide)) (hbefore provider (by decide))
      (hbefore endpoint (by decide)) (hbefore key (by decide))
    have hnone : state.estate.store.find? n = none :=
      Option.eq_none_iff_forall_ne_some.2 fun c hfind =>
        hc ((passes_cluster state text r).2 ⟨n, hn, by rw [hfind]; rfl⟩)
    rw [refusal_cluster, hn, Option.getD_some]
    simp only [admission, hn, hj, hne, hcheck, AiConfig.checkConnection_of_check hcheck, Store.getCluster, hnone]
    rfl

/-- Where every check passes, the conversation is let in. -/
theorem exists_admission (h : ∀ c : Check, c.Passes state text r) : ∃ a, admission state text r = .ok a := by
  obtain ⟨n, j, hn, hj, hne⟩ := exists_history (h number) (h messages)
  have hcheck := check_of_passes (h enabled) (h provider) (h endpoint) (h key)
  obtain ⟨n', hn', hfound⟩ := (passes_cluster state text r).1 (h cluster)
  obtain rfl := Option.some.inj (hn.symm.trans hn')
  obtain ⟨c, hc⟩ := Option.isSome_iff_exists.1 hfound
  refine ⟨⟨⟨c.info, actor r⟩, Message.listOfJson (j.getD "messages")⟩, ?_⟩
  simp only [admission, hn, hj, hne, hcheck, AiConfig.checkConnection_of_check hcheck, Store.getCluster, hc]
  rfl

end

/-! ### Requests for a conversation -/

/-- Whether a request is one for a conversation, with this text in the place of the cluster's number. -/
def Request.IsChat (r : Request) (text : String) : Prop :=
  r.method = "POST" ∧ ∃ segment, Route.ofPath? r.path = some (.chat segment)
    ∧ Utf8.decode? (Percent.decode (Utf8.encode segment)) = some text

theorem handle_of_isChat {r : Request} {text : String} (h : r.IsChat text) (g : Gateway) (now : Instant)
    (state : State) : g.handle now state r = g.converse now state text r := by
  obtain ⟨hmethod, segment, hroute, htext⟩ := h
  rw [handle, hroute]
  dsimp only
  rw [hmethod, htext]
  rfl

/-- Whether a response is a stream of events. -/
def Response.Streams (response : Response) : Prop :=
  response.status = 200 ∧ response.header? "content-type" = some "text/event-stream"

theorem streams_eventStream (frames : List String) : (eventStream frames).Streams := ⟨rfl, rfl⟩

theorem not_streams_refusal (c : Check) (state : State) (text : String) (r : Request) :
    ¬(c.refusal state text r).Streams := by
  intro h
  have hstatus : c.status = 200 := h.1
  cases c <;> cases hstatus

section

variable {r : Request} {text : String} (h : r.IsChat text) (g : Gateway) (now : Instant) (state : State)
include h

theorem handle_of_refused (hsome : ¬∀ c : Check, c.Passes state text r) : ∃ c : Check, ¬c.Passes state text r
    ∧ (∀ c' : Check, c'.rank < c.rank → c'.Passes state text r)
    ∧ g.handle now state r = (some (c.refusal state text r), state) := by
  obtain ⟨c, hc, hbefore⟩ := Check.exists_first state text r hsome
  refine ⟨c, hc, hbefore, ?_⟩
  rw [handle_of_isChat h, converse, admission_of_first c hc hbefore]

theorem handle_of_passes (hall : ∀ c : Check, c.Passes state text r) (hqueues : g.chat.queues = true) :
    ∃ frames, (g.handle now state r).1 = some (eventStream frames) := by
  obtain ⟨a, ha⟩ := exists_admission hall
  rw [handle_of_isChat h, converse, ha]
  dsimp only
  rw [if_pos hqueues]
  exact ⟨_, rfl⟩

theorem handle_of_not_queues (hall : ∀ c : Check, c.Passes state text r) (hqueues : g.chat.queues = false) :
    g.handle now state r = (none, state) := by
  obtain ⟨a, ha⟩ := exists_admission hall
  rw [handle_of_isChat h, converse, ha]
  dsimp only
  rw [hqueues]
  rfl

/-- **A conversation is let in as a whole or not at all.** A request is answered by a stream of events if and only if
every check passes and there can be a queue of the size that is set. If every check passes and there can be none, there
is no answer and nothing has changed. If a check does not pass, the first of them decides the answer, which tells its
status and what is wrong as JSON, and nothing has changed: no request has reached the endpoint, and store, records and
settings are as they were. -/
theorem handle_chat :
    ((∃ response, (g.handle now state r).1 = some response ∧ response.Streams)
      ↔ (∀ c : Check, c.Passes state text r) ∧ g.chat.queues = true)
    ∧ ((∀ c : Check, c.Passes state text r) → g.chat.queues = true →
      ∃ frames, (g.handle now state r).1 = some (eventStream frames))
    ∧ ((∀ c : Check, c.Passes state text r) → g.chat.queues = false → g.handle now state r = (none, state))
    ∧ ((¬∀ c : Check, c.Passes state text r) → ∃ c : Check, ¬c.Passes state text r
      ∧ (∀ c' : Check, c'.rank < c.rank → c'.Passes state text r)
      ∧ g.handle now state r = (some (.json c.status
          (.ofMembers [("code", .ofNat c.status), ("message", .string (c.complaint state text r))])), state)) := by
  refine ⟨⟨fun ⟨response, hanswer, hstreams⟩ => ?_, fun ⟨hall, hqueues⟩ => ?_⟩, handle_of_passes h g now state,
    handle_of_not_queues h g now state, handle_of_refused h g now state⟩
  · have hall : ∀ c : Check, c.Passes state text r := by
      by_contra hsome
      obtain ⟨c, -, -, hrefused⟩ := handle_of_refused h g now state hsome
      rw [hrefused] at hanswer
      exact not_streams_refusal c state text r (Option.some.inj hanswer ▸ hstreams)
    refine ⟨hall, ?_⟩
    cases hqueues : g.chat.queues with
    | true => rfl
    | false =>
      rw [handle_of_not_queues h g now state hall hqueues] at hanswer
      cases hanswer
  · obtain ⟨frames, hframes⟩ := handle_of_passes h g now state hall hqueues
    exact ⟨_, hframes, streams_eventStream frames⟩

end

/-- A gateway whose assistant is not enabled and which knows no cluster. -/
def switchedOff : State where
  config := { apiKey := "k" }
  estate := { store := .ofClusters [] }

/-- A greeting passes its own checks whatever the state. -/
theorem greeting_passes (state : State) {c : Check} (hc : c.rank < Check.enabled.rank) :
    c.Passes state "1" greetingRequest := by
  have hread : ∃ j, greetingRequest.read chatShape = .ok j ∧ Message.listOfJson (j.getD "messages") ≠ [] := by
    have hany : (greetingRequest.read chatShape).toOption.any
        (fun j => !(Message.listOfJson (j.getD "messages")).isEmpty) = true := by decide +kernel
    cases hj : greetingRequest.read chatShape with
    | error e => rw [hj] at hany; cases hany
    | ok j =>
      rw [hj] at hany
      exact ⟨j, rfl, by simpa [Except.toOption] using hany⟩
  cases c with
  | number => exact (Check.passes_number ..).2 ⟨1, by decide +kernel⟩
  | body => exact hread.imp fun _ => And.left
  | messages => exact hread
  | enabled | provider | endpoint | key | cluster => exact absurd hc (by decide)

theorem greeting_isChat : greetingRequest.IsChat "1" := ⟨rfl, "1", by decide +kernel, by decide +kernel⟩

/-- It passes all of them where the assistant is set up for the shop. -/
theorem greeting_passes_greeted (c : Check) : c.Passes greeted "1" greetingRequest := by
  by_cases hc : c.rank < Check.enabled.rank
  · exact greeting_passes greeted hc
  cases c with
  | number | body | messages => exact absurd (by decide) hc
  | enabled => rfl
  | provider => exact ⟨.openAi, by decide +kernel⟩
  | endpoint => exact ⟨'h', by decide, by decide⟩
  | key => exact (by decide : "k" ≠ "")
  | cluster => exact (Check.passes_cluster ..).2 ⟨1, by decide +kernel, by decide +kernel⟩

/-- A greeting is let in, and where nobody is let in it is for the first reason. -/
theorem greeting_answered : greetingRequest.IsChat "1"
    ∧ (∃ response, ((forsaken 500).handle ⟨0, 0, 0⟩ greeted greetingRequest).1 = some response ∧ response.Streams)
    ∧ (forsaken 500).handle ⟨0, 0, 0⟩ switchedOff greetingRequest = (some (.json 400
      (.ofMembers [("code", .ofNat 400), ("message", .string "AI assistant is not enabled")])), switchedOff) := by
  have hchat := greeting_isChat
  refine ⟨hchat, (handle_chat hchat (forsaken 500) ⟨0, 0, 0⟩ greeted).1.2 ⟨greeting_passes_greeted, by decide⟩, ?_⟩
  have hdisabled : ¬Check.enabled.Passes switchedOff "1" greetingRequest := Bool.false_ne_true
  obtain ⟨c, hc, hbefore, hanswer⟩ := (handle_chat hchat (forsaken 500) ⟨0, 0, 0⟩ switchedOff).2.2.2
    fun hall => hdisabled (hall .enabled)
  have hlate : ¬c.rank < Check.enabled.rank := fun hlt => hc (greeting_passes switchedOff hlt)
  have hearly : ¬Check.enabled.rank < c.rank := fun hlt => hdisabled (hbefore .enabled hlt)
  cases c with
  | enabled => exact hanswer
  | number | body | messages => exact absurd (by decide) hlate
  | provider | endpoint | key | cluster => exact absurd (by decide) hearly

/-- A gateway with one place too many in the queue of a conversation. -/
def overlong : Gateway where
  network := fun _ => .silent
  chat := { channelCapacity := ChatSettings.queueLimit + 1 }

/-- A greeting that passes every check is not answered there. -/
theorem overlong_unanswered : greetingRequest.IsChat "1" ∧ (∀ c : Check, c.Passes greeted "1" greetingRequest)
    ∧ overlong.handle ⟨0, 0, 0⟩ greeted greetingRequest = (none, greeted)
    ∧ ¬ ∃ response, (overlong.handle ⟨0, 0, 0⟩ greeted greetingRequest).1 = some response ∧ response.Streams := by
  have hanswer := handle_of_not_queues greeting_isChat overlong ⟨0, 0, 0⟩ greeted greeting_passes_greeted (by decide)
  refine ⟨greeting_isChat, greeting_passes_greeted, hanswer, fun ⟨response, hresponse, _⟩ => ?_⟩
  rw [hanswer] at hresponse
  cases hresponse

end Helmsman.Gateway
