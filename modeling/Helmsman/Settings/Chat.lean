import Helmsman.Json.Shape
/-!
# Settings of conversations

How far a conversation may go and what the model is told before it. Every setting has a fallback.
-/

namespace Helmsman

open Json Json.Shape

structure ChatSettings where
  maxRounds : Nat := 10
  timeoutSeconds : Nat := 120
  /-- How many events may wait to be fetched. At least one always may. -/
  channelCapacity : Nat := 64
  heartbeatMilliseconds : Nat := 500
  /-- The file of a template that replaces the built-in prompt. -/
  systemPrompt : Option String := none
  deriving Repr, DecidableEq, Inhabited

namespace ChatSettings

def path : Shape := .spelled "path string" fun _ => none

def shape : Shape :=
  let c : ChatSettings := {}
  .record "ChatSettings" [fallback "max_rounds" size64 (.ofNat c.maxRounds),
    fallback "timeout_secs" unsigned64 (.ofNat c.timeoutSeconds),
    fallback "channel_capacity" size64 (.ofNat c.channelCapacity),
    fallback "heartbeat_ms" unsigned64 (.ofNat c.heartbeatMilliseconds),
    nullable "system_prompt" path .null]

def ofJson (j : Json) : ChatSettings where
  maxRounds := (j.getD "max_rounds").int.toNat
  timeoutSeconds := (j.getD "timeout_secs").int.toNat
  channelCapacity := (j.getD "channel_capacity").int.toNat
  heartbeatMilliseconds := (j.getD "heartbeat_ms").int.toNat
  systemPrompt := (j.getD "system_prompt").string?

def ofValue (j : Json) : Except Mismatch ChatSettings := (readValue shape j).map ofJson

def timeout (c : ChatSettings) : Nat := 1000 * c.timeoutSeconds

/-- The most events that a queue can be made for. -/
def queueLimit : Nat := 2305843009213693951

/-- Whether a queue can be made for as many events as are to wait. -/
def queues (c : ChatSettings) : Bool := max 1 c.channelCapacity ≤ queueLimit

/-- How often the listener of a conversation is looked for. -/
def heartbeat (c : ChatSettings) : Nat := max 1 c.heartbeatMilliseconds

theorem heartbeat_pos (c : ChatSettings) : 0 < c.heartbeat := Nat.lt_of_lt_of_le Nat.zero_lt_one (Nat.le_max_left ..)

end ChatSettings

end Helmsman
