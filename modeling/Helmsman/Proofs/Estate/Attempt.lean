import Helmsman.Tools.Executor
/-!
# Calls and the attempts among them

Of all that a call can be, an operation, a decoding of its arguments, a gate and a lookup in the store, an estate only
notices the attempts at a change. `Invocation.attempt?` says which calls make one, without reference to how a call is
run, and `invoke_eq` that a call does to an estate what its attempt does, and nothing if it makes none. What a sequence
of calls does is therefore what the attempts among them do, in order (`invokeAll_eq`).
-/

namespace Helmsman

/-- A call of a tool, and whether it is called off before it begins. -/
structure Invocation where
  now : Instant
  scope : Scope
  name : String
  arguments : String
  cancelled : Bool := false

/-- An attempt at a change: who makes it and when, and the deployment it is about. -/
structure Attempt where
  now : Instant
  scope : Scope
  ns : String
  name : String
  change : Change

/-- Only operations that are marked as mutating are about a change. -/
theorem Change.of?_isSome (a : Arguments) (o : Operation) : (Change.of? a o).isSome = o.mutating := by
  cases o <;> rfl

theorem Change.of?_eq_none {a : Arguments} {o : Operation} (h : o.mutating = false) : Change.of? a o = none := by
  rw [← Option.not_isSome_iff_eq_none, Change.of?_isSome, h]
  exact Bool.false_ne_true

namespace Invocation

/-- The attempt that a call makes: none if it is called off, names no mutating operation, has arguments that cannot be
read, or does not have the truth value itself for `confirmed`. -/
def attempt? (v : Invocation) : Option Attempt :=
  match v.cancelled, Operation.ofName? v.name, Arguments.decode v.arguments with
  | false, some o, .ok a =>
    match o.mutating, Json.lookup "confirmed" a.members with
    | true, some (.bool true) => (Change.of? a o).map (⟨v.now, v.scope, a.ns, a.name, ·⟩)
    | _, _ => none
  | _, _, _ => none

end Invocation

namespace Attempt

def apply (t : Attempt) (s : Store) : Except ClusterError Store :=
  t.change.apply t.now s t.scope.cluster.id t.ns t.name

def error? (t : Attempt) (s : Store) : Option ClusterError :=
  match t.apply s with
  | .ok _ => none
  | .error error => some error

def record (t : Attempt) (s : Store) : AuditRecord := t.change.record t.now t.scope t.ns t.name (t.error? s)

/-- The store behind the attempt: as it was unless the attempt succeeds. -/
def outcome (t : Attempt) (s : Store) : Store := (t.apply s).toOption.getD s

end Attempt

namespace Estate

def invoke (e : Estate) (v : Invocation) : Estate :=
  (e.execute v.now v.scope v.name v.arguments v.cancelled).2

def invokeAll (e : Estate) (calls : List Invocation) : Estate := calls.foldl invoke e

/-- The estate behind an attempt: the attempt is on record whatever it came to. -/
def attempt (e : Estate) (t : Attempt) : Estate := ⟨t.outcome e.store, e.audit ++ [t.record e.store]⟩

theorem change_snd (e : Estate) (t : Attempt) :
    (e.change t.now t.scope t.ns t.name t.change).2 = e.attempt t := by
  simp only [change, attempt, Attempt.outcome, Attempt.record, Attempt.error?, Attempt.apply]
  cases t.change.apply t.now e.store t.scope.cluster.id t.ns t.name <;> rfl

/-- What an attempt answers and what it leaves behind. -/
theorem change_eq (e : Estate) (t : Attempt) : e.change t.now t.scope t.ns t.name t.change
    = ((t.apply e.store).map fun _ => t.change.confirmation t.ns t.name, e.attempt t) := by
  refine Prod.ext ?_ (change_snd e t)
  rw [change, Attempt.apply]
  cases t.change.apply t.now e.store t.scope.cluster.id t.ns t.name <;> rfl

theorem confirmed_eq_true_iff (a : Arguments) :
    a.confirmed = true ↔ Json.lookup "confirmed" a.members = some (.bool true) := by
  rw [Arguments.confirmed, Arguments.get]
  cases Json.lookup "confirmed" a.members with
  | none => simp [Json.flag, Json.bool?]
  | some j => cases j <;> simp [Json.flag, Json.bool?]

/-- A call whose arguments are read makes its attempt or leaves everything as it is. -/
theorem run_snd (e : Estate) (now : Instant) (scope : Scope) (o : Operation) (a : Arguments) :
    (e.run now scope o a).2 =
      match o.mutating, Json.lookup "confirmed" a.members with
      | true, some (.bool true) =>
        ((Change.of? a o).map (⟨now, scope, a.ns, a.name, ·⟩)).elim e e.attempt
      | _, _ => e := by
  rw [run]
  cases hm : o.mutating with
  | false => rw [Change.of?_eq_none hm]
  | true =>
    obtain ⟨c, hc⟩ := Option.isSome_iff_exists.1 ((Change.of?_isSome a o).trans hm)
    rw [hc]
    by_cases h : a.confirmed = true
    · simp only [if_pos h, (confirmed_eq_true_iff a).1 h]
      exact change_snd e ⟨now, scope, a.ns, a.name, c⟩
    · simp only [if_neg h]
      split
      · rename_i hl
        exact absurd ((confirmed_eq_true_iff a).2 hl) h
      · rfl

theorem invoke_eq (e : Estate) (v : Invocation) : e.invoke v = v.attempt?.elim e e.attempt := by
  rw [invoke, execute, Invocation.attempt?]
  cases v.cancelled with
  | true => rfl
  | false =>
    cases Operation.ofName? v.name with
    | none => rfl
    | some o =>
      by_cases ho : o = .listNodes
      · subst ho
        cases Arguments.decode v.arguments <;> rfl
      · simp only [Bool.false_eq_true, if_false, if_neg ho]
        cases Arguments.decode v.arguments with
        | error error => rfl
        | ok a =>
          simp only [run_snd]
          split <;> rfl

theorem invokeAll_append (e : Estate) (calls calls' : List Invocation) :
    e.invokeAll (calls ++ calls') = (e.invokeAll calls).invokeAll calls' := List.foldl_append

theorem invokeAll_eq (e : Estate) (calls : List Invocation) :
    e.invokeAll calls = (calls.filterMap Invocation.attempt?).foldl attempt e := by
  induction calls generalizing e with
  | nil => rfl
  | cons v rest ih =>
    show (e.invoke v).invokeAll rest = _
    rw [ih, invoke_eq, List.filterMap_cons]
    cases v.attempt? <;> rfl

end Estate

end Helmsman
