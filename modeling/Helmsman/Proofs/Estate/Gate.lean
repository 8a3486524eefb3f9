import Helmsman.Proofs.Estate.Attempt
import Helmsman.Proofs.Json.Canonical
import Helmsman.Proofs.Tools.Arguments
/-!
# The gate before a change

A call that would change something does so only if its arguments confirm it. Without that it answers which change it is
about and leaves everything as it is. The same arguments, confirmed, then attempt just that change, since nothing else
that is read from them has to do with the confirmation.
-/

namespace Helmsman

theorem Operation.ofName?_name (o : Operation) : ofName? o.name = some o := by cases o <;> rfl

theorem Operation.name_injective {o o' : Operation} (h : o.name = o'.name) : o = o' :=
  Option.some.inj ((ofName?_name o).symm.trans (h ▸ ofName?_name o'))

namespace Change

def replicas? : Change → Option Int
  | .scale replicas => some replicas
  | .restart => none

/-- A value that says that a change awaits its confirmation, and which change it is. -/
structure AnnouncedBy (ns name : String) (c : Change) (j : Json) : Prop where
  status : j.get? "status" = some (.string "awaiting_confirmation")
  action : j.get? "action" = some (.string c.operation.name)
  ns : j.get? "namespace" = some (.string ns)
  name : j.get? "name" = some (.string name)
  replicas : j.get? "target_replicas" = c.replicas?.map Json.ofInt

/-- What is announced is one change to one deployment. -/
theorem AnnouncedBy.unique {ns ns' name name' : String} {c c' : Change} {j : Json} (h : AnnouncedBy ns name c j)
    (h' : AnnouncedBy ns' name' c' j) : ns' = ns ∧ name' = name ∧ c' = c := by
  have hns := h'.ns.symm.trans h.ns
  have hname := h'.name.symm.trans h.name
  have haction := h'.action.symm.trans h.action
  have hreplicas := h'.replicas.symm.trans h.replicas
  simp only [Option.some.injEq, Json.string.injEq] at hns hname haction
  have hoperation := Operation.name_injective haction
  refine ⟨hns, hname, ?_⟩
  cases c <;> cases c' <;> simp_all [operation, replicas?, Json.ofInt]

theorem request_announces (ns name : String) (c : Change) : AnnouncedBy ns name c (c.request ns name) := by
  cases c <;> refine ⟨?_, ?_, ?_, ?_, ?_⟩ <;> rw [request, Json.get?_ofMembers] <;> rfl

theorem request_stable (ns name : String) {c : Change}
    (h : ∀ n, c.replicas? = some n → Word.lowest32 ≤ n ∧ n ≤ Word.highest32) :
    Json.Stable Json.depthLimit (c.request ns name) := by
  cases c with
  | scale n =>
    obtain ⟨hlow, hhigh⟩ := h n rfl
    have hint : Json.Stable 127 (Json.ofInt n) :=
      .int _ (Int.le_trans (by decide) hlow) (Int.le_trans hhigh (by decide))
    refine .ofMembers ?_
    simp only [List.cons_append, List.nil_append, List.forall_mem_cons]
    exact ⟨.string _ _, .string _ _, .string _ _, .string _ _, .string _ _, hint, List.forall_mem_nil _⟩
  | restart =>
    refine .ofMembers ?_
    simp only [List.append_nil, List.forall_mem_cons]
    exact ⟨.string _ _, .string _ _, .string _ _, .string _ _, .string _ _, List.forall_mem_nil _⟩

theorem of?_bounded {a : Arguments} {o : Operation} {c : Change} (h : of? a o = some c) (n : Int)
    (hn : c.replicas? = some n) : Word.lowest32 ≤ n ∧ n ≤ Word.highest32 := by
  cases o <;> simp only [of?, Option.some.injEq, reduceCtorEq] at h
  · subst h
    obtain rfl : a.replicas = n := Option.some.inj hn
    exact a.int32_bounds "replicas"
  · subst h
    exact absurd hn (by simp [replicas?])

/-- What is asked in place of a change is read as it is meant. -/
theorem read_request {a : Arguments} {o : Operation} {c : Change} (h : of? a o = some c) :
    Json.read (Utf8.encode (c.request a.ns a.name).render) = .ok (c.request a.ns a.name) :=
  Json.read_render (request_stable a.ns a.name (of?_bounded h)).readable

/-- The change does not depend on whether it is confirmed. -/
theorem of?_agreeOff {a a' : Arguments} (h : Arguments.AgreeOff "confirmed" a a') (o : Operation) :
    of? a' o = of? a o := by
  have hreplicas : a'.replicas = a.replicas := by
    rw [Arguments.replicas, Arguments.replicas, Arguments.int32, Arguments.int32, h "replicas" (by decide)]
  cases o <;> simp only [of?, hreplicas]

end Change

/-- What an attempt answers: the confirmation of the change, or why it failed. -/
def Attempt.answer (t : Attempt) (s : Store) : Except CallFailure String :=
  (((t.apply s).map fun _ => t.change.confirmation t.ns t.name).mapError .ofCluster).map Json.render

namespace Estate

variable {now : Instant} {scope : Scope} {o : Operation} {a : Arguments} {c : Change}

theorem run_unconfirmed (hc : Change.of? a o = some c) (h : a.confirmed ≠ true) (now : Instant) (scope : Scope)
    (e : Estate) : e.run now scope o a = (.ok (c.request a.ns a.name), e) := by
  rw [run, hc]
  exact if_neg h

theorem run_confirmed (hc : Change.of? a o = some c) (h : a.confirmed = true) (now : Instant) (scope : Scope)
    (e : Estate) : e.run now scope o a = ((e.change now scope a.ns a.name c).1.mapError .ofCluster,
      (e.change now scope a.ns a.name c).2) := by
  rw [run, hc]
  exact if_pos h

theorem execute_of_read {raw : String} {members : List (String × Json)} (hmutating : o.mutating = true)
    (hread : Json.read (Utf8.encode raw) = .ok (.object members)) (now : Instant) (scope : Scope) (e : Estate) :
    e.execute now scope o.name raw false
      = ((e.run now scope o (.ofObject members)).1.map Json.render, (e.run now scope o (.ofObject members)).2) := by
  have hnodes : o ≠ .listNodes := by
    rintro rfl
    exact absurd hmutating (by decide)
  simp only [execute, Operation.ofName?_name, if_neg hnodes, Arguments.decode_of_read hread, Bool.false_eq_true,
    if_false]

/-- The same object, but for the truth value for `confirmed`. -/
structure Confirms (members members' : List (String × Json)) : Prop where
  confirmed : Json.lookup "confirmed" members' = some (.bool true)
  others : ∀ key ≠ "confirmed", Json.lookup key members' = Json.lookup key members

theorem confirms_concat (members : List (String × Json)) :
    Confirms members (members ++ [("confirmed", .bool true)]) where
  confirmed := by
    rw [Json.lookup_concat]
    exact if_pos (beq_self_eq_true _)
  others key hne := by
    rw [Json.lookup_concat]
    exact if_neg (by simpa using hne.symm)

/-- **The gate is sound and truthful.** A call of a mutating operation whose object does not have the truth value itself
for `confirmed` changes nothing and announces the change that its arguments are about. Whatever its answer announces is
what the same object, confirmed, attempts, once and with one record, whenever and wherever that is called. -/
theorem execute_gated {raw : String} {members : List (String × Json)} (hmutating : o.mutating = true)
    (hread : Json.read (Utf8.encode raw) = .ok (.object members))
    (hunconfirmed : Json.lookup "confirmed" members ≠ some (.bool true)) (now : Instant) (scope : Scope) (e : Estate) :
    ∃ (text : String) (j : Json) (c : Change), e.execute now scope o.name raw false = (.ok text, e)
      ∧ Json.read (Utf8.encode text) = .ok j
      ∧ Change.of? (.ofObject members) o = some c
      ∧ c.AnnouncedBy (Arguments.ofObject members).ns (Arguments.ofObject members).name j
      ∧ ∀ (ns name : String) (c' : Change), c'.AnnouncedBy ns name j →
        ∀ (raw' : String) (members' : List (String × Json)),
          Json.read (Utf8.encode raw') = .ok (.object members') → Confirms members members' →
          ∀ (now' : Instant) (scope' : Scope) (e' : Estate), e'.execute now' scope' o.name raw' false
            = ((⟨now', scope', ns, name, c'⟩ : Attempt).answer e'.store, e'.attempt ⟨now', scope', ns, name, c'⟩) := by
  obtain ⟨c, hc⟩ := Option.isSome_iff_exists.1 ((Change.of?_isSome (.ofObject members) o).trans hmutating)
  have hannounced := Change.request_announces (Arguments.ofObject members).ns (Arguments.ofObject members).name c
  refine ⟨_, _, c, ?_, Change.read_request hc, hc, hannounced, ?_⟩
  · have hasks : (Arguments.ofObject members).confirmed ≠ true := fun h =>
      hunconfirmed ((Arguments.confirmed_ofObject members).1 h)
    rw [execute_of_read hmutating hread, run_unconfirmed hc hasks]
    rfl
  · intro ns name c' h raw' members' hread' hconfirms now' scope' e'
    obtain ⟨rfl, rfl, rfl⟩ := hannounced.unique h
    have hconfirmed := (Arguments.confirmed_ofObject members').2 hconfirms.confirmed
    have hagree := Arguments.agreeOff_ofObject hconfirms.others
    have hns : (Arguments.ofObject members').ns = (Arguments.ofObject members).ns :=
      congrArg Json.text (hagree "namespace" (by decide))
    have hname : (Arguments.ofObject members').name = (Arguments.ofObject members).name :=
      congrArg Json.text (hagree "name" (by decide))
    have hc' := (Change.of?_agreeOff hagree o).trans hc
    have hchange := change_eq e' ⟨now', scope', (Arguments.ofObject members).ns, (Arguments.ofObject members).name, c'⟩
    rw [execute_of_read hmutating hread', run_confirmed hc' hconfirmed, hns, hname, hchange]
    rfl

/-- An object that has two values for `confirmed`, the last of them a text. -/
def undecided : List (String × Json) :=
  [("confirmed", .bool true), ("namespace", .string "default"), ("name", .string "web"), ("replicas", .string "3"),
    ("confirmed", .string "yes")]

private theorem read_undecided (members : List (String × Json)) (h : ∀ m ∈ members, m.2 = .bool true) :
    Json.read (Utf8.encode (Json.object (undecided ++ members)).render) = .ok (.object (undecided ++ members)) := by
  refine Json.read_render (@Json.Readable.object 126 _ fun m hm => ?_)
  rcases List.mem_append.1 hm with hm | hm
  · simp only [undecided, List.mem_cons, List.not_mem_nil, or_false] at hm
    rcases hm with rfl | rfl | rfl | rfl | rfl <;> first | exact .string _ _ | exact .bool _ _
  · rw [h m hm]
    exact .bool _ _

def operator : Scope := ⟨⟨1, "production", "v1.29.0"⟩, "alice"⟩

/-- It is no confirmation, and announces what its confirmed copy attempts. -/
theorem undecided_gated : ∃ (text : String) (j : Json),
    ({} : Estate).execute ⟨19723, 0, 0⟩ operator "scale_deployment" (Json.object undecided).render false
        = (.ok text, {})
      ∧ Json.read (Utf8.encode text) = .ok j ∧ (Change.scale 3).AnnouncedBy "default" "web" j
      ∧ ∀ e : Estate, e.execute ⟨19723, 30, 0⟩ operator "scale_deployment"
          (Json.object (undecided ++ [("confirmed", .bool true)])).render false
        = ((⟨⟨19723, 30, 0⟩, operator, "default", "web", .scale 3⟩ : Attempt).answer e.store,
          e.attempt ⟨⟨19723, 30, 0⟩, operator, "default", "web", .scale 3⟩) := by
  have hread : Json.read (Utf8.encode (Json.object undecided).render) = .ok (.object undecided) :=
    read_undecided [] fun m hm => absurd hm List.not_mem_nil
  have hread' := read_undecided [("confirmed", .bool true)] fun m hm => by rw [List.mem_singleton.1 hm]
  have hlast : Json.lookup "confirmed" undecided = some (.string "yes") := rfl
  have hscale : Change.of? (.ofObject undecided) .scaleDeployment = some (.scale 3) := by decide +kernel
  have hns : (Arguments.ofObject undecided).ns = "default" := by decide +kernel
  have hname : (Arguments.ofObject undecided).name = "web" := by decide +kernel
  obtain ⟨text, j, c, hanswer, hj, hc, hannounced, hconfirmed⟩ := execute_gated (o := .scaleDeployment) rfl hread
    (by rw [hlast]; simp) ⟨19723, 0, 0⟩ operator {}
  obtain rfl : c = .scale 3 := Option.some.inj (hc.symm.trans hscale)
  rw [hns, hname] at hannounced
  exact ⟨text, j, hanswer, hj, hannounced,
    hconfirmed "default" "web" _ hannounced _ _ hread' (confirms_concat undecided) ⟨19723, 30, 0⟩ operator⟩

end Estate

end Helmsman
