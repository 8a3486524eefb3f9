import Helmsman.Proofs.Estate.Gate
/-!
# Forms

A form is refused only if the text is no object: whether and why depends on the text alone and not on the form. What is
read into a field is the last member of its key, and the field's default where that is missing or of another type
(`fill_ofObject`). So neither the order of the members nor any other key makes a difference, and a call depends on the
values of its form and on nothing else in its text (`execute_congr`).
-/

namespace Helmsman

namespace Arguments

open Json (lookup)

/-! ### A field -/

/-- A number without its fraction, within 32 bits. Only a finite one counts. -/
def clamped (x : Binary64) : Option Int := x.trunc?.map fun n => max Word.lowest32 (min n Word.highest32)

namespace Kind

/-- What a field of this kind takes from a value that has the expected type. -/
def value? : Kind → Json → Option Value
  | .text, .string s => some (.text s)
  | .flag, .bool b => some (.flag b)
  | .count, .number n => (clamped n.toBinary64).map .count
  | .count, .string s => ((Decimal.readBinary64? (Text.trim s)).bind clamped).map .count
  | _, _ => none

def default : Kind → Value
  | .text => .text ""
  | .count => .count 0
  | .flag => .flag false

end Kind

/-- What a member, or none, is read as. -/
def reading (kind : Kind) (member : Option Json) : Value := (member.bind kind.value?).getD kind.default

theorem field_eq (a : Arguments) (key : String) (kind : Kind) : a.field key kind = reading kind (some (a.get key)) := by
  cases kind with
  | text =>
    rw [field, text]
    cases a.get key <;> rfl
  | flag =>
    rw [field]
    cases a.get key <;> rfl
  | count =>
    rw [field, int32]
    cases a.get key with
    | number n =>
      dsimp only [reading, Option.bind_some, Kind.value?, clamped]
      cases n.toBinary64.trunc? <;> rfl
    | string s =>
      dsimp only [reading, Option.bind_some, Kind.value?]
      cases Decimal.readBinary64? (Text.trim s) with
      | none => rfl
      | some x =>
        dsimp only [Option.bind_some, clamped]
        cases x.trunc? <;> rfl
    | _ => rfl

theorem reading_canonical (kind : Kind) (member : Option Json) :
    reading kind (some ((member.map Json.canonical).getD .null)) = reading kind member := by
  cases member with
  | none => cases kind <;> rfl
  | some j => cases j <;> cases kind <;> rfl

theorem reading_map_canonical (kind : Kind) (member : Option Json) :
    reading kind (member.map Json.canonical) = reading kind member := by
  cases member with
  | none => rfl
  | some j => cases j <;> cases kind <;> rfl

theorem fill_ofObject (form : Form) (members : List (String × Json)) :
    (ofObject members).fill form = form.map fun f => reading f.2 (lookup f.1 members) := by
  apply List.map_congr_left
  intro f hf
  rw [field_eq, get_ofObject, reading_canonical]

/-! ### A text -/

/-- A text that is neither blank nor read as an object or as `null`. -/
def Refused (raw : String) : Prop := Text.isBlankText raw = false
  ∧ ((∃ f, Json.read (Utf8.encode raw) = .error f)
    ∨ ∃ j, Json.read (Utf8.encode raw) = .ok j ∧ j ≠ .null ∧ ∀ members, j ≠ .object members)

theorem Refused.decode {raw : String} (h : Refused raw) :
    ∃ reason, Arguments.decode raw = .error (.invalidArguments reason) := by
  obtain ⟨hblank, ⟨f, hread⟩ | ⟨j, hread, hnull, hobject⟩⟩ := h
  · exact ⟨_, by simp only [Arguments.decode, hblank, hread, Bool.false_eq_true, if_false]; rfl⟩
  · cases j with
    | null => exact absurd rfl hnull
    | object members => exact absurd rfl (hobject members)
    | _ => exact ⟨_, by simp [Arguments.decode, hblank, hread, Json.canonical]; rfl⟩

/-- Blank text and `null` count as an empty object. -/
theorem decode_of_empty {raw : String}
    (h : Text.isBlankText raw = true ∨ Json.read (Utf8.encode raw) = .ok .null) : decode raw = .ok (ofObject []) := by
  by_cases hblank : Text.isBlankText raw = true
  · rw [decode, if_pos hblank]
    rfl
  · simp only [decode, if_neg hblank, h.resolve_left hblank, Json.canonical]
    rfl

/-- A text holds an object, or it counts as an empty one, or it is refused. -/
theorem text_cases (raw : String) : (∃ members, Json.read (Utf8.encode raw) = .ok (.object members))
    ∨ (Text.isBlankText raw = true ∨ Json.read (Utf8.encode raw) = .ok .null) ∨ Refused raw := by
  cases hblank : Text.isBlankText raw with
  | true => exact .inr (.inl (.inl rfl))
  | false =>
    cases hread : Json.read (Utf8.encode raw) with
    | error f => exact .inr (.inr ⟨hblank, .inl ⟨f, hread⟩⟩)
    | ok j =>
      cases j with
      | object members => exact .inl ⟨members, rfl⟩
      | null => exact .inr (.inl (.inr rfl))
      | _ => exact .inr (.inr ⟨hblank, .inr ⟨_, hread, by simp, by simp⟩⟩)

/-- What a text gives for a call: the members of its object, and none if it counts as an empty one. -/
inductive Given (raw : String) : List (String × Json) → Prop
  | object {members : List (String × Json)} (h : Json.read (Utf8.encode raw) = .ok (.object members)) :
    Given raw members
  | nothing (h : Text.isBlankText raw = true ∨ Json.read (Utf8.encode raw) = .ok .null) : Given raw []

theorem Given.decode {raw : String} {members : List (String × Json)} (h : Given raw members) :
    Arguments.decode raw = .ok (ofObject members) := by
  cases h with
  | object h => exact decode_of_read h
  | nothing h => exact decode_of_empty h

/-- The text for a key, which is empty where there is no member or one that is no text. -/
def textFor (key : String) (members : List (String × Json)) : String :=
  ((lookup key members).bind Json.string?).getD ""

/-- Whether the members ask for this text under a key, or for none. -/
def admits (key : String) (members : List (String × Json)) (s : String) : Bool :=
  textFor key members == "" || textFor key members == s

theorem text_ofObject (key : String) (members : List (String × Json)) :
    (ofObject members).text key = textFor key members := by
  rw [text, get_ofObject, textFor]
  cases lookup key members with
  | none => rfl
  | some j => cases j <;> rfl

theorem all_filter_ofObject (key : String) (members : List (String × Json)) (s : String) :
    (((ofObject members).filter key).all fun t => t == s) = admits key members s := by
  rw [filter, text_ofObject, admits]
  cases hempty : (textFor key members).isEmpty with
  | true => simp [String.isEmpty_iff.1 hempty]
  | false =>
    have hne : textFor key members ≠ "" := fun h => by simp [h] at hempty
    simp [hne]

theorem ns_ofObject (members : List (String × Json)) : (ofObject members).ns = textFor "namespace" members :=
  text_ofObject _ _

theorem name_ofObject (members : List (String × Json)) : (ofObject members).name = textFor "name" members :=
  text_ofObject _ _

theorem inNamespace_ofObject (members : List (String × Json)) (ns : String) :
    inNamespace (ofObject members).nsFilter ns = admits "namespace" members ns :=
  all_filter_ofObject _ _ _

namespace Form

theorem read_of_object (form : Form) {raw : String} {members : List (String × Json)}
    (h : Json.read (Utf8.encode raw) = .ok (.object members)) :
    form.read raw = .ok (form.map fun f => reading f.2 (lookup f.1 members)) := by
  rw [read, decode_of_read h, Except.map, fill_ofObject]

theorem read_of_empty (form : Form) {raw : String}
    (h : Text.isBlankText raw = true ∨ Json.read (Utf8.encode raw) = .ok .null) :
    form.read raw = .ok (form.map fun f => f.2.default) := by
  rw [read, decode_of_empty h, Except.map, fill_ofObject]
  rfl

theorem read_of_refused {raw : String} (h : Refused raw) :
    ∃ reason, ∀ form : Form, form.read raw = .error (.invalidArguments reason) := by
  obtain ⟨reason, hreason⟩ := h.decode
  exact ⟨reason, fun form => by rw [read, hreason, Except.map]⟩

theorem read_eq_error (form : Form) (raw : String) : (∃ e, form.read raw = .error e) ↔ Refused raw := by
  constructor
  · rintro ⟨e, he⟩
    rcases text_cases raw with ⟨members, hread⟩ | hempty | hrefused
    · exact absurd ((form.read_of_object hread).symm.trans he) (by simp)
    · exact absurd ((form.read_of_empty hempty).symm.trans he) (by simp)
    · exact hrefused
  · intro h
    obtain ⟨reason, hreason⟩ := read_of_refused h
    exact ⟨_, hreason form⟩

/-- **Forms are lenient.** Every form refuses the same texts for the same reason: those that are not blank and that the
reader refuses, or that hold a value other than an object and `null`. In any other text each field is the last member of
its key, or the default where there is none or one of another type, so that two objects that have the same for the keys
of a form are read the same. -/
theorem read_lenient (form : Form) (raw : String) :
    ((∃ e, form.read raw = .error e) ↔ Refused raw)
    ∧ (∀ e, form.read raw = .error e →
      (∃ reason, e = .invalidArguments reason) ∧ ∀ form' : Form, form'.read raw = .error e)
    ∧ (Text.isBlankText raw = true ∨ Json.read (Utf8.encode raw) = .ok .null →
      form.read raw = .ok (form.map fun f => f.2.default))
    ∧ ∀ members, Json.read (Utf8.encode raw) = .ok (.object members) →
      form.read raw = .ok (form.map fun f => reading f.2 (lookup f.1 members))
      ∧ ∀ raw' members', Json.read (Utf8.encode raw') = .ok (.object members') →
        (∀ f ∈ form, lookup f.1 members' = lookup f.1 members) → form.read raw' = form.read raw := by
  refine ⟨form.read_eq_error raw, ?_, form.read_of_empty, fun members hread => ⟨form.read_of_object hread, ?_⟩⟩
  · intro e he
    obtain ⟨reason, hreason⟩ := read_of_refused ((form.read_eq_error raw).1 ⟨e, he⟩)
    obtain rfl : .invalidArguments reason = e := Except.error.inj ((hreason form).symm.trans he)
    exact ⟨⟨reason, rfl⟩, hreason⟩
  · intro raw' members' hread' hagree
    rw [form.read_of_object hread, form.read_of_object hread', Except.ok.injEq]
    apply List.map_congr_left
    intro f hf
    rw [hagree f hf]

/-- A key twice, a number for a text, and a text for a number. -/
def scrawl : List (String × Json) :=
  [("replicas", .string "3"), ("namespace", .bool true), ("name", .string "web"), ("replicas", .string " 8.5 ")]

theorem read_scrawl : Json.read (Utf8.encode (Json.object scrawl).render) = .ok (.object scrawl) := by
  refine Json.read_render (@Json.Readable.object 126 _ fun m hm => ?_)
  simp only [scrawl, List.mem_cons, List.not_mem_nil, or_false] at hm
  rcases hm with rfl | rfl | rfl | rfl <;> first | exact .string _ _ | exact .bool _ _

theorem scrawl_lenient : scaling.read (Json.object scrawl).render = .ok [.text "", .text "web", .count 8]
    ∧ scaling.read "\t" = .ok [.text "", .text "", .count 0]
    ∧ confirmation.read "null" = .ok [.flag false]
    ∧ (∃ reason, ∀ form : Form, form.read "true" = .error (.invalidArguments reason))
    ∧ ∀ raw' members', Json.read (Utf8.encode raw') = .ok (.object members') →
      (∀ f ∈ scaling, lookup f.1 members' = lookup f.1 scrawl) →
      scaling.read raw' = scaling.read (Json.object scrawl).render := by
  have hobject := (read_lenient scaling (Json.object scrawl).render).2.2.2 scrawl read_scrawl
  have hvalues : (scaling.map fun f => reading f.2 (lookup f.1 scrawl)) = [.text "", .text "web", .count 8] := by
    decide +kernel
  have hnull : Json.read (Utf8.encode "null") = .ok .null := by
    rw [← show Json.null.render = "null" by rfl]
    exact Json.read_render (.null _)
  have htrue : Json.read (Utf8.encode "true") = .ok (.bool true) := by
    rw [← show (Json.bool true).render = "true" by rfl]
    exact Json.read_render (.bool _ true)
  obtain ⟨e, he⟩ := (read_lenient place "true").1.2 ⟨by decide, .inr ⟨_, htrue, by simp, by simp⟩⟩
  obtain ⟨⟨reason, rfl⟩, hsame⟩ := (read_lenient place "true").2.1 e he
  exact ⟨hobject.1.trans (congrArg _ hvalues), (read_lenient scaling "\t").2.2.1 (.inl (by decide)),
    (read_lenient confirmation "null").2.2.1 (.inr hnull), ⟨reason, hsame⟩, hobject.2⟩

end Form

end Arguments

/-! ### A call -/

/-- The form that an operation reads from its arguments. -/
def Operation.form : Operation → Arguments.Form
  | .listPods | .listDeployments | .listServices | .listIngresses => .place
  | .getPodDetail | .getDeploymentDetail => .resource
  | .getPodLogs => .logs
  | .listNodes => []
  | .getNodeDetail => .node
  | .listEvents => .events
  | .scaleDeployment => .scaling ++ .confirmation
  | .restartDeployment => .resource ++ .confirmation

namespace Estate

variable {o : Operation}

/-- An operation looks at the fields of its form only. -/
theorem run_congr {a a' : Arguments} (h : a.fill o.form = a'.fill o.form) (now : Instant) (scope : Scope) (e : Estate) :
    e.run now scope o a = e.run now scope o a' := by
  cases o <;> simp only [Operation.form, Arguments.fill, Arguments.Form.place, Arguments.Form.resource,
    Arguments.Form.node, Arguments.Form.logs, Arguments.Form.events, Arguments.Form.scaling,
    Arguments.Form.confirmation, Arguments.field, List.map_cons, List.map_nil, List.cons_append, List.nil_append,
    List.cons.injEq, Arguments.Value.text.injEq, Arguments.Value.count.injEq, Arguments.Value.flag.injEq, and_true] at h
  case getPodLogs =>
    obtain ⟨hns, hname, hcontainer⟩ := h
    have hreport : Report.podLogs a = Report.podLogs a' := by
      funext log
      simp only [Report.podLogs, Arguments.ns, Arguments.name, Arguments.containerFilter, Arguments.filter, hns, hname,
        hcontainer]
    simp only [run, Change.of?, Operation.read, Arguments.ns, Arguments.name, Arguments.containerFilter,
      Arguments.filter, hns, hname, hcontainer, hreport]
  case listEvents =>
    obtain ⟨hns, hresource⟩ := h
    have hreport : Report.happenings now a = Report.happenings now a' := by
      funext all
      simp only [Report.happenings, Arguments.resourceFilter, Arguments.filter, hresource]
    simp only [run, Change.of?, Operation.read, Arguments.nsFilter, Arguments.filter, hns, hreport]
  case scaleDeployment =>
    obtain ⟨hns, hname, hreplicas, hconfirmed⟩ := h
    dsimp only [run, Change.of?]
    rw [Arguments.ns, Arguments.name, Arguments.replicas, Arguments.confirmed, hns, hname, hreplicas, hconfirmed]
    rfl
  case restartDeployment =>
    obtain ⟨hns, hname, hconfirmed⟩ := h
    dsimp only [run, Change.of?]
    rw [Arguments.ns, Arguments.name, Arguments.confirmed, hns, hname, hconfirmed]
    rfl
  all_goals simp only [run, Change.of?, Operation.read, Arguments.ns, Arguments.name, Arguments.nsFilter,
    Arguments.filter, h]

/-- Two texts in which a form has the same values call for the same. -/
theorem execute_congr {raw raw' : String} (h : o.form.read raw = o.form.read raw') (now : Instant) (scope : Scope)
    (cancelled : Bool) (e : Estate) :
    e.execute now scope o.name raw cancelled = e.execute now scope o.name raw' cancelled := by
  by_cases hnodes : o = .listNodes
  · simp only [execute, Operation.ofName?_name, if_pos hnodes]
  · simp only [execute, Operation.ofName?_name, if_neg hnodes]
    rw [Arguments.Form.read, Arguments.Form.read] at h
    cases hraw : Arguments.decode raw with
    | error error =>
      cases hraw' : Arguments.decode raw' with
      | error error' =>
        rw [hraw, hraw'] at h
        rw [Except.error.inj h]
      | ok a' =>
        rw [hraw, hraw'] at h
        exact absurd h (by simp [Except.map])
    | ok a =>
      cases hraw' : Arguments.decode raw' with
      | error error' =>
        rw [hraw, hraw'] at h
        exact absurd h (by simp [Except.map])
      | ok a' =>
        rw [hraw, hraw'] at h
        simp only [run_congr (Except.ok.inj h)]

end Estate

end Helmsman
