import Helmsman.Proofs.Json.Extent
import Helmsman.Proofs.Reply.Effects
import Helmsman.Proofs.Reply.Telling
import Helmsman.Proofs.Tools.Form
import Mathlib.Data.List.Basic
/-!
# What is announced is what is done

A call is announced with the arguments that the console reads and run with those that its tool reads. The console trims
the text of whatever is blank and goes by the first character that is left; the tool takes the text as it is. Of a text
that holds an object both read the same (`embedJson_of_read`), since only JSON's own blanks can stand around one. So to
run a call is to do what was announced (`Estate.execute_eq_enact`), and what a reply has done can be told from its
events (`course_enacted`).
-/

namespace Helmsman

open Utf8 (encodeChars)

/-! ### Blanks around an object -/

theorem isBlank_of_isSpace {cs : List Char} (h : ∀ b ∈ encodeChars cs, Json.isSpace b = true) :
    ∀ c ∈ cs, Text.isBlank c = true := by
  intro c hc
  obtain ⟨b, hb⟩ : ∃ b, b ∈ String.utf8EncodeChar c :=
    List.exists_mem_of_ne_nil _ (List.ne_nil_of_length_pos (by rw [String.length_utf8EncodeChar]; exact c.utf8Size_pos))
  have hspace := h b (List.mem_flatMap_of_mem hc hb)
  simp only [Json.isSpace, Bool.or_eq_true, beq_iff_eq] at hspace
  have hcode : b.toNat = c.toNat := by
    rcases Utf8.of_mem_utf8EncodeChar hb with heq | hge
    · exact heq
    · rcases hspace with ((rfl | rfl) | rfl) | rfl <;> exact absurd hge (by decide)
  rw [Text.isBlank, ← hcode]
  rcases hspace with ((rfl | rfl) | rfl) | rfl <;> rfl

/-- A text that holds an object is the text of the object, from brace to brace, between blanks. -/
theorem exists_toList_of_object {raw : String} {members : List (String × Json)}
    (h : Json.read (Utf8.encode raw) = .ok (.object members)) :
    ∃ front inside back, raw.toList = front ++ '\x7b' :: (inside ++ ['\x7d']) ++ back
      ∧ (∀ c ∈ front, Text.isBlank c = true) ∧ (∀ c ∈ back, Text.isBlank c = true)
      ∧ Json.read (encodeChars ('\x7b' :: (inside ++ ['\x7d']))) = .ok (.object members) := by
  obtain ⟨before, used, behind, htext, hbefore, hbehind, hread⟩ := Json.exists_extent_of_object h
  obtain ⟨front, c, later, hraw, hc, rfl, hlater⟩ := Utf8.exists_of_encodeChars_eq_append (by decide) htext
  obtain ⟨inside, c', back, rfl, hc', rfl, rfl⟩ := Utf8.exists_of_encodeChars_eq_append (by decide) hlater
  obtain rfl : c = '\x7b' := Char.toNat_inj.1 hc
  obtain rfl : c' = '\x7d' := Char.toNat_inj.1 hc'
  refine ⟨front, inside, back, by simp [hraw], isBlank_of_isSpace hbefore, isBlank_of_isSpace hbehind, ?_⟩
  rw [Utf8.encodeChars_cons, Utf8.encodeChars_append]
  exact hread

theorem embedJson_of_read {raw : String} {members : List (String × Json)}
    (h : Json.read (Utf8.encode raw) = .ok (.object members)) : embedJson raw = (Json.object members).canonical := by
  obtain ⟨front, inside, back, hraw, hfront, hback, hread⟩ := exists_toList_of_object h
  have htrim : Text.trim raw = String.ofList ('\x7b' :: (inside ++ ['\x7d'])) := by
    rw [Text.trim, hraw]
    refine congrArg String.ofList (Text.trimChars_append hfront hback (List.cons_ne_nil _ _) ?_ ?_)
    · intro c hc
      obtain rfl := Option.some.inj hc
      decide
    · intro c hc
      rw [← List.cons_append, List.getLast?_concat] at hc
      obtain rfl := Option.some.inj hc
      decide
  have hchars : (String.ofList ('\x7b' :: (inside ++ ['\x7d']))).toList = '\x7b' :: (inside ++ ['\x7d']) :=
    String.toList_ofList
  rw [embedJson, htrim, hchars]
  dsimp only
  rw [if_pos (by decide), Json.parse, Utf8.encode_ofList, hread]
  rfl

/-! ### Calls -/

/-- A text that is taken for arguments, and is not one of those that count as no arguments. -/
def Arguments.Taken (raw : String) : Prop := (∃ a, Arguments.decode raw = .ok a) ∧ Text.isBlankText raw = false
  ∧ Json.read (Utf8.encode raw) ≠ .ok .null

theorem Arguments.Taken.exists_read {raw : String} (h : Taken raw) :
    ∃ members, Json.read (Utf8.encode raw) = .ok (.object members) := by
  obtain ⟨⟨a, ha⟩, hblank, hnull⟩ := h
  rcases text_cases raw with hobject | hempty | hrefused
  · exact hobject
  · rcases hempty with hblank' | hnull'
    · exact absurd (hblank'.symm.trans hblank) (by decide)
    · exact absurd hnull' hnull
  · obtain ⟨reason, hreason⟩ := hrefused.decode
    exact absurd (ha.symm.trans hreason) (by simp)

namespace Estate

/-- A call as it was announced, with the members of what was shown for its arguments. -/
def enact (now : Instant) (scope : Scope) (name : String) (shown : Json) (e : Estate) :
    Except CallFailure String × Estate :=
  match Operation.ofName? name with
  | none => (.error (.tool (.unknownTool name)), e)
  | some o =>
    let (answer, e) := e.run now scope o ⟨shown.members?.getD []⟩
    (answer.map Json.render, e)

theorem execute_eq_enact {raw : String} (h : Arguments.Taken raw) (now : Instant) (scope : Scope) (name : String)
    (e : Estate) : e.execute now scope name raw false = e.enact now scope name (embedJson raw) := by
  obtain ⟨members, hread⟩ := h.exists_read
  have hdecode : Arguments.decode raw = .ok (.ofObject members) := Arguments.decode_of_read hread
  have hshown : embedJson raw = .object (Arguments.ofObject members).members := embedJson_of_read hread
  rw [hshown]
  cases ho : Operation.ofName? name with
  | none => simp [execute, enact, ho]
  | some o =>
    simp only [execute, enact, ho, Bool.false_eq_true, if_false]
    by_cases hnodes : o = .listNodes
    · -- A list of nodes asks for no field.
      have hrun : e.run now scope o ⟨[]⟩ = e.run now scope o (.ofObject members) :=
        run_congr (by rw [hnodes]; rfl) now scope e
      rw [if_pos hnodes]
      dsimp only
      rw [hrun]
      rfl
    · rw [if_neg hnodes, hdecode]
      rfl

end Estate

namespace Reply

variable {a : Assignment}

/-- A call is announced, and unless the reply ends there, run and told of. -/
theorem answerCalls_single (call : ToolCall) (c : Course) :
    (answerCalls a [call]).Ensures c
      (fun _ c' => ∃ answer : Except ToolError String, (c.run a call).1 = answer.mapError .tool
        ∧ c'.events = c.events ++ [(Step.call call).progress, (Step.result call (resultText answer)).progress]
        ∧ c'.estate = (c.run a call).2)
      (fun _ c' => c'.events = c.events ++ [(Step.call call).progress] ∧ c'.estate = c.estate) := by
  have hemit : ∀ (c : Course) (s : Step), (c.emit a.pace s).events = c.events ++ [s.progress] := fun c s =>
    Course.events_foldl_emit a.pace [s] c
  rw [answerCalls]
  refine Act.ensures_bind (Act.ensures_emit (Act.ensures_bind (Act.ensures_pause (fun time => ?_) ?_ ?_)))
  · refine Act.ensures_bind (Act.ensures_execute (fun answer hanswer => ?_) fun _ => ?_)
    · refine Act.ensures_bind (Act.ensures_emit (Act.ensures_bind ?_))
      rw [answerCalls]
      refine Act.ensures_pure (Act.ensures_pure ⟨answer, hanswer, ?_, rfl⟩)
      rw [hemit]
      show (c.emit a.pace (.call call)).events ++ _ = _
      rw [hemit, List.append_assoc]
      rfl
    · exact ⟨hemit c (.call call), rfl⟩
  · exact fun time i _ => ⟨hemit c (.call call), rfl⟩
  · exact fun hnone => absurd hnone (by simp)

/-- **What is shown is what is executed.** A text that is taken for arguments, and is neither blank nor `null`, holds an
object. The event of the call shows that object in canonical form, and this is also what the arguments are decoded to:
each field of a form is read from what is shown, and to run the call is to enact what is shown. So within a reply:
unless it ends behind the announcement, the estate and the answer are those of what was announced. -/
theorem shown_is_executed {call : ToolCall} {args : Arguments} (h : Arguments.decode call.arguments = .ok args)
    (hblank : Text.isBlankText call.arguments = false) (hnull : Json.read (Utf8.encode call.arguments) ≠ .ok .null) :
    (∃ members, Json.read (Utf8.encode call.arguments) = .ok (.object members)
      ∧ Json.object args.members = (Json.object members).canonical)
    ∧ (Step.call call).progress = .toolCall call.id call.name (.object args.members)
    ∧ (∀ form : Arguments.Form, form.read call.arguments
      = .ok (form.map fun f => Arguments.reading f.2 ((embedJson call.arguments).get? f.1)))
    ∧ (∀ now scope (e : Estate), e.execute now scope call.name call.arguments false
      = e.enact now scope call.name (.object args.members))
    ∧ ∀ (a : Assignment) (c : Course), (answerCalls a [call]).Ensures c
      (fun _ c' => ∃ answer : Except ToolError String,
        (c.estate.enact a.now a.scope call.name (.object args.members)).1 = answer.mapError .tool
        ∧ c'.events = c.events ++ [.toolCall call.id call.name (.object args.members),
          .ofToolResult call.id call.name (resultText answer)]
        ∧ c'.estate = (c.estate.enact a.now a.scope call.name (.object args.members)).2)
      (fun _ c' => c'.events = c.events ++ [.toolCall call.id call.name (.object args.members)]
        ∧ c'.estate = c.estate) := by
  have htaken : Arguments.Taken call.arguments := ⟨⟨args, h⟩, hblank, hnull⟩
  obtain ⟨members, hread⟩ := htaken.exists_read
  obtain rfl : Arguments.ofObject members = args := Except.ok.inj ((Arguments.decode_of_read hread).symm.trans h)
  have hshown : embedJson call.arguments = .object (Arguments.ofObject members).members := embedJson_of_read hread
  have hexecute : ∀ now scope (e : Estate), e.execute now scope call.name call.arguments false
      = e.enact now scope call.name (.object (Arguments.ofObject members).members) := fun now scope e => by
    rw [← hshown, Estate.execute_eq_enact htaken]
  have hprogress : (Step.call call).progress
      = .toolCall call.id call.name (.object (Arguments.ofObject members).members) := by
    rw [← hshown]
    rfl
  refine ⟨⟨members, hread, rfl⟩, hprogress, fun form => ?_, hexecute, fun a c => ?_⟩
  · rw [form.read_of_object hread]
    refine congrArg Except.ok (List.map_congr_left fun f _ => ?_)
    rw [embedJson_of_read hread, ← Arguments.reading_map_canonical]
    exact congrArg _ (Json.lookup_canonical f.1 members).symm
  · have hsingle := answerCalls_single (a := a) call c
    rwa [Course.run, hexecute, hprogress] at hsingle

/-- A key twice, a number as a text, and blanks wherever they may stand. -/
def spacedCall : ToolCall where
  id := "call_1"
  kind := "function"
  name := "scale_deployment"
  arguments := "\n \x7b \"name\":\"api\",\"replicas\" :\"3\"\r, \"confirmed\":true,\"name\":\"web\"\x7d\t"

def spacedMembers : List (String × Json) :=
  [("name", .string "api"), ("replicas", .string "3"), ("confirmed", .bool true), ("name", .string "web")]

/-- Whether what has been read is an object with these members. -/
def isSpaced : Except Json.Fault Json → Bool
  | .ok (.object [(k₁, .string s₁), (k₂, .string s₂), (k₃, .bool b), (k₄, .string s₄)]) =>
    decide ([k₁, s₁, k₂, s₂, k₃, k₄, s₄] = ["name", "api", "replicas", "3", "confirmed", "name", "web"]) && b
  | _ => false

theorem read_spacedCall : Json.read (Utf8.encode spacedCall.arguments) = .ok (.object spacedMembers) := by
  have h : isSpaced (Json.read (Utf8.encode spacedCall.arguments)) = true := by decide +kernel
  rw [isSpaced.eq_def] at h
  split at h
  · simp_all [spacedMembers]
  · cases h

/-- What is shown of the call, what its form reads, and what is done with it. -/
theorem spacedCall_executed :
    (Step.call spacedCall).progress = .toolCall "call_1" "scale_deployment"
      (.object [("confirmed", .bool true), ("name", .string "web"), ("replicas", .string "3")])
    ∧ (Arguments.Form.scaling ++ Arguments.Form.confirmation).read spacedCall.arguments
      = .ok [.text "", .text "web", .count 3, .flag true]
    ∧ ∀ now scope (e : Estate), e.execute now scope "scale_deployment" spacedCall.arguments false
      = e.enact now scope "scale_deployment"
        (.object [("confirmed", .bool true), ("name", .string "web"), ("replicas", .string "3")]) := by
  have hdecode : Arguments.decode spacedCall.arguments = .ok (.ofObject spacedMembers) :=
    Arguments.decode_of_read read_spacedCall
  have hnull : Json.read (Utf8.encode spacedCall.arguments) ≠ .ok .null := by
    rw [read_spacedCall]
    simp
  obtain ⟨-, hshown, hfields, hexecute, -⟩ := shown_is_executed hdecode (by decide +kernel) hnull
  refine ⟨hshown, ?_, hexecute⟩
  rw [hfields, embedJson_of_read read_spacedCall, Except.ok.injEq]
  decide +kernel

/-! ### Replies -/

/-- The calls that have a result among events, as they were announced right before it. -/
def enacted (announced : Option (String × Json)) : List Progress → List (String × Json)
  | [] => []
  | .toolCall _ name arguments :: es => enacted (some (name, arguments)) es
  | .toolResult .. :: es => announced.toList ++ enacted none es
  | .content _ :: es | .error _ :: es | .done :: es => enacted none es

/-- A call as it is announced. -/
def announced (call : ToolCall) : String × Json := (call.name, embedJson call.arguments)

/-- Steps behind which a console knows of the calls with a result among them what was announced. -/
def Heralded (made : List Step) : Prop := ∀ pending es,
  enacted pending (es ++ made.map Step.progress) = enacted pending es ++ (answered made).map announced

namespace Heralded

theorem nil : Heralded [] := fun pending es => by simp [answered]

theorem append {made made' : List Step} (h : Heralded made) (h' : Heralded made') : Heralded (made ++ made') := by
  intro pending es
  rw [List.map_append, ← List.append_assoc, h', h, answered_append, List.map_append, List.append_assoc]

/-- A step that tells of no result. -/
theorem single {s : Step} (h : s.answered? = none) : Heralded [s] := by
  intro pending es
  have hnone : (answered [s]).map announced = [] := by
    rw [answered, List.filterMap_cons_none h]
    rfl
  rw [hnone, List.append_nil]
  induction es generalizing pending with
  | nil =>
    cases s with
    | result => cases h
    | _ => rfl
  | cons e es ih =>
    cases e with
    | toolResult => exact congrArg (pending.toList ++ ·) (ih none)
    | _ => exact ih _

theorem told (p : ToolCall × String) : Heralded (told p) := by
  intro pending es
  induction es generalizing pending with
  | nil => rfl
  | cons e es ih =>
    cases e with
    | toolResult => exact (congrArg (pending.toList ++ ·) (ih none)).trans (List.append_assoc ..).symm
    | _ => exact ih _

theorem flatMap {α : Type} {f : α → List Step} (h : ∀ x, Heralded (f x)) (xs : List α) : Heralded (xs.flatMap f) := by
  induction xs with
  | nil => exact nil
  | cons x xs ih => exact (h x).append ih

theorem texts (texts : List String) : Heralded (texts.map Step.content) := by
  rw [List.map_eq_flatMap]
  exact flatMap (fun text => single rfl) texts

theorem closing (halt : Option Halt) : Heralded (closing halt) := by
  match halt with
  | none | some (.interrupted .cancelled) => exact single rfl
  | some (.interrupted .deadline) | some (.failed _) => exact (single rfl).append (single (s := .done) rfl)
  | some .stuck | some .crashed => exact nil

end Heralded

/-- The estate is as the results so far have left it, and all of them were heralded. -/
structure Kept (a : Assignment) (e : Estate) (c : Course) : Prop where
  estate : c.estate = a.replay c.steps e
  heralded : Heralded c.steps

theorem Kept.leads {e : Estate} {made : List Step} {c c' : Course} (h : Kept a e c) (hleads : Leads a c made c')
    (hmade : Heralded made) : Kept a e c' := ⟨hleads.replay h.estate, hleads.steps ▸ h.heralded.append hmade⟩

theorem Kept.rounded {e : Estate} {n : Nat} {messages : List Message} {r : Except Halt (Option (List Message))}
    {c c' : Course} (h : Kept a e c) (hround : Rounded a n messages c r c') : Kept a e c' := by
  have hasked : Kept a e (c.ask messages) := ⟨h.estate, h.heralded⟩
  have htells : ∀ {c₁ : Course}, Kept a e c₁ → Tells a c₁ c' → Kept a e c' := by
    rintro c₁ h₁ ⟨texts, hleads⟩
    exact h₁.leads hleads (.texts texts)
  cases hround with
  | unasked quits => exact htells h quits.tells
  | broken quits => exact htells hasked quits.tells
  | satisfied tells => exact htells hasked tells
  | cut _ _ _ _ hleads =>
    exact hasked.leads hleads ((Heralded.texts _).append ((Heralded.flatMap .told _).append (.single rfl)))
  | answered _ _ _ hleads => exact hasked.leads hleads ((Heralded.texts _).append (.flatMap .told _))

theorem course_kept (a : Assignment) (e : Estate) : Kept a e (course a e) := by
  have hstart : Kept a e (.start e) := ⟨rfl, .nil⟩
  have hending : Kept a e (ending a e).2 := by
    refine ending_of_carries (fun _ _ c => Kept a e c) (fun _ => Kept a e) e ?_ (fun _ => hstart) (fun _ _ => hstart)
      fun _ _ => hstart
    exact {
      limit := fun h => h
      satisfied := fun h hround => h.rounded hround
      ended := fun h hround => h.rounded hround
      next := fun h hround => h.rounded hround }
  exact hending.leads (Leads.foldl_emit _ (answered_closing _)) (.closing _)

/-- **What a reply has done can be told from its events.** Where the text of each call that was run is taken for
arguments, the calls as they were announced, enacted in order, leave behind what the reply has left. -/
theorem course_enacted (a : Assignment) (e : Estate)
    (h : ∀ call ∈ answered (course a e).steps, Arguments.Taken call.arguments) :
    (course a e).estate = (enacted none (course a e).events).foldl
      (fun e p => (e.enact a.now a.scope p.1 p.2).2) e := by
  obtain ⟨hestate, hheralded⟩ := course_kept a e
  have hevents : enacted none (course a e).events = (answered (course a e).steps).map announced := hheralded none []
  rw [hevents, hestate, Assignment.replay, Estate.invokeAll, List.foldl_map, List.foldl_map]
  refine List.foldl_ext _ _ e fun e call hcall => ?_
  dsimp only [Estate.invoke, Assignment.invocation, announced]
  rw [Estate.execute_eq_enact (h call hcall)]

end Reply

end Helmsman
