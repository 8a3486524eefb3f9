import Helmsman.Proofs.Json.Members
import Helmsman.Proofs.Reply.Act
import Helmsman.Reply.Loop
/-!
# The built-in prompt

Besides text, the built-in template has only paths in it, one loop and one condition (`parse_builtIn`). Each path leads
to a string or a truth value of the context, wherever it stands (`Scope.find?_atTop`, `Scope.find?_atTurn`). A string
is inserted as it is: nothing in it is escaped, and nothing of what is inserted is read as a template again. So what the
prompt says is known for every cluster and every list of tools (`render_builtIn`), and that there is one.
-/

namespace Helmsman

namespace Template

open Json (lookup)

/-! ### Paths -/

/-- A path as it stands, without filters or a negation. -/
def pathExpr (head : String) (keys : List String) : Expr := .ofTerm (.path ⟨head, keys.map .key⟩)

theorem keysOf?_map_key (s : Scope) (keys : List String) : keysOf? s (keys.map .key) = some keys := by
  induction keys with
  | nil => rw [List.map_nil, keysOf?]
  | cons key keys ih => rw [List.map_cons, keysOf?, ih, Option.map_some]

theorem resolve_path {s : Scope} {head : String} {keys : List String} {j : Json} (h : s.find? head keys = some j) :
    resolve s ⟨head, keys.map .key⟩ = .ok j := by
  rw [resolve, keysOf?_map_key, Option.bind_some, h]

theorem eval_path {s : Scope} {head : String} {keys : List String} {j : Json} (h : s.find? head keys = some j)
    (fuel : Nat) : eval (fuel + 2) s (pathExpr head keys) = .ok j := by
  rw [eval]
  simp [pathExpr, Expr.ofTerm, Expr.term, Expr.filters, Expr.negated, resolve_path h, defaultOf?, evalFilters]
  rfl

theorem valueOf_path {s : Scope} {head : String} {keys : List String} {j : Json} (h : s.find? head keys = some j) :
    valueOf s (pathExpr head keys) = .ok j := eval_path h _

theorem truthOf_path {s : Scope} {head : String} {keys : List String} {j : Json} (h : s.find? head keys = some j) :
    truthOf s (pathExpr head keys) = .ok (isTrue j) := by
  have hvalue : eval (4 * (pathExpr head keys).size + 7) s (pathExpr head keys) = .ok j := eval_path h _
  have hterm : (pathExpr head keys).term = .path ⟨head, keys.map .key⟩ := rfl
  have hnegated : (pathExpr head keys).negated = false := rfl
  rw [truthOf, stepsFor, evalBool]
  simp only [hterm, hnegated, hvalue]
  rfl

/-! ### Scopes -/

/-- The scope that a template is rendered in. -/
def Scope.top (members : List (String × Json)) : Scope := ⟨[{}], members⟩

theorem Scope.find?_atTop (members : List (String × Json)) (head : String) :
    (top members).find? head [] = lookup head members := by
  rw [find?]
  show (lookup head members).bind _ = _
  cases lookup head members <;> rfl

/-- What a loop has reached goes by the name that it has in the loop. -/
theorem Scope.find?_atTurn {s : Scope} {t : Turn} (hname : t.valueName ≠ "loop") {key : String} {j : Json}
    (h : enter? key t.value = some j) : (s.atTurn t).find? t.valueName [key] = some j := by
  have hfollow : follow? t.value [key] = some j := by
    show (enter? key t.value).bind _ = _
    rw [h]
    rfl
  have hturn : t.find? t.valueName [key] = some j := by
    unfold Turn.find?
    rw [if_neg (by simp), if_neg (by simpa using hname), if_pos (by simp), hfollow]
  have hframe : Frame.find? { turn := some t } t.valueName [key] = some j := hturn
  rw [find?, atTurn, List.findSome?_cons, hframe]

/-! ### Loops -/

theorem map_turnsOf {β : Type} (f : Json → β) (key : Option String) (value : String) (found : List (String × Json)) :
    (turnsOf key value found).map (fun t => f t.value) = found.map fun p => f p.2 := by
  have hfst : (found.zipIdx.map Prod.fst).map (fun p => f p.2) = found.map fun p => f p.2 := by
    rw [List.zipIdx_map_fst]
  rw [turnsOf, List.map_map, ← hfst, List.map_map]
  rfl

theorem valueName_of_mem_turnsOf {key : Option String} {value : String} {found : List (String × Json)} {t : Turn}
    (h : t ∈ turnsOf key value found) : t.valueName = value := by
  obtain ⟨_, -, rfl⟩ := List.mem_map.1 h
  rfl

theorem foldlM_turns {s : Scope} {text : Turn → String} {turns : List Turn}
    {step : String × Scope → Turn → Except Fault (String × Scope)}
    (h : ∀ written, ∀ t ∈ turns, step (written, s) t = .ok (written ++ text t, s)) (written : String) :
    turns.foldlM step (written, s) = .ok (written ++ String.join (turns.map text), s) := by
  induction turns generalizing written with
  | nil =>
    rw [List.map_nil, String.join_nil, String.append_empty]
    rfl
  | cons t turns ih =>
    have hrest := ih (fun written t ht => h written t (List.mem_cons_of_mem _ ht)) (written ++ text t)
    rw [List.foldlM_cons, h written t List.mem_cons_self, List.map_cons, String.join_cons, ← String.append_assoc]
    exact hrest

/-- A loop whose body leaves the scope as it is writes what its turns write, in order. -/
theorem foldTurns_eq {s : Scope} {render : Scope → Except Fault (String × Scope)} {text : Turn → String}
    {turns : List Turn} (h : ∀ t ∈ turns, render (s.atTurn t) = .ok (text t, s.atTurn t)) :
    foldTurns turns s render = .ok (String.join (turns.map text), s) := by
  rw [foldTurns, foldlM_turns (fun written t ht => ?_) "", String.empty_append]
  dsimp only
  rw [h t ht]
  rfl

/-! ### Nodes -/

theorem parse?_of_nodes {source : String} {found : List Node} {dash : Bool}
    (h : nodes (16 * source.toList.length + 64) false source.toList = some ((found, dash), [])) :
    parse? source = some found := by
  simp only [parse?, h]

section

variable {s s' : Scope} {head : String} {keys : List String} {more : String} {rest : List Node}

theorem renderNodes_text (text : String) (h : renderNodes s rest = .ok (more, s')) :
    renderNodes s (.text text :: rest) = .ok (text ++ more, s') := by
  rw [renderNodes, renderNode]
  dsimp only
  rw [h]
  rfl

/-- A string is inserted as it is. -/
theorem renderNodes_path {text : String} (hpath : s.find? head keys = some (.string text))
    (h : renderNodes s rest = .ok (more, s')) :
    renderNodes s (.insert (pathExpr head keys) :: rest) = .ok (text ++ more, s') := by
  rw [renderNodes, renderNode, valueOf_path hpath]
  dsimp only [Except.map]
  rw [h]
  rfl

/-- A text is left out where its condition does not hold. -/
theorem renderNodes_branch {b : Bool} (text : String) (hpath : s.find? head keys = some (.bool b))
    (h : renderNodes s rest = .ok (more, s')) :
    renderNodes s (.branch [(pathExpr head keys, [.text text])] [] :: rest)
      = .ok ((if b then text else "") ++ more, s') := by
  have hbody : renderNodes s [.text text] = .ok (text ++ "", s) := renderNodes_text text rfl
  rw [renderNodes, renderNode, renderCases, truthOf_path hpath]
  cases b with
  | true =>
    dsimp only [isTrue]
    rw [hbody, String.append_empty]
    dsimp only [Except.map]
    rw [h]
    rfl
  | false =>
    dsimp only [isTrue, renderCases, renderNodes]
    rw [h]
    rfl

/-- A loop over an array without a name for the key. -/
theorem renderNodes_loop {value : String} {items : List Json} {body : List Node} (text : Json → String)
    (hpath : s.find? head keys = some (.array items))
    (hbody : ∀ t : Turn, t.valueName = value → t.value ∈ items →
      renderNodes (s.atTurn t) body = .ok (text t.value, s.atTurn t))
    (h : renderNodes s rest = .ok (more, s')) :
    renderNodes s (.loop none value (pathExpr head keys) body [] :: rest)
      = .ok (String.join (items.map text) ++ more, s') := by
  have hnode : renderNode s (.loop none value (pathExpr head keys) body [])
      = .ok (String.join (items.map text), s) := by
    have hentries : (valueOf s (pathExpr head keys)).bind (entries none (pathExpr head keys))
        = .ok (items.map fun item => ("", item)) := by
      rw [valueOf_path hpath]
      rfl
    rw [renderNode, hentries]
    cases items with
    | nil => rfl
    | cons item items =>
      have hvalues : (turnsOf none value ((item :: items).map fun item => ("", item))).map (fun t => t.value)
          = item :: items := by
        rw [map_turnsOf (fun j => j), List.map_map]
        exact List.map_id _
      have hturns : foldTurns (turnsOf none value ((item :: items).map fun item => ("", item))) s
            (fun s => renderNodes s body)
          = .ok (String.join ((turnsOf none value ((item :: items).map fun item => ("", item))).map
              fun t => text t.value), s) :=
        foldTurns_eq fun t ht => hbody t (valueName_of_mem_turnsOf ht) (hvalues ▸ List.mem_map_of_mem ht)
      rw [map_turnsOf text, List.map_map] at hturns
      exact hturns
  rw [renderNodes, hnode]
  dsimp only
  rw [h]
  rfl

end

end Template

namespace Prompt

open Template (pathExpr)

def greeting : String :=
  "You are the Polaris AI assistant. You help operators manage and diagnose Kubernetes clusters.\nCurrent cluster: "

def toolsHeading : String :=
  "\n\nYou can use the following tools to query cluster resources and analyse problems:\n"

def rules : String :=
  "\n\nRules:\n1. Use the tools to gather data before answering the user's question.\n2. For write operations "
    ++ "(scaling, restarting), first tell the user exactly what will change and wait for their explicit confirmation. "
    ++ "Only then call the tool again with `confirmed: true`.\n3. Answer in Markdown and use tables for lists of "
    ++ "resources.\n4. If a tool returns an error, explain the cause to the user.\n"

def confirmationMark : String := " (requires user confirmation)"

/-- A tool as the prompt lists it. -/
def toolLine (t : Tool) : String :=
  "- " ++ t.name ++ ": " ++ t.description ++ if t.mutating then confirmationMark else ""

/-- What the prompt says about a cluster and the tools for it. -/
def text (cluster : ClusterInfo) (tools : List Tool) : String :=
  greeting ++ cluster.name ++ ", Kubernetes version: " ++ cluster.version ++ toolsHeading
    ++ String.join (tools.map fun t => "\n" ++ toolLine t) ++ rules

/-- The body of the loop over the tools. The line break behind it is taken away by the tag that ends the loop. -/
def toolNodes : List Template.Node :=
  [.text "\n- ", .insert (pathExpr "tool" ["name"]), .text ": ", .insert (pathExpr "tool" ["description"]),
    .branch [(pathExpr "tool" ["mutating"], [.text confirmationMark])] [], .text ""]

def builtInNodes : List Template.Node :=
  [.text greeting, .insert (pathExpr "cluster_name" []), .text ", Kubernetes version: ",
    .insert (pathExpr "cluster_version" []), .text toolsHeading,
    .loop none "tool" (pathExpr "tools" []) toolNodes [], .text rules]

theorem flatten_eq_intercalate (lines : List (List Char)) : [].intercalate lines = lines.flatten := by
  induction lines with
  | nil => rfl
  | cons l lines ih =>
    cases lines with
    | nil => rw [List.intercalate_singleton, List.flatten_singleton]
    | cons m lines => rw [List.intercalate_cons_cons, ih, List.append_nil, ← List.flatten_cons]

theorem toList_builtIn : builtIn.toList = builtInLines.flatMap String.toList := by
  rw [builtIn, String.toList_intercalate, List.flatMap_def]
  exact flatten_eq_intercalate _

set_option maxRecDepth 4000 in
theorem nodes_builtIn (n : Nat) :
    Template.nodes (n + 64) false (builtInLines.flatMap String.toList) = some ((builtInNodes, false), []) := by
  have hkept : ∀ s : String, Template.Node.text s = .text (String.ofList s.toList) := fun s => by
    rw [String.ofList_toList]
  rw [builtInNodes, toolNodes, hkept greeting, hkept toolsHeading, hkept rules, hkept confirmationMark,
    hkept ", Kubernetes version: ", hkept "\n- ", hkept ": "]
  unfold greeting toolsHeading rules confirmationMark builtInLines
  simp only [List.flatMap_cons, List.flatMap_nil, String.toList_append]
  repeat rw [String.toList_ofList]
  rfl

/-- The built-in template is a template, and these are its nodes. -/
theorem parse_builtIn : Template.parse? builtIn = some builtInNodes := by
  refine Template.parse?_of_nodes (?_ : _ = some ((_, false), []))
  rw [toList_builtIn]
  exact nodes_builtIn _

/-! ### What it says -/

variable (cluster : ClusterInfo) (tools : List Tool)

theorem render_toolNodes {s : Template.Scope} {t : Tool} (hname : s.find? "tool" ["name"] = some (.string t.name))
    (hdescription : s.find? "tool" ["description"] = some (.string t.description))
    (hmutating : s.find? "tool" ["mutating"] = some (.bool t.mutating)) :
    Template.renderNodes s toolNodes = .ok ("\n" ++ toolLine t, s) := by
  have hrender : Template.renderNodes s toolNodes = _ :=
    Template.renderNodes_text "\n- " <| Template.renderNodes_path hname <| Template.renderNodes_text ": " <|
      Template.renderNodes_path hdescription <| Template.renderNodes_branch confirmationMark hmutating <|
      Template.renderNodes_text "" rfl
  have hbreak : "\n- " = "\n" ++ "- " := rfl
  rw [hrender, hbreak]
  simp only [toolLine, String.append_assoc, String.append_empty]

theorem get?_toolContext (t : Tool) : (toolContext t).get? "name" = some (.string t.name)
    ∧ (toolContext t).get? "description" = some (.string t.description)
    ∧ (toolContext t).get? "mutating" = some (.bool t.mutating) :=
  ⟨Json.get?_ofMembers "name" _, Json.get?_ofMembers "description" _, Json.get?_ofMembers "mutating" _⟩

/-- The line of a tool, from what the template is given of it. -/
def contextLine (j : Json) : String :=
  toolLine ⟨(j.getD "name").text, (j.getD "description").text, .null, (j.getD "mutating").flag⟩

theorem contextLine_toolContext (t : Tool) : contextLine (toolContext t) = toolLine t := by
  obtain ⟨hname, hdescription, hmutating⟩ := get?_toolContext t
  simp only [contextLine, Json.getD, hname, hdescription, hmutating]
  rfl

theorem render_turn {s : Template.Scope} {turn : Template.Turn} {t : Tool} (hname : turn.valueName = "tool")
    (hvalue : turn.value = toolContext t) :
    Template.renderNodes (s.atTurn turn) toolNodes = .ok ("\n" ++ toolLine t, s.atTurn turn) := by
  have hfind : ∀ key j, (toolContext t).get? key = some j → (s.atTurn turn).find? "tool" [key] = some j := by
    intro key j h
    rw [← hname]
    refine Template.Scope.find?_atTurn (by simp [hname]) ?_
    rw [hvalue]
    exact h
  obtain ⟨hname, hdescription, hmutating⟩ := get?_toolContext t
  exact render_toolNodes (hfind _ _ hname) (hfind _ _ hdescription) (hfind _ _ hmutating)

/-- **The built-in prompt.** Whatever the names of the cluster and of the tools are, the built-in template is rendered,
and what comes of it is its text with these names in their places, as they are, and a line for each tool in order. -/
theorem render_builtIn : Template.render builtIn (context cluster tools) = .ok (text cluster tools) := by
  obtain ⟨members, hcontext, hlookup⟩ : ∃ members, context cluster tools = .object members
      ∧ ∀ head, (Template.Scope.top members).find? head [] = Json.lookup head [("cluster_name", .string cluster.name),
        ("cluster_version", .string cluster.version), ("tools", .array (tools.map toolContext))] :=
    ⟨_, rfl, fun head => (Template.Scope.find?_atTop _ head).trans (Json.lookup_sortMembers ..)⟩
  have hturn : ∀ turn : Template.Turn, turn.valueName = "tool" → turn.value ∈ tools.map toolContext →
      Template.renderNodes ((Template.Scope.top members).atTurn turn) toolNodes
        = .ok ("\n" ++ contextLine turn.value, (Template.Scope.top members).atTurn turn) := by
    intro turn hname hvalue
    obtain ⟨t, -, hvalue⟩ := List.mem_map.1 hvalue
    rw [← hvalue, contextLine_toolContext]
    exact render_turn hname hvalue.symm
  have hrender : Template.renderNodes (.top members) builtInNodes = _ :=
    Template.renderNodes_text greeting <| Template.renderNodes_path (hlookup "cluster_name") <|
      Template.renderNodes_text ", Kubernetes version: " <| Template.renderNodes_path (hlookup "cluster_version") <|
      Template.renderNodes_text toolsHeading <|
      Template.renderNodes_loop (fun j => "\n" ++ contextLine j) (hlookup "tools") hturn <|
      Template.renderNodes_text rules rfl
  have hlines : (tools.map toolContext).map (fun j => "\n" ++ contextLine j)
      = tools.map fun t => "\n" ++ toolLine t := by
    rw [List.map_map]
    exact List.map_congr_left fun t _ => congrArg ("\n" ++ ·) (contextLine_toolContext t)
  rw [hlines] at hrender
  rw [Template.render, parse_builtIn, hcontext]
  dsimp only
  rw [show Template.renderNodes ⟨[{}], members⟩ builtInNodes = _ from hrender]
  simp only [text, String.append_assoc, String.append_empty]

/-! ### The catalog -/

theorem toList_toolLine (t : Tool) : (toolLine t).toList = "- ".toList ++ t.name.toList ++ ": ".toList
    ++ t.description.toList ++ if t.mutating then confirmationMark.toList else [] := by
  rw [toolLine]
  cases t.mutating <;> simp only [String.toList_append] <;> rfl

theorem newline_notMem_toolLine (o : Operation) : '\n' ∉ (toolLine o.tool).toList := by
  rw [toList_toolLine]
  cases o
  all_goals
    dsimp only [Operation.tool, Operation.name, Operation.description, Operation.mutating, confirmationMark]
    repeat rw [String.toList_ofList]
    decide +kernel

theorem mark_suffix_toolLine_iff (o : Operation) :
    confirmationMark.toList <:+ (toolLine o.tool).toList ↔ o.mutating = true := by
  rw [toList_toolLine]
  cases o
  all_goals
    dsimp only [Operation.tool, Operation.name, Operation.description, Operation.mutating, confirmationMark]
    repeat rw [String.toList_ofList]
    decide +kernel

theorem system_eq : system .builtIn cluster = .ok (text cluster catalog) := by
  simp only [system, load, Source.text?, render_builtIn]

/-- With a prompt, a reply goes on to its rounds. -/
theorem conversation_of_system {a : Assignment} {prompt : String} (h : system a.prompt a.scope.cluster = .ok prompt)
    (c : Course) : Reply.opening a c = .ok (.system prompt :: a.history) c
      ∧ Reply.conversation a c
        = (Reply.schedule a >>= fun _ => Reply.rounds a a.maxRounds 0 (.system prompt :: a.history)) c := by
  have hopening : Reply.opening a = pure (.system prompt :: a.history) := by rw [Reply.opening, h]
  refine ⟨by rw [hopening]; rfl, ?_⟩
  rw [Reply.conversation, hopening]
  rfl

/-- **What the model is told.** For every cluster there is a prompt without a template of one's own, and it says the
same of all but for name and version: these stand in their places as they are, and for each tool of the catalog there
is one line, in order, which ends with the mark if the tool can change something and only then. So such a reply never
fails on its prompt: once the time of its deadline is fixed, it goes on to its rounds with it. -/
theorem system_builtIn :
    system .builtIn cluster = .ok (greeting ++ cluster.name ++ ", Kubernetes version: " ++ cluster.version
      ++ toolsHeading ++ String.join (catalog.map fun t => "\n" ++ toolLine t) ++ rules)
    ∧ (∀ o : Operation, '\n' ∉ (toolLine o.tool).toList)
    ∧ (∀ o : Operation, confirmationMark.toList <:+ (toolLine o.tool).toList ↔ o.mutating = true)
    ∧ ∀ (a : Assignment) (c : Course),
      Reply.opening { a with prompt := .builtIn } c = .ok (.system (text a.scope.cluster catalog) :: a.history) c
      ∧ Reply.conversation { a with prompt := .builtIn } c
        = (Reply.schedule { a with prompt := .builtIn } >>= fun _ => Reply.rounds { a with prompt := .builtIn }
          a.maxRounds 0 (.system (text a.scope.cluster catalog) :: a.history)) c := by
  refine ⟨system_eq cluster, newline_notMem_toolLine, mark_suffix_toolLine_iff, fun a c => ?_⟩
  exact conversation_of_system (a := { a with prompt := .builtIn }) (system_eq a.scope.cluster) c

end Prompt

end Helmsman
