import Helmsman.Template.Parser
import Helmsman.Template.Value
/-!
# Rendering templates

A template is rendered in a context, an object whose members are the names a path can begin with. Loops and
assignments put further names in front of them: every loop opens a frame, which holds the value it has reached and the
names set in its body, and forgets the latter at each turn.

A name that leads nowhere is a fault where its value is written, compared or walked over, and false where only its
truth is asked for.
-/

namespace Helmsman.Template

open Json

structure Turn where
  keyName : Option String
  key : String
  valueName : String
  value : Json
  index : Nat
  count : Nat

/-- Names that are set, and the loop they are set in. -/
structure Frame where
  names : List (String × Json) := []
  turn : Option Turn := none

/-- The frames, innermost first, and the names of the context. -/
structure Scope where
  frames : List Frame
  context : List (String × Json)

namespace Turn

def find? (t : Turn) (head : String) (keys : List String) : Option Json :=
  if keys.isEmpty && t.keyName == some head then some (.string t.key)
  else if head == "loop" then
    match keys with
    | ["index"] => some (.ofNat (t.index + 1))
    | ["index0"] => some (.ofNat t.index)
    | ["first"] => some (.bool (t.index == 0))
    | ["last"] => some (.bool (t.index + 1 == t.count))
    | _ => none
  else if head == t.valueName then follow? t.value keys
  else none

end Turn

def Frame.find? (f : Frame) (head : String) (keys : List String) : Option Json :=
  match (lookup head f.names).bind fun j => follow? j keys with
  | some j => some j
  | none => f.turn.bind fun t => t.find? head keys

namespace Scope

def find? (s : Scope) (head : String) (keys : List String) : Option Json :=
  match s.frames.findSome? fun f => f.find? head keys with
  | some j => some j
  | none => (lookup head s.context).bind fun j => follow? j keys

/-- The scope with a name set in its innermost frame or, everywhere, in its outermost one. -/
def assign (s : Scope) (everywhere : Bool) (name : String) (j : Json) : Scope :=
  let set (f : Frame) : Frame := { f with names := f.names ++ [(name, j)] }
  let last := s.frames.length - 1
  { s with frames := s.frames.modify (if everywhere then last else 0) set }

end Scope

/-- A value that may stand for a key. -/
def keyText? : Json → Option String
  | .string s => some s
  | .number n => some (numberText n)
  | _ => none

/-- The keys along some steps, once the values in brackets are known. -/
def keysOf? (s : Scope) : List Step → Option (List String)
  | [] => some []
  | .key key :: rest => (keysOf? s rest).map (key :: ·)
  | .indirect head steps :: rest =>
    match keysOf? s steps with
    | none => none
    | some keys =>
      match (s.find? head keys).bind keyText? with
      | none => none
      | some key => (keysOf? s rest).map (key :: ·)

def resolve (s : Scope) (p : Path) : Except Fault Json :=
  match (keysOf? s p.steps).bind fun keys => s.find? p.head keys with
  | some j => .ok j
  | none => .error .unknownPath

/-- The value that a first filter named `default` offers. -/
def defaultOf? : List Filter → Option (Option Expr)
  | f :: _ => if f.name == "default" then some (f.argument? "value") else none
  | [] => none

def numberOf : Json → Except Fault (Option Number)
  | .number n => .ok (some n)
  | _ => .error .wrongKind

mutual

def eval (fuel : Nat) (s : Scope) (e : Expr) : Except Fault Json :=
  match fuel with
  | 0 => .error .unknownPath
  | fuel + 1 => do
    let fallback : Except Fault Json :=
      match defaultOf? e.filters with
      | some (some d) => eval fuel s d
      | _ => .error .missingArgument
    let hasDefault := (defaultOf? e.filters).isSome
    let start : Except Fault (Option Json) :=
      match e.term with
      | .path p =>
        match resolve s p with
        | .ok j => if j.isNull && hasDefault then fallback.map some else .ok (some j)
        | .error f => if hasDefault then fallback.map some else if e.negated then .ok none else .error f
      | .text t => .ok (some (.string t))
      | .int n => .ok (some (.ofInt n))
      | .float x => .ok (some (.number (.float x)))
      | .bool b => .ok (some (.bool b))
      | .array items => (evalItems fuel s items).map fun l => some (.array l)
      | .math op l r => (evalNumber fuel s (.math op l r)).map fun n => some (n.elim (.string "NaN") .number)
      | .compare .. | .both .. | .either .. => (evalBool fuel s e).map fun b => some (.bool b)
      | .call _ => .error .unknownFunction
    match ← start with
    | none => return .bool true
    | some j =>
      let j ← evalFilters fuel s e.filters j
      return if e.negated then .bool (!isTrue j) else j

def evalItems (fuel : Nat) (s : Scope) (items : List Expr) : Except Fault (List Json) :=
  match fuel with
  | 0 => .error .unknownPath
  | fuel + 1 =>
    match items with
    | [] => .ok []
    | e :: rest => do
      let j ← eval fuel s e
      return j :: (← evalItems fuel s rest)

/-- The filters one after the other; a fallback has been dealt with. -/
def evalFilters (fuel : Nat) (s : Scope) (filters : List Filter) (j : Json) : Except Fault Json :=
  match fuel with
  | 0 => .error .unknownPath
  | fuel + 1 =>
    match filters with
    | [] => .ok j
    | f :: rest =>
      if f.name == "default" || f.name == "safe" then evalFilters fuel s rest j
      else do
        let sep ← match f.argument? "sep" with
          | some e => (eval fuel s e).map some
          | none => .ok none
        let j ← applyFilter f.name (fun key => if key == "sep" then sep else none) j
        evalFilters fuel s rest j

/-- A term as a number, or nothing where it is not one. -/
def evalNumber (fuel : Nat) (s : Scope) (t : Term) : Except Fault (Option Number) :=
  match fuel with
  | 0 => .error .unknownPath
  | fuel + 1 =>
    match t with
    | .path p => (resolve s p).bind numberOf
    | .int n => .ok (some (.int n))
    | .float x => .ok (some (.float x))
    | .math op l r => do
      match ← evalOperand fuel s l, ← evalOperand fuel s r with
      | some m, some n => op.apply m n
      | _, _ => return none
    | _ => .error .wrongKind

def evalOperand (fuel : Nat) (s : Scope) (e : Expr) : Except Fault (Option Number) :=
  match fuel with
  | 0 => .error .unknownPath
  | fuel + 1 =>
    if e.filters.isEmpty then evalNumber fuel s e.term else (eval fuel s e).bind numberOf

def evalBool (fuel : Nat) (s : Scope) (e : Expr) : Except Fault Bool :=
  match fuel with
  | 0 => .error .unknownPath
  | fuel + 1 => do
    let truth : Except Fault Bool :=
      match e.term with
      | .path _ =>
        let shown := ((eval fuel s e).toOption).elim false isTrue
        .ok (if e.negated then !shown else shown)
      | .text t => .ok (!t.isEmpty)
      | .bool b => .ok b
      | .array items => .ok (!items.isEmpty)
      | .int _ | .float _ | .math .. =>
        (evalNumber fuel s e.term).map fun n => n.elim false fun n => isTrue (.number n)
      | .both l r => do
        if ← evalBool fuel s l then evalBool fuel s r else return false
      | .either l r => do
        if ← evalBool fuel s l then return true else evalBool fuel s r
      | .compare .eq l r => do return equal (← eval fuel s l) (← eval fuel s r)
      | .compare .ne l r => do return differ (← eval fuel s l) (← eval fuel s r)
      | .compare op l r => do
        match ← evalOperand fuel s l, ← evalOperand fuel s r with
        | some m, some n =>
          return (m.toBinary64.compare? n.toBinary64).elim false op.ordered
        | _, _ => .error .notComparable
      | .call _ => .error .unknownFunction
    let b ← truth
    return if e.negated then !b else b

end

mutual

def Expr.size : Expr → Nat
  | .mk _ t fs => t.size + filterListSize fs + 1

def Term.size : Term → Nat
  | .array items => exprListSize items + 1
  | .math _ l r => l.size + r.size + 1
  | .compare _ l r => l.size + r.size + 1
  | .both l r => l.size + r.size + 1
  | .either l r => l.size + r.size + 1
  | _ => 1

def exprListSize : List Expr → Nat
  | [] => 0
  | e :: rest => e.size + exprListSize rest + 1

def filterListSize : List Filter → Nat
  | [] => 0
  | .mk _ arguments :: rest => argumentListSize arguments + filterListSize rest + 2

def argumentListSize : List Argument → Nat
  | [] => 0
  | .mk _ e :: rest => e.size + argumentListSize rest + 1

end

def stepsFor (e : Expr) : Nat := 4 * e.size + 8

def valueOf (s : Scope) (e : Expr) : Except Fault Json := eval (stepsFor e) s e
def truthOf (s : Scope) (e : Expr) : Except Fault Bool := evalBool (stepsFor e) s e

/-- The keys and values that a loop walks over. Only an object has keys, and it is walked over with them only. -/
def entries (key : Option String) (source : Expr) (j : Json) : Except Fault (List (String × Json)) :=
  match source.term with
  | .path _ | .array _ =>
    match j, key with
    | .array items, none => .ok (items.map fun item => ("", item))
    | .string s, none => .ok (s.toList.map fun c => ("", .string (String.singleton c)))
    | .object members, some _ => .ok members
    | _, _ => .error .notIterable
  | _ => .error .notIterable

def Scope.atTurn (s : Scope) (t : Turn) : Scope := { s with frames := { turn := some t } :: s.frames }

/-- The scope behind a turn: the loop's frame is gone, and what was set everywhere stays. -/
def Scope.leave (s : Scope) : Scope := { s with frames := s.frames.drop 1 }

/-- One round of a loop after the other, each in the scope that the one before left. -/
def foldTurns (turns : List Turn) (s : Scope) (render : Scope → Except Fault (String × Scope)) :
    Except Fault (String × Scope) :=
  turns.foldlM (fun (text, s) t => do
    let (more, s) ← render (s.atTurn t)
    return (text ++ more, s.leave)) ("", s)

def turnsOf (key : Option String) (value : String) (found : List (String × Json)) : List Turn :=
  found.zipIdx.map fun ((k, j), i) => ⟨key, k, value, j, i, found.length⟩

mutual

def renderNode (s : Scope) : Node → Except Fault (String × Scope)
  | .text t => .ok (t, s)
  | .insert e => (valueOf s e).map fun j => (written j, s)
  | .assign everywhere name e => (valueOf s e).map fun j => ("", s.assign everywhere name j)
  | .branch cases otherwise =>
    match renderCases s cases with
    | .error f => .error f
    | .ok (some r) => .ok r
    | .ok none => renderNodes s otherwise
  | .loop key value source body empty =>
    match (valueOf s source).bind (entries key source) with
    | .error f => .error f
    | .ok [] => renderNodes s empty
    | .ok found => foldTurns (turnsOf key value found) s fun s => renderNodes s body

def renderNodes (s : Scope) : List Node → Except Fault (String × Scope)
  | [] => .ok ("", s)
  | n :: rest =>
    match renderNode s n with
    | .error f => .error f
    | .ok (text, s) => (renderNodes s rest).map fun (more, s) => (text ++ more, s)

/-- The body of the first condition that holds, if one does. -/
def renderCases (s : Scope) : List (Expr × List Node) → Except Fault (Option (String × Scope))
  | [] => .ok none
  | (e, body) :: rest =>
    match truthOf s e with
    | .error f => .error f
    | .ok true => (renderNodes s body).map some
    | .ok false => renderCases s rest

end

inductive Failure
  | unreadable
  | context
  | parse
  | render
  deriving Repr, DecidableEq

def Failure.message : Failure → String
  | .unreadable => "Failed to read template file"
  | .context => "Creating a Context from a Value/Serialize requires it being a JSON object"
  | .parse => "Failed to parse 'inline_template'"
  | .render => "Failed to render 'inline_template'"

def render (source : String) (context : Json) : Except Failure String :=
  match parse? source with
  | none => .error .parse
  | some found =>
    match context with
    | .object members =>
      match renderNodes ⟨[{}], members⟩ found with
      | .ok (text, _) => .ok text
      | .error _ => .error .render
    | _ => .error .context

end Helmsman.Template
