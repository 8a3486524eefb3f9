import Helmsman.Json.Basic
/-!
# Templates

A template is text with places in it: a value to insert, a condition, a loop over the items of a value, a name to set.
Values are named by paths into a context of JSON values, and may be passed through filters.

This is the part of the language in which prompts are written. Left out are tests with `is`, membership with `in`, texts
joined by `~`, macros, blocks, templates within templates, filters over whole sections and ways out of a loop: a text
with one of these reads as no template. The filters are `upper`, `length`, `join`, `default` and `safe`; any other one,
and every function, is unknown.
-/

namespace Helmsman.Template

inductive Arithmetic
  | add
  | sub
  | mul
  | div
  | rem
  deriving Repr, DecidableEq

inductive Comparison
  | eq
  | ne
  | lt
  | le
  | gt
  | ge
  deriving Repr, DecidableEq

/-- A step into a value: by a key, which for an array is an index, or by the value that another path leads to. -/
inductive Step
  | key (key : String)
  | indirect (head : String) (steps : List Step)
  deriving Repr

structure Path where
  head : String
  steps : List Step
  deriving Repr

mutual

/-- A term, the filters it goes through, and whether its truth is turned around. -/
inductive Expr
  | mk (negated : Bool) (term : Term) (filters : List Filter)

inductive Term
  | path (p : Path)
  | text (s : String)
  | int (n : Int)
  | float (x : Binary64)
  | bool (b : Bool)
  | array (items : List Expr)
  | math (op : Arithmetic) (l r : Expr)
  | compare (op : Comparison) (l r : Expr)
  | both (l r : Expr)
  | either (l r : Expr)
  /-- A function; none is known, so none has a value. -/
  | call (name : String)

inductive Filter
  | mk (name : String) (arguments : List Argument)

inductive Argument
  | mk (name : String) (value : Expr)

end

namespace Expr

def negated : Expr → Bool
  | .mk n _ _ => n

def term : Expr → Term
  | .mk _ t _ => t

def filters : Expr → List Filter
  | .mk _ _ fs => fs

def ofTerm (t : Term) : Expr := .mk false t []

/-- The same term with its truth turned around or not. -/
def withNegation (n : Bool) : Expr → Expr
  | .mk _ t fs => .mk n t fs

end Expr

def Filter.name : Filter → String
  | .mk n _ => n

/-- The argument of a filter with a name. -/
def Filter.argument? (key : String) : Filter → Option Expr
  | .mk _ arguments => arguments.findSome? fun (.mk name value) => if name == key then some value else none

inductive Node
  | text (s : String)
  | insert (e : Expr)
  /-- Conditions with their bodies, and what stands for none of them. -/
  | branch (cases : List (Expr × List Node)) (otherwise : List Node)
  | loop (key : Option String) (value : String) (source : Expr) (body : List Node) (empty : List Node)
  | assign (everywhere : Bool) (name : String) (e : Expr)

end Helmsman.Template
