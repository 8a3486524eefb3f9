import Helmsman.Settings.Name
import Helmsman.Settings.Value
/-!
# Layers of settings

Settings come in layers, and each layer is laid over those before it. Tables are merged entry by entry, and everything
else replaces what was there. The names of settings are told apart without regard to case. An entry whose name is a path
with dots in it stands for the setting at the end of that path.
-/

namespace Helmsman.Settings

abbrev Entries := List (String × Setting)

/-- The small form of a letter that can occur in a name. The sign for kelvin has the small form of the letter `K`. -/
def lowerChar (c : Char) : Char := if c == '\u212a' then 'k' else c.toLower

def lower (s : String) : String := s.map lowerChar

/-- Entries with one more, which replaces an entry of its name. -/
def store (key : String) (value : Setting) (entries : Entries) : Entries :=
  if entries.any fun e => e.1 == key then entries.map fun e => if e.1 == key then (key, value) else e
  else entries ++ [(key, value)]

mutual

/-- Lays a value over the entry of its name. -/
def overlay (key : String) (value : Setting) (entries : Entries) : Entries :=
  match value with
  | .table incoming => store key (overlayAll incoming ((entries.lookup key).getD (.table []))) entries
  | value => store key value entries

def overlayAll : Entries → Setting → Setting
  | [], under => under
  | (key, value) :: rest, under => overlayAll rest (.table (overlay (lower key) value under.entries))

end

/-- Lays a value over the setting at the end of a path. What stands in the way of the path is replaced. -/
def overlayAt (value : Setting) : List String → Entries → Entries
  | [], entries => entries
  | [key], entries => overlay key value entries
  | key :: rest, entries =>
    let inner := ((entries.lookup key).getD (.table [])).entries
    store key (.table (overlayAt value rest inner)) entries

def isPathChar (c : Char) : Bool := c.isAlphanum || c == '_' || c == '-' || c == ' '

/-- The path that a name stands for. A name that is no path stands for itself. -/
def pathOf (name : String) : List String :=
  let words := Text.parts '.' name
  if words.all fun w => !w.isEmpty && w.all isPathChar then words else [name]

/-- Lays a whole layer over others. -/
def overlayLayer (layer under : Entries) : Entries :=
  layer.foldl (fun entries (name, value) => overlayAt value (pathOf (lower name)) entries) under

/-- A name with a dot in place of each separator of words, from the front. The first argument counts the characters of
a separator that are still to be left out. -/
def dotted : Nat → List Char → List Char
  | _, [] => []
  | skipped + 1, _ :: cs => dotted skipped cs
  | 0, c :: cs =>
    if wordSeparator.toList.isPrefixOf (c :: cs) then '.' :: dotted (wordSeparator.length - 1) cs else c :: dotted 0 cs

/-- The name of the setting that a variable stands for. Variables whose names begin differently stand for none. -/
def nameOf? (variableName : String) : Option String :=
  let start := lower environmentStart
  let name := lower variableName
  if start.isPrefixOf name then some (String.ofList (dotted 0 (name.toList.drop start.length))) else none

/-- The settings that variables stand for. -/
def ofEnvironment (environment : List (String × String)) : Entries :=
  environment.filterMap fun (variableName, value) => (nameOf? variableName).map fun name => (name, .ofUntyped value)

end Helmsman.Settings
