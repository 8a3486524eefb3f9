import Helmsman.Settings.Layer
import Mathlib.Data.List.Basic
/-!
# What lies over what

A value that is laid somewhere stores something under the first word of its path and leaves the entries of every other
name alone (`overlayAt_cons`, `lookup_store`), and what it stores depends on nothing but what stood there. So entries
that differ in one setting alone still do so after a layer that has nothing to say of that setting: neither of the
table that it stands in nor of what it might hold (`DifferAt.overlayLayer`).
-/

namespace Helmsman.Settings

/-! ### Looking up what was stored -/

theorem lookup_store_self (key : String) (value : Setting) (entries : Entries) :
    (store key value entries).lookup key = some value := by
  rw [store]
  split
  case isTrue h =>
    induction entries with
    | nil => exact absurd h (by simp)
    | cons e entries ih =>
      obtain ⟨k, old⟩ := e
      by_cases hkey : k = key
      · simp [hkey]
      · have hother : (key == k) = false := beq_false_of_ne (Ne.symm hkey)
        have hrest : (entries.any fun e => e.1 == key) = true := by simpa [hkey] using h
        simpa [hkey, List.lookup_cons, hother] using ih hrest
  case isFalse h =>
    have hnone : entries.lookup key = none := by
      simp only [List.any_eq_true, not_exists, not_and, beq_iff_eq] at h
      exact List.lookup_eq_none_iff.2 fun e he => by simpa using Ne.symm (h e he)
    rw [List.lookup_append, hnone]
    simp

theorem lookup_store_of_ne {key other : String} (h : other ≠ key) (value : Setting) (entries : Entries) :
    (store key value entries).lookup other = entries.lookup other := by
  have hother : (other == key) = false := beq_false_of_ne h
  rw [store]
  split
  · clear * - hother
    induction entries with
    | nil => rfl
    | cons e entries ih =>
      obtain ⟨k, old⟩ := e
      by_cases hkey : k = key
      · simpa [hkey, List.lookup_cons, hother] using ih
      · simp only [beq_iff_eq] at ih
        simp [hkey, List.lookup_cons, ih]
  · rw [List.lookup_append]
    simp [List.lookup_cons, hother]

/-- Storing changes what is found under one name. -/
theorem lookup_store (key other : String) (value : Setting) (entries : Entries) :
    (store key value entries).lookup other = if other = key then some value else entries.lookup other := by
  split
  case isTrue h => rw [h, lookup_store_self]
  case isFalse h => exact lookup_store_of_ne h value entries

/-! ### What a value leaves under the first word of its path -/

/-- What stands under a name after a value has been laid at the end of a path from there. -/
def laid (value : Setting) : List String → Option Setting → Setting
  | [], old =>
    match value with
    | .table incoming => overlayAll incoming (old.getD (.table []))
    | value => value
  | next :: rest, old => .table (overlayAt value (next :: rest) (old.getD (.table [])).entries)

theorem laid_of_ne_table {value : Setting} (h : ∀ incoming, value ≠ .table incoming) (old : Option Setting) :
    laid value [] old = value := by
  cases value with
  | table incoming => exact absurd rfl (h incoming)
  | text | integer | decimal | flag | list => rfl

theorem overlayAt_cons (value : Setting) (key : String) (rest : List String) (entries : Entries) :
    overlayAt value (key :: rest) entries = store key (laid value rest (entries.lookup key)) entries := by
  cases rest with
  | nil => cases value <;> rfl
  | cons next rest => rfl

theorem lookup_overlayAt (value : Setting) (key other : String) (rest : List String) (entries : Entries) :
    (overlayAt value (key :: rest) entries).lookup other
      = if other = key then some (laid value rest (entries.lookup key)) else entries.lookup other := by
  rw [overlayAt_cons, lookup_store]

/-- Entries that say the same of a name still do after a value has been laid over both. -/
theorem lookup_overlayAt_congr {other : String} {entries entries' : Entries}
    (h : entries.lookup other = entries'.lookup other) (value : Setting) (path : List String) :
    (overlayAt value path entries).lookup other = (overlayAt value path entries').lookup other := by
  cases path with
  | nil => exact h
  | cons key rest =>
    simp only [lookup_overlayAt]
    split
    case isTrue hkey => rw [← hkey, h]
    case isFalse => exact h

/-! ### Layers -/

/-- A name of two words is a path of two steps. -/
theorem pathOf_append {home field : String} (hhome : home ≠ "" ∧ home.toList.all isPathChar = true)
    (hfield : field ≠ "" ∧ field.toList.all isPathChar = true) : pathOf (home ++ "." ++ field) = [home, field] := by
  have hdot : ∀ {word : String}, word.toList.all isPathChar = true → '.' ∉ word.toList := by
    intro word hall hmem
    exact absurd (List.all_eq_true.1 hall '.' hmem) (by decide)
  have hwords : Text.parts '.' (home ++ "." ++ field) = [home, field] := by
    rw [Text.parts, String.toList_append, String.toList_append, List.append_assoc]
    change (List.splitOn '.' (home.toList ++ '.' :: field.toList)).map String.ofList = _
    rw [List.splitOn_append_cons_self, List.splitOn_eq_singleton (hdot hhome.2),
      List.splitOn_eq_singleton (hdot hfield.2)]
    simp
  have hpath : [home, field].all (fun w => !w.isEmpty && w.all isPathChar) = true := by
    simp [String.all_bool_eq, hhome, hfield]
  rw [pathOf, hwords]
  exact if_pos hpath

theorem overlayLayer_cons (name : String) (value : Setting) (layer under : Entries) :
    overlayLayer ((name, value) :: layer) under
      = overlayLayer layer (overlayAt value (pathOf (lower name)) under) := rfl

theorem overlayLayer_append (layer layer' under : Entries) :
    overlayLayer (layer ++ layer') under = overlayLayer layer' (overlayLayer layer under) := List.foldl_append

theorem ofEnvironment_append (environment environment' : List (String × String)) :
    ofEnvironment (environment ++ environment') = ofEnvironment environment ++ ofEnvironment environment' :=
  List.filterMap_append

theorem ofEnvironment_cons {variableName name : String} (h : nameOf? variableName = some name) (value : String)
    (environment : List (String × String)) :
    ofEnvironment ((variableName, value) :: environment) = (name, .ofUntyped value) :: ofEnvironment environment := by
  rw [ofEnvironment, List.filterMap_cons]
  dsimp only
  rw [h]
  rfl

theorem exists_of_mem_ofEnvironment {environment : List (String × String)} {e : String × Setting}
    (h : e ∈ ofEnvironment environment) : ∃ v ∈ environment, nameOf? v.1 = some e.1 := by
  obtain ⟨v, hv, he⟩ := List.mem_filterMap.1 h
  obtain ⟨name, hname, rfl⟩ := Option.map_eq_some_iff.1 he
  exact ⟨v, hv, hname⟩

/-! ### Entries that differ in one setting -/

/-- Entries that say the same of everything but one field of one section, where the section is a table in both. -/
structure DifferAt (home field : String) (x y : Setting) (entries entries' : Entries) : Prop where
  elsewhere : ∀ other ≠ home, entries.lookup other = entries'.lookup other
  within : ∃ fields fields', entries.lookup home = some (.table fields) ∧ entries'.lookup home = some (.table fields')
    ∧ fields.lookup field = some x ∧ fields'.lookup field = some y
    ∧ ∀ other ≠ field, fields.lookup other = fields'.lookup other

/-- Paths of which neither leads to the other or through it. -/
def Apart (path path' : List String) : Prop := ¬path <+: path' ∧ ¬path' <+: path

instance (path path' : List String) : Decidable (Apart path path') := inferInstanceAs (Decidable (_ ∧ _))

section

variable {home field : String} {x y : Setting}

/-- Two values laid over the same field make a difference there and nowhere else, unless they are tables. -/
theorem differAt_overlayAt (home field : String) (hx : ∀ old, laid x [] old = x) (hy : ∀ old, laid y [] old = y)
    (entries : Entries) :
    DifferAt home field x y (overlayAt x [home, field] entries) (overlayAt y [home, field] entries) where
  elsewhere other h := by rw [lookup_overlayAt, lookup_overlayAt, if_neg h, if_neg h]
  within := by
    refine ⟨overlayAt x [field] ((entries.lookup home).getD (.table [])).entries,
      overlayAt y [field] ((entries.lookup home).getD (.table [])).entries, ?_, ?_, ?_, ?_, fun other h => ?_⟩
    · rw [lookup_overlayAt, if_pos rfl, laid]
    · rw [lookup_overlayAt, if_pos rfl, laid]
    · rw [lookup_overlayAt, if_pos rfl, hx]
    · rw [lookup_overlayAt, if_pos rfl, hy]
    · rw [lookup_overlayAt, lookup_overlayAt, if_neg h, if_neg h]

/-- A value laid somewhere else keeps the difference as it is. -/
theorem DifferAt.step {entries entries' : Entries} (h : DifferAt home field x y entries entries')
    {path : List String} (hapart : Apart path [home, field]) (value : Setting) :
    DifferAt home field x y (overlayAt value path entries) (overlayAt value path entries') where
  elsewhere other hother := lookup_overlayAt_congr (h.elsewhere other hother) value path
  within := by
    obtain ⟨fields, fields', hhome, hhome', hx, hy, hrest⟩ := h.within
    match path, hapart with
    | [], hapart => exact absurd List.nil_prefix hapart.1
    | key :: rest, hapart =>
      by_cases hkey : home = key
      · subst hkey
        match rest, hapart with
        | [], hapart => exact absurd ⟨[field], rfl⟩ hapart.1
        | next :: rest, hapart =>
          have hnext : field ≠ next := by
            rintro rfl
            exact hapart.2 ⟨rest, rfl⟩
          refine ⟨overlayAt value (next :: rest) fields, overlayAt value (next :: rest) fields', ?_, ?_, ?_, ?_,
            fun other hother => lookup_overlayAt_congr (hrest other hother) value (next :: rest)⟩
          · rw [lookup_overlayAt, if_pos rfl, hhome, laid, Option.getD_some, Setting.entries]
          · rw [lookup_overlayAt, if_pos rfl, hhome', laid, Option.getD_some, Setting.entries]
          · rw [lookup_overlayAt, if_neg hnext, hx]
          · rw [lookup_overlayAt, if_neg hnext, hy]
      · refine ⟨fields, fields', ?_, ?_, hx, hy, hrest⟩
        · rw [lookup_overlayAt, if_neg hkey, hhome]
        · rw [lookup_overlayAt, if_neg hkey, hhome']

/-- A whole layer that does not speak of the setting keeps the difference as it is. -/
theorem DifferAt.overlayLayer {layer : Entries}
    (hapart : ∀ e ∈ layer, Apart (pathOf (lower e.1)) [home, field]) {entries entries' : Entries}
    (h : DifferAt home field x y entries entries') :
    DifferAt home field x y (overlayLayer layer entries) (overlayLayer layer entries') := by
  induction layer generalizing entries entries' with
  | nil => exact h
  | cons e layer ih =>
    rw [List.forall_mem_cons] at hapart
    exact ih hapart.2 (h.step hapart.1 e.2)

end

end Helmsman.Settings
