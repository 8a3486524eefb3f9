import Helmsman.Proofs.Json.Members
import Helmsman.Proofs.Json.Record
/-!
# Fields that are left out

Whether a field was left out cannot be told from a value in normal form. It can be told by reading the text once more
with the field required: where the field is there, nothing changes, and where it is not, the reading fails and the field
counts as its fallback (`shapeFrom_needing`). Both readings go through the same text in step and part only at its end.
-/

namespace Helmsman.Json

open Shape

/-- A field that has to be there if it has the given name. -/
def Field.needing (key : String) (f : Field Shape) : Field Shape :=
  if f.name = key then { f with need := .required } else f

/-- Fields of which the one with the given name has to be there. -/
def needing (key : String) (fields : List (Field Shape)) : List (Field Shape) := fields.map (Field.needing key)

@[simp] theorem Field.name_needing (key : String) (f : Field Shape) : (f.needing key).name = f.name := by
  rw [needing]
  split <;> rfl

theorem Field.needing_self (f : Field Shape) : f.needing f.name = { f with need := .required } := if_pos rfl

theorem Field.needing_of_ne {key : String} {f : Field Shape} (h : f.name ≠ key) : f.needing key = f := if_neg h

theorem needing_of_notMem {key : String} {fields : List (Field Shape)} (h : key ∉ fields.map Field.name) :
    needing key fields = fields := by
  refine (List.map_congr_left fun f hf => ?_).trans (List.map_id fields)
  apply Field.needing_of_ne
  rintro rfl
  exact h (List.mem_map_of_mem hf)

theorem findField?_needing (key key' : String) (fields : List (Field Shape)) :
    findField? key' (needing key fields) = (findField? key' fields).map (Field.needing key) := by
  have hname : (fun f : Field Shape => f.name == key') ∘ Field.needing key = fun f => f.name == key' := by
    funext f
    exact congrArg (· == key') (f.name_needing key)
  rw [findField?, needing, List.find?_map, hname, findField?]

/-- How a field is read does not depend on whether it has to be there. -/
theorem fieldFrom_needing (steps depth : Nat) (key : String) (f : Field Shape) (bs : Octets) :
    fieldFrom steps depth (f.needing key) bs = fieldFrom steps depth f bs := by
  rw [Field.needing]
  split
  · cases steps <;> rw [fieldFrom, fieldFrom]
  · rfl

variable {fields : List (Field Shape)} {f : Field Shape} {value : Json}

/-! ### What is filled in -/

theorem of_complete_cons {found ms : Members} (h : complete found (f :: fields) = .ok ms) :
    ∃ j ms', (found? f.name found).or f.need.missing? = some j ∧ complete found fields = .ok ms'
      ∧ ms = (f.name, j) :: ms' := by
  cases hj : (found? f.name found).or f.need.missing? with
  | none =>
    obtain ⟨hfound, hmissing⟩ := Option.or_eq_none_iff.1 hj
    have hneed : f.need = .required := by
      cases hneed : f.need with
      | required => rfl
      | _ => rw [hneed] at hmissing; cases hmissing
    rw [complete, hfound, hneed] at h
    cases h
  | some j =>
    rw [complete_cons j hj] at h
    obtain ⟨ms', hms', rfl⟩ := of_map_eq_ok h
    exact ⟨j, ms', rfl, hms', rfl⟩

theorem keys_complete {found ms : Members} (h : complete found fields = .ok ms) :
    ms.map Prod.fst = fields.map Field.name := by
  induction fields generalizing ms with
  | nil =>
    obtain rfl := Except.ok.inj h
    rfl
  | cons g fields ih =>
    obtain ⟨j, ms', -, hms', rfl⟩ := of_complete_cons h
    rw [List.map_cons, List.map_cons, ih hms']

theorem of_fallbacks_cons {count : Nat} {what : String} {ms : Members}
    (h : fallbacks count what (f :: fields) = .ok ms) :
    ∃ j ms', f.need = .fallback j ∧ fallbacks (count + 1) what fields = .ok ms' ∧ ms = (f.name, j) :: ms' := by
  rw [fallbacks] at h
  split at h
  · rename_i j hneed
    obtain ⟨ms', hms', rfl⟩ := of_map_eq_ok h
    exact ⟨j, ms', hneed, hms', rfl⟩
  · cases h

theorem keys_fallbacks {count : Nat} {what : String} {ms : Members} (h : fallbacks count what fields = .ok ms) :
    ms.map Prod.fst = fields.map Field.name := by
  induction fields generalizing ms count with
  | nil =>
    obtain rfl := Except.ok.inj h
    rfl
  | cons g fields ih =>
    obtain ⟨j, ms', -, hms', rfl⟩ := of_fallbacks_cons h
    rw [List.map_cons, List.map_cons, ih hms']

/-! ### Reading with the field required -/

/-- What becomes of members that are read with a field that may be left out, once the field is required: they are the
same, or they are no longer read, and then the field counts as its fallback. -/
def SameOrLeftOut {ε : Type} (key : String) (value : Json) (ms : Members) (required : Except ε Members) : Prop :=
  required = .ok ms ∨ ((∃ e, required = .error e) ∧ lookup key ms = some value)

theorem SameOrLeftOut.cons {ε : Type} {key : String} {ms : Members} {required : Except ε Members}
    (h : SameOrLeftOut key value ms required) (m : String × Json) :
    SameOrLeftOut key value (m :: ms) (required.map (m :: ·)) := by
  rcases h with rfl | ⟨⟨e, rfl⟩, hlookup⟩
  · exact .inl rfl
  · exact .inr ⟨⟨e, rfl⟩, by rw [lookup_cons, hlookup, Option.some_or]⟩

theorem complete_needing (hnames : (fields.map Field.name).Nodup) (hf : f ∈ fields) (hneed : f.need = .fallback value)
    {found ms : Members} (h : complete found fields = .ok ms) :
    SameOrLeftOut f.name value ms (complete found (needing f.name fields)) := by
  induction fields generalizing ms with
  | nil => exact absurd hf List.not_mem_nil
  | cons g fields ih =>
    rw [List.map_cons, List.nodup_cons] at hnames
    obtain ⟨hfresh, hnames⟩ := hnames
    obtain ⟨j, ms', hj, hms', rfl⟩ := of_complete_cons h
    rw [needing, List.map_cons, ← needing]
    rcases List.mem_cons.1 hf with rfl | hf
    -- No other field has its name, so behind it nothing changes.
    · rw [needing_of_notMem hfresh, Field.needing_self]
      cases hfound : found? f.name found with
      | some j' =>
        rw [hfound, Option.some_or] at hj
        obtain rfl := Option.some.inj hj
        have hthere : (found? f.name found).or Need.required.missing? = some j' := by rw [hfound, Option.some_or]
        exact .inl (by rw [complete_cons j' hthere, hms']; rfl)
      | none =>
        rw [hfound, Option.none_or, hneed] at hj
        obtain rfl : value = j := Option.some.inj hj
        refine .inr ⟨⟨.missingField f.name, ?_⟩, lookup_head (keys_complete hms' ▸ hfresh) value⟩
        rw [complete, hfound]
    · have hother : g.name ≠ f.name := fun heq => hfresh (heq ▸ List.mem_map_of_mem hf)
      rw [Field.needing_of_ne hother, complete_cons j hj]
      exact (ih hnames hf hms').cons (g.name, j)

theorem fallbacks_needing (hnames : (fields.map Field.name).Nodup) (hf : f ∈ fields) (hneed : f.need = .fallback value)
    {count : Nat} {what : String} {ms : Members} (h : fallbacks count what fields = .ok ms) :
    (∃ e, fallbacks count what (needing f.name fields) = .error e) ∧ lookup f.name ms = some value := by
  induction fields generalizing ms count with
  | nil => exact absurd hf List.not_mem_nil
  | cons g fields ih =>
    rw [List.map_cons, List.nodup_cons] at hnames
    obtain ⟨hfresh, hnames⟩ := hnames
    obtain ⟨j, ms', hj, hms', rfl⟩ := of_fallbacks_cons h
    rw [needing, List.map_cons, ← needing]
    rcases List.mem_cons.1 hf with rfl | hf
    · obtain rfl : value = j := Need.fallback.inj (hneed.symm.trans hj)
      rw [Field.needing_self]
      exact ⟨⟨_, rfl⟩, lookup_head (keys_fallbacks hms' ▸ hfresh) value⟩
    · have hother : g.name ≠ f.name := fun heq => hfresh (heq ▸ List.mem_map_of_mem hf)
      obtain ⟨⟨e, he⟩, hlookup⟩ := ih hnames hf hms'
      rw [Field.needing_of_ne hother, fallbacks, hj]
      dsimp only
      rw [he, lookup_cons, hlookup]
      exact ⟨⟨e, rfl⟩, rfl⟩

/-- The same for what is read from a text. -/
def SameReadingOrLeftOut (key : String) (value j : Json) (rest : Octets) (required : Reading Json) : Prop :=
  required = .ok (j, rest) ∨ ((∃ e, required = .error e) ∧ j.getD key = value)

/-- What a reader of a record that has read a record has done first: it has come to the end and filled in, or it has
taken in one member, which is a field or is passed over. -/
theorem of_recordFrom_succ {steps depth : Nat} {first : Bool} {found : Members} {bs rest : Octets} {j : Json}
    (h : recordFrom (steps + 1) depth fields first found bs = .ok (j, rest)) :
    (∃ after ms, nextKey first bs = .ok (none, after) ∧ complete found fields = .ok ms ∧ j = .object ms
      ∧ rest = after.drop 1)
    ∨ (∃ key after after', nextKey first bs = .ok (some key, after) ∧ findField? key fields = none
      ∧ (colon after).bind skip = .ok after' ∧ recordFrom steps depth fields false found after' = .ok (j, rest))
    ∨ ∃ key g after after' n after'', nextKey first bs = .ok (some key, after) ∧ findField? key fields = some g
      ∧ ¬ (found? key found).isSome = true ∧ colon after = .ok after'
      ∧ fieldFrom steps depth g after' = .ok (n, after'')
      ∧ recordFrom steps depth fields false ((key, n) :: found) after'' = .ok (j, rest) := by
  rw [recordFrom] at h
  split at h
  · cases h
  · rename_i after hend
    split at h
    · rename_i ms hms
      obtain ⟨rfl, rfl⟩ := Prod.mk.inj (Except.ok.inj h)
      exact .inl ⟨after, ms, hend, hms, rfl, rfl⟩
    · cases h
  · rename_i key after hkey
    split at h
    · rename_i hunknown
      split at h
      · cases h
      · rename_i after' hskip
        exact .inr (.inl ⟨key, after, after', hkey, hunknown, hskip, h⟩)
    · rename_i g hknown
      split at h
      · cases h
      · rename_i hfresh
        split at h
        · cases h
        · rename_i after' hcolon
          split at h
          · cases h
          · rename_i n after'' hread
            exact .inr (.inr ⟨key, g, after, after', n, after'', hkey, hknown, hfresh, hcolon, hread, h⟩)

theorem recordFrom_needing (hnames : (fields.map Field.name).Nodup) (hf : f ∈ fields)
    (hneed : f.need = .fallback value) {steps depth : Nat} {first : Bool} {found : Members} {bs rest : Octets}
    {j : Json} (h : recordFrom steps depth fields first found bs = .ok (j, rest)) :
    SameReadingOrLeftOut f.name value j rest (recordFrom steps depth (needing f.name fields) first found bs) := by
  induction steps generalizing first found bs with
  | zero => rw [recordFrom] at h; cases h
  | succ steps ih =>
    rw [recordFrom]
    rcases of_recordFrom_succ h with ⟨after, ms, hend, hms, rfl, rfl⟩ | ⟨key, after, after', hkey, hunknown, hskip, h⟩
      | ⟨key, g, after, after', n, after'', hkey, hknown, hfresh, hcolon, hread, h⟩
    · rw [hend]
      dsimp only
      rcases complete_needing hnames hf hneed hms with hsame | ⟨⟨e, he⟩, hlookup⟩
      · exact .inl (by rw [hsame])
      · exact .inr ⟨⟨_, by rw [he]⟩, by rw [getD, get?, hlookup]; rfl⟩
    · have hstill : findField? key (needing f.name fields) = none := by
        rw [findField?_needing, hunknown, Option.map_none]
      rw [hkey]
      dsimp only
      rw [hstill]
      dsimp only
      rw [hskip]
      exact ih h
    · have hstill : findField? key (needing f.name fields) = some (g.needing f.name) := by
        rw [findField?_needing, hknown, Option.map_some]
      rw [hkey]
      dsimp only
      rw [hstill]
      dsimp only
      rw [if_neg hfresh, hcolon]
      dsimp only
      rw [fieldFrom_needing, hread]
      exact ih h

theorem sequenceFrom_needing (hnames : (fields.map Field.name).Nodup) (hf : f ∈ fields)
    (hneed : f.need = .fallback value) {steps depth : Nat} {what : String} {first : Bool} {found : Members}
    {bs rest : Octets} {j : Json} (h : sequenceFrom steps depth what first found fields bs = .ok (j, rest)) :
    SameReadingOrLeftOut f.name value j rest
      (sequenceFrom steps depth what first found (needing f.name fields) bs) := by
  induction steps generalizing fields first found bs with
  | zero => rw [sequenceFrom] at h; cases h
  | succ steps ih =>
    cases fields with
    | nil => exact absurd hf List.not_mem_nil
    | cons g fields =>
      have hfields : needing f.name (g :: fields) = g.needing f.name :: needing f.name fields := rfl
      rw [sequenceFrom] at h
      rw [hfields, sequenceFrom]
      cases hnext : nextItem first bs with
      | error e => rw [hnext] at h; cases h
      | ok next =>
        obtain ⟨more, after⟩ := next
        rw [hnext] at h
        cases more with
        | false =>
          dsimp only at h ⊢
          cases hms : fallbacks found.length what (g :: fields) with
          | error m => rw [hms] at h; cases h
          | ok ms =>
            rw [hms] at h
            obtain ⟨rfl, rfl⟩ := Prod.mk.inj (Except.ok.inj h)
            obtain ⟨⟨e, he⟩, hlookup⟩ := fallbacks_needing hnames hf hneed hms
            rw [hfields] at he
            exact .inr ⟨⟨_, by rw [he]⟩, by rw [getD, get?, lookup_append, hlookup]; rfl⟩
        | true =>
          dsimp only at h ⊢
          rw [fieldFrom_needing, Field.name_needing]
          cases hread : fieldFrom steps depth g after with
          | error e => rw [hread] at h; cases h
          | ok read =>
            rw [hread] at h
            dsimp only at h ⊢
            rw [List.map_cons, List.nodup_cons] at hnames
            obtain ⟨hfresh, hnames⟩ := hnames
            rcases List.mem_cons.1 hf with rfl | hf
            · exact .inl (by rw [needing_of_notMem hfresh]; exact h)
            · exact ih hnames hf h

/-- A record is read with one of its fields required as it is without, or the field was left out. -/
theorem shapeFrom_needing (hnames : (fields.map Field.name).Nodup) (hf : f ∈ fields)
    (hneed : f.need = .fallback value) {steps depth : Nat} {name : String} {bs rest : Octets} {j : Json}
    (h : shapeFrom steps depth (.record name fields) bs = .ok (j, rest)) :
    SameReadingOrLeftOut f.name value j rest (shapeFrom steps depth (.record name (needing f.name fields)) bs) := by
  cases steps with
  | zero => rw [shapeFrom] at h; cases h
  | succ steps =>
    have hlength : (needing f.name fields).length = fields.length := List.length_map _
    rw [shapeFrom] at h ⊢
    cases hskip : skipSpace bs with
    | nil => rw [hskip] at h; cases h
    | cons b after =>
      rw [hskip] at h
      dsimp only at h ⊢
      rw [hlength]
      by_cases hlist : (b == 0x5B) = true
      · rw [if_pos hlist] at h ⊢
        by_cases hdepth : depth ≤ 1
        · rw [if_pos hdepth] at h; cases h
        · rw [if_neg hdepth] at h ⊢
          exact sequenceFrom_needing hnames hf hneed h
      · rw [if_neg hlist] at h ⊢
        by_cases hobject : (b == 0x7B) = true
        · rw [if_pos hobject] at h ⊢
          by_cases hdepth : depth ≤ 1
          · rw [if_pos hdepth] at h; cases h
          · rw [if_neg hdepth] at h ⊢
            exact recordFrom_needing hnames hf hneed h
        · rw [if_neg hobject] at h
          cases h

end Helmsman.Json
