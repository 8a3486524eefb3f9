import Helmsman.Proofs.Json.Shape
import Mathlib.Tactic.SplitIfs
/-!
# How far a value reaches

A reader takes octets from the front, and besides them it looks at the next one at most (`Local`). So a value stands on
octets of its own: it is read from them whatever follows, as long as the next octet is the same, and a value in brackets
even if it is not (`extents`). The steps are counted as when a written value is read back, in octets that are taken.
What this comes to for a whole text is that the blanks around an object can be left out (`exists_extent_of_object`).
-/

namespace Helmsman.Json

/-! ### Readers that do not look ahead -/

section Local

variable {α β : Type} {f g : Octets → Reading α} {b : UInt8} {bs : Octets}

/-- What is read from these octets depends on those that are taken and on the next one. -/
def LocalAt (f : Octets → Reading α) (bs : Octets) : Prop := ∀ a rest, f bs = .ok (a, rest) →
  ∃ used, bs = used ++ rest ∧ ∀ rest', rest'.head? = rest.head? → f (used ++ rest') = .ok (a, rest')

def Local (f : Octets → Reading α) : Prop := ∀ bs, LocalAt f bs

theorem head?_append_congr {rest rest' : Octets} (h : rest'.head? = rest.head?) (used : Octets) :
    (used ++ rest').head? = (used ++ rest).head? := by
  cases used with
  | nil => exact h
  | cons b used => rfl

namespace LocalAt

theorem of_error {fault : Fault} (h : f bs = .error fault) : LocalAt f bs := fun _ _ hread =>
  absurd (h.symm.trans hread) (by simp)

/-- The octet in front is taken. -/
theorem cons (h : LocalAt g bs) (heq : ∀ bs, f (b :: bs) = g bs) : LocalAt f (b :: bs) := by
  intro a rest hread
  rw [heq] at hread
  obtain ⟨used, rfl, hmore⟩ := h a rest hread
  exact ⟨b :: used, rfl, fun rest' hrest' => (heq _).trans (hmore rest' hrest')⟩

/-- The octet in front, or that there is none, decides how to go on. -/
theorem congr (h : LocalAt g bs) (heq : ∀ bs', bs'.head? = bs.head? → f bs' = g bs') : LocalAt f bs := by
  intro a rest hread
  rw [heq bs rfl] at hread
  obtain ⟨used, rfl, hmore⟩ := h a rest hread
  refine ⟨used, rfl, fun rest' hrest' => ?_⟩
  rw [heq _ (head?_append_congr hrest' used)]
  exact hmore rest' hrest'

theorem nil (h : LocalAt g []) (heq : f [] = g []) : LocalAt f [] :=
  h.congr fun bs' hbs' => by rwa [List.head?_eq_none_iff.1 hbs']

theorem peek (h : LocalAt g (b :: bs)) (heq : ∀ bs, f (b :: bs) = g (b :: bs)) : LocalAt f (b :: bs) :=
  h.congr fun bs' hbs' => by
    obtain ⟨bs', rfl⟩ := List.head?_eq_some_iff.1 hbs'
    exact heq bs'

end LocalAt

namespace Local

theorem pure (a : α) : Local fun bs => .ok (a, bs) := by
  intro bs a' rest h
  cases h
  exact ⟨[], rfl, fun _ _ => rfl⟩

theorem error (fault : Octets → Fault) : Local fun bs => (.error (fault bs) : Reading α) := fun _ => .of_error rfl

theorem ite (c : Prop) [Decidable c] (hf : Local f) (hg : Local g) : Local fun bs => if c then f bs else g bs := by
  by_cases h : c
  · simpa only [if_pos h] using hf
  · simpa only [if_neg h] using hg

/-- What is read decides how to go on. -/
theorem bind {k : Octets → Reading β} (hf : Local f) {g : α → Octets → Reading β} (hg : ∀ a, Local (g a))
    (herror : ∀ bs fault, f bs = .error fault → ∃ fault', k bs = .error fault')
    (hok : ∀ bs a rest, f bs = .ok (a, rest) → k bs = g a rest) : Local k := by
  intro bs c rest h
  cases hread : f bs with
  | error fault =>
    obtain ⟨fault', hfault⟩ := herror bs fault hread
    exact absurd (h.symm.trans hfault) (by simp)
  | ok r =>
    obtain ⟨a, middle⟩ := r
    rw [hok bs a middle hread] at h
    obtain ⟨used, rfl, hmore⟩ := hf bs a middle hread
    obtain ⟨usedThen, rfl, hthen⟩ := hg a middle c rest h
    refine ⟨used ++ usedThen, (List.append_assoc ..).symm, fun rest' hrest' => ?_⟩
    rw [List.append_assoc, hok _ a _ (hmore _ (head?_append_congr hrest' usedThen))]
    exact hthen rest' hrest'

theorem map (hf : Local f) (toValue : α → β) : Local fun bs => (f bs).map fun (a, rest) => (toValue a, rest) :=
  hf.bind (fun a => pure (toValue a)) (fun bs fault h => ⟨fault, by rw [h]; rfl⟩) fun bs a rest h => by rw [h]; rfl

/-- Octets of a kind in front, and what they were, decide how to go on. -/
theorem span (p : UInt8 → Bool) {f : Octets → Octets → Reading α} (hf : ∀ front, Local (f front)) :
    Local fun bs => f (bs.takeWhile p) (bs.dropWhile p) := by
  intro bs a rest h
  dsimp only at h
  obtain ⟨front, hfront⟩ : ∃ front, bs.takeWhile p = front := ⟨_, rfl⟩
  obtain ⟨behind, hbehind⟩ : ∃ behind, bs.dropWhile p = behind := ⟨_, rfl⟩
  have hall : ∀ b ∈ front, p b = true := fun b hb => List.all_eq_true.1 List.all_takeWhile b (hfront ▸ hb)
  have hstop : ∀ b ∈ behind.head?, p b = false := by
    intro b hb
    have hnot := List.head?_dropWhile_not p bs
    rw [hbehind, hb] at hnot
    exact hnot
  have hbs : bs = front ++ behind := by rw [← hfront, ← hbehind, List.takeWhile_append_dropWhile]
  rw [hfront, hbehind] at h
  obtain ⟨used, rfl, hmore⟩ := hf front behind a rest h
  refine ⟨front ++ used, by rw [hbs, List.append_assoc], fun rest' hrest' => ?_⟩
  -- The octets behind still begin with one that stops the span.
  have hnone : (used ++ rest').takeWhile p = [] ∧ (used ++ rest').dropWhile p = used ++ rest' := by
    cases hcs : used ++ rest' with
    | nil => exact ⟨rfl, rfl⟩
    | cons b cs =>
      have hb : p b = false := hstop b (by rw [← head?_append_congr hrest' used, hcs]; rfl)
      exact ⟨by rw [List.takeWhile_cons, hb]; rfl, by rw [List.dropWhile_cons, hb]; rfl⟩
  dsimp only
  rw [List.append_assoc, List.takeWhile_append_of_pos hall, List.dropWhile_append_of_pos hall, hnone.1, hnone.2,
    List.append_nil]
  exact hmore rest' hrest'

/-- Blanks in front make no difference. -/
theorem of_space (hspace : ∀ b bs, isSpace b = true → f (b :: bs) = f bs) (hnil : LocalAt f [])
    (hcons : ∀ b bs, isSpace b = false → LocalAt f (b :: bs)) : Local f := by
  intro bs
  induction bs with
  | nil => exact hnil
  | cons b bs ih =>
    cases hb : isSpace b with
    | false => exact hcons b bs hb
    | true => exact ih.cons fun bs => hspace b bs hb

end Local

end Local

/-! ### Words and strings -/

theorem local_word {α : Type} (a : α) (letters : List UInt8) :
    Local fun bs => (word letters bs).map fun rest => (a, rest) := by
  induction letters with
  | nil => exact .pure a
  | cons l letters ih =>
    intro bs
    cases bs with
    | nil => exact .of_error rfl
    | cons b bs =>
      by_cases hb : (b == l) = true
      · exact (ih bs).cons fun bs => by rw [word, if_pos hb]
      · exact .of_error (by rw [word, if_neg hb]; rfl)

theorem local_stringFrom (read : Octets) (e : Escape) : Local (stringFrom read e) := by
  intro bs
  fun_induction stringFrom read e bs
  case case1 => exact .of_error rfl
  case case2 hquote => exact (Local.pure _ _).cons fun _ => if_pos hquote
  -- The string is not well spelled.
  case case4 | case8 | case10 | case11 | case15 | case17 | case19 => exact .of_error (by simp [stringFrom, *]; rfl)
  all_goals exact LocalAt.cons ‹_› fun _ => by simp [stringFrom, *]

/-- The text of a string whose octets have been read, latest first. -/
def textFrom (read rest : Octets) : Reading String :=
  match Utf8.decode? read.reverse with
  | some s => .ok (s, rest)
  | none => .error (.here .invalidCodePoint rest)

theorem local_scanString : Local scanString := by
  refine (local_stringFrom [] .outside).bind (g := textFrom) (fun read => ?_)
    (fun bs fault h => ⟨fault, by rw [scanString, h]⟩) fun bs read rest h => ?_
  · cases hread : Utf8.decode? read.reverse with
    | some s =>
      have heq : textFrom read = fun rest => .ok (s, rest) := funext fun rest => by rw [textFrom, hread]
      exact heq ▸ .pure s
    | none =>
      have heq : textFrom read = fun rest => .error (.here .invalidCodePoint rest) :=
        funext fun rest => by rw [textFrom, hread]
      exact heq ▸ .error _
  · cases hread : Utf8.decode? read.reverse <;> simp only [scanString, textFrom, h, hread]

/-! ### Numbers -/

/-- The digits that fit, as a reader of their own. -/
def digitsFrom (sig count : Nat) (bs : Octets) : Reading (Nat × Nat) :=
  let (sig, count, rest) := significand sig count bs
  .ok ((sig, count), rest)

theorem local_digitsFrom (sig count : Nat) : Local (digitsFrom sig count) := by
  intro bs
  fun_induction significand sig count bs with
  | case1 sig count => exact (Local.pure (sig, count) []).nil rfl
  | case2 sig count b bs hfits ih => exact ih.cons fun bs => by rw [digitsFrom, significand, if_pos hfits]; rfl
  | case3 sig count b bs hends =>
    exact (Local.pure (sig, count) (b :: bs)).peek fun bs => by rw [digitsFrom, significand, if_neg hends]

/-- The digits of an exponent, as a reader of their own. -/
def powerFrom (e : Nat) (bs : Octets) : Reading (Option Nat) :=
  let (e, rest) := exponentDigits e bs
  .ok (e, rest)

theorem local_powerFrom (e : Nat) : Local (powerFrom e) := by
  intro bs
  fun_induction exponentDigits e bs with
  | case1 e => exact (Local.pure (some e) []).nil rfl
  | case2 e b bs hdigit hfits ih =>
    exact ih.cons fun bs => by rw [powerFrom, exponentDigits, if_pos hdigit, if_pos hfits]; rfl
  | case3 e b bs hdigit hlarge =>
    exact (Local.pure none bs).cons fun bs => by rw [powerFrom, exponentDigits, if_pos hdigit, if_neg hlarge]
  | case4 e b bs hends =>
    exact (Local.pure (some e) (b :: bs)).peek fun bs => by rw [powerFrom, exponentDigits, if_neg hends]

theorem local_floatFrom (negative : Bool) (sig : Nat) (exponent : Int) : Local (floatFrom negative sig exponent) :=
  .ite _ (.pure _) (.ite _ (.ite _ (.pure _) (.error _)) (.ite _ (.error _) (.pure _)))

/-- An exponent from behind its sign on. -/
def magnitudeFrom (negative : Bool) (sig : Nat) (start : Int) (down : Bool) (bs : Octets) : Reading Number :=
  match bs with
  | [] => .error (.here .unfinishedValue [])
  | b :: bs =>
    if isDigit b then
      match exponentDigits (digitValue b) bs with
      | (some e, rest) => floatFrom negative sig (saturate (if down then start - e else start + e)) rest
      | (none, rest) =>
        if sig ≠ 0 ∧ !down then .error (.here .numberOutOfRange rest)
        else .ok (.float (.zero negative), skipDigits rest)
    else .error (.here .invalidNumber bs)

/-- A number whose exponent has been read, unless it is too large. -/
def poweredFrom (negative : Bool) (sig : Nat) (start : Int) (down : Bool) (e : Option Nat) (rest : Octets) :
    Reading Number :=
  match e with
  | some e => floatFrom negative sig (saturate (if down then start - e else start + e)) rest
  | none =>
    if sig ≠ 0 ∧ !down then .error (.here .numberOutOfRange rest) else .ok (.float (.zero negative), skipDigits rest)

theorem local_magnitudeFrom (negative : Bool) (sig : Nat) (start : Int) (down : Bool) :
    Local (magnitudeFrom negative sig start down) := by
  intro bs
  cases bs with
  | nil => exact .of_error rfl
  | cons b bs =>
    by_cases hdigit : isDigit b = true
    · have hmore : Local fun bs => magnitudeFrom negative sig start down (b :: bs) := by
        refine (local_powerFrom (digitValue b)).bind (g := poweredFrom negative sig start down) (fun e => ?_)
          (fun _ _ h => nomatch h) fun bs e rest h => ?_
        · cases e with
          | some e => exact local_floatFrom _ _ _
          | none => exact .ite _ (.error _) (Local.span isDigit fun _ => .pure _)
        · obtain ⟨rfl, rfl⟩ := Prod.mk.inj (Except.ok.inj h)
          rw [magnitudeFrom, if_pos hdigit]
          rcases exponentDigits (digitValue b) bs with ⟨_ | e, rest⟩ <;> rfl
      exact (hmore bs).cons fun _ => rfl
    · exact .of_error (if_neg hdigit)

theorem local_exponentFrom (negative : Bool) (sig : Nat) (start : Int) : Local (exponentFrom negative sig start) := by
  intro bs
  cases bs with
  | nil => exact .of_error rfl
  | cons b bs =>
    by_cases hminus : b = 0x2D
    · subst hminus
      exact (local_magnitudeFrom negative sig start true bs).cons fun _ => rfl
    · by_cases hplus : b = 0x2B
      · subst hplus
        exact (local_magnitudeFrom negative sig start false bs).cons fun _ => rfl
      · refine (local_magnitudeFrom negative sig start false (b :: bs)).peek fun bs => ?_
        rw [exponentFrom]
        · rfl
        · exact fun _ h => hminus (List.cons.inj h).1
        · exact fun _ h => hplus (List.cons.inj h).1

theorem local_afterDigits (negative : Bool) (sig : Nat) (exponent : Int) :
    Local (afterDigits negative sig exponent) := by
  intro bs
  cases bs with
  | nil => exact (local_floatFrom negative sig exponent []).nil rfl
  | cons b bs =>
    by_cases hmark : isExponentMark b = true
    · exact (local_exponentFrom negative sig exponent bs).cons fun _ => if_pos hmark
    · exact (local_floatFrom negative sig exponent (b :: bs)).peek fun _ => if_neg hmark

/-- A number whose places have been read, as far as they fit. -/
def placedFrom (negative : Bool) (exponent : Int) (places : Nat × Nat) (rest : Octets) : Reading Number :=
  if startsWithDigit rest then afterDigits negative places.1 (exponent - places.2) (skipDigits rest)
  else if places.2 = 0 then
    match rest with
    | [] => .error (.next .unfinishedValue [])
    | _ => .error (.next .invalidNumber rest)
  else afterDigits negative places.1 (exponent - places.2) rest

theorem local_placesFrom (negative : Bool) (sig : Nat) (exponent : Int) : Local (placesFrom negative sig exponent) := by
  refine (local_digitsFrom sig 0).bind (g := placedFrom negative exponent) (fun places rest => ?_)
    (fun _ _ h => nomatch h) fun bs places rest h => ?_
  · have hafter := local_afterDigits negative places.1 (exponent - places.2)
    cases rest with
    | nil =>
      by_cases hcount : places.2 = 0
      · exact .of_error (if_pos hcount)
      · exact (hafter []).nil (if_neg hcount)
    | cons b rest =>
      by_cases hdigit : isDigit b = true
      · exact (Local.span isDigit (fun _ => hafter) (b :: rest)).peek fun _ => if_pos hdigit
      · by_cases hcount : places.2 = 0
        · exact .of_error ((if_neg hdigit).trans (if_pos hcount))
        · exact (hafter (b :: rest)).peek fun _ => (if_neg hdigit).trans (if_neg hcount)
  · obtain ⟨rfl, rfl⟩ := Prod.mk.inj (Except.ok.inj h)
    rfl

theorem local_afterWhole (negative : Bool) (sig exponent : Nat) (long : Bool) :
    Local (afterWhole negative sig exponent long) := by
  have hwhole : Local fun bs =>
      if long then floatFrom negative sig exponent bs else .ok (wholeNumber negative sig, bs) :=
    .ite _ (local_floatFrom negative sig exponent) (.pure _)
  intro bs
  cases bs with
  | nil => exact (hwhole []).nil rfl
  | cons b bs =>
    by_cases hpoint : (b == 0x2E) = true
    · exact (local_placesFrom negative sig exponent bs).cons fun _ => if_pos hpoint
    · by_cases hmark : isExponentMark b = true
      · exact (local_exponentFrom negative sig exponent bs).cons fun _ => (if_neg hpoint).trans (if_pos hmark)
      · exact (hwhole (b :: bs)).peek fun _ => (if_neg hpoint).trans (if_neg hmark)

theorem local_scanNumber_cons (negative : Bool) (b : UInt8) : Local fun bs => scanNumber negative (b :: bs) := by
  by_cases hzero : (b == 0x30) = true
  · intro bs
    cases bs with
    | nil => exact (local_afterWhole negative 0 0 false []).nil (if_pos hzero)
    | cons c bs =>
      by_cases hdigit : isDigit c = true
      · exact .of_error ((if_pos hzero).trans (if_pos hdigit))
      · exact (local_afterWhole negative 0 0 false (c :: bs)).peek fun _ => (if_pos hzero).trans (if_neg hdigit)
  · by_cases hdigit : isDigit b = true
    · refine (local_digitsFrom (digitValue b) 1).bind (g := fun whole rest =>
        afterWhole negative whole.1 (rest.takeWhile isDigit).length (!(rest.takeWhile isDigit).isEmpty)
          (skipDigits rest)) (fun whole => ?_) (fun _ _ h => nomatch h) fun bs whole rest h => ?_
      · exact Local.span isDigit (f := fun more => afterWhole negative whole.1 more.length (!more.isEmpty))
          fun more => local_afterWhole _ _ _ _
      · obtain ⟨rfl, rfl⟩ := Prod.mk.inj (Except.ok.inj h)
        exact (if_neg hzero).trans (if_pos hdigit)
    · exact fun bs => .of_error ((if_neg hzero).trans (if_neg hdigit))

theorem local_scanNumber (negative : Bool) : Local (scanNumber negative) := by
  intro bs
  cases bs with
  | nil => exact .of_error rfl
  | cons b bs => exact (local_scanNumber_cons negative b bs).cons fun _ => rfl

/-! ### Between values -/

/-- What follows the first octet of a value without parts. -/
theorem local_scalar_cons (b : UInt8) : Local fun bs => scalar (b :: bs) := by
  by_cases hdigit : isDigit b = true
  · simp only [scalar_of_isDigit hdigit]
    exact (local_scanNumber_cons false b).map _
  · have hword : ∀ (j : Json) (letters : List UInt8), Local fun bs => (word letters bs).map fun r => (j, r) :=
      fun j letters => local_word j letters
    simp only [scalar, if_neg hdigit]
    exact .ite _ (hword _ _) (.ite _ (hword _ _) (.ite _ (hword _ _) (.ite _ ((local_scanNumber true).map _)
      (.ite _ (local_scanString.map _) (.error _)))))

theorem skipSpace_of_isSpace {b : UInt8} (h : isSpace b = true) (bs : Octets) : skipSpace (b :: bs) = skipSpace bs := by
  rw [skipSpace, List.dropWhile_cons, h]
  rfl

theorem local_nextItem (first : Bool) : Local (nextItem first) := by
  -- Behind a comma comes the next item.
  have hcomma : Local fun bs => nextItem false (0x2C :: bs) := by
    have heq : ∀ bs, nextItem false (0x2C :: bs) = match skipSpace bs with
        | [] => .error (.next .unfinishedValue [])
        | c :: rest =>
          if c == 0x5D then .error (.next .trailingComma (c :: rest)) else .ok (true, c :: rest) := fun _ => rfl
    refine .of_space (fun b bs hb => by rw [heq, heq, skipSpace_of_isSpace hb]) (.of_error rfl) fun c bs hspace => ?_
    by_cases hend : c = 0x5D
    · subst hend
      exact .of_error rfl
    · exact (Local.pure true (c :: bs)).peek fun _ => nextItem_more hspace hend _
  refine .of_space (fun b bs hb => by rw [nextItem, nextItem, skipSpace_of_isSpace hb]) (.of_error rfl)
    fun b bs hspace => ?_
  by_cases hend : b = 0x5D
  · subst hend
    exact (Local.pure false bs).cons fun _ => nextItem_end first _
  · cases first with
    | true => exact (Local.pure true (b :: bs)).peek fun _ => nextItem_first hspace hend _
    | false =>
      by_cases hb : b = 0x2C
      · subst hb
        exact (hcomma bs).cons fun _ => rfl
      · exact .of_error (by simp [nextItem, skipSpace_cons hspace, hend, hb]; rfl)

/-- The name of a member, from behind its first quote on. -/
def keyFrom (bs : Octets) : Reading (Option String) := (scanString bs).map fun (s, r) => (some s, r)

theorem local_nextKey (first : Bool) : Local (nextKey first) := by
  have hkey : Local keyFrom := local_scanString.map some
  have hcomma : Local fun bs => nextKey false (0x2C :: bs) := by
    have heq : ∀ bs, nextKey false (0x2C :: bs) = match skipSpace bs with
        | [] => .error (.next .unfinishedValue [])
        | c :: rest =>
          if c == 0x22 then keyFrom rest
          else if c == 0x7D then .error (.next .trailingComma (c :: rest))
          else .error (.next .keyNotString (c :: rest)) := fun _ => rfl
    refine .of_space (fun b bs hb => by rw [heq, heq, skipSpace_of_isSpace hb]) (.of_error rfl) fun c bs hspace => ?_
    by_cases hquote : c = 0x22
    · subst hquote
      exact (hkey bs).cons fun _ => rfl
    · by_cases hend : c = 0x7D
      · subst hend
        exact .of_error rfl
      · exact .of_error (by simp [heq, skipSpace_cons hspace, hquote, hend]; rfl)
  refine .of_space (fun b bs hb => by rw [nextKey, nextKey, skipSpace_of_isSpace hb]) (.of_error rfl)
    fun b bs hspace => ?_
  by_cases hend : b = 0x7D
  · subst hend
    exact (Local.pure none (0x7D :: bs)).peek fun _ => nextKey_end first _
  · cases first with
    | true =>
      by_cases hquote : b = 0x22
      · subst hquote
        exact (hkey bs).cons fun _ => rfl
      · exact .of_error (by simp [nextKey, skipSpace_cons hspace, hend, hquote]; rfl)
    | false =>
      by_cases hb : b = 0x2C
      · subst hb
        exact (hcomma bs).cons fun _ => rfl
      · exact .of_error (by simp [nextKey, skipSpace_cons hspace, hend, hb]; rfl)

theorem local_colon {α : Type} (a : α) : Local fun bs => (colon bs).map fun rest => (a, rest) := by
  refine .of_space (fun b bs hb => by rw [colon, colon, skipSpace_of_isSpace hb]) (.of_error rfl) fun b bs hspace => ?_
  by_cases hb : b = 0x3A
  · subst hb
    exact (Local.pure a bs).cons fun _ => rfl
  · exact .of_error (by simp [colon, skipSpace_cons hspace, hb]; rfl)

/-! ### Values -/

theorem skipSpace_append {blanks : Octets} (h : ∀ b ∈ blanks, isSpace b = true) (bs : Octets) :
    skipSpace (blanks ++ bs) = skipSpace bs := List.dropWhile_append_of_pos h

theorem exists_skipSpace (bs : Octets) : ∃ blanks, (∀ b ∈ blanks, isSpace b = true) ∧ bs = blanks ++ skipSpace bs :=
  ⟨bs.takeWhile isSpace, List.all_eq_true.1 List.all_takeWhile, List.takeWhile_append_dropWhile.symm⟩

/-- No more items come in front of a closing bracket only. -/
theorem nextItem_eq_end {first : Bool} {bs rest : Octets} (h : nextItem first bs = .ok (false, rest)) :
    skipSpace bs = 0x5D :: rest := by
  rw [nextItem] at h
  cases hspace : skipSpace bs with
  | nil => rw [hspace] at h; cases h
  | cons b behind =>
    simp only [hspace] at h
    by_cases hend : b = 0x5D
    · subst hend
      obtain ⟨-, rfl⟩ := Prod.mk.inj (Except.ok.inj h)
      rfl
    · rw [if_neg (by simpa using hend)] at h
      split at h
      · cases h
      · split at h
        · split at h
          · cases h
          · split at h <;> cases h
        · cases h

theorem nextKey_eq_end {first : Bool} {bs rest : Octets} (h : nextKey first bs = .ok (none, rest)) :
    ∃ behind, skipSpace bs = 0x7D :: behind ∧ rest = 0x7D :: behind := by
  have hstring : ∀ bs, keyFrom bs ≠ .ok (none, rest) := by
    intro bs hread
    obtain ⟨_, -, hread⟩ := of_map_eq_ok hread
    cases hread
  rw [nextKey] at h
  cases hspace : skipSpace bs with
  | nil => rw [hspace] at h; cases h
  | cons b behind =>
    simp only [hspace] at h
    by_cases hend : b = 0x7D
    · subst hend
      obtain ⟨-, rfl⟩ := Prod.mk.inj (Except.ok.inj h)
      exact ⟨behind, rfl, rfl⟩
    · rw [if_neg (by simpa using hend)] at h
      split at h
      · split at h
        · exact absurd h (hstring _)
        · cases h
      · split at h
        · split at h
          · cases h
          · split at h
            · exact absurd h (hstring _)
            · split at h <;> cases h
        · cases h

theorem hasParts_of_scalar {bs rest : Octets} {j : Json} (h : scalar bs = .ok (j, rest)) : j.hasParts = false := by
  cases bs with
  | nil => cases h
  | cons b bs =>
    have hmap : ∀ {α : Type} {r : Reading α} {f : α → Json}, (∀ a, (f a).hasParts = false) →
        r.map (fun (a, rest) => (f a, rest)) = .ok (j, rest) → j.hasParts = false := by
      intro α r f hf hread
      obtain ⟨p, -, hj⟩ := of_map_eq_ok hread
      rw [← (Prod.mk.inj hj).1, hf]
    have hword : ∀ {letters : List UInt8} {j' : Json}, j'.hasParts = false →
        (word letters bs).map (fun r => (j', r)) = .ok (j, rest) → j.hasParts = false := by
      intro letters j' hj' hread
      obtain ⟨_, -, hj⟩ := of_map_eq_ok hread
      rw [← (Prod.mk.inj hj).1, hj']
    rw [scalar] at h
    split_ifs at h
    · exact hword rfl h
    · exact hword rfl h
    · exact hword rfl h
    · exact hmap (fun _ => rfl) h
    · exact hmap (fun _ => rfl) h
    · exact hmap (fun _ => rfl) h

/-- A value is read from these octets with so many brackets left to open, whatever follows. Only behind a value without
parts the next octet has to be the same. -/
def TakesValue (depth : Nat) (used : Octets) (j : Json) (next : Option UInt8) : Prop := ∀ steps rest,
  2 * used.length ≤ steps → (j.hasParts = false → rest.head? = next) →
    valueFrom steps depth (used ++ rest) = .ok (j, rest)

/-- The rest of an array is read from these octets and the bracket behind them. -/
def TakesItems (depth : Nat) (read : List Json) (used : Octets) (items : List Json) : Prop := ∀ steps rest,
  2 * used.length < steps → itemsFrom steps depth read (used ++ 0x5D :: rest) = .ok (.array items, rest)

/-- The rest of an object is read from these octets and the bracket behind them. -/
def TakesMembers (depth : Nat) (read : List (String × Json)) (used : Octets) (members : List (String × Json)) : Prop :=
  ∀ steps rest, 2 * used.length < steps →
    membersFrom steps depth read (used ++ 0x7D :: rest) = .ok (.object members, rest)

/-- What so many steps read, and from which octets. -/
structure Extents (steps : Nat) : Prop where
  value : ∀ {depth bs j rest}, valueFrom steps depth bs = .ok (j, rest) →
    ∃ used, used ≠ [] ∧ bs = used ++ rest ∧ TakesValue depth used j rest.head?
  items : ∀ {depth read bs j rest}, itemsFrom steps depth read bs = .ok (j, rest) →
    ∃ used items, j = .array items ∧ bs = used ++ 0x5D :: rest ∧ TakesItems depth read used items
  members : ∀ {depth read bs j rest}, membersFrom steps depth read bs = .ok (j, rest) →
    ∃ used members, j = .object members ∧ bs = used ++ 0x7D :: rest ∧ TakesMembers depth read used members

section Steps

variable {steps depth : Nat} {bs rest : Octets} {j : Json}

theorem extent_items (ih : Extents steps) {read : List Json}
    (h : itemsFrom (steps + 1) depth read bs = .ok (j, rest)) :
    ∃ used items, j = .array items ∧ bs = used ++ 0x5D :: rest ∧ TakesItems depth read used items := by
  rw [itemsFrom] at h
  cases hnext : nextItem read.isEmpty bs with
  | error fault => rw [hnext] at h; cases h
  | ok p =>
    obtain ⟨more, middle⟩ := p
    rw [hnext] at h
    cases more with
    | false =>
      obtain ⟨rfl, rfl⟩ := Prod.mk.inj (Except.ok.inj h)
      obtain ⟨blanks, hblanks, hbs⟩ := exists_skipSpace bs
      rw [nextItem_eq_end hnext] at hbs
      refine ⟨blanks, read.reverse, rfl, hbs, fun steps rest hsteps => ?_⟩
      obtain ⟨steps, rfl⟩ : ∃ n, steps = n + 1 := ⟨steps - 1, by omega⟩
      have hend : nextItem read.isEmpty (blanks ++ 0x5D :: rest) = .ok (false, rest) := by
        rw [nextItem, skipSpace_append hblanks]
        rfl
      rw [itemsFrom, hend]
    | true =>
      dsimp only at h
      cases hvalue : valueFrom steps depth middle with
      | error fault => rw [hvalue] at h; cases h
      | ok p =>
        obtain ⟨item, behind⟩ := p
        rw [hvalue] at h
        obtain ⟨front, rfl, hfront⟩ := local_nextItem _ _ _ _ hnext
        obtain ⟨used, hne, rfl, hused⟩ := ih.value hvalue
        obtain ⟨later, items, rfl, rfl, hlater⟩ := ih.items h
        refine ⟨front ++ (used ++ later), items, rfl, by simp only [List.append_assoc], fun steps rest' hsteps => ?_⟩
        have hpos := List.length_pos_iff.2 hne
        simp only [List.length_append] at hsteps
        obtain ⟨steps, rfl⟩ : ∃ n, steps = n + 1 := ⟨steps - 1, by omega⟩
        have hhead : (later ++ 0x5D :: rest').head? = (later ++ 0x5D :: rest).head? := by cases later <;> rfl
        rw [List.append_assoc, List.append_assoc, itemsFrom, hfront _ (head?_append_congr hhead used)]
        dsimp only
        rw [hused steps _ (by omega) fun _ => hhead]
        exact hlater steps rest' (by omega)

theorem extent_members (ih : Extents steps) {read : List (String × Json)}
    (h : membersFrom (steps + 1) depth read bs = .ok (j, rest)) :
    ∃ used members, j = .object members ∧ bs = used ++ 0x7D :: rest ∧ TakesMembers depth read used members := by
  rw [membersFrom] at h
  cases hnext : nextKey read.isEmpty bs with
  | error fault => rw [hnext] at h; cases h
  | ok p =>
    obtain ⟨key?, middle⟩ := p
    rw [hnext] at h
    cases key? with
    | none =>
      obtain ⟨rfl, rfl⟩ := Prod.mk.inj (Except.ok.inj h)
      obtain ⟨behind, hspace, rfl⟩ := nextKey_eq_end hnext
      obtain ⟨blanks, hblanks, hbs⟩ := exists_skipSpace bs
      rw [hspace] at hbs
      refine ⟨blanks, read.reverse, rfl, hbs, fun steps rest hsteps => ?_⟩
      obtain ⟨steps, rfl⟩ : ∃ n, steps = n + 1 := ⟨steps - 1, by omega⟩
      have hend : nextKey read.isEmpty (blanks ++ 0x7D :: rest) = .ok (none, 0x7D :: rest) := by
        rw [nextKey, skipSpace_append hblanks]
        rfl
      rw [membersFrom, hend]
      rfl
    | some key =>
      dsimp only at h
      cases hcolon : colon middle with
      | error fault => rw [hcolon] at h; cases h
      | ok inner =>
        rw [hcolon] at h
        dsimp only at h
        cases hvalue : valueFrom steps depth inner with
        | error fault => rw [hvalue] at h; cases h
        | ok p =>
          obtain ⟨value, behind⟩ := p
          rw [hvalue] at h
          obtain ⟨front, rfl, hfront⟩ := local_nextKey _ _ _ _ hnext
          obtain ⟨mark, rfl, hmark⟩ :=
            local_colon key middle key inner (congrArg (Except.map fun rest => (key, rest)) hcolon)
          obtain ⟨used, hne, rfl, hused⟩ := ih.value hvalue
          obtain ⟨later, members, rfl, rfl, hlater⟩ := ih.members h
          refine ⟨front ++ (mark ++ (used ++ later)), members, rfl, by simp only [List.append_assoc],
            fun steps rest' hsteps => ?_⟩
          have hpos := List.length_pos_iff.2 hne
          simp only [List.length_append] at hsteps
          obtain ⟨steps, rfl⟩ : ∃ n, steps = n + 1 := ⟨steps - 1, by omega⟩
          have hhead : (later ++ 0x7D :: rest').head? = (later ++ 0x7D :: rest).head? := by cases later <;> rfl
          have hinner := head?_append_congr hhead used
          have hcolon' : colon (mark ++ (used ++ (later ++ 0x7D :: rest')))
              = .ok (used ++ (later ++ 0x7D :: rest')) := by
            obtain ⟨_, hread, hp⟩ := of_map_eq_ok (hmark _ hinner)
            rw [hread, (Prod.mk.inj hp).2]
          rw [List.append_assoc, List.append_assoc, List.append_assoc, membersFrom,
            hfront _ (head?_append_congr hinner mark)]
          dsimp only
          rw [hcolon']
          dsimp only
          rw [hused steps _ (by omega) fun _ => hhead]
          exact hlater steps rest' (by omega)

theorem valueFrom_array (hspace : skipSpace bs = 0x5B :: rest) (hdepth : ¬depth ≤ 1) :
    valueFrom (steps + 1) depth bs = itemsFrom steps (depth - 1) [] rest := by
  rw [valueFrom, hspace]
  exact if_neg hdepth

theorem valueFrom_object (hspace : skipSpace bs = 0x7B :: rest) (hdepth : ¬depth ≤ 1) :
    valueFrom (steps + 1) depth bs = membersFrom steps (depth - 1) [] rest := by
  rw [valueFrom, hspace]
  exact if_neg hdepth

theorem valueFrom_scalar {b : UInt8} (hspace : skipSpace bs = b :: rest) (harray : b ≠ 0x5B) (hobject : b ≠ 0x7B) :
    valueFrom (steps + 1) depth bs = scalar (b :: rest) := by
  rw [valueFrom, hspace]
  dsimp only
  rw [if_neg (by simpa using harray), if_neg (by simpa using hobject)]

/-- A bracket opens a value only where one more is allowed. -/
theorem depth_of_bracket {b : UInt8} (hspace : skipSpace bs = b :: rest) (hb : b = 0x5B ∨ b = 0x7B) {p : Json × Octets}
    (h : valueFrom (steps + 1) depth bs = .ok p) : ¬depth ≤ 1 := by
  intro hdepth
  rw [valueFrom, hspace] at h
  rcases hb with rfl | rfl <;> simp [hdepth] at h

theorem extent_value (ih : Extents steps) (h : valueFrom (steps + 1) depth bs = .ok (j, rest)) :
    ∃ used, used ≠ [] ∧ bs = used ++ rest ∧ TakesValue depth used j rest.head? := by
  -- Blanks in front are taken with the value.
  obtain ⟨blanks, hblanks, hbs⟩ := exists_skipSpace bs
  cases hspace : skipSpace bs with
  | nil => rw [valueFrom, hspace] at h; cases h
  | cons b behind =>
    have hb : isSpace b = false := by
      have hnot := List.head?_dropWhile_not isSpace bs
      rwa [show bs.dropWhile isSpace = b :: behind from hspace] at hnot
    have hskip : ∀ bs, skipSpace (blanks ++ b :: bs) = b :: bs := fun bs => by
      rw [skipSpace_append hblanks, skipSpace_cons hb]
    rw [hspace] at hbs
    by_cases harray : b = 0x5B
    · subst harray
      have hdepth := depth_of_bracket hspace (.inl rfl) h
      rw [valueFrom_array hspace hdepth] at h
      obtain ⟨used, items, rfl, rfl, hused⟩ := ih.items h
      refine ⟨blanks ++ 0x5B :: (used ++ [0x5D]), by simp, by simp [hbs], fun steps rest' hsteps _ => ?_⟩
      simp only [List.length_append, List.length_cons] at hsteps
      obtain ⟨steps, rfl⟩ : ∃ n, steps = n + 1 := ⟨steps - 1, by omega⟩
      rw [List.append_assoc, List.cons_append, List.append_assoc, valueFrom_array (hskip _) hdepth]
      exact hused steps rest' (by omega)
    · by_cases hobject : b = 0x7B
      · subst hobject
        have hdepth := depth_of_bracket hspace (.inr rfl) h
        rw [valueFrom_object hspace hdepth] at h
        obtain ⟨used, members, rfl, rfl, hused⟩ := ih.members h
        refine ⟨blanks ++ 0x7B :: (used ++ [0x7D]), by simp, by simp [hbs], fun steps rest' hsteps _ => ?_⟩
        simp only [List.length_append, List.length_cons] at hsteps
        obtain ⟨steps, rfl⟩ : ∃ n, steps = n + 1 := ⟨steps - 1, by omega⟩
        rw [List.append_assoc, List.cons_append, List.append_assoc, valueFrom_object (hskip _) hdepth]
        exact hused steps rest' (by omega)
      · rw [valueFrom_scalar hspace harray hobject] at h
        have hparts := hasParts_of_scalar h
        obtain ⟨used, rfl, hused⟩ := local_scalar_cons b _ _ _ h
        refine ⟨blanks ++ b :: used, by simp, by simp [hbs], fun steps rest' hsteps hnext => ?_⟩
        simp only [List.length_append, List.length_cons] at hsteps
        obtain ⟨steps, rfl⟩ : ∃ n, steps = n + 1 := ⟨steps - 1, by omega⟩
        rw [List.append_assoc, List.cons_append, valueFrom_scalar (hskip _) harray hobject]
        exact hused rest' (hnext hparts)

end Steps

theorem extents (steps : Nat) : Extents steps := by
  induction steps with
  | zero => exact ⟨(fun h => nomatch h), (fun h => nomatch h), (fun h => nomatch h)⟩
  | succ steps ih => exact ⟨extent_value ih, extent_items ih, extent_members ih⟩

/-! ### Whole texts -/

/-- A text that holds an object is the text of the object, from brace to brace, between blanks. -/
theorem exists_extent_of_object {text : Octets} {members : List (String × Json)}
    (h : read text = .ok (.object members)) :
    ∃ front used back, text = front ++ 0x7B :: (used ++ 0x7D :: back) ∧ (∀ b ∈ front, isSpace b = true)
      ∧ (∀ b ∈ back, isSpace b = true) ∧ read (0x7B :: (used ++ [0x7D])) = .ok (.object members) := by
  obtain ⟨⟨j, rest⟩, hvalue, h⟩ := of_bind_eq_ok h
  obtain ⟨⟨⟩, hend, h⟩ := of_bind_eq_ok h
  obtain rfl : j = .object members := Except.ok.inj h
  obtain ⟨front, hfront, htext⟩ := exists_skipSpace text
  cases hspace : skipSpace text with
  | nil => rw [stepsFor, valueFrom, hspace] at hvalue; cases hvalue
  | cons b behind =>
    rw [hspace] at htext
    have hobject : b = 0x7B := by
      refine Decidable.byContradiction fun hobject => ?_
      by_cases harray : b = 0x5B
      · subst harray
        rw [stepsFor, valueFrom_array hspace (by decide)] at hvalue
        obtain ⟨_, _, hj, -⟩ := (extents _).items hvalue
        cases hj
      · rw [stepsFor, valueFrom_scalar hspace harray hobject] at hvalue
        exact absurd (hasParts_of_scalar hvalue) (by simp [hasParts])
    subst hobject
    rw [stepsFor, valueFrom_object hspace (by decide)] at hvalue
    obtain ⟨used, members', hj, rfl, hused⟩ := (extents _).members hvalue
    obtain rfl : members = members' := Json.object.inj hj
    refine ⟨front, used, rest, htext, hfront, ?_, ?_⟩
    · rw [atEnd] at hend
      split at hend
      · rename_i hrest
        obtain ⟨back, hback, hbs⟩ := exists_skipSpace rest
        rw [hrest, List.append_nil] at hbs
        rwa [hbs]
      · cases hend
    · have hread : valueFrom (stepsFor (0x7B :: (used ++ [0x7D]))) depthLimit (0x7B :: (used ++ [0x7D]))
          = .ok (.object members, []) := by
        rw [stepsFor, valueFrom_object (skipSpace_cons rfl _) (by decide)]
        exact hused _ [] (by simp only [List.length_cons, List.length_append, List.length_nil]; omega)
      rw [read, hread]
      rfl

end Helmsman.Json
