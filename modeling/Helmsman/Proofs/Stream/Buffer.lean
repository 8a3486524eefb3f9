import Helmsman.Proofs.Stream.Pieces
import Mathlib.Data.Nat.PSub
/-!
# What a decoder holds

A decoder is pushed to and finished in any order, and goes on behind a piece that it refused. Behind each call it holds
the beginning of one line that may still fit: no line feed, and at most one octet more than the limit, which then is a
carriage return that may turn out to belong to the ending. This bound is exact, since every such beginning is held
behind some calls. A finish and a refused piece leave nothing behind.

The limit is compared with a length from which a line feed and a carriage return are taken away. Both are among the
octets that were counted, so that neither subtraction goes below zero (`checkedLength_eq`).
-/

namespace Helmsman.LineDecoder

/-! ### Taking an ending away -/

/-- The length of the open line once a part follows, by subtractions that fail below zero. -/
def checkedLength (buffer part : Octets) : Option Nat := do
  let unfed ← (buffer.length + part.length).psub (if part.getLast? == some lineFeed then 1 else 0)
  unfed.psub (if endsInReturn buffer part then 1 else 0)

/-- The octets of an ending are among those that are held or arrive. -/
theorem ending_le_length (buffer part : Octets) :
    (if part.getLast? == some lineFeed then 1 else 0) + (if endsInReturn buffer part then 1 else 0)
      ≤ buffer.length + part.length := by
  by_cases hfeed : part.getLast? = some lineFeed
  · obtain ⟨l, rfl⟩ := List.getLast?_eq_some_iff.1 hfeed
    rw [hfeed, beq_self_eq_true, if_pos rfl, endsInReturn_line, List.length_append, List.length_singleton]
    split
    · rename_i hreturn
      -- The carriage return stands in front of the line feed, be it in the buffer or in the part.
      have hpos : 0 < (buffer ++ l).length := List.length_pos_of_mem (List.mem_of_getLast? (of_decide_eq_true hreturn))
      rw [List.length_append] at hpos
      omega
    · omega
  · rw [beq_false_of_ne hfeed, if_neg Bool.false_ne_true]
    by_cases hempty : part = []
    · have hnone : endsInReturn buffer [] = false := rfl
      rw [hempty, hnone]
      exact Nat.zero_le _
    · have hpos : 0 < part.length := List.length_pos_iff.2 hempty
      split <;> omega

theorem checkedLength_eq (buffer part : Octets) : checkedLength buffer part = some (contentLength buffer part) := by
  rw [checkedLength, ← Nat.psub_add, Nat.psub_eq_sub (ending_le_length buffer part), contentLength, Nat.sub_sub]

/-! ### Calls -/

inductive Call
  | push (piece : Octets)
  | finish
  deriving Repr, DecidableEq

/-- What a call hands out. -/
inductive Answer
  | pushed (result : Pushed)
  | finished (line : Option String)
  deriving Repr, DecidableEq

/-- Whether nothing of what was held is left behind an answer. -/
def Answer.clears : Answer → Bool
  | .pushed (.ok _) => false
  | .pushed (.error _) => true
  | .finished _ => true

def answer (d : LineDecoder) : Call → Answer × LineDecoder
  | .push piece => (.pushed (d.push piece).1, (d.push piece).2)
  | .finish => (.finished d.finish.1, d.finish.2)

/-- The answers to calls in order, each with the decoder behind it. -/
def answers (d : LineDecoder) : List Call → List (Answer × LineDecoder)
  | [] => []
  | call :: rest => d.answer call :: (d.answer call).2.answers rest

theorem finish_snd (d : LineDecoder) : d.finish.2 = { d with buffer := [] } := by
  obtain ⟨limit, buffer⟩ := d
  cases buffer <;> rfl

/-- One call keeps the decoder sound. -/
theorem answer_sound {d : LineDecoder} (hd : d.Sound) (call : Call) :
    (d.answer call).2.Sound ∧ (d.answer call).2.limit = d.limit := by
  cases call with
  | push piece => exact push_sound hd piece
  | finish =>
    rw [answer, finish_snd]
    exact ⟨sound_empty d.limit, rfl⟩

theorem buffer_of_clears {d : LineDecoder} (hd : d.Sound) {call : Call} (h : (d.answer call).1.clears = true) :
    (d.answer call).2.buffer = [] := by
  cases call with
  | push piece =>
    rw [answer, push_eq hd] at h ⊢
    split
    · rfl
    · rename_i hfits
      rw [if_neg hfits] at h
      exact absurd h Bool.false_ne_true
  | finish => rw [answer, finish_snd]

/-- Each answer is one of a sound decoder, whatever the calls before it. -/
theorem exists_answer_of_mem {d : LineDecoder} (hd : d.Sound) {calls : List Call} {turn : Answer × LineDecoder}
    (h : turn ∈ d.answers calls) :
    ∃ (before : LineDecoder) (call : Call), before.Sound ∧ before.limit = d.limit ∧ turn = before.answer call := by
  induction calls generalizing d with
  | nil => exact absurd h List.not_mem_nil
  | cons call rest ih =>
    rcases List.mem_cons.1 h with rfl | h
    · exact ⟨d, call, hd, rfl, rfl⟩
    · obtain ⟨hsound, hlimit⟩ := answer_sound hd call
      obtain ⟨before, next, hbefore, hkept, hturn⟩ := ih hsound h
      exact ⟨before, next, hbefore, hkept.trans hlimit, hturn⟩

/-! ### What is held behind calls -/

theorem lineLength_le_iff {limit : Nat} {l : Octets} : lineLength l ≤ limit ↔
    l.length ≤ limit + 1 ∧ (l.length = limit + 1 → l.getLast? = some carriageReturn) := by
  rw [lineLength]
  by_cases hreturn : l.getLast? = some carriageReturn
  · simp only [hreturn, if_true, implies_true, and_true]
    omega
  · simp only [hreturn, if_false, imp_false]
    omega

/-- Behind calls a decoder is sound, and every sound decoder is one behind a call: the one that pushes what it holds. -/
theorem exists_mem_answers_iff (limit : Nat) (d : LineDecoder) :
    (∃ calls a, (a, d) ∈ ({ limit } : LineDecoder).answers calls) ↔ d.limit = limit ∧ d.Sound := by
  constructor
  · rintro ⟨calls, a, h⟩
    obtain ⟨before, call, hbefore, hlimit, hturn⟩ := exists_answer_of_mem (sound_empty limit) h
    obtain ⟨hsound, hkept⟩ := answer_sound hbefore call
    obtain rfl : d = (before.answer call).2 := congrArg Prod.snd hturn
    exact ⟨hkept.trans hlimit, hsound⟩
  · rintro ⟨rfl, hd⟩
    have hpush : ({ limit := d.limit } : LineDecoder).push d.buffer = (.ok [], d) := by
      rw [push_tail (sound_empty d.limit) hd.unbroken]
      exact if_neg (Nat.not_lt.2 hd.fits)
    refine ⟨[.push d.buffer], .pushed (.ok []), ?_⟩
    rw [answers, answer, hpush]
    exact List.mem_cons_self

theorem buffer_of_mem_answers {limit : Nat} {calls : List Call} {a : Answer} {d : LineDecoder}
    (h : (a, d) ∈ ({ limit } : LineDecoder).answers calls) (hclears : a.clears = true) : d.buffer = [] := by
  obtain ⟨before, call, hbefore, -, hturn⟩ := exists_answer_of_mem (sound_empty limit) h
  obtain ⟨rfl, rfl⟩ := Prod.mk.inj hturn
  exact buffer_of_clears hbefore hclears

/-- Behind calls in any order a decoder holds no line feed and at most one octet more than the limit, a carriage return,
and it may hold whatever this allows. A finish and a refused piece empty it, and no subtraction goes below zero. -/
theorem answers_buffer (limit : Nat) :
    (∀ d : LineDecoder, (∃ calls a, (a, d) ∈ ({ limit } : LineDecoder).answers calls) ↔
      d.limit = limit ∧ lineFeed ∉ d.buffer ∧ d.buffer.length ≤ limit + 1
        ∧ (d.buffer.length = limit + 1 → d.buffer.getLast? = some carriageReturn))
    ∧ (∀ calls line d, (.finished line, d) ∈ ({ limit } : LineDecoder).answers calls → d.buffer = [])
    ∧ (∀ calls e d, (.pushed (.error e), d) ∈ ({ limit } : LineDecoder).answers calls → d.buffer = [])
    ∧ ∀ buffer part, checkedLength buffer part = some (contentLength buffer part) := by
  refine ⟨fun d => ?_, fun _ _ _ h => buffer_of_mem_answers h rfl, fun _ _ _ h => buffer_of_mem_answers h rfl,
    checkedLength_eq⟩
  rw [exists_mem_answers_iff]
  constructor
  · rintro ⟨rfl, hd⟩
    exact ⟨rfl, hd.unbroken, lineLength_le_iff.1 hd.fits⟩
  · rintro ⟨rfl, hunbroken, hbound⟩
    exact ⟨rfl, hunbroken, lineLength_le_iff.2 hbound⟩

/-- The second piece ends in a carriage return beyond the limit, and the third takes it into the line, which is too long
then. The fourth begins with a line feed of its own, and its last line is still open when the decoder is finished. -/
def jolts : List Call :=
  [.push [0x61, 0x62], .push [0x63, 0x0D], .push [0x78], .push [0x0A, 0x64, 0x0D, 0x0A, 0x65], .finish]

/-- What each of them hands out and leaves behind. -/
def jolted : List (Answer × LineDecoder) :=
  [(.pushed (.ok []), ⟨3, [0x61, 0x62]⟩), (.pushed (.ok []), ⟨3, [0x61, 0x62, 0x63, 0x0D]⟩),
    (.pushed (.error (.lineTooLong 3)), ⟨3, []⟩), (.pushed (.ok ["", "d"]), ⟨3, [0x65]⟩),
    (.finished (some "e"), ⟨3, []⟩)]

theorem jolts_buffer :
    ({ limit := 3 } : LineDecoder).answers jolts = jolted
    ∧ (∀ a d, (a, d) ∈ jolted → lineFeed ∉ d.buffer ∧ d.buffer.length ≤ 3 + 1)
    ∧ ([0x61, 0x62, 0x63, 0x0D] : Octets).getLast? = some carriageReturn := by
  have hjolts : ({ limit := 3 } : LineDecoder).answers jolts = jolted := rfl
  have hheld := (answers_buffer 3).1
  refine ⟨hjolts, fun a d h => ?_, ?_⟩
  · obtain ⟨-, hfeed, hlength, -⟩ := (hheld d).1 ⟨jolts, a, hjolts ▸ h⟩
    exact ⟨hfeed, hlength⟩
  · have hfull : (.pushed (.ok []), ⟨3, [0x61, 0x62, 0x63, 0x0D]⟩) ∈ jolted := by decide
    exact ((hheld _).1 ⟨jolts, _, hjolts ▸ hfull⟩).2.2.2 rfl

end Helmsman.LineDecoder
