import Helmsman.Number.Decimal
/-!
# The shortest decimal of a floating point number

Among the decimals that read back as the value there is a least number of digits, and among those with that many
digits a nearest one. `shortest` finds it by trying one digit, two digits and so on: on each decimal grid only the two
neighbours of the value can lie in the interval of numbers that round to it. Seventeen digits are always enough.

How digits and power are then written is a separate matter, `Style.write`.
-/

namespace Helmsman

/-- A whole number of digits and the power of ten it is to be multiplied with. -/
structure Digits where
  digits : Nat
  power : Int
  deriving Repr, DecidableEq

namespace Binary64

/-- `num / den` over 10^power as a fraction of whole numbers. -/
private def overPower (num den : Nat) (power : Int) : Nat × Nat :=
  if 0 ≤ power then (num, den * tenTo power.toNat) else (num * tenTo (-power).toNat, den)

/-- The interval of a finite value, over a common denominator: its ends, the value, and whether the ends belong. -/
structure Interval where
  low : Nat
  value : Nat
  high : Nat
  den : Nat
  closed : Bool
  deriving Repr

def interval (mantissa : Nat) (exponent : Int) : Interval :=
  let below := if mantissa = leastNormal ∧ leastExponent < exponent then 1 else 2
  let scale := exponent - 2
  let up := scale.toNat
  ⟨(4 * mantissa - below) <<< up, (4 * mantissa) <<< up, (4 * mantissa + 2) <<< up, 1 <<< (-scale).toNat,
    mantissa % 2 == 0⟩

/-- Whether `n · 10^power` rounds to the value. -/
def Interval.holds (i : Interval) (n : Nat) (power : Int) : Bool :=
  let (low, den) := overPower i.low i.den power
  let (high, _) := overPower i.high i.den power
  if i.closed then decide (low ≤ n * den) && decide (n * den ≤ high)
  else decide (low < n * den) && decide (n * den < high)

/-- The neighbour of the value on the grid of 10^power that rounds to it, the nearer one, the even one in a tie. -/
def Interval.onGrid? (i : Interval) (power : Int) : Option Nat :=
  let (num, den) := overPower i.value i.den power
  let q := num / den
  let r := num % den
  match decide (0 < q) && i.holds q power, i.holds (q + 1) power with
  | true, true => some (if 2 * r < den then q else if den < 2 * r then q + 1 else q + q % 2)
  | true, false => some q
  | false, true => some (q + 1)
  | false, false => none

/-- The exponent p with 10^(p-1) ≤ num / den < 10^p, searched upward from an estimate that is never too large. -/
private def decade (num den : Nat) : Nat → Int → Int
  | 0, p => p
  | fuel + 1, p =>
    let (n, d) := overPower num den p
    if n < d then p else decade num den fuel (p + 1)

private def stripZeros : Nat → Nat → Int → Digits
  | 0, n, p => ⟨n, p⟩
  | fuel + 1, n, p => if n % 10 = 0 ∧ n ≠ 0 then stripZeros fuel (n / 10) (p + 1) else ⟨n, p⟩

private def search (i : Interval) (top : Int) : Nat → Nat → Digits
  | 0, n => ⟨0, n⟩
  | fuel + 1, n =>
    match i.onGrid? (top - n) with
    | some d => stripZeros 20 d (top - n)
    | none => search i top fuel (n + 1)

def shortest (mantissa : Nat) (exponent : Int) : Digits :=
  let i := interval mantissa exponent
  let estimate : Int := ((mantissa.log2 : Int) + exponent) * 30103 / 100000 - 1
  search i (decade i.value i.den 8 estimate) 17 1

end Binary64

/-- How the digits of a floating point number are laid out: in place when the first digit stands for a power between
`least` and `greatest`, and in scientific form otherwise. -/
structure DecimalStyle where
  least : Int
  greatest : Int
  /-- Whether a whole number shows a zero behind the point. -/
  pointZero : Bool
  /-- Whether the exponent shows a plus sign. -/
  plus : Bool
  exponentWidth : Nat
  notANumber : String
  infinity : String

namespace DecimalStyle

private def insertPoint (style : DecimalStyle) (digits : List Char) (power : Int) : List Char :=
  let count : Int := digits.length
  let tail := if style.pointZero then ['.', '0'] else []
  if 0 ≤ power then digits ++ List.replicate power.toNat '0' ++ tail
  else if 0 < count + power then
    let whole := (count + power).toNat
    digits.take whole ++ '.' :: digits.drop whole
  else '0' :: '.' :: List.replicate (-(count + power)).toNat '0' ++ digits

private def scientific (style : DecimalStyle) (digits : List Char) (first : Int) : List Char :=
  let mantissa := match digits with
    | d :: (e :: rest) => d :: '.' :: e :: rest
    | ds => ds
  let sign := if first < 0 then ['-'] else if style.plus then ['+'] else []
  mantissa ++ 'e' :: sign ++ (Decimal.padded style.exponentWidth first.natAbs).toList

def write (style : DecimalStyle) : Binary64 → String
  | .nan => style.notANumber
  | .infinite negative => if negative then "-" ++ style.infinity else style.infinity
  | .finite negative m e =>
    let body :=
      if m = 0 then '0' :: (if style.pointZero then ['.', '0'] else [])
      else
        let d := Binary64.shortest m e
        let digits := Nat.toDigits 10 d.digits
        let first := d.power + digits.length - 1
        if style.least ≤ first ∧ first ≤ style.greatest then insertPoint style digits d.power
        else scientific style digits first
    String.ofList (if negative then '-' :: body else body)

/-! ### What a number is written with -/

/-- The characters of a written number, the two spellings for what is none aside. -/
private def Spelled (cs : List Char) : Prop := ∀ c ∈ cs, c.isDigit = true ∨ c ∈ ['-', '+', '.', 'e']

private theorem spelled_digits (n : Nat) : Spelled (Nat.toDigits 10 n) := fun _ hc =>
  .inl (Nat.isDigit_of_mem_toDigits (by decide) (by decide) hc)

private theorem Spelled.append {cs cs' : List Char} (h : Spelled cs) (h' : Spelled cs') : Spelled (cs ++ cs') := by
  intro c hc
  exact (List.mem_append.1 hc).elim (h c) (h' c)

private theorem Spelled.subset {cs cs' : List Char} (h : Spelled cs) (hsub : ∀ c ∈ cs', c ∈ cs) : Spelled cs' :=
  fun c hc => h c (hsub c hc)

private theorem spelled_zeros (n : Nat) : Spelled (List.replicate n '0') := by
  intro c hc
  rw [List.eq_of_mem_replicate hc]
  exact .inl (by decide)

private theorem spelled_insertPoint (style : DecimalStyle) {digits : List Char} (h : Spelled digits) (power : Int) :
    Spelled (insertPoint style digits power) := by
  have hpoint : Spelled ['.'] := by simp [Spelled]
  have htail : Spelled (if style.pointZero then ['.', '0'] else []) := by
    split <;> simp [Spelled]
  rw [insertPoint]
  split
  · exact (h.append (spelled_zeros _)).append htail
  · split
    · exact (h.subset fun _ => List.mem_of_mem_take).append
        (hpoint.append (h.subset fun _ => List.mem_of_mem_drop))
    · have hfront : Spelled ['0', '.'] := by simp [Spelled]
      exact (hfront.append (spelled_zeros _)).append h

private theorem spelled_scientific (style : DecimalStyle) {digits : List Char} (h : Spelled digits) (first : Int) :
    Spelled (scientific style digits first) := by
  have hsign : Spelled (if first < 0 then ['-'] else if style.plus then ['+'] else []) := by
    split
    · simp [Spelled]
    · split <;> simp [Spelled]
  have hmark : Spelled ['e'] := by simp [Spelled]
  have hmantissa : ∀ ds, Spelled ds → Spelled (match ds with
      | d :: (e :: rest) => d :: '.' :: e :: rest
      | ds => ds) := by
    intro ds hds
    split
    · simp_all [Spelled]
    · exact hds
  have hexponent : Spelled (Decimal.padded style.exponentWidth first.natAbs).toList := by
    rw [Decimal.padded, String.toList_ofList]
    exact (spelled_zeros _).append (spelled_digits _)
  rw [scientific.eq_def]
  exact ((hmantissa digits h).append (hmark.append hsign)).append hexponent

/-- A number is written with digits and a few marks, and what is no number is spelled as the layout says. -/
theorem mem_write {style : DecimalStyle} {x : Binary64} {c : Char} (h : c ∈ (style.write x).toList) :
    c.isDigit = true ∨ c ∈ ['-', '+', '.', 'e'] ∨ c ∈ style.notANumber.toList ∨ c ∈ style.infinity.toList := by
  cases x with
  | nan => exact .inr (.inr (.inl h))
  | infinite negative =>
    cases negative with
    | true =>
      rw [write, if_pos rfl, String.toList_append] at h
      rcases List.mem_append.1 h with h | h
      · exact .inr (.inl (List.mem_cons.2 (.inl (List.mem_singleton.1 h))))
      · exact .inr (.inr (.inr h))
    | false => exact .inr (.inr (.inr h))
  | finite negative m e =>
    refine (?_ : Spelled (style.write (.finite negative m e)).toList) c h |>.imp_right .inl
    have hbody : ∀ body, Spelled body → Spelled (if negative then '-' :: body else body) := by
      intro body hbody
      split
      · simp_all [Spelled]
      · exact hbody
    rw [write, String.toList_ofList]
    apply hbody
    split
    · split <;> simp [Spelled]
    · dsimp only
      split
      · exact spelled_insertPoint style (spelled_digits _) _
      · exact spelled_scientific style (spelled_digits _) _

/-- The layout of a text that never uses an exponent and shows whole numbers bare. -/
def plain : DecimalStyle := ⟨-400, 400, false, false, 1, "NaN", "inf"⟩

end DecimalStyle

end Helmsman
