/-!
# Words and powers

The least and the greatest values of whole numbers that have a fixed width, sums of such numbers, and powers of ten.
-/

namespace Helmsman

namespace Word

def lowest32 : Int := -2147483648
def highest32 : Int := 2147483647
def lowest64 : Int := -9223372036854775808
def highest64 : Int := 9223372036854775807

/-- The greatest values of words without a sign. -/
def unsigned16 : Nat := 65535
def unsigned32 : Nat := 4294967295
def unsigned64 : Nat := 18446744073709551615

/-- The sum of two words of 32 bits, if it is one. -/
def add32? (m n : Int) : Option Int := if lowest32 ≤ m + n ∧ m + n ≤ highest32 then some (m + n) else none

end Word

/-- A one with so many zeros. -/
def tenTo (n : Nat) : Nat := Nat.pow 10 n

end Helmsman
