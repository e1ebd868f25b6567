/-!
Bounds of 64-bit numbers, and totals.
-/

namespace CodeAtlas

/-- The number of unsigned 64-bit numbers. -/
def unsignedLimit : Nat := 18446744073709551616

/-- One more than the greatest signed 64-bit number; its negative is the least one. -/
def signedLimit : Nat := 9223372036854775808

def leastSigned : Int := -9223372036854775808

def isSigned64 (n : Int) : Bool := leastSigned ≤ n && n < signedLimit

/-- The signed 64-bit number that is congruent to a number. -/
def wrap64 (n : Int) : Int := n.bmod unsignedLimit

def total (counts : List Nat) : Nat := counts.foldl (· + ·) 0

def signedTotal (numbers : List Int) : Int := numbers.foldl (· + ·) 0

end CodeAtlas
