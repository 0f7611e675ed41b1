/-!
# Narrowing

A 64-bit number as a 32-bit one, where it fits.
-/

namespace Adventure

/-- The 32-bit number with the same value. -/
def narrow? (n : Int64) : Option Int32 :=
  if -0x80000000 ≤ n.toInt ∧ n.toInt < 0x80000000 then some (Int32.ofInt n.toInt) else none

end Adventure
