/-!
# Double-precision numbers by their bits

A `Binary64` is the 64-bit pattern of an IEEE double.  Keeping the pattern makes equality
decidable and storage exact, signs of zero and payloads of NaN included.  Arithmetic goes through
`Float`; what an operation does with NaN is fixed here, since `Float` keeps one NaN only: an
operand that is NaN is passed on as a quiet NaN, and an invalid operation gives the negative quiet
NaN without payload.
-/

namespace Adventure

/-- The bit pattern of an IEEE double. -/
structure Binary64 where
  bits : UInt64
  deriving DecidableEq, Inhabited, Repr

namespace Binary64

def ofFloat (x : Float) : Binary64 := ⟨x.toBits⟩

def toFloat (x : Binary64) : Float := Float.ofBits x.bits

instance : Coe Float Binary64 := ⟨ofFloat⟩

def zero : Binary64 := ⟨0⟩

def one : Binary64 := ⟨0x3ff0000000000000⟩

/-- A number from `2 ^ exponent` to `2 ^ (exponent + 1)` as a significand of 53 bits, rounded to the
nearest, ties to even. -/
def significand (n exponent : Nat) : Nat :=
  if exponent ≤ 52 then n * Nat.pow 2 (52 - exponent)
  else
    let unit := Nat.pow 2 (exponent - 52)
    let floor := n / unit
    let twice := 2 * (n % unit)
    if twice < unit || (twice = unit && floor % 2 = 0) then floor else floor + 1

/-- The bits of a whole number without sign.  What is too large for a double is infinite. -/
def magnitudeBits (n : Nat) : Nat :=
  if n = 0 then 0
  else min ((n.log2 + 1022) * 0x10000000000000 + significand n n.log2) 0x7ff0000000000000

/-- The value of a whole number; beyond 53 bits it is rounded to the nearest, ties to even. -/
def ofInt (n : Int) : Binary64 :=
  ⟨UInt64.ofNat ((if n < 0 then 0x8000000000000000 else 0) + magnitudeBits n.natAbs)⟩

/-- The exponent field. -/
def exponentField (x : Binary64) : UInt64 := (x.bits >>> 52) &&& 0x7ff

/-- The fraction field. -/
def fractionField (x : Binary64) : UInt64 := x.bits &&& 0xfffffffffffff

def isNegative (x : Binary64) : Bool := x.bits >>> 63 == 1

def isFinite (x : Binary64) : Bool := x.exponentField != 0x7ff

def isNaN (x : Binary64) : Bool := x.exponentField == 0x7ff && x.fractionField != 0

/-- A NaN with its quiet bit set. -/
def quiet (x : Binary64) : Binary64 := ⟨x.bits ||| 0x8000000000000⟩

/-- What an invalid operation gives. -/
def invalid : Binary64 := ⟨0xfff8000000000000⟩

/-- Lifts an operation, with the rules for NaN. -/
def lift₂ (op : Float → Float → Float) (x y : Binary64) : Binary64 :=
  if x.isNaN then x.quiet
  else if y.isNaN then y.quiet
  else
    let r := op x.toFloat y.toFloat
    if r.isNaN then invalid else ofFloat r

instance : Add Binary64 := ⟨lift₂ (· + ·)⟩
instance : Sub Binary64 := ⟨lift₂ (· - ·)⟩
instance : Mul Binary64 := ⟨lift₂ (· * ·)⟩
instance : Div Binary64 := ⟨lift₂ (· / ·)⟩

/-- Flips the sign bit. -/
instance : Neg Binary64 := ⟨fun x => ⟨x.bits ^^^ 0x8000000000000000⟩⟩

/-- Clears the sign bit. -/
def abs (x : Binary64) : Binary64 := ⟨x.bits &&& 0x7fffffffffffffff⟩

/-- Numeric order: false as soon as one side is NaN. -/
def lt (x y : Binary64) : Bool := x.toFloat < y.toFloat

/-- Numeric order: false as soon as one side is NaN. -/
def le (x y : Binary64) : Bool := x.toFloat ≤ y.toFloat

/-- Numerically zero, of either sign. -/
def isZero (x : Binary64) : Bool := x.bits <<< 1 == 0

/-- The single-precision number with these bits, widened. -/
def ofSingleBits (bits : UInt32) : Binary64 :=
  let sign : UInt64 := (bits >>> 31).toUInt64 <<< (63 : UInt64)
  let exponent := (bits >>> 23) &&& 0xff
  let fraction := (bits &&& 0x7fffff).toUInt64
  if exponent == 0xff then
    if fraction == 0 then ⟨sign ||| 0x7ff0000000000000⟩
    else ⟨sign ||| 0x7ff8000000000000 ||| (fraction <<< (29 : UInt64))⟩
  else ofFloat (Float32.ofBits bits).toFloat

end Binary64

end Adventure
