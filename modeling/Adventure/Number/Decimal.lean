import Adventure.Number.Binary64

/-!
# Decimal text of doubles

Writing picks the fewest significant digits that read back as the same double, of those the
nearest to it, and of two nearest the one with an even last digit.  The choice is made in exact
integer arithmetic on the interval of reals that round to the double.

Reading takes a significand below `2^64` and a power of ten, and scales the significand in steps
of at most `10^308`.  Each step rounds, so a text with many digits or a large exponent may come
out next to the nearest double; `ofScaled?` is the rule, and rounding to nearest is not promised.
-/

namespace Adventure

namespace Binary64

/-! ## Shortest digits -/

/-- A positive double as `mantissa * 2 ^ exponent`. -/
def split (x : Binary64) : Nat × Int :=
  let fraction := x.fractionField.toNat
  let field := x.exponentField.toNat
  if field = 0 then (fraction, -1074) else (0x10000000000000 + fraction, (field : Int) - 1075)

/-- The reals that round to a double, as integers over a common denominator. -/
structure Neighbourhood where
  low : Nat
  value : Nat
  high : Nat
  denominator : Nat
  /-- Whether the two ends round to the double as well. -/
  closed : Bool

/-- The neighbourhood of a positive double: half way to each neighbour.  Below a power of two the
lower neighbour is only half as far away. -/
def neighbourhood (x : Binary64) : Neighbourhood :=
  let (m, e) := x.split
  let below := if x.fractionField == 0 && x.exponentField > 1 then 1 else 2
  let scale := if e ≥ 0 then Nat.pow 2 e.toNat else 1
  { low := (4 * m - below) * scale
    value := 4 * m * scale
    high := (4 * m + 2) * scale
    denominator := if e ≥ 0 then 4 else 4 * Nat.pow 2 (-e).toNat
    closed := m % 2 = 0 }

/-- Whether `digits * 10 ^ power` lies in the neighbourhood. -/
def Neighbourhood.holds (n : Neighbourhood) (digits : Nat) (power : Int) : Bool :=
  let left :=
    if power ≥ 0 then digits * Nat.pow 10 power.toNat * n.denominator else digits * n.denominator
  let unit := if power ≥ 0 then 1 else Nat.pow 10 (-power).toNat
  if n.closed then n.low * unit ≤ left && left ≤ n.high * unit
  else n.low * unit < left && left < n.high * unit

/-- The largest `k ≤ start` with `10 ^ k ≤ value / denominator`, searched downwards. -/
def leadingPower (value denominator : Nat) : (steps : Nat) → (k : Int) → Int
  | 0, k => k
  | steps + 1, k =>
    let fits := if k ≥ 0 then Nat.pow 10 k.toNat * denominator ≤ value
      else denominator ≤ value * Nat.pow 10 (-k).toNat
    if fits then k else leadingPower value denominator steps (k - 1)

/-- The best `digits` on the grid of multiples of `10 ^ power`, if one lies in the
neighbourhood: the nearer of the two around the value, and of equally near ones the even. -/
def Neighbourhood.onGrid? (n : Neighbourhood) (power : Int) : Option Nat :=
  let (num, den) :=
    if power ≥ 0 then (n.value, n.denominator * Nat.pow 10 power.toNat)
    else (n.value * Nat.pow 10 (-power).toNat, n.denominator)
  let floor := num / den
  let twice := 2 * (num % den)
  let nearer := if twice < den then floor
    else if twice > den then floor + 1
    else if floor % 2 = 0 then floor else floor + 1
  let farther := if nearer = floor then floor + 1 else floor
  if n.holds nearer power then some nearer
  else if n.holds farther power then some farther
  else none

/-- Tries grids with one more digit each time. -/
def Neighbourhood.search (n : Neighbourhood) : (steps : Nat) → (power : Int) → Nat × Int
  | 0, power => (n.value / n.denominator, power)
  | steps + 1, power =>
    match n.onGrid? power with
    | some digits => (digits, power)
    | none => search n steps (power - 1)

/-- Moves trailing zeros into the power of ten. -/
def trimZeros : (steps : Nat) → Nat → Int → Nat × Int
  | 0, digits, power => (digits, power)
  | steps + 1, digits, power =>
    if digits % 10 = 0 && digits != 0 then trimZeros steps (digits / 10) (power + 1)
    else (digits, power)

/-- The shortest digits and power of ten of a positive double. -/
def shortest (x : Binary64) : Nat × Int :=
  let n := x.neighbourhood
  let start : Int := ((x.split.2 + 53) * 30103 / 100000) + 1
  let top := leadingPower n.value n.denominator 400 start
  let (digits, power) := n.search 18 top
  trimZeros 20 digits power

/-! ## Layout -/

/-- Where decimal notation ends. -/
structure Style where
  /-- Numbers from `10 ^ positionalBelow` on are written with an exponent. -/
  positionalBelow : Int
  /-- So are numbers below `10 ^ positionalFrom`. -/
  positionalFrom : Int

/-- Documents write numbers below `10^16` and from `10^-5` on without an exponent. -/
def documentStyle : Style := ⟨16, -5⟩

/-- An exponent, which always has a sign. -/
def signedText (n : Int) : List Char :=
  let digits := (toString n).toList
  if n < 0 then digits else '+' :: digits

def zeros (n : Int) : List Char := List.replicate n.toNat '0'

/-- Lays out digits: with a point and at least one digit on each side of it, or with one digit
before the point and an exponent with its sign. -/
def layout (style : Style) (digits : List Char) (power : Int) : List Char :=
  let size : Int := digits.length
  let point := size + power
  if 0 ≤ power && point ≤ style.positionalBelow then digits ++ zeros power ++ ['.', '0']
  else if 0 < point && point ≤ style.positionalBelow then
    digits.take point.toNat ++ '.' :: digits.drop point.toNat
  else if style.positionalFrom < point && point ≤ 0 then '0' :: '.' :: zeros (-point) ++ digits
  else
    let tail := digits.drop 1
    digits.take 1 ++ (if tail.isEmpty then [] else '.' :: tail) ++
      'e' :: signedText (point - 1)

/-- The decimal text of a finite double; infinities and NaN have none. -/
def text? (x : Binary64) : Option (List Char) :=
  if !x.isFinite then none
  else
    let sign := if x.isNegative then ['-'] else []
    if x.isZero then some (sign ++ ['0', '.', '0'])
    else
      let (digits, power) := x.abs.shortest
      some (sign ++ layout documentStyle (Nat.toDigits 10 digits) power)

/-! ## Reading -/

/-- A power of ten as a double. -/
def tenTo (n : Nat) : Float := Float.ofScientific 1 false n

/-- Scales by `10 ^ exponent` in steps of at most `10 ^ 308`. -/
def scale? : (steps : Nat) → Float → Int → Option Float
  | 0, _, _ => none
  | steps + 1, x, exponent =>
    if exponent.natAbs ≤ 308 then
      if exponent ≥ 0 then
        let r := x * tenTo exponent.natAbs
        if r.isInf then none else some r
      else some (x / tenTo exponent.natAbs)
    else if x == 0 then some x
    else if exponent ≥ 0 then none
    else scale? steps (x / tenTo 308) (exponent + 308)

/-- `significand * 10 ^ exponent` with a sign, or `none` where it is too large for a double. -/
def ofScaled? (negative : Bool) (significand : Nat) (exponent : Int) : Option Binary64 :=
  (scale? (exponent.natAbs / 308 + 2) (Float.ofNat significand) exponent).map fun r =>
    ofFloat (if negative then -r else r)

end Binary64

end Adventure
