/-!
# Random numbers

A generator is a seed and the number of draws made so far; draw `n` is the `n`-th 64-bit word of the
ChaCha stream cipher with 8 rounds under a key made from the seed.  Numbers from a range come from
a widening multiplication: the high half of `draw * size` is the number, and draws whose low half
falls into the uneven rest are thrown away.
-/

namespace Adventure

/-! ## The stream -/

/-- The next state of the generator that keys are made with. -/
def nextKeyState (state : UInt64) : UInt64 := state * 6364136223846793005 + 11634580027462260723

/-- Turns a word right. -/
def rotateRight (x : UInt32) (n : UInt32) : UInt32 :=
  if n = 0 then x else (x >>> n) ||| (x <<< (32 - n))

def rotateLeft (x : UInt32) (n : UInt32) : UInt32 := (x <<< n) ||| (x >>> (32 - n))

/-- The word of a key state: mixed, and turned by its top five bits. -/
def keyWord (state : UInt64) : UInt32 :=
  rotateRight (((state >>> 18) ^^^ state) >>> 27).toUInt32 (state >>> 59).toUInt32

/-- The words of a key. -/
def keyWords : (count : Nat) → UInt64 → List UInt32
  | 0, _ => []
  | count + 1, state =>
    let next := nextKeyState state
    keyWord next :: keyWords count next

/-- Sixteen words, as the cipher works on them. -/
abbrev Block := Array UInt32

/-- Mixes four words of a block. -/
def quarterRound (b : Block) (i j k l : Nat) : Block :=
  let w (n : Nat) : UInt32 := b.getD n 0
  let x := w i + w j
  let z := rotateLeft (w l ^^^ x) 16
  let y := w k + z
  let u := rotateLeft (w j ^^^ y) 12
  let x := x + u
  let z := rotateLeft (z ^^^ x) 8
  let y := y + z
  let u := rotateLeft (u ^^^ y) 7
  (((b.setIfInBounds i x).setIfInBounds j u).setIfInBounds k y).setIfInBounds l z

/-- A round down the columns and one along the diagonals. -/
def doubleRound (b : Block) : Block :=
  let b := quarterRound b 0 4 8 12
  let b := quarterRound b 1 5 9 13
  let b := quarterRound b 2 6 10 14
  let b := quarterRound b 3 7 11 15
  let b := quarterRound b 0 5 10 15
  let b := quarterRound b 1 6 11 12
  let b := quarterRound b 2 7 8 13
  quarterRound b 3 4 9 14

/-- A block of the stream. -/
def streamBlock (key : List UInt32) (counter : Nat) : Block :=
  let start : Block :=
    ([0x61707865, 0x3320646e, 0x79622d32, 0x6b206574] ++ key ++
      [UInt32.ofNat counter, UInt32.ofNat (counter / 0x100000000), 0, 0]).toArray
  let mixed := doubleRound (doubleRound (doubleRound (doubleRound start)))
  start.zipWith (· + ·) mixed

/-! ## Generators -/

/-- A source of random numbers. -/
structure Random where
  seed : UInt64
  drawn : Nat
  deriving DecidableEq, Repr, Inhabited

namespace Random

def ofSeed (seed : UInt64) : Random := ⟨seed, 0⟩

/-- Draws 64 bits, low half first. -/
def next (r : Random) : UInt64 × Random :=
  let block := streamBlock (keyWords 8 r.seed) (r.drawn / 8)
  let i := r.drawn % 8 * 2
  let low := block.getD i 0
  let high := block.getD (i + 1) 0
  (low.toUInt64 ||| (high.toUInt64 <<< 32), { r with drawn := r.drawn + 1 })

/-- The largest low half that is taken, for a range of `size` numbers: one less than the largest
multiple of `size` by a power of two that fits into 64 bits. -/
def zone (size : Nat) : Nat := size * Nat.pow 2 (63 - size.log2) - 1

/-- After so many draws the stream begins again: a block holds eight words, and the blocks are
counted with 64 bits. -/
def period : Nat := 8 * 0x10000000000000000

/-- Draws until one is taken, and gives the high half of its product with `size`; nothing if none of
so many draws is taken. -/
def below? (size : Nat) : (attempts : Nat) → Random → Option (Nat × Random)
  | 0, _ => none
  | attempts + 1, r =>
    let (v, r) := r.next
    let product := v.toNat * size
    if product % 0x10000000000000000 ≤ zone size then some (product / 0x10000000000000000, r)
    else below? size attempts r

/-- A number below `size`.  At least half of all words are taken, so a stream that has none to take
is not met; its number would be 0. -/
def below (size : Nat) (r : Random) : Nat × Random := (below? size period r).getD (0, r)

/-- A number from one bound to the other, both included, in either order. -/
def between (r : Random) (a b : Int64) : Int64 × Random :=
  let low := if a ≤ b then a else b
  let high := if a ≤ b then b else a
  let size := (high.toInt - low.toInt + 1).toNat
  if size = 0x10000000000000000 then
    let (v, r) := r.next
    (v.toInt64, r)
  else
    let (n, r) := below size r
    (Int64.ofInt (low.toInt + n), r)

/-- A position in a list of `n` elements; 0 without a draw if there are none. -/
def index (r : Random) (n : Nat) : Nat × Random :=
  if n = 0 then (0, r) else below n r

end Random

end Adventure
