import Adventure.Wire.Codec

/-!
# Tiles, directions and speeds

Rooms are grids of square tiles; `x` grows to the right and `y` downwards.  Coordinates are 32 bits
wide.
-/

namespace Adventure

open Wire

/-- Width and height of a tile in pixels. -/
def tileSize : Int32 := 16

/-- The event id that stands for the player. -/
def playerId : Int32 := -1

/-- The event id that stands for the event running a script. -/
def selfId : Int32 := 0

/-! ## Directions -/

/-- A facing direction. -/
inductive Direction where
  | up
  | right
  | down
  | left
  deriving DecidableEq, Repr, Inhabited

namespace Direction

/-- All directions in clockwise order. -/
def all : List Direction := [up, right, down, left]

/-- The position in clockwise order. -/
def index : Direction → Nat
  | up => 0
  | right => 1
  | down => 2
  | left => 3

def ofIndex? : Int → Option Direction
  | 0 => some up
  | 1 => some right
  | 2 => some down
  | 3 => some left
  | _ => none

theorem ofIndex?_index (d : Direction) : ofIndex? d.index = some d := by cases d <;> rfl

/-- Turns clockwise by quarter turns; a negative number turns back. -/
def rotate (d : Direction) (quarterTurns : Int) : Direction :=
  (ofIndex? (((d.index : Int) + quarterTurns) % 4)).getD up

def opposite (d : Direction) : Direction := d.rotate 2

/-- The step to the next tile. -/
def delta : Direction → Int32 × Int32
  | up => (0, -1)
  | right => (1, 0)
  | down => (0, 1)
  | left => (-1, 0)

end Direction

/-- Directions are written by number. -/
instance : Wire Direction where
  encode d := .int d.index
  decode? m v := (Wire.decode? m v : Option UInt8).bind fun n => Direction.ofIndex? n.toNat

/-! ## Tiles -/

/-- A place on the grid. -/
structure Tile where
  x : Int32
  y : Int32
  deriving DecidableEq, Repr, Inhabited

namespace Tile

/-- The neighbouring tile in a direction. -/
def step (t : Tile) (d : Direction) : Tile := ⟨t.x + d.delta.1, t.y + d.delta.2⟩

/-- Horizontal plus vertical distance. -/
def distance (a b : Tile) : Nat :=
  (a.x.toInt - b.x.toInt).natAbs + (a.y.toInt - b.y.toInt).natAbs

/-- The direction of the longer way from one tile toward another; where both are equally long,
the vertical one. -/
def toward? (a b : Tile) : Option Direction :=
  let dx := b.x.toInt - a.x.toInt
  let dy := b.y.toInt - a.y.toInt
  if dx = 0 ∧ dy = 0 then none
  else if dx.natAbs > dy.natAbs then some (if dx > 0 then .right else .left)
  else some (if dy > 0 then .down else .up)

end Tile

/-! ## Speeds -/

/-- How fast a character walks. -/
inductive Speed where
  | slowest
  | slower
  | slow
  | fast
  | faster
  | fastest
  deriving DecidableEq, Repr

namespace Speed

def all : List Speed := [slowest, slower, slow, fast, faster, fastest]

/-- The level that projects name a speed by, from 1 to 6. -/
def level : Speed → Nat
  | slowest => 1
  | slower => 2
  | slow => 3
  | fast => 4
  | faster => 5
  | fastest => 6

def ofLevel? (n : Nat) : Option Speed := all.find? fun s => s.level == n

theorem ofLevel?_level (s : Speed) : ofLevel? s.level = some s := by cases s <;> rfl

/-- Frames that a step to the next tile takes. -/
def frames : Speed → UInt32
  | slowest => 64
  | slower => 32
  | slow => 16
  | fast => 12
  | faster => 8
  | fastest => 4

/-- The speed of events that name none. -/
def eventDefault : Speed := slow

/-- The speed of a player for whom none is set. -/
def playerDefault : Speed := faster

instance : Inhabited Speed := ⟨eventDefault⟩

end Speed

/-- Speeds are written by level. -/
instance : Wire Speed where
  encode s := .int s.level
  decode? m v := (Wire.decode? m v : Option UInt8).bind fun n => Speed.ofLevel? n.toNat

/-! ## Literal or looked up -/

/-- Whether a number in a script is meant literally or names the variable to read. -/
inductive Source where
  | constant
  | variable
  deriving DecidableEq, Repr, Inhabited

instance : Enumeration Source where
  cases := [.constant, .variable]
  label
    | .constant => "constant"
    | .variable => "variable"

end Adventure
