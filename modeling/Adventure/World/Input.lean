import Adventure.Geometry

/-!
# Input

What the player does in one tick.
-/

namespace Adventure

/-- A point on the screen, in pixels. -/
structure Point where
  x : Int32
  y : Int32
  deriving DecidableEq, Repr

/-- What the player does in one tick. -/
structure Input where
  /-- Something was tapped; this goes on from a message. -/
  triggered : Bool
  tappedTile : Option Tile
  /-- The tile under a pointer that is held down. -/
  pressedTile : Option Tile
  pointer : Option Point
  pointerPressed : Bool
  pointerReleased : Bool
  /-- The row picked from choices. -/
  choice : Option Nat
  deriving DecidableEq, Repr

namespace Input

/-- Nothing is done. -/
def none : Input := ⟨false, .none, .none, .none, false, false, .none⟩

instance : Inhabited Input := ⟨none⟩

/-- What is left once a window has used the tap or the choice. -/
def consumed (i : Input) : Input :=
  { i with triggered := false, tappedTile := .none, choice := .none }

end Input

end Adventure
