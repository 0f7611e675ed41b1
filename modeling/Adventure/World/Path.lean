import Adventure.Geometry

/-!
# Finding a way

Breadth-first search over the tile grid.  The goal itself need not be passable: the player walks up
to what stands there.  Where the goal cannot be reached, the way leads to the reachable tile that is
closest to it, so an empty way means that the walker is as close as it can get.
-/

namespace Adventure

/-- How a tile was reached: from where, and in which direction. -/
structure Arrival where
  tile : Tile
  origin : Tile
  dir : Direction
  deriving DecidableEq, Repr

/-- A search under way. -/
structure Search where
  /-- The tiles reached so far, the latest first. -/
  arrivals : List Arrival
  /-- The reached tiles whose neighbours have not been looked at, in order. -/
  queue : List Tile
  /-- The reached tile closest to the goal, the earliest of those. -/
  best : Tile
  deriving Repr

namespace Search

/-- How a tile was reached. -/
def arrival? (s : Search) (t : Tile) : Option Arrival := s.arrivals.find? fun a => a.tile == t

/-- Looks at the neighbour of a tile in one direction. -/
def look (start goal : Tile) (passable : Tile → Bool) (t : Tile) (s : Search) (d : Direction) :
    Search :=
  let next := t.step d
  if next = start || (s.arrival? next).isSome || (next ≠ goal && !passable next) then s
  else
    { arrivals := ⟨next, t, d⟩ :: s.arrivals
      queue := s.queue ++ [next]
      best := if next.distance goal < s.best.distance goal then next else s.best }

/-- Looks at all neighbours of a tile. -/
def expand (start goal : Tile) (passable : Tile → Bool) (s : Search) (t : Tile) : Search :=
  Direction.all.foldl (look start goal passable t) s

/-- Goes through the queue until the goal comes up or nothing is left.  Each tile comes up once, so
`fuel` suffices when it is larger than the number of tiles that can be reached. -/
def run (start goal : Tile) (passable : Tile → Bool) : (fuel : Nat) → Search → Search
  | 0, s => s
  | fuel + 1, s =>
    match s.queue with
    | [] => s
    | t :: rest =>
      if t = goal then { s with best := goal }
      else run start goal passable fuel (expand start goal passable { s with queue := rest } t)

/-- The way that led to a tile, put before `way`. -/
def trace (s : Search) : (fuel : Nat) → Tile → List Direction → List Direction
  | 0, _, way => way
  | fuel + 1, t, way =>
    match s.arrival? t with
    | some a => trace s fuel a.origin (a.dir :: way)
    | none => way

end Search

/-- The steps from `start` toward `goal`; `tiles` is at least the number of passable tiles. -/
def findPath (tiles : Nat) (start goal : Tile) (passable : Tile → Bool) : List Direction :=
  if start = goal then []
  else
    let s := Search.run start goal passable (tiles + 3) ⟨[], [start], start⟩
    s.trace s.arrivals.length s.best []

/-- Where steps lead. -/
def walk (start : Tile) (way : List Direction) : Tile := way.foldl Tile.step start

end Adventure
