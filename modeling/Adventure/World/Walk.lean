import Adventure.Script.Motion

/-!
# Walks

A walk is a move of several tiles under way.  It holds all that its course depends on, so a walk
that is saved half way goes on from there.
-/

namespace Adventure

open Wire

/-- A move under way.  It belongs to a room: outside of it the walk is over. -/
structure Walk where
  mapId : Int32
  roomId : Int32
  eventId : Int32
  order : MoveOrder
  /-- Gives up at the first step that cannot be made. -/
  skip : Bool
  /-- Steps left, with the one that is being made. -/
  stepsLeft : UInt32
  /-- The planned steps of a move to a given tile. -/
  path : List Direction
  /-- Whether a step is being made. -/
  stepping : Bool
  finished : Bool
  deriving DecidableEq, Repr

namespace Walk

/-- The tile that the walk is meant to lead to. -/
def target (w : Walk) : Tile := ⟨w.order.x, w.order.y⟩

/-- The walk, given up or done. -/
def finish (w : Walk) : Walk := { w with finished := true }

/-- The planned step that comes next: the steps left are the last ones of the path. -/
def plannedStep? (w : Walk) : Option Direction :=
  if w.stepsLeft.toNat ≤ w.path.length then w.path[w.path.length - w.stepsLeft.toNat]? else none

/-- Counts the step that was being made, once the character has arrived. -/
def settle (w : Walk) : Walk :=
  if w.stepping then
    { w with stepping := false, stepsLeft := if w.stepsLeft = 0 then 0 else w.stepsLeft - 1 }
  else w

end Walk

instance : Wire Walk where
  encode w := .record
    [("mapId", encode w.mapId), ("roomId", encode w.roomId), ("eventId", encode w.eventId),
      ("args", encode w.order), ("routeSkip", encode w.skip), ("distanceCount", encode w.stepsLeft),
      ("path", encode w.path), ("waiting", encode w.stepping), ("terminated", encode w.finished)]
  decode? m v := do
    let f ← Fields.read? m ["mapId", "roomId", "eventId", "args", "routeSkip", "distanceCount",
      "path", "waiting", "terminated"] v
    return {
      mapId := ← f.required m "mapId"
      roomId := ← f.required m "roomId"
      eventId := ← f.required m "eventId"
      order := ← f.required m "args"
      skip := ← f.required m "routeSkip"
      stepsLeft := ← f.required m "distanceCount"
      path := ← f.withDefault m "path" []
      stepping := ← f.required m "waiting"
      finished := ← f.required m "terminated" }

end Adventure
