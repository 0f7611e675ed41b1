import Adventure.Random
import Adventure.World.Stage

/-!
# Walking

How walks are planned and how they go on, one step at a time.  A step begins only when the
character has arrived from the one before, so a walk waits for slides that it did not start.
-/

namespace Adventure.Walk

/-- A walk that has not begun. -/
def begin (s : Stage) (eventId : Int32) (order : MoveOrder) (skip : Bool) (path : List Direction)
    (steps : UInt32) : Walk :=
  ⟨s.mapId, s.roomId, eventId, order, skip, steps, path, false, false⟩

/-- Plans a walk to the tile of the order.  If it cannot be reached there is no walk, or one that is
over already where steps may be given up. -/
def planToTarget (s : Stage) (project : Project) (eventId : Int32) (order : MoveOrder)
    (skip : Bool) :
    Option Walk :=
  (s.character? eventId).bind fun c =>
    let target : Tile := ⟨order.x, order.y⟩
    let path := s.findPath project eventId order.ignoreCharacters c.position target
    let w := begin s eventId order skip path (UInt32.ofNat path.length)
    if walk c.position path = target then some w
    else if skip then some w.finish
    else none

/-- Plans a walk, whose order gives coordinates and no variables.  Where there is none, one has to
be planned again later. -/
def plan (s : Stage) (project : Project) (eventId : Int32) (order : MoveOrder) (skip : Bool) :
    Option Walk :=
  match order.kind with
  | .direction | .forward | .backward => some (begin s eventId order skip [] order.distance)
  | .toward | .against | .random => some (begin s eventId order skip [] 1)
  | .target => planToTarget s project eventId order skip

/-- A walk along a path, which ends quietly if something gets in the way. -/
def along (s : Stage) (eventId : Int32) (target : Tile) (path : List Direction) : Walk :=
  let steps := UInt32.ofNat path.length
  begin s eventId ⟨.target, .down, steps, target.x, target.y, .constant, false⟩ true path steps

/-- Whether a walk is over: its character is gone, or has arrived and has no steps left. -/
def isOver (w : Walk) (s : Stage) : Bool :=
  match s.characterIn? w.mapId w.roomId w.eventId with
  | none => true
  | some c => !c.isMoving && w.finished

/-- The direction of the next step.  Only a random one draws a number. -/
def nextStep? (w : Walk) (s : Stage) (c : Character) (random : Random) :
    Option Direction × Random :=
  match w.order.kind with
  | .direction => (some w.order.dir, random)
  | .target => (w.plannedStep?, random)
  | .forward => (some c.dir, random)
  | .backward => (some c.dir.opposite, random)
  | .toward => (some ((c.position.toward? s.player.position).getD c.dir), random)
  | .against => (some ((s.player.position.toward? c.position).getD c.dir), random)
  | .random =>
    let (n, random) := random.index Direction.all.length
    (Direction.all[n]?, random)

/-- Makes a step, or turns toward what is in the way. -/
def takeStep (w : Walk) (project : Project) (s : Stage) (c : Character) (dir : Direction) :
    Walk × Stage :=
  if s.canEnter project w.eventId false (c.position.step dir) then
    ({ w with stepping := true }, s.modifyCharacter w.eventId fun c => c.startMove dir)
  else
    (if w.skip then { w with finished := true, stepsLeft := 0 } else w,
      s.modifyCharacter w.eventId fun c => c.turn dir)

/-- One frame of a walk. -/
def update (w : Walk) (project : Project) (s : Stage) (random : Random) : Walk × Stage × Random :=
  match s.characterIn? w.mapId w.roomId w.eventId with
  | none => (w, s, random)
  | some c =>
    if c.isMoving || w.finished then (w, s, random)
    else
      let w := w.settle
      if w.stepsLeft = 0 then (w.finish, s, random)
      else
        match w.nextStep? s c random with
        | (none, random) => (w.finish, s, random)
        | (some dir, random) =>
          let (w, s) := w.takeStep project s c dir
          (w, s, random)

end Adventure.Walk
