import Adventure.Interpreter.Effect
import Adventure.World.Walking

/-!
# Commands for characters

The commands that act on a character: the one that a route belongs to, or else the event that runs
the script.
-/

namespace Adventure.Interpreter

/-- The character that a command acts on. -/
def target (i : Interpreter) : Int32 := i.routeCharacter?.getD i.actingEvent

/-- Runs a command if its character still is where the script belongs. -/
def withTarget (i : Interpreter) (s : Session) (run : Character → Effect) : Effect :=
  match s.world.stage.characterIn? i.mapId i.roomId i.target with
  | some c => run c
  | none => i.go s .next

/-- Changes the character. -/
def changeTarget (i : Interpreter) (s : Session) (change : Character → Character) : Effect :=
  i.withTarget s fun _ => i.change s fun w => w.modifyCharacter i.target change

/-- A move with its coordinates read from variables, where the order names such. -/
def resolveMove (w : World) (order : MoveOrder) : MoveOrder :=
  match order.source with
  | .constant => order
  | .variable =>
    { order with
      x := w.memory.resolve .variable order.x
      y := w.memory.resolve .variable order.y
      source := .constant }

/-- Starts a move.  Where the target cannot be reached, and steps may not be given up, it is planned
again in the next tick. -/
def moveTarget (i : Interpreter) (s : Session) (project : Project) (order : MoveOrder) : Effect :=
  i.withTarget s fun _ =>
    let skip := i.route.any (·.skip)
    match Walk.plan s.world.stage project i.target (resolveMove s.world order) skip with
    | some walk => { i with walk := some walk }.go s .next
    | none => i.go s .retry

/-- Changes a property of the character.  The player's speed is remembered apart. -/
def changeProperty (i : Interpreter) (s : Session) (change : CharacterChange) : Effect :=
  i.withTarget s fun _ =>
    i.change s fun w =>
      let w :=
        match change with
        | .speed speed => if i.target = playerId then w.setPlayerSpeed speed else w
        | _ => w
      w.modifyCharacter i.target fun c => c.change change

/-- Turns the character clockwise by an angle, rounded toward zero to quarter turns. -/
def rotateTarget (i : Interpreter) (s : Session) (angle : Int32) : Effect :=
  i.changeTarget s fun c => c.turn (c.dir.rotate (angle / 90).toInt)

/-- Changes the opacity of the character. -/
def fadeTarget (i : Interpreter) (s : Session) (change : OpacityChange) : Effect :=
  i.withTarget s fun _ =>
    i.changeThenWait s change.wait (.opacity i.target) fun w =>
      w.modifyCharacter i.target fun c => c.setOpacity change.opacity change.time

end Adventure.Interpreter
