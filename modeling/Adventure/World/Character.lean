import Adventure.Project.Wire
import Adventure.Script.Motion
import Adventure.World.Interpolation

/-!
# Characters

The player or one event on the tile grid.  A character that walks slides to the next tile for some
frames; its own tile is the one it left until the slide ends.
-/

namespace Adventure

open Wire

/-- Frames of a full cycle of stepping on the spot. -/
def steppingCycle : UInt32 := 60

/-- Frames of two steps of a walk. -/
def walkingCycle : UInt32 := 16

/-- The player or an event. -/
structure Character where
  eventId : Int32
  speed : Speed
  imageName : String
  imageIndex : Int32
  dir : Direction
  dirFix : Bool
  stepping : Bool
  steppingCount : UInt32
  walking : Bool
  walkingCount : UInt32
  frame : Int32
  prevFrame : Int32
  x : Int32
  y : Int32
  /-- Frames until the slide ends; 0 when the character stands. -/
  moveCount : UInt32
  moveDir : Direction
  visible : Bool
  passesThrough : Bool
  erased : Bool
  priority : Priority
  opacity : Interpolation
  deriving DecidableEq

namespace Character

/-- An event as it stands before it shows a page. -/
def ofEvent (eventId x y : Int32) : Character where
  eventId := eventId
  speed := Speed.eventDefault
  imageName := ""
  imageIndex := 0
  dir := .down
  dirFix := false
  stepping := false
  steppingCount := 0
  walking := true
  walkingCount := 0
  frame := 1
  prevFrame := 1
  x := x
  y := y
  moveCount := 0
  moveDir := .down
  visible := true
  passesThrough := false
  erased := false
  priority := .same
  opacity := .rest (Binary64.ofInt 255)

def player (x y : Int32) (image : String) (speed : Speed) : Character :=
  { ofEvent playerId x y with imageName := image, speed := speed }

/-! ## Questions -/

def isPlayer (c : Character) : Bool := c.eventId == playerId

def position (c : Character) : Tile := ⟨c.x, c.y⟩

def isMoving (c : Character) : Bool := c.moveCount > 0

/-- The tile where the character will stand once its slide ends. -/
def destination (c : Character) : Tile :=
  if c.isMoving then c.position.step c.moveDir else c.position

def isVisible (c : Character) : Bool := c.visible && !c.erased

/-- Whether the character passes everything; an erased one does. -/
def through (c : Character) : Bool := c.passesThrough || c.erased

/-- Whether the character keeps others off its tile. -/
def blocks (c : Character) : Bool := !c.through && c.priority == .same

/-- Whether the character stands on a tile or slides onto it. -/
def occupies (c : Character) (t : Tile) : Bool := c.position == t || c.destination == t

/-- Where the character is drawn: the middle of the lower edge of its tile, and between two tiles
during a slide. -/
def drawPosition (c : Character) : Int32 × Int32 :=
  let px := c.x * tileSize + tileSize / 2
  let py := (c.y + 1) * tileSize
  if c.isMoving then
    let frames := c.speed.frames.toInt32
    let d := (frames - c.moveCount.toInt32) * tileSize / frames
    (px + c.moveDir.delta.1 * d, py + c.moveDir.delta.2 * d)
  else (px, py)

/-! ## Changes -/

/-- Turns, unless the direction is fixed. -/
def turn (c : Character) (dir : Direction) : Character :=
  if c.dirFix then c else { c with dir := dir }

/-- The next frame of a walk, with the other foot. -/
def nextStep (c : Character) : Character :=
  let frame := if c.prevFrame = 0 then 2 else 0
  { c with frame := frame, prevFrame := frame, walkingCount := 0 }

/-- Sets out for the next tile. -/
def startMove (c : Character) (dir : Direction) : Character :=
  let c := { c.turn dir with moveDir := dir, moveCount := c.speed.frames }
  if c.walking then c.nextStep else c

/-- Puts the character on a tile, and ends its slide. -/
def teleport (c : Character) (t : Tile) : Character := { c with x := t.x, y := t.y, moveCount := 0 }

def erase (c : Character) : Character := { c with erased := true }

def setImage (c : Character) (i : CharacterImage) : Character :=
  let c := { c with imageName := i.image, imageIndex := i.index }
  if i.useFrameAndDir then { c with frame := i.frame, prevFrame := i.frame, dir := i.dir } else c

/-- Changes the opacity, which lies between 0 and 255, over some frames. -/
def setOpacity (c : Character) (opacity : Int32) (frames : UInt32) : Character :=
  let clamped := if opacity < 0 then 0 else if opacity > 255 then 255 else opacity
  { c with opacity := c.opacity.setTo (Binary64.ofInt clamped.toInt) frames }

def change (c : Character) : CharacterChange → Character
  | .visibility on => { c with visible := on }
  | .dirFix on => { c with dirFix := on }
  | .stepping on => { c with stepping := on, steppingCount := 0 }
  | .through on => { c with passesThrough := on }
  | .walking on => { c with walking := on }
  | .speed speed => { c with speed := speed }

/-- Takes on the look of a page. -/
def showPage (c : Character) (page : Page) : Character :=
  { c with
    imageName := page.image
    imageIndex := page.imageIndex
    frame := page.frame
    prevFrame := page.frame
    dir := page.dir
    dirFix := page.dirFix
    stepping := page.stepping
    walking := page.walking
    passesThrough := page.through
    speed := page.speed
    priority := page.priority }

/-- Becomes a placeholder that is not seen and blocks nobody. -/
def showNoPage (c : Character) : Character :=
  { c with
    imageName := ""
    imageIndex := 0
    dirFix := false
    stepping := false
    walking := true
    passesThrough := true
    priority := .below }

/-- Takes on a page, or none. -/
def updateWithPage (c : Character) (page : Option Page) : Character :=
  let c :=
    match page with
    | some page => c.showPage page
    | none => c.showNoPage
  { c with steppingCount := 0, walkingCount := 0 }

/-! ## A frame -/

/-- The frame shown at a point of the stepping cycle. -/
def steppingFrame (count : UInt32) : Int32 :=
  if count < 15 then 0 else if count < 30 then 1 else if count < 45 then 2 else 1

/-- Steps on the spot. -/
def animateStepping (c : Character) : Character :=
  if c.stepping then
    let count := (c.steppingCount + 1) % steppingCycle
    { c with steppingCount := count, frame := steppingFrame count }
  else c

/-- Swings the legs of a walk. -/
def animateWalking (c : Character) : Character :=
  if c.walking && !c.stepping then
    let count := c.walkingCount + 1
    if count = walkingCycle / 2 then { c with walkingCount := count, frame := 1 }
    else if count ≥ walkingCycle then { c with walkingCount := count }.nextStep
    else { c with walkingCount := count }
  else c

/-- Goes on with a slide; with its last frame the character stands on the new tile. -/
def slide (c : Character) : Character :=
  let count := c.moveCount - 1
  if count = 0 then
    let t := c.position.step c.moveDir
    let c := { c with moveCount := count, x := t.x, y := t.y }
    if c.walking && !c.stepping then { c with frame := 1 } else c
  else { c with moveCount := count }

/-- One frame later. -/
def update (c : Character) : Character :=
  let c := { c with opacity := c.opacity.update }.animateStepping
  if c.isMoving then c.animateWalking.slide else c

end Character

/-- Reads a speed, where a level out of range stands for a default. -/
def speedOr? (default : Speed) (m : Medium) (v : Value) : Option Speed :=
  (decode? m v : Option UInt8).map fun n => (Speed.ofLevel? n.toNat).getD default

instance : Wire Character where
  encode c := .record
    [("eventId", encode c.eventId), ("speed", encode c.speed), ("imageName", encode c.imageName),
      ("imageIndex", encode c.imageIndex), ("dir", encode c.dir), ("dirFix", encode c.dirFix),
      ("stepping", encode c.stepping), ("steppingCount", encode c.steppingCount),
      ("walking", encode c.walking), ("walkingCount", encode c.walkingCount),
      ("frame", encode c.frame), ("prevFrame", encode c.prevFrame), ("x", encode c.x),
      ("y", encode c.y), ("moveCount", encode c.moveCount), ("moveDir", encode c.moveDir),
      ("visible", encode c.visible), ("through", encode c.passesThrough),
      ("erased", encode c.erased), ("priority", encode c.priority), ("opacity", encode c.opacity)]
  decode? m v := do
    let f ← Fields.read? m ["eventId", "speed", "imageName", "imageIndex", "dir", "dirFix",
      "stepping", "steppingCount", "walking", "walkingCount", "frame", "prevFrame", "x", "y",
      "moveCount", "moveDir", "visible", "through", "erased", "priority", "opacity"] v
    return {
      eventId := ← f.required m "eventId"
      speed := ← f.orElse (speedOr? Speed.eventDefault m) "speed" Speed.eventDefault
      imageName := ← f.required m "imageName"
      imageIndex := ← f.required m "imageIndex"
      dir := ← f.required m "dir"
      dirFix := ← f.required m "dirFix"
      stepping := ← f.required m "stepping"
      steppingCount := ← f.required m "steppingCount"
      walking := ← f.required m "walking"
      walkingCount := ← f.required m "walkingCount"
      frame := ← f.required m "frame"
      prevFrame := ← f.required m "prevFrame"
      x := ← f.required m "x"
      y := ← f.required m "y"
      moveCount := ← f.required m "moveCount"
      moveDir := ← f.required m "moveDir"
      visible := ← f.required m "visible"
      passesThrough := ← f.required m "through"
      erased := ← f.required m "erased"
      priority := ← f.withDefault m "priority" .same
      opacity := ← f.required m "opacity" }

end Adventure
