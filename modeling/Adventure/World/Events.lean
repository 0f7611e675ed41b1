import Adventure.World.Questions
import Adventure.World.Walking

/-!
# Events

Which pages events show, and how scripts are started: by themselves, by the player, or by the host.
-/

namespace Adventure.World

/-! ## Pages -/

/-- The last page of an event whose conditions hold. -/
def choosePage? (w : World) (project : Project) (eventId : Int32) : Option Nat :=
  (project.event? w.stage.mapId w.stage.roomId eventId).bind fun e =>
    (e.pages.zipIdx.reverse.find? fun (page, _) =>
      w.meetsAll project eventId page.conditions).map (·.2)

/-- Lets one event show the page that is its turn. -/
def refreshPage (project : Project) (w : World) (eventId : Int32) : World :=
  let index := w.choosePage? project eventId
  w.modifyStage fun s => s.showPage project eventId index

/-- Lets every event show the page that is its turn. -/
def refreshPages (w : World) (project : Project) : World :=
  w.stage.eventIds.foldl (refreshPage project) w

/-- A new game, at the project's start position. -/
def start (project : Project) (seed : UInt64) : Except MissingRoom World :=
  let place := project.system.initialPosition
  let player :=
    Character.player place.x place.y project.system.initialPlayerImage Speed.playerDefault
  match Stage.enter project place.mapId place.roomId player with
  | .ok stage => .ok ((ofProgress (.fresh stage) seed).refreshPages project)
  | .error e => .error e

/-- Brings the player to another room of the map. -/
def transfer (w : World) (project : Project) (roomId : Int32) (t : Tile) (dir : Option Direction) :
    Except MissingRoom World :=
  match w.stage.transfer project roomId t dir with
  | .error e => .error e
  | .ok stage =>
    .ok (({ w with stage := stage }.refreshPages project).note
      ("transfer " ++ toString roomId.toInt ++ " " ++ toString t.x.toInt ++ " " ++
        toString t.y.toInt))

/-! ## Starting scripts -/

/-- Starts a script in this room. -/
def startScript (w : World) (kind : InterpreterKind) (eventId : Int32) (script : Script) : World :=
  let (id, w) := w.nextInterpreterId
  w.modifyStage fun s => s.addInterpreter (.start id s.mapId s.roomId eventId kind script)

/-- Starts the page of an event, unless the event shows none or runs already. -/
def startEvent (w : World) (project : Project) (eventId : Int32) : Bool × World :=
  match w.stage.page? project eventId with
  | none => (false, w)
  | some page =>
    if w.stage.isRunning eventId then (false, w)
    else
      let kind : InterpreterKind := if page.trigger = .parallel then .parallel else .event
      (true,
        (w.startScript kind eventId page.commands).note ("event.start " ++ toString eventId.toInt))

/-- Uses an owned item, unless the player has to wait. -/
def startItem (w : World) (project : Project) (id : Int32) : Bool × World :=
  if w.stage.isBlocked then (false, w)
  else
    match project.item? id with
    | none => (false, w)
    | some item =>
      if !w.inventory.owns id then (false, w)
      else
        let w := { w with inventory := w.inventory.setEventItem id }
        (true, (w.startScript .item selfId item.commands).note ("item.use " ++ toString id.toInt))

/-- Combines two items, unless the player has to wait. -/
def startCombine (w : World) (project : Project) (first second : Int32) : Bool × World :=
  if w.stage.isBlocked then (false, w)
  else
    match project.combine? first second with
    | none => (false, w)
    | some combine =>
      let w := { w with inventory := w.inventory.setCombineItem second }
      (true,
        (w.startScript .combine selfId combine.commands).note
          ("combine.start " ++ toString combine.id.toInt))

def startCommonEvent (w : World) (project : Project) (id : Int32) : Bool × World :=
  match project.commonEvent? id with
  | none => (false, w)
  | some e =>
    (true,
      (w.startScript .common selfId e.commands).note ("common_event.start " ++ toString id.toInt))

/-- Shows the hint that is current. -/
def startHint (w : World) (project : Project) : Bool × World :=
  match w.hints.current?.bind project.hint? with
  | none => (false, w)
  | some hint =>
    (true, (w.startScript .hint selfId hint.commands).note ("hint.show " ++ toString hint.id.toInt))

/-! ## Starting by themselves -/

/-- Starts an event if its page starts by itself. -/
def startIfAutomatic (project : Project) (w : World) (eventId : Int32) : World :=
  match w.stage.page? project eventId with
  | none => w
  | some page =>
    if page.commands.isEmpty || (w.stage.character? eventId).any (·.erased) ||
        w.stage.isRunning eventId then w
    else
      match page.trigger with
      | .auto => if w.stage.isBlocked then w else (w.startEvent project eventId).2
      | .parallel => (w.startEvent project eventId).2
      | .player | .direct | .never => w

/-- Starts the events whose pages start by themselves. -/
def startAutomaticEvents (w : World) (project : Project) : World :=
  w.stage.eventIds.foldl (startIfAutomatic project) w

/-! ## Starting by the player -/

/-- Whether taps on the room count. -/
def acceptsInput (w : World) : Bool := w.playerControl && !w.stage.isBlocked && !w.windows.isActive

/-- Runs the player's event on a tile, if the player stands there or next to it. -/
def runPlayerEvent (w : World) (project : Project) (target : Tile) : World :=
  match w.stage.playerEventAt? project target with
  | none => w
  | some eventId =>
    let position := w.stage.player.position
    if position.distance target > 1 then w
    else
      let w :=
        match position.toward? target with
        | some dir => w.modifyStage fun s => { s with player := s.player.turn dir }
        | none => w
      (w.startEvent project eventId).2

/-- A tap on a tile starts the event there that waits for one, or lets the player walk up to the
tile. -/
def handleTap (w : World) (project : Project) (input : Input) : World :=
  match input.tappedTile with
  | none => w
  | some target =>
    if !w.acceptsInput then w
    else
      match w.stage.eventAt? project .direct target with
      | some eventId => (w.startEvent project eventId).2
      | none =>
        match w.stage.findPath project playerId false w.stage.player.destination target with
        | [] => w.runPlayerEvent project target
        | dir :: rest =>
          w.modifyStage fun s => s.startPlayerWalk (.along s playerId target (dir :: rest))

/-- Goes on with the player's walk.  Where a walk to a tapped tile ends, the player's event there
runs. -/
def updatePlayerWalk (w : World) (project : Project) : World :=
  match w.stage.playerWalk with
  | none => w
  | some walk =>
    let (walk, stage, random) := walk.update project { w.stage with playerWalk := none } w.random
    let w := { w with random := random }
    if !walk.isOver stage then { w with stage := { stage with playerWalk := some walk } }
    else if stage.walkingToTap then
      { w with stage := stage.finishPlayerWalk }.runPlayerEvent project walk.target
    else { w with stage := stage }

/-! ## Touch -/

/-- Notes which pictures and which tile the pointer touches. -/
def updateTouch (w : World) (input : Input) : World :=
  let hit := input.pointer.bind fun p => w.pictures.pictureAt? p.x p.y w.imageSizes.find?
  { w with
    pressedTile := input.pressedTile
    touch :=
      { triggered := hit.filter fun _ => input.triggered
        pressed := hit.filter fun _ => input.pointerPressed
        released := hit.filter fun _ => input.pointerReleased } }

end Adventure.World
