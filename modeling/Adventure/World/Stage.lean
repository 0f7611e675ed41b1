import Adventure.Interpreter.Basic
import Adventure.World.Character
import Adventure.World.Path

/-!
# The stage

The room that the player is in: its characters, the page that each event shows, and every
interpreter that runs there.  The stage does not hold the room itself, which is looked up in the
project.
-/

namespace Adventure

open Wire

/-- The room that a transfer or a new game asks for is not in the project. -/
structure MissingRoom where
  mapId : Int32
  roomId : Int32
  deriving DecidableEq, Repr

def MissingRoom.message (e : MissingRoom) : String :=
  "room " ++ toString e.roomId.toInt ++ " of map " ++ toString e.mapId.toInt ++ " does not exist"

/-- Whether a layer of a room has a wall at a place. -/
def Room.hasWall (room : Room) (project : Project) (t : Tile) : Bool :=
  (project.tileSet? room.tileSetId).any fun set =>
    (room.tileIdsAt t).any fun id => set.passage id == .wall

/-- The room that the player is in. -/
structure Stage where
  mapId : Int32
  roomId : Int32
  player : Character
  events : List Character
  /-- The page that each event shows; an event without an entry shows none. -/
  pages : SortedMap Int32 Nat
  /-- The interpreters that are no routes, in the order they were started. -/
  interpreters : List Interpreter
  /-- The routes, one for a character at most. -/
  routes : List Interpreter
  playerWalk : Option Walk
  /-- Whether the player walks to a tapped tile. -/
  walkingToTap : Bool

namespace Stage

/-- The events of a room at their places, before they show pages. -/
def eventsOf (room : Room) : List Character := room.events.map fun e => .ofEvent e.id e.x e.y

/-- Enters a room. -/
def enter (project : Project) (mapId roomId : Int32) (player : Character) :
    Except MissingRoom Stage :=
  match project.room? mapId roomId with
  | none => .error ⟨mapId, roomId⟩
  | some room => .ok ⟨mapId, roomId, player, eventsOf room, .empty, [], [], none, false⟩

/-! ## Characters -/

def room? (s : Stage) (project : Project) : Option Room := project.room? s.mapId s.roomId

/-- The player and the events. -/
def characters (s : Stage) : List Character := s.player :: s.events

/-- The character with an event id. -/
def character? (s : Stage) (id : Int32) : Option Character :=
  if id = playerId then some s.player else s.events.find? fun c => c.eventId == id

/-- The character with an event id, if it still is in the given room.  The player comes along to
every room. -/
def characterIn? (s : Stage) (mapId roomId id : Int32) : Option Character :=
  if id ≠ playerId && (mapId ≠ s.mapId || roomId ≠ s.roomId) then none else s.character? id

/-- Changes the first event with an id. -/
def modifyEvent (id : Int32) (change : Character → Character) : List Character → List Character
  | [] => []
  | c :: rest => if c.eventId = id then change c :: rest else c :: modifyEvent id change rest

/-- Changes the character with an event id. -/
def modifyCharacter (s : Stage) (id : Int32) (change : Character → Character) : Stage :=
  if id = playerId then { s with player := change s.player }
  else { s with events := modifyEvent id change s.events }

def eventIds (s : Stage) : List Int32 := s.events.map (·.eventId)

/-- One frame later for every character. -/
def updateCharacters (s : Stage) : Stage :=
  { s with player := s.player.update, events := s.events.map Character.update }

/-! ## Passage -/

/-- Whether somebody other than the mover keeps a tile. -/
def isOccupied (s : Stage) (moverId : Int32) (t : Tile) : Bool :=
  s.characters.any fun c => c.eventId != moverId && c.blocks && c.occupies t

/-- Whether a character can enter a tile.  One that passes everything can go wherever the room has
tiles; any other needs a tile without walls and, unless others are ignored, without others. -/
def canEnter (s : Stage) (project : Project) (moverId : Int32) (ignoreOthers : Bool) (t : Tile) :
    Bool :=
  match s.room? project with
  | none => false
  | some room =>
    room.contains t &&
      ((s.character? moverId).any Character.through ||
        (!room.hasWall project t && (ignoreOthers || !s.isOccupied moverId t)))

/-- The number of tiles of the room. -/
def tileCount (s : Stage) (project : Project) : Nat :=
  match s.room? project with
  | none => 0
  | some room => room.width.toInt.toNat * room.height.toInt.toNat

/-- The way to a tile for a character that starts from a tile. -/
def findPath (s : Stage) (project : Project) (moverId : Int32) (ignoreOthers : Bool)
    (start goal : Tile) :
    List Direction :=
  Adventure.findPath (s.tileCount project) start goal (s.canEnter project moverId ignoreOthers)

/-! ## Pages -/

def pageIndex? (s : Stage) (eventId : Int32) : Option Nat := s.pages.find? eventId

/-- The page that an event shows. -/
def page? (s : Stage) (project : Project) (eventId : Int32) : Option Page :=
  match s.pageIndex? eventId with
  | none => none
  | some index => (project.event? s.mapId s.roomId eventId).bind fun e => e.pages[index]?

/-- Shows a page of an event, or none.  Nothing happens where the event shows it already. -/
def showPage (s : Stage) (project : Project) (eventId : Int32) (index : Option Nat) : Stage :=
  if s.pageIndex? eventId = index then s
  else
    let pages :=
      match index with
      | some i => s.pages.insert eventId i
      | none => s.pages.erase eventId
    let s := { s with pages := pages }
    let page := s.page? project eventId
    s.modifyCharacter eventId fun c => c.updateWithPage page

/-- The first event on a tile, not erased, that shows a page with this trigger and with commands. -/
def eventAt? (s : Stage) (project : Project) (trigger : Trigger) (t : Tile) : Option Int32 :=
  ((s.events.filter fun c => !c.erased && c.position == t).map (·.eventId)).find? fun id =>
    (s.page? project id).any fun p => p.trigger == trigger && !p.commands.isEmpty

/-- The event on a tile that the player can run. -/
def playerEventAt? (s : Stage) (project : Project) (t : Tile) : Option Int32 :=
  s.eventAt? project .player t

/-! ## Interpreters -/

/-- Drops the interpreters of other rooms.  Those that the player has to wait for stay, and so does
a route of the player. -/
def dropStale (s : Stage) : Stage :=
  { s with
    interpreters := s.interpreters.filter fun i => i.isBlocking || i.isIn s.mapId s.roomId
    routes := s.routes.filter fun r =>
      r.routeCharacter? == some playerId || r.isIn s.mapId s.roomId }

def addInterpreter (s : Stage) (i : Interpreter) : Stage :=
  { s with interpreters := s.interpreters ++ [i] }

/-- Puts interpreters back that were taken out to run, ahead of those started meanwhile. -/
def mergeInterpreters (s : Stage) (ran : List Interpreter) : Stage :=
  { s with interpreters := ran.filter (!·.terminated) ++ s.interpreters }

/-- Sets a route, in place of the one that the character followed. -/
def setRoute (s : Stage) (route : Interpreter) : Stage :=
  { s with
    routes := s.routes.filter (fun r => r.routeCharacter? != route.routeCharacter?) ++ [route] }

/-- Puts routes back that were taken out to run.  A route set meanwhile wins over an older one. -/
def mergeRoutes (s : Stage) (ran : List Interpreter) : Stage :=
  let isReplaced (r : Interpreter) : Bool :=
    s.routes.any fun new => new.routeCharacter? == r.routeCharacter?
  { s with routes := ran.filter (fun r => !r.terminated && !isReplaced r) ++ s.routes }

/-- Whether the player has to wait for a script. -/
def isBlocked (s : Stage) : Bool := s.interpreters.any fun i => i.isBlocking && !i.terminated

/-- Whether a script that an event of this room started still runs. -/
def isRunning (s : Stage) (eventId : Int32) : Bool :=
  s.interpreters.any fun i => i.isIn s.mapId s.roomId && i.eventId == eventId && !i.terminated

/-- Whether a character follows a route that ends. -/
def hasRoute (s : Stage) (character : Int32) : Bool :=
  s.routes.any fun r => r.routeCharacter? == some character && !r.isRepeating && !r.terminated

/-- Drops every wait for a request of an earlier session. -/
def forgetRequests (s : Stage) : Stage :=
  { s with
    interpreters := s.interpreters.map Interpreter.forgetRequest
    routes := s.routes.map Interpreter.forgetRequest }

/-! ## Other rooms -/

/-- Brings the player to another room of the map. -/
def transfer (s : Stage) (project : Project) (roomId : Int32) (t : Tile) (dir : Option Direction) :
    Except MissingRoom Stage :=
  match project.room? s.mapId roomId with
  | none => .error ⟨s.mapId, roomId⟩
  | some room =>
    let arrived := s.player.teleport t
    let player :=
      match dir with
      | some d => arrived.turn d
      | none => arrived
    .ok { s with
      roomId := roomId
      player := player
      events := eventsOf room
      pages := .empty
      playerWalk := none
      walkingToTap := false }.dropStale

/-! ## The player's walk -/

/-- Starts a walk of the player to a tapped tile. -/
def startPlayerWalk (s : Stage) (w : Walk) : Stage :=
  { s with playerWalk := some w, walkingToTap := true }

def finishPlayerWalk (s : Stage) : Stage := { s with walkingToTap := false }

end Stage

instance : Wire Stage where
  encode s := .record
    [("mapId", encode s.mapId), ("roomId", encode s.roomId), ("player", encode s.player),
      ("events", encode s.events), ("pageIndices", encode s.pages),
      ("interpreters", encode s.interpreters), ("routeInterpreters", encode s.routes),
      ("playerMove", encode s.playerWalk), ("playerMovingByUserInput", encode s.walkingToTap)]
  decode? m v := do
    let f ← Fields.read? m ["mapId", "roomId", "player", "events", "pageIndices", "interpreters",
      "routeInterpreters", "playerMove", "playerMovingByUserInput"] v
    return {
      mapId := ← f.required m "mapId"
      roomId := ← f.required m "roomId"
      player := ← f.required m "player"
      events := ← f.required m "events"
      pages := ← f.withDefault m "pageIndices" .empty
      interpreters := ← f.withDefault m "interpreters" []
      routes := ← f.withDefault m "routeInterpreters" []
      playerWalk := ← f.withDefault m "playerMove" none
      walkingToTap := ← f.withDefault m "playerMovingByUserInput" false }

end Adventure
