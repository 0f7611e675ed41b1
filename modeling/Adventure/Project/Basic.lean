import Adventure.Script.Command

/-!
# Projects

A project is the authored content of a game: maps of rooms with events, items and what they
combine to, scripts shared by events, hints, products, lookup tables and texts.  It does not change
while the game runs.  Things are found by id; where an id is given twice, the first one counts.
-/

namespace Adventure

open Wire

/-! ## Rooms -/

/-- What makes an event run. -/
inductive Trigger where
  /-- The player walks up to the event and acts on it. -/
  | player
  /-- The event's tile is tapped. -/
  | direct
  /-- The page becomes active; the player has to wait. -/
  | auto
  /-- The page is active; nobody has to wait. -/
  | parallel
  | never
  deriving DecidableEq, Repr, Inhabited

/-- Whether a character stands in the way of others: only those on the same level do. -/
inductive Priority where
  | below
  | same
  | above
  deriving DecidableEq, Repr, Inhabited

/-- One way an event can be, and when it is that way. -/
structure Page where
  conditions : List Condition
  image : String
  imageIndex : Int32
  frame : Int32
  dir : Direction
  dirFix : Bool
  stepping : Bool
  walking : Bool
  through : Bool
  speed : Speed
  trigger : Trigger
  priority : Priority
  commands : Script

/-- A page that says nothing. -/
def Page.blank : Page where
  conditions := []
  image := ""
  imageIndex := 0
  frame := 1
  dir := .down
  dirFix := false
  stepping := false
  walking := true
  through := false
  speed := Speed.eventDefault
  trigger := .never
  priority := .same
  commands := []

/-- An event of a room. -/
structure EventData where
  id : Int32
  x : Int32
  y : Int32
  pages : List Page

/-- Whether a tile lets characters through. -/
inductive Passage where
  | passable
  | wall
  deriving DecidableEq, Repr, Inhabited

/-- A room: layers of tiles and the events on them. -/
structure Room where
  id : Int32
  width : Int32
  height : Int32
  tileSetId : Int32
  /-- Each layer lists its tiles row by row. -/
  tiles : List (List Int32)
  events : List EventData
  background : String
  foreground : String

namespace Room

/-- Width and height of a room that gives none. -/
def defaultSize : Int32 := 10

def contains (room : Room) (t : Tile) : Bool :=
  t.x ≥ 0 && t.y ≥ 0 && t.x < room.width && t.y < room.height

/-- The tile ids of the layers at a place. -/
def tileIdsAt (room : Room) (t : Tile) : List Int32 :=
  if room.contains t then
    let index := t.y.toInt * room.width.toInt + t.x.toInt
    room.tiles.filterMap fun layer => layer[index.toNat]?
  else []

def event? (room : Room) (id : Int32) : Option EventData := room.events.find? fun e => e.id == id

end Room

/-- A map: some rooms. -/
structure MapData where
  id : Int32
  name : String
  rooms : List Room

/-- Which tiles of a set are walls, by tile id. -/
structure TileSet where
  id : Int32
  passages : List Passage

/-- Tile ids up to 0 are empty, and those beyond the list are passable. -/
def TileSet.passage (set : TileSet) (tileId : Int32) : Passage :=
  if tileId ≤ 0 then .passable else (set.passages[tileId.toInt.toNat]?).getD .passable

/-! ## Items, shared scripts and products -/

structure Item where
  id : Int32
  /-- The text id of the name. -/
  name : String
  icon : String
  group : Int32
  commands : Script

/-- How two items are combined. -/
inductive CombineKind where
  /-- Either item may be picked first. -/
  | combine
  /-- The first item is used on the second. -/
  | use
  deriving DecidableEq, Repr, Inhabited

structure Combine where
  id : Int32
  item1 : Int32
  item2 : Int32
  kind : CombineKind
  commands : Script

/-- Whether this is what the two items, picked in this order, combine to. -/
def Combine.matches (c : Combine) (first second : Int32) : Bool :=
  (c.item1 == first && c.item2 == second) ||
    (c.kind == .combine && c.item1 == second && c.item2 == first)

structure CommonEvent where
  id : Int32
  name : String
  commands : Script

structure Hint where
  id : Int32
  commands : Script

inductive ProductKind where
  | unlock
  | consumable
  | tier1Donation
  | tier2Donation
  | tier3Donation
  deriving DecidableEq, Repr, Inhabited

/-- The sponsor tier that owning a product of this kind grants. -/
def ProductKind.tier : ProductKind → Int64
  | unlock => 0
  | consumable => 0
  | tier1Donation => 1
  | tier2Donation => 2
  | tier3Donation => 3

/-- Something that can be bought. -/
structure Product where
  id : Int32
  key : String
  kind : ProductKind
  deriving DecidableEq, Repr

/-! ## Tables and texts -/

/-- A table: records by id, each a map from column to cell. -/
structure Table where
  name : String
  records : SortedMap String (SortedMap String Value)

/-- A cell, by the id of its record and its column. -/
def Table.cell? (table : Table) (record : Int64) (column : String) : Option Value :=
  (table.records.find? (toString record.toInt)).bind fun r => r.find? column

/-- Texts by id, each in some languages. -/
structure Texts where
  languages : List String
  data : SortedMap String (SortedMap String String)
  deriving Inhabited

/-- The text with an id in a language, or else in the first language. -/
def Texts.get? (texts : Texts) (language id : String) : Option String :=
  (texts.data.find? id).bind fun entry =>
    match entry.find? language with
    | some s => some s
    | none => texts.languages.head?.bind fun fallback => entry.find? fallback

/-! ## The project -/

/-- Where the player starts. -/
structure StartPosition where
  mapId : Int32
  roomId : Int32
  x : Int32
  y : Int32
  deriving DecidableEq, Repr, Inhabited

structure System where
  gameName : String
  defaultLanguage : String
  initialPosition : StartPosition
  initialPlayerImage : String
  deriving DecidableEq, Repr, Inhabited

/-- The authored content of a game. -/
structure Project where
  maps : List MapData
  tileSets : List TileSet
  texts : Texts
  items : List Item
  combines : List Combine
  commonEvents : List CommonEvent
  hints : List Hint
  products : List Product
  tables : List Table
  system : System
  deriving Inhabited

namespace Project

def map? (project : Project) (id : Int32) : Option MapData := project.maps.find? fun m => m.id == id

def room? (project : Project) (mapId roomId : Int32) : Option Room :=
  (project.map? mapId).bind fun m => m.rooms.find? fun r => r.id == roomId

def event? (project : Project) (mapId roomId eventId : Int32) : Option EventData :=
  (project.room? mapId roomId).bind fun r => r.event? eventId

def tileSet? (project : Project) (id : Int32) : Option TileSet :=
  project.tileSets.find? fun s => s.id == id

def item? (project : Project) (id : Int32) : Option Item := project.items.find? fun i => i.id == id

/-- What two items, picked in this order, combine to. -/
def combine? (project : Project) (first second : Int32) : Option Combine :=
  project.combines.find? fun c => c.matches first second

def commonEvent? (project : Project) (id : Int32) : Option CommonEvent :=
  project.commonEvents.find? fun e => e.id == id

def hint? (project : Project) (id : Int32) : Option Hint := project.hints.find? fun h => h.id == id

def product? (project : Project) (id : Int32) : Option Product :=
  project.products.find? fun p => p.id == id

def table? (project : Project) (name : String) : Option Table :=
  project.tables.find? fun t => t.name == name

/-- The number of items in a group. -/
def itemsInGroup (project : Project) (group : Int32) : Nat :=
  project.items.countP fun i => group == 0 || i.group == group

end Project

/-! ## Commands that were not understood -/

/-- Where a script stands in a project. -/
inductive ScriptOwner where
  | page (mapId roomId eventId : Int32) (index : Nat)
  | item (id : Int32)
  | combine (id : Int32)
  | commonEvent (id : Int32)
  | hint (id : Int32)
  deriving DecidableEq, Repr

/-- A command that was not understood, and where it stands. -/
structure ScriptDiagnostic where
  owner : ScriptOwner
  path : List Nat
  name : String
  why : Misreading
  deriving DecidableEq, Repr

namespace Project

/-- Every script of the project with its place. -/
def scripts (project : Project) : List (ScriptOwner × Script) :=
  (project.maps.flatMap fun m => m.rooms.flatMap fun r => r.events.flatMap fun e =>
    e.pages.zipIdx.map fun (p, i) => (.page m.id r.id e.id i, p.commands)) ++
  project.items.map (fun i => (.item i.id, i.commands)) ++
  project.combines.map (fun c => (.combine c.id, c.commands)) ++
  project.commonEvents.map (fun e => (.commonEvent e.id, e.commands)) ++
  project.hints.map (fun h => (.hint h.id, h.commands))

/-- The commands of a script that were not understood. -/
def diagnose (owner : ScriptOwner) (script : Script) : List ScriptDiagnostic :=
  (Command.visits script).filterMap fun v =>
    v.command.misreading?.map fun why => ⟨owner, v.path, v.command.name, why⟩

/-- The commands of the project that were not understood. -/
def diagnostics (project : Project) : List ScriptDiagnostic :=
  project.scripts.flatMap fun (owner, script) => diagnose owner script

end Project

end Adventure
