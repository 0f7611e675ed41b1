import Adventure.Platform.Sound
import Adventure.Save.Envelope
import Adventure.World.Hints
import Adventure.World.Inventory
import Adventure.World.Pictures
import Adventure.World.Screen
import Adventure.World.Stage
import Adventure.World.Variables
import Adventure.World.Windows

/-!
# Progress

What a save keeps of a world.  Every field but the stage has a default, so saves of older and newer
versions can be read.
-/

namespace Adventure

open Wire

/-- Images by map and room. -/
abbrev RoomImages := SortedMap Int32 (SortedMap Int32 String)

namespace RoomImages

def image? (images : RoomImages) (mapId roomId : Int32) : Option String :=
  (images.find? mapId).bind fun rooms => rooms.find? roomId

def setImage (images : RoomImages) (mapId roomId : Int32) (image : String) : RoomImages :=
  images.insert mapId (((images.find? mapId).getD .empty).insert roomId image)

end RoomImages

/-- What a save keeps of a world. -/
structure Progress where
  memory : Variables
  inventory : Inventory
  hints : Hints
  screen : Screen
  windows : Windows
  pictures : Pictures
  stage : Stage
  lastInterpreterId : Nat
  /-- Whether progress is saved when the player no longer has to wait for a script. -/
  autosaves : Bool
  playerControl : Bool
  playerSpeed : Speed
  inventoryVisible : Bool
  cleared : Bool
  music : Option Music
  /-- Images that scripts put in the place of those of the rooms. -/
  backgrounds : RoomImages
  foregrounds : RoomImages

/-- The progress of a game that has just begun. -/
def Progress.fresh (stage : Stage) : Progress where
  memory := .unset
  inventory := .empty
  hints := .none
  screen := default
  windows := .none
  pictures := default
  stage := stage
  lastInterpreterId := 0
  autosaves := true
  playerControl := true
  playerSpeed := Speed.playerDefault
  inventoryVisible := false
  cleared := false
  music := none
  backgrounds := .empty
  foregrounds := .empty

instance : Wire Progress where
  encode p := .record
    [("variables", encode p.memory), ("items", encode p.inventory), ("hints", encode p.hints),
      ("screen", encode p.screen), ("windows", encode p.windows), ("pictures", encode p.pictures),
      ("map", encode p.stage), ("lastInterpreterId", encode p.lastInterpreterId),
      ("autosaveEnabled", encode p.autosaves), ("playerControlEnabled", encode p.playerControl),
      ("playerSpeed", encode p.playerSpeed), ("inventoryVisible", encode p.inventoryVisible),
      ("cleared", encode p.cleared), ("lastPlayingBgm", encode p.music),
      ("backgrounds", encode p.backgrounds), ("foregrounds", encode p.foregrounds)]
  decode? m v := do
    let f ← Fields.read? m ["variables", "items", "hints", "screen", "windows", "pictures", "map",
      "lastInterpreterId", "autosaveEnabled", "playerControlEnabled", "playerSpeed",
      "inventoryVisible", "cleared", "lastPlayingBgm", "backgrounds", "foregrounds"] v
    return {
      memory := ← f.withDefault m "variables" .unset
      inventory := ← f.withDefault m "items" .empty
      hints := ← f.withDefault m "hints" .none
      screen := ← f.withDefault m "screen" default
      windows := ← f.withDefault m "windows" .none
      pictures := ← f.withDefault m "pictures" default
      stage := ← f.required m "map"
      lastInterpreterId := ← f.orElse serial? "lastInterpreterId" 0
      autosaves := ← f.withDefault m "autosaveEnabled" true
      playerControl := ← f.withDefault m "playerControlEnabled" true
      playerSpeed := ← f.orElse (speedOr? Speed.playerDefault m) "playerSpeed" Speed.playerDefault
      inventoryVisible := ← f.withDefault m "inventoryVisible" false
      cleared := ← f.withDefault m "cleared" false
      music := ← f.withDefault m "lastPlayingBgm" none
      backgrounds := ← f.withDefault m "backgrounds" .empty
      foregrounds := ← f.withDefault m "foregrounds" .empty }

end Adventure
