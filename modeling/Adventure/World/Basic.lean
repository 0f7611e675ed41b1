import Adventure.Interpreter.Fault
import Adventure.Random
import Adventure.World.Progress

/-!
# The world

The state of a game under way: its progress, and what goes along with it and is not saved.
-/

namespace Adventure

open Save

/-- So many of the latest entries stay in the log. -/
def logLimit : Nat := 512

/-- The pictures that the pointer touches in a tick. -/
structure PictureTouch where
  triggered : Option Nat
  pressed : Option Nat
  released : Option Nat
  deriving DecidableEq, Repr

def PictureTouch.none : PictureTouch := ⟨.none, .none, .none⟩

/-- A save that was sent and has not been answered. -/
structure SaveInFlight where
  requestId : Nat
  /-- Whether a script asked for it, which then takes the answer itself. -/
  byScript : Bool
  deriving DecidableEq, Repr

/-- The state of a game under way. -/
structure World extends Progress where
  /-- Music of a loaded game that has not been started again. -/
  pendingMusic : Option Music
  saveInFlight : Option SaveInFlight
  /-- The requests of scripts that want to save, in order. -/
  scheduledSaves : List Nat
  touch : PictureTouch
  pressedTile : Option Tile
  /-- Width and height of images. -/
  imageSizes : SortedMap String (UInt32 × UInt32)
  random : Random
  /-- What happened, the latest entries only. -/
  log : List String
  scriptErrors : List ScriptError
  /-- Reports of commands that ran in spite of a fault. -/
  reports : List String
  titleRequested : Bool
  itemPreview : Option Int32

namespace World

/-- A world with some progress. -/
def ofProgress (progress : Progress) (seed : UInt64) : World where
  toProgress := progress
  pendingMusic := none
  saveInFlight := none
  scheduledSaves := []
  touch := .none
  pressedTile := none
  imageSizes := .empty
  random := .ofSeed seed
  log := []
  scriptErrors := []
  reports := []
  titleRequested := false
  itemPreview := none

/-! ## Reports -/

/-- Adds an entry to the log; beyond the limit the oldest ones go. -/
def note (w : World) (entry : String) : World :=
  let log := w.log ++ [entry]
  { w with log := log.drop (log.length - logLimit) }

def recordError (w : World) (e : ScriptError) : World :=
  { w with scriptErrors := w.scriptErrors ++ [e] }

def report (w : World) (message : String) : World := { w with reports := w.reports ++ [message] }

/-! ## Parts -/

def modifyStage (w : World) (change : Stage → Stage) : World := { w with stage := change w.stage }

def modifyCharacter (w : World) (id : Int32) (change : Character → Character) : World :=
  w.modifyStage fun s => s.modifyCharacter id change

def setPlayerSpeed (w : World) (speed : Speed) : World := { w with playerSpeed := speed }

def setImageSize (w : World) (image : String) (width height : UInt32) : World :=
  { w with imageSizes := w.imageSizes.insert image (width, height) }

/-- The id of the next script.  It is counted without a bound here and has 32 bits where it is kept;
`Session.CountsFit` says that the count has not run over, so that both are the same. -/
def nextInterpreterId (w : World) : Nat × World :=
  (w.lastInterpreterId + 1, { w with lastInterpreterId := w.lastInterpreterId + 1 })

def setBackground (w : World) (image : String) : World :=
  { w with backgrounds := w.backgrounds.setImage w.stage.mapId w.stage.roomId image }

def setForeground (w : World) (image : String) : World :=
  { w with foregrounds := w.foregrounds.setImage w.stage.mapId w.stage.roomId image }

/-- The image behind the room. -/
def background (w : World) (project : Project) : String :=
  match w.backgrounds.image? w.stage.mapId w.stage.roomId with
  | some image => image
  | none => ((w.stage.room? project).map (·.background)).getD ""

/-- The image in front of the room. -/
def foreground (w : World) (project : Project) : String :=
  match w.foregrounds.image? w.stage.mapId w.stage.roomId with
  | some image => image
  | none => ((w.stage.room? project).map (·.foreground)).getD ""

def markCleared (w : World) : World := { w with cleared := true }.note "game.clear"

/-- Whether a script asked for the title screen since the last time. -/
def takeTitleRequest (w : World) : Bool × World :=
  (w.titleRequested, { w with titleRequested := false })

/-! ## Saves -/

/-- Queues the save of a script under a request id. -/
def scheduleSave (w : World) (requestId : Nat) : World :=
  { w with scheduledSaves := w.scheduledSaves ++ [requestId] }

/-- Whether a save is under way or queued. -/
def isSaving (w : World) : Bool := w.saveInFlight.isSome || !w.scheduledSaves.isEmpty

/-- The progress as a blob. -/
def encode (w : World) : Except SaveFault (List UInt8) := toBlob .progress w.toProgress

/-- Goes on from saved progress: the music starts again, the player walks at the saved speed, and
requests of the earlier session are forgotten. -/
def resume (progress : Progress) (seed : UInt64) : World :=
  let stage := progress.stage
  let stage := { stage with player := { stage.player with speed := progress.playerSpeed } }
  { ofProgress { progress with stage := stage.forgetRequests } seed with
    pendingMusic := progress.music }

/-- Loads a blob.  Random numbers are not saved, so they begin with a new seed. -/
def decode (bytes : List UInt8) (seed : UInt64) : Except SaveFault World :=
  match ofBlob .progress bytes with
  | .ok progress => .ok (resume progress seed)
  | .error fault => .error fault

end World

end Adventure
