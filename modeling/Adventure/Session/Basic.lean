import Adventure.World.Questions

/-!
# Sessions

A world together with the platform that it runs on, and the protocol by which progress is saved: one
save is in flight at a time, and the saves of scripts are sent in the order they were asked for.
-/

namespace Adventure

/-- A world and its platform. -/
structure Session where
  world : World
  platform : Platform

namespace Session

def modifyWorld (s : Session) (change : World → World) : Session :=
  { s with world := change s.world }

def modifyPlatform (s : Session) (change : Platform → Platform) : Session :=
  { s with platform := change s.platform }

/-! ## Sound -/

def playEffect (s : Session) (name : String) (volume : Int32) : Session :=
  s.modifyPlatform fun p => p.play (.playEffect name volume)

def playMusic (s : Session) (name : String) (volume : Int32) (fadeFrames : UInt32) : Session where
  world := { s.world with music := some ⟨name, volume⟩ }
  platform := s.platform.play (.playMusic name volume fadeFrames)

def stopMusic (s : Session) (fadeFrames : UInt32) : Session where
  world := { s.world with music := none }
  platform := s.platform.play (.stopMusic fadeFrames)

/-- Starts the music of a loaded game again. -/
def resumeMusic (s : Session) : Session :=
  match s.world.pendingMusic with
  | none => s
  | some music =>
    { world := { s.world with pendingMusic := none }
      platform := s.platform.play (.playMusic music.name music.volume 0) }

/-! ## Saving -/

/-- Sends the progress as it is, under an id. -/
def sendSave (s : Session) (requestId : Nat) (byScript : Bool) (bytes : List UInt8) : Session where
  world := { s.world with saveInFlight := some ⟨requestId, byScript⟩ }
  platform := s.platform.saveProgress requestId bytes

/-- Saves, unless a save is under way or queued or the player walks to a tapped tile.  Says whether
a save was sent. -/
def requestSave (s : Session) : Bool × Session :=
  if s.world.isSaving || s.world.stage.walkingToTap then (false, s)
  else
    match s.world.encode with
    | .error _ => (false, s)
    | .ok bytes =>
      let (id, platform) := s.platform.nextRequestId
      (true, { s with platform := platform }.sendSave id false bytes)

/-- Sends the first save that scripts have queued, unless a save is under way or the player walks to
a tapped tile. -/
def sendScheduledSave (s : Session) : Session :=
  if s.world.saveInFlight.isSome || s.world.stage.walkingToTap then s
  else
    match s.world.scheduledSaves with
    | [] => s
    | id :: rest =>
      let s := s.modifyWorld fun w => { w with scheduledSaves := rest }
      match s.world.encode with
      | .ok bytes => s.sendSave id true bytes
      | .error _ => s.modifyPlatform fun p => p.failRequest id .saveProgress

/-- Notes that the save in flight has been answered.  A script takes the answer itself. -/
def collectSave (s : Session) : Session :=
  match s.world.saveInFlight with
  | none => s
  | some save =>
    if !s.platform.hasAnswer save.requestId then s
    else
      { world := { s.world with saveInFlight := none }
        platform := if save.byScript then s.platform else (s.platform.takeAnswer save.requestId).2 }

end Session

end Adventure
