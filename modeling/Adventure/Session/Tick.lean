import Adventure.Interpreter.Run

/-!
# Ticks

A tick moves a session on by one frame.  Its parts come in a fixed order, so the same inputs lead to
the same state: music and answers, the screen, windows, pictures, the room with its scripts, saves,
and touch.
-/

namespace Adventure.Session

/-- Runs all interpreters and then all routes.  They are taken off the stage meanwhile, and put back
ahead of those that were started. -/
def runScripts (s : Session) (project : Project) : Session :=
  let interpreters := s.world.stage.interpreters
  let s := s.modifyWorld fun w => w.modifyStage fun stage => { stage with interpreters := [] }
  let (interpreters, s) := Interpreter.updateAll project interpreters s
  let s := s.modifyWorld fun w => w.modifyStage fun stage => stage.mergeInterpreters interpreters
  let routes := s.world.stage.routes
  let s := s.modifyWorld fun w => w.modifyStage fun stage => { stage with routes := [] }
  let (routes, s) := Interpreter.updateAll project routes s
  s.modifyWorld fun w => w.modifyStage fun stage => stage.mergeRoutes routes

/-- What the player and the events of the room do before scripts run. -/
def startScripts (s : Session) (project : Project) (input : Input) : Session :=
  s.modifyWorld fun w =>
    (((w.refreshPages project).startAutomaticEvents project).handleTap
      project input).updatePlayerWalk project

/-- Sends what there is to save: the saves of scripts first, and then progress if the player no
longer has to wait. -/
def save (s : Session) (wasBlocked : Bool) : Session :=
  let s := s.sendScheduledSave
  if wasBlocked && !s.world.stage.isBlocked && s.world.autosaves then s.requestSave.2 else s

/-- One frame of the room. -/
def updateRoom (s : Session) (project : Project) (input : Input) : Session :=
  let s := s.startScripts project input
  let wasBlocked := s.world.stage.isBlocked
  let s := (s.runScripts project).modifyWorld fun w =>
    w.modifyStage fun stage => stage.dropStale.updateCharacters
  s.save wasBlocked

/-- Lets the windows have the input first.  What they use is no longer there for others. -/
def updateWindows (s : Session) (input : Input) : Input × Session :=
  let (used, windows) := s.world.windows.update input
  (if used then input.consumed else input, s.modifyWorld fun w => { w with windows := windows })

/-- One frame later. -/
def update (s : Session) (project : Project) (input : Input) : Session :=
  let s := s.resumeMusic
  let s := (s.modifyPlatform fun p => p.collect project).collectSave
  let s := s.modifyWorld fun w => { w with screen := w.screen.update }
  let (input, s) := s.updateWindows input
  let s := s.modifyWorld fun w => { w with pictures := w.pictures.update }
  let s := s.updateRoom project input
  s.modifyWorld fun w => w.updateTouch input

end Adventure.Session
