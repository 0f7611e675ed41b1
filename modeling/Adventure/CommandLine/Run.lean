import Adventure.CommandLine.Schedule
import Adventure.Session.Tick

/-!
# Runs

Plays a project for some ticks with scheduled input, on a store of files: loads what is there,
resumes a save or begins a new game, and writes what was asked for.  A run prints lines as it goes;
if it fails, the lines and files so far stay.
-/

namespace Adventure.CommandLine

open Files Wire

/-- What a run has printed and written. -/
structure Record where
  lines : List String
  store : FileStore

/-- A part of a run, which may fail with a message. -/
abbrev Play := ExceptT String (StateM Record)

namespace Play

def print (line : String) : Play Unit := modify fun r => { r with lines := r.lines ++ [line] }

/-- Goes on with a result, or fails with a message. -/
def orFail {ε α : Type} (message : String) : Except ε α → Play α
  | .ok a => pure a
  | .error _ => throw message

end Play

open Play

/-! ## Loading -/

/-- Reads the project. -/
def loadProject (path : String) : Play Project := do
  match (← get).store.read path with
  | .ok (some bytes) =>
    match ofDocumentBytes? bytes with
    | some project => return project
    | none => throw ("loading project " ++ path)
  | _ => throw ("loading project " ++ path)

/-- A platform that keeps things in files. -/
def fileHost (o : Options) (store : FileStore) : FileHost :=
  ⟨store, o.savePath, o.purchasesPath, o.languagePath, some o.pricesPath⟩

/-- The paths of all files that a run can read or write. -/
def Options.paths (o : Options) : List String :=
  let host := fileHost o .empty
  [o.project, host.savePath, host.permanentPath, o.purchasesPath, o.languagePath, o.pricesPath] ++
    [o.stateLog, o.eventLog, o.soundLog].filterMap id

/-- Prepares the platform: purchases, permanent data, language and prices. -/
def loadPlatform (project : Project) (host : FileHost) (clock : Int64) : Play Platform := do
  let purchases ← orFail "loading purchases" host.loadPurchases
  let language ← orFail "loading language" host.loadLanguage
  let permanent ← orFail "loading permanent data" host.loadPermanent
  let _ ← orFail "loading progress save" host.loadProgress
  let platform := { Platform.start project (.files host) with
    purchases := purchases, sounds := some [], clock := clock }
  let platform ←
    match permanent with
    | none => pure platform
    | some bytes => orFail ("decoding " ++ host.permanentPath) (platform.withPermanent bytes)
  let platform :=
    match language with
    | none => platform
    | some language => platform.setLanguage project language
  let (prices, platform) := platform.askPrices project
  return ((platform.collect project).takeAnswer prices).2

/-- Resumes the save, or begins a new game. -/
def loadSession (o : Options) (project : Project) (host : FileHost) (platform : Platform)
    (seed : UInt64) :
    Play Session := do
  match ← orFail "loading progress save" host.loadProgress with
  | some bytes =>
    let world ← orFail ("decoding save " ++ o.savePath) (World.decode bytes seed)
    print ("Resumed save from " ++ o.savePath)
    return ⟨world, { platform with progress := some bytes }⟩
  | none => return ⟨← orFail "starting a new game" (World.start project seed), platform⟩

/-! ## Playing -/

/-- How a session has been played. -/
structure Played where
  session : Session
  /-- The number of ticks. -/
  ticks : Nat
  /-- Whether a script asked for the title screen in the last tick. -/
  toTitle : Bool

/-- Plays for so many ticks, from `tick` on, or until a script asks for the title screen. -/
def playTicks (project : Project) (schedule : Schedule) :
    (left : Nat) → (tick : Nat) → Session → Played
  | 0, tick, s => ⟨s, tick, false⟩
  | left + 1, tick, s =>
    let s := s.update project (schedule.inputAt tick)
    let (toTitle, world) := s.world.takeTitleRequest
    let s := { s with world := world }
    if toTitle then ⟨s, tick + 1, true⟩ else playTicks project schedule left (tick + 1) s

/-- Saves at the end of a run, and plays one more tick that collects the answer.  Says whether a
save was sent. -/
def saveAtEnd (project : Project) (s : Session) : Bool × Session :=
  match s.requestSave with
  | (true, s) => (true, s.update project .none)
  | (false, s) => (false, s)

/-! ## Reporting -/

/-- Where the player stands at the end. -/
def placeLine (ticks : Nat) (stage : Stage) : String :=
  "Ran " ++ toString ticks ++ " frames; player in map" ++ toString stage.mapId.toInt ++ "/room" ++
    toString stage.roomId.toInt ++ " at (" ++ toString stage.player.x.toInt ++ ", " ++
    toString stage.player.y.toInt ++ ")"

/-- The commands that could not run. -/
def errorLines (errors : List ScriptError) : List String :=
  if errors.isEmpty then []
  else (toString errors.length ++ " script error(s):") :: errors.map fun e => "  - " ++ e.message

/-- The log of a run as a document. -/
def eventLog (ticks : Nat) (w : World) : Value :=
  .record
    [("ticks", encode ticks), ("events", encode w.log),
      ("script_errors", encode (w.scriptErrors.map ScriptError.message)),
      ("diagnostics", encode w.reports)]

/-- Writes a document, if there is a path for it. -/
def writeLog (what : String) (document : Value) : Option String → Play Unit
  | none => pure ()
  | some path => do
    let r ← get
    match r.store.write path (bytesOfText (Json.pretty document)) with
    | none => throw ("writing " ++ what ++ " to " ++ path)
    | some store =>
      set { r with store := store }
      print ("Saved " ++ what ++ " to " ++ path)

/-- The files of the platform. -/
def storeOf (platform : Platform) (otherwise : FileStore) : FileStore :=
  match platform.host with
  | .files host => host.store
  | _ => otherwise

/-! ## A whole run -/

/-- Plays as the options say. -/
def play (o : Options) (schedule : Schedule) (anySeed : UInt64) (clock : Int64) : Play Unit := do
  let project ← loadProject o.project
  let host := fileHost o (← get).store
  let platform ← loadPlatform project host clock
  let session ← loadSession o project host platform (o.seed.getD anySeed)
  let played := playTicks project schedule o.ticks 0 session
  if played.toTitle then
    print ("Script returned to the title on frame " ++ toString (played.ticks - 1))
  let (saved, session) :=
    if o.saveOnExit then saveAtEnd project played.session else (false, played.session)
  if saved then print ("Saved progress to " ++ o.savePath)
  modify fun r => { r with store := storeOf session.platform r.store }
  print (placeLine played.ticks session.world.stage)
  (errorLines session.world.scriptErrors).forM print
  writeLog "game state" (encode session.world.toProgress) o.stateLog
  writeLog "event log" (eventLog played.ticks session.world) o.eventLog
  writeLog "audio log" (soundLog (session.platform.sounds.getD [])) o.soundLog

/-- How the program ends. -/
inductive Ending where
  | finished
  | failed (message : String)
  | stopped (stop : Stop)
  deriving DecidableEq, Repr

/-- Runs the program with the arguments of the command line. -/
def run (arguments : List String) (store : FileStore) (anySeed : UInt64) (clock : Int64) :
    Ending × Record :=
  match Options.ofArguments arguments with
  | .error stop => (.stopped stop, ⟨[], store⟩)
  | .ok o =>
    match Schedule.ofOptions o with
    | .error message => (.failed message, ⟨[], store⟩)
    | .ok schedule =>
      match (play o schedule anySeed clock).run.run ⟨[], store⟩ with
      | (.ok _, r) => (.finished, r)
      | (.error message, r) => (.failed message, r)

end Adventure.CommandLine
