import Adventure.Platform.Basic
import Adventure.Text.Quoted
import Adventure.World.Stage

/-!
# Faults in scripts

A command that cannot run ends its interpreter, and a report says where the command stands and why.
-/

namespace Adventure

/-- Why a command cannot run. -/
inductive ScriptFault where
  | labelNotFound (name : String)
  | unrecognized (name : String) (why : Misreading)
  | notInRoute (name : String)
  | missingRoom (e : MissingRoom)
  | permanent (e : PermanentFault)
  /-- There is no branch for the condition that holds. -/
  | missingBranch (index : Nat)
  /-- There is no branch for the picked choice. -/
  | missingChoice (index : Nat)
  deriving DecidableEq, Repr

namespace ScriptFault

/-- What the fault is about. -/
def detail : ScriptFault → String
  | labelNotFound name => name
  | unrecognized name why => name ++ " (" ++ why.message ++ ")"
  | notInRoute name => name ++ " cannot run inside a route"
  | missingRoom e => e.message
  | permanent e => e.message
  | missingBranch index => "branch " ++ toString index ++ " of if"
  | missingChoice index => "choice " ++ toString index

def message (e : ScriptFault) : String :=
  match e with
  | labelNotFound name => "label " ++ quote name ++ " not found in the current command list"
  | unrecognized _ _ => "unrecognized command: " ++ e.detail
  | notInRoute _ | missingRoom _ | permanent _ => "invalid value: " ++ e.detail
  | missingBranch _ | missingChoice _ => "no command list for " ++ e.detail

end ScriptFault

/-- Where a command stands. -/
structure ScriptLocation where
  interpreterId : Nat
  mapId : Int32
  roomId : Int32
  eventId : Int32
  /-- The position in the list that is running. -/
  index : Nat
  command : String
  deriving DecidableEq, Repr

def ScriptLocation.text (l : ScriptLocation) : String :=
  "map " ++ toString l.mapId.toInt ++ "/room " ++ toString l.roomId.toInt ++ "/event " ++
    toString l.eventId.toInt ++ " command #" ++ toString l.index ++ " `" ++ l.command ++
    "` (interpreter #" ++ toString l.interpreterId ++ ")"

def ScriptLocation.toValue (l : ScriptLocation) : Wire.Value :=
  .record
    [("interpreter_id", Wire.encode l.interpreterId), ("map_id", Wire.encode l.mapId),
      ("room_id", Wire.encode l.roomId), ("event_id", Wire.encode l.eventId),
      ("index", Wire.encode l.index), ("command", Wire.encode l.command)]

/-- A command that could not run. -/
structure ScriptError where
  location : ScriptLocation
  fault : ScriptFault
  deriving DecidableEq, Repr

def ScriptError.message (e : ScriptError) : String := e.location.text ++ ": " ++ e.fault.message

/-- Where an interpreter stands. -/
def Interpreter.location (i : Interpreter) : ScriptLocation where
  interpreterId := i.id
  mapId := i.mapId
  roomId := i.roomId
  eventId := i.actingEvent
  index := (i.frame?.map (·.index)).getD 0
  command :=
    match i.frame? with
    | none => "<none>"
    | some f =>
      match f.current? with
      | none => "<end>"
      | some c => c.name

end Adventure
