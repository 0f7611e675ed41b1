import Adventure.Script.Command
import Adventure.World.Walk

/-!
# Interpreters

An interpreter runs one script.  It keeps a stack of command lists with the position in each of
them, the reason why it waits, the second half of a command that is not done yet, and a move of its
character.  These are plain data, so a suspended script is saved and restored like anything else.
-/

namespace Adventure

open Wire

/-- What started an interpreter. -/
inductive InterpreterKind where
  | event
  /-- An event that nobody has to wait for. -/
  | parallel
  | item
  | combine
  | common
  | hint
  /-- The route of one character. -/
  | route
  deriving DecidableEq, Repr

instance : Enumeration InterpreterKind where
  cases := [.event, .parallel, .item, .combine, .common, .hint, .route]
  label
    | .event => "event"
    | .parallel => "parallel"
    | .item => "item"
    | .combine => "combine"
    | .common => "common"
    | .hint => "hint"
    | .route => "route"

/-! ## Frames -/

/-- How a command list came to run. -/
inductive FrameKind where
  | root
  /-- A branch of a condition or of choices; a return leaves it along with what it stands in. -/
  | branch
  /-- A called script; a return leaves just this one. -/
  | call
  deriving DecidableEq, Repr

instance : Enumeration FrameKind where
  cases := [.root, .branch, .call]
  label
    | .root => "root"
    | .branch => "branch"
    | .call => "call"

/-- A command list that runs, and the position in it. -/
structure Frame where
  commands : Script
  index : Nat
  kind : FrameKind
  /-- The event that the commands act for. -/
  eventId : Int32

namespace Frame

/-- A list at its beginning. -/
def enter (commands : Script) (kind : FrameKind) (eventId : Int32) : Frame :=
  ⟨commands, 0, kind, eventId⟩

/-- The command that comes next; `none` at the end of the list. -/
def current? (f : Frame) : Option Command := f.commands[f.index]?

/-- Goes on to the next command. -/
def advance (f : Frame) : Frame := { f with index := f.index + 1 }

end Frame

instance : Wire Frame where
  encode f := .record
    [("commands", encode f.commands), ("index", encode f.index), ("kind", encode f.kind),
      ("eventId", encode f.eventId)]
  decode? m v := do
    let f ← Fields.read? m ["commands", "index", "kind", "eventId"] v
    return {
      commands := ← f.required m "commands"
      index := ← f.required m "index"
      kind := ← f.required m "kind"
      eventId := ← f.required m "eventId" }

/-! ## Waiting -/

/-- Why an interpreter does not run its next command. -/
inductive Wait where
  | none
  | frames (count : UInt32)
  /-- A message or balloon of this interpreter is on the screen. -/
  | window
  | choices
  /-- A request to the platform has not been answered. -/
  | request (id : Nat)
  | route (character : Int32)
  | picture (id : UInt64)
  | tint
  | shake
  | fade
  | opacity (character : Int32)
  deriving DecidableEq, Repr

namespace Wait

/-- The tags on the wire. -/
def tags : List String :=
  ["none", "frames", "window", "choices", "request", "route", "picture", "tint", "shake", "fade",
    "character_opacity"]

end Wait

instance : Wire Wait where
  encode
    | .none => taggedRecord "none" []
    | .frames count => taggedRecord "frames" [("count", encode count)]
    | .window => taggedRecord "window" []
    | .choices => taggedRecord "choices" []
    | .request id => taggedRecord "request" [("id", encode id)]
    | .route character => taggedRecord "route" [("character", encode character)]
    | .picture id => taggedRecord "picture" [("id", encode id)]
    | .tint => taggedRecord "tint" []
    | .shake => taggedRecord "shake" []
    | .fade => taggedRecord "fade" []
    | .opacity character => taggedRecord "character_opacity" [("character", encode character)]
  decode? m v := do
    let (tag, fields) ← untag? m Wait.tags v
    let m := Medium.held
    match tag with
    | "frames" =>
      let f ← Fields.read? m ["count"] fields
      return .frames (← f.required m "count")
    | "request" =>
      let f ← Fields.read? m ["id"] fields
      return .request (← f.requiredBy serial? "id")
    | "route" =>
      let f ← Fields.read? m ["character"] fields
      return .route (← f.required m "character")
    | "picture" =>
      let f ← Fields.read? m ["id"] fields
      return .picture (← f.required m "id")
    | "character_opacity" =>
      let f ← Fields.read? m ["character"] fields
      return .opacity (← f.required m "character")
    | "none" => bare? .none fields
    | "window" => bare? .window fields
    | "choices" => bare? .choices fields
    | "tint" => bare? .tint fields
    | "shake" => bare? .shake fields
    | _ => bare? .fade fields

/-- The second half of a command, which runs once its wait is over. -/
inductive Pending where
  /-- Enters the branch of the picked choice. -/
  | choices
  /-- Takes the answer to a request. -/
  | request (id : Nat)
  /-- Changes the room, now that the screen is covered. -/
  | transfer
  deriving DecidableEq, Repr

namespace Pending

/-- The tags on the wire. -/
def tags : List String := ["choices", "request", "transfer"]

end Pending

instance : Wire Pending where
  encode
    | .choices => taggedRecord "choices" []
    | .request id => taggedRecord "request" [("id", encode id)]
    | .transfer => taggedRecord "transfer" []
  decode? m v := do
    let (tag, fields) ← untag? m Pending.tags v
    let m := Medium.held
    match tag with
    | "request" =>
      let f ← Fields.read? m ["id"] fields
      return .request (← f.requiredBy serial? "id")
    | "choices" => bare? .choices fields
    | _ => bare? .transfer fields

/-- What a route interpreter does with its character. -/
structure RouteState where
  character : Int32
  repeats : Bool
  skip : Bool
  deriving DecidableEq, Repr

instance : Wire RouteState where
  encode r := .record
    [("character", encode r.character), ("repeat", encode r.repeats), ("skip", encode r.skip)]
  decode? m v := do
    let f ← Fields.read? m ["character", "repeat", "skip"] v
    return {
      character := ← f.required m "character"
      repeats := ← f.required m "repeat"
      skip := ← f.required m "skip" }

/-! ## Interpreters -/

/-- A script that runs. -/
structure Interpreter where
  id : Nat
  mapId : Int32
  roomId : Int32
  /-- The event that the script was started for. -/
  eventId : Int32
  kind : InterpreterKind
  /-- The stack of command lists, the innermost first. -/
  frames : List Frame
  wait : Wait
  pending : Option Pending
  walk : Option Walk
  route : Option RouteState
  terminated : Bool

namespace Interpreter

/-- An interpreter at the beginning of a script. -/
def start (id : Nat) (mapId roomId eventId : Int32) (kind : InterpreterKind) (script : Script) :
    Interpreter where
  id := id
  mapId := mapId
  roomId := roomId
  eventId := eventId
  kind := kind
  frames := [.enter script .root eventId]
  wait := .none
  pending := none
  walk := none
  route := none
  terminated := false

/-- An interpreter at the beginning of a route. -/
def startRoute (id : Nat) (mapId roomId : Int32) (route : RouteState) (body : Script) :
    Interpreter :=
  { start id mapId roomId route.character .route body with route := some route }

/-! ### Questions -/

def isIn (i : Interpreter) (mapId roomId : Int32) : Bool := i.mapId == mapId && i.roomId == roomId

/-- Whether the player has to wait for it. -/
def isBlocking (i : Interpreter) : Bool :=
  match i.kind with
  | .parallel | .route => false
  | _ => true

/-- The character whose route this is. -/
def routeCharacter? (i : Interpreter) : Option Int32 := i.route.map (·.character)

def isRepeating (i : Interpreter) : Bool := i.route.any (·.repeats)

/-- The list that is running. -/
def frame? (i : Interpreter) : Option Frame := i.frames.head?

/-- The event that the running list acts for. -/
def actingEvent (i : Interpreter) : Int32 :=
  match i.frame? with
  | some f => f.eventId
  | none => i.eventId

/-- The event that an id in a command stands for. -/
def eventNamed (i : Interpreter) (eventId : Int32) : Int32 :=
  if eventId = selfId then i.actingEvent else eventId

/-! ### Changes -/

/-- Changes the list that is running. -/
def modifyFrame (i : Interpreter) (change : Frame → Frame) : Interpreter :=
  match i.frames with
  | f :: rest => { i with frames := change f :: rest }
  | [] => i

/-- Goes on to the next command. -/
def advance (i : Interpreter) : Interpreter := i.modifyFrame Frame.advance

/-- Goes to another place of the list that is running. -/
def jump (i : Interpreter) (index : Nat) : Interpreter :=
  i.modifyFrame fun f => { f with index := index }

/-- Enters a list. -/
def push (i : Interpreter) (f : Frame) : Interpreter := { i with frames := f :: i.frames }

/-- Returns from the innermost called script; where none was called the interpreter ends. -/
def leave (i : Interpreter) : Interpreter :=
  match i.frames.dropWhile fun f => f.kind ≠ .call with
  | _ :: rest => { i with frames := rest }
  | [] => { i with frames := [], terminated := true }

/-- Drops the wait for a request that an earlier session made.  Its answer will never come, so the
command counts as done. -/
def forgetRequest (i : Interpreter) : Interpreter :=
  match i.pending with
  | some (.request _) => { i with pending := none, wait := .none }.advance
  | _ => i

end Interpreter

/-- The stack is written from the outermost list to the innermost. -/
instance : Wire Interpreter where
  encode i := .record
    [("id", encode i.id), ("mapId", encode i.mapId), ("roomId", encode i.roomId),
      ("eventId", encode i.eventId), ("kind", encode i.kind), ("frames", encode i.frames.reverse),
      ("wait", encode i.wait), ("pending", encode i.pending), ("moveState", encode i.walk),
      ("route", encode i.route), ("terminated", encode i.terminated)]
  decode? m v := do
    let f ← Fields.read? m ["id", "mapId", "roomId", "eventId", "kind", "frames", "wait", "pending",
      "moveState", "route", "terminated"] v
    return {
      id := ← f.requiredBy serial? "id"
      mapId := ← f.required m "mapId"
      roomId := ← f.required m "roomId"
      eventId := ← f.required m "eventId"
      kind := ← f.required m "kind"
      frames := (← (f.required m "frames" : Option (List Frame))).reverse
      wait := ← f.withDefault m "wait" .none
      pending := ← f.withDefault m "pending" none
      walk := ← f.withDefault m "moveState" none
      route := ← f.withDefault m "route" none
      terminated := ← f.withDefault m "terminated" false }

end Adventure
