import Adventure.Script.Action

/-!
# Command trees

A command is an action with lists of commands below it: the branches of a condition or of choices,
and the body of a route.  `visits` walks a tree with the path to each command, parents before
children and siblings in order.

On the wire a command is a record of its name, its arguments and its branches; the body of a route
is part of the arguments.
-/

namespace Adventure

open Wire

/-- What a route does, apart from its body. -/
structure RouteOrder where
  eventId : Int32
  /-- Starts again at its end. -/
  repeats : Bool
  /-- Gives up moves that cannot be made. -/
  skip : Bool
  /-- Whether the script waits for the route to end. -/
  wait : Bool
  deriving DecidableEq, Repr

/-- A command of a script. -/
inductive Command where
  | act (action : Action) (branches : List (List Command))
  | route (order : RouteOrder) (body : List Command) (branches : List (List Command))

/-- A list of commands, run in order. -/
abbrev Script := List Command

namespace Command

def branches : Command → List Script
  | act _ branches => branches
  | route _ _ branches => branches

def name : Command → String
  | act action _ => action.name
  | route _ _ _ => "set_route"

/-- Whether the command may stand in a route. -/
def fitsRoute : Command → Bool
  | act action _ => action.fitsRoute
  | route _ _ _ => false

/-- Why the command was not understood, if it was not. -/
def misreading? : Command → Option Misreading
  | act (.unrecognized _ _ why) _ => some why
  | _ => none

/-- The label that the command sets. -/
def label? : Command → Option String
  | act (.label name) _ => some name
  | _ => none

/-! ## Walking a tree -/

/-- A command with the path that leads to it.  A path has the position of a command in its list
and the position of a list in its command in turn; the body of a route is list 0. -/
structure Visit where
  path : List Nat
  command : Command

mutual

/-- Visits a command, its branches and its body. -/
def visit (path : List Nat) : Command → List Visit
  | act action branches => ⟨path, act action branches⟩ :: visitLists path 0 branches
  | route order body branches =>
    ⟨path, route order body branches⟩ ::
      visitLists path 0 branches ++ visitList (path ++ [0]) 0 body

/-- Visits lists, counting from `index`. -/
def visitLists (path : List Nat) (index : Nat) : List Script → List Visit
  | [] => []
  | list :: rest => visitList (path ++ [index]) 0 list ++ visitLists path (index + 1) rest

/-- Visits commands, counting from `index`. -/
def visitList (path : List Nat) (index : Nat) : Script → List Visit
  | [] => []
  | command :: rest => visit (path ++ [index]) command ++ visitList path (index + 1) rest

end

/-- All commands of a script with their paths. -/
def visits (script : Script) : List Visit := visitList [] 0 script

/-! ## Writing -/

/-- A command as a record; branches are left out where there are none. -/
def record (name : String) (args : Value) (branches : List Value) : Value :=
  .record ([("name", .text name), ("args", args)] ++
    if branches.isEmpty then [] else [("branches", .list branches)])

mutual

def toValue : Command → Value
  | act action branches => record action.name action.args (listsToValues branches)
  | route order body branches => record "set_route"
      (Action.fieldArgs
        [("eventId", encode order.eventId), ("repeat", encode order.repeats),
          ("skip", encode order.skip), ("wait", encode order.wait),
          ("commands", .list (listToValues body))])
      (listsToValues branches)

def listsToValues : List Script → List Value
  | [] => []
  | list :: rest => .list (listToValues list) :: listsToValues rest

def listToValues : Script → List Value
  | [] => []
  | command :: rest => toValue command :: listToValues rest

end

/-! ## Reading -/

/-- Reads a list with a reader for its items. -/
def readList? {α : Type} (m : Medium) (read : Value → Option α) (v : Value) : Option (List α) :=
  (items? m v).bind (decodeItems? read)

/-- Reads the arguments of a route with a reader for commands. -/
def routeArgs? (read : Value → Option Command) (args : Value) : Option (RouteOrder × Script) := do
  let m := Medium.document
  let f ← Fields.read? m ["eventId", "repeat", "skip", "wait", "commands"] args
  let order : RouteOrder := {
    eventId := ← f.withDefault m "eventId" 0
    repeats := ← f.withDefault m "repeat" false
    skip := ← f.withDefault m "skip" false
    wait := ← f.withDefault m "wait" false }
  let body ← (f.find? "commands").bind (readList? m read)
  return (order, body)

/-- Reads a command that is nested less than `fuel` deep. -/
def ofValueWithin? : (fuel : Nat) → Medium → Value → Option Command
  | 0, _, _ => none
  | fuel + 1, m, v => do
    let f ← Fields.read? m ["name", "args", "branches"] v
    let name : String ← f.required m "name"
    let args : Value ← f.withDefault m "args" .null
    let branches ← f.orElse (readList? m (readList? m (ofValueWithin? fuel m))) "branches" []
    if name = "set_route" then
      match routeArgs? (ofValueWithin? fuel .document) args with
      | some (order, body) => return .route order body branches
      | none => return .act (.unrecognized name args .malformedArgs) branches
    else return .act (Action.read name args) branches

/-- Reads a command. -/
def ofValue? (m : Medium) (v : Value) : Option Command := ofValueWithin? (v.depth + 1) m v

end Command

instance : Wire Command where
  encode := Command.toValue
  decode? := Command.ofValue?

end Adventure
