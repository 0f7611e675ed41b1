import Adventure.Wire.Codec
import Adventure.World.Input

/-!
# Dialogue windows

At most one message or balloon is on the screen at a time, and next to it a column of choices.  A
window takes a few frames to open and to close.  Windows belong to the interpreter that asked for
them; a picked choice waits for that interpreter to take it.
-/

namespace Adventure

open Wire

/-- Frames that a window takes to open, and again to close. -/
def windowFrames : UInt32 := 4

/-- Frames that a picked choice stays before the windows close. -/
def pickedFrames : UInt32 := 5

inductive WindowKind where
  | message
  /-- A bubble over a character. -/
  | balloon
  | choice
  deriving DecidableEq, Repr

instance : Enumeration WindowKind where
  cases := [.message, .balloon, .choice]
  label
    | .message => "message"
    | .balloon => "balloon"
    | .choice => "choice"

inductive WindowState where
  | opening
  | opened
  | closing
  | closed
  deriving DecidableEq, Repr

instance : Enumeration WindowState where
  cases := [.opening, .opened, .closing, .closed]
  label
    | .opening => "opening"
    | .opened => "opened"
    | .closing => "closing"
    | .closed => "closed"

/-- One window. -/
structure Window where
  kind : WindowKind
  content : String
  eventId : Int32
  interpreterId : Nat
  state : WindowState
  /-- Frames until it is open or closed. -/
  count : UInt32
  /-- A choice that was picked before. -/
  checked : Bool
  deriving DecidableEq, Repr

namespace Window

/-- A window that is not on the screen yet. -/
def waiting (kind : WindowKind) (content : String) (eventId : Int32) (interpreterId : Nat) :
    Window :=
  ⟨kind, content, eventId, interpreterId, .closed, 0, false⟩

def beginOpening (w : Window) : Window := { w with state := .opening, count := windowFrames }

/-- Begins to close, unless it does so already. -/
def close (w : Window) : Window :=
  if w.state = .closing || w.state = .closed then w
  else { w with state := .closing, count := windowFrames }

def isAnimating (w : Window) : Bool := w.state = .opening || w.state = .closing

def isOpened (w : Window) : Bool := w.state = .opened

/-- One frame later. -/
def update (w : Window) : Window :=
  if w.count = 0 then w
  else
    let count := w.count - 1
    if count > 0 then { w with count := count }
    else
      let state :=
        match w.state with
        | .opening => .opened
        | .closing => .closed
        | state => state
      { w with count := count, state := state }

end Window

instance : Wire Window where
  encode w := .record
    [("kind", encode w.kind), ("content", encode w.content), ("eventId", encode w.eventId),
      ("interpreterId", encode w.interpreterId), ("state", encode w.state),
      ("count", encode w.count), ("checked", encode w.checked)]
  decode? m v := do
    let f ← Fields.read? m
      ["kind", "content", "eventId", "interpreterId", "state", "count", "checked"] v
    return {
      kind := ← f.required m "kind"
      content := ← f.required m "content"
      eventId := ← f.required m "eventId"
      interpreterId := ← f.requiredBy serial? "interpreterId"
      state := ← f.required m "state"
      count := ← f.required m "count"
      checked := ← f.withDefault m "checked" false }

/-- All windows. -/
structure Windows where
  /-- The message or balloon that comes next. -/
  next : Option Window
  /-- The message or balloon on the screen. -/
  balloons : List Window
  choiceBalloons : List Window
  choosing : Bool
  choosingId : Nat
  pickedRow : Nat
  pickedCount : UInt32
  /-- The interpreter that a picked row waits for, and the row. -/
  chosen : Option (Nat × Nat)
  deriving DecidableEq, Repr

namespace Windows

/-- Nothing on the screen. -/
def none : Windows := ⟨.none, [], [], false, 0, 0, 0, .none⟩

instance : Inhabited Windows := ⟨none⟩

/-- The windows on the screen. -/
def shown (ws : Windows) : List Window := ws.balloons ++ ws.choiceBalloons

/-- Changes every window on the screen. -/
def mapShown (ws : Windows) (change : Window → Window) : Windows :=
  { ws with balloons := ws.balloons.map change, choiceBalloons := ws.choiceBalloons.map change }

/-! ## Asking for windows -/

/-- Asks for a message, in place of one that still waits. -/
def showMessage (ws : Windows) (content : String) (eventId : Int32) (interpreterId : Nat) :
    Windows :=
  { ws with next := some (.waiting .message content eventId interpreterId) }

/-- Asks for a balloon, in place of a window that still waits. -/
def showBalloon (ws : Windows) (content : String) (eventId : Int32) (interpreterId : Nat) :
    Windows :=
  { ws with next := some (.waiting .balloon content eventId interpreterId) }

/-- Opens a column of choices, each a text and whether it was picked before. -/
def showChoices (ws : Windows) (choices : List (String × Bool)) (interpreterId : Nat) : Windows :=
  { ws with
    choiceBalloons := choices.map fun (content, checked) =>
      { (Window.waiting .choice content 0 interpreterId).beginOpening with checked := checked }
    pickedRow := 0
    choosing := true
    choosingId := interpreterId
    chosen := .none }

/-- Closes all windows and forgets the one that waits. -/
def closeAll (ws : Windows) : Windows :=
  { ws.mapShown Window.close with
    next := .none, choosing := false, choosingId := 0, pickedCount := 0 }

/-! ## Questions -/

def anyOpened (ws : Windows) : Bool := ws.shown.any Window.isOpened

def anyAnimating (ws : Windows) : Bool := ws.shown.any Window.isAnimating

/-- Whether an interpreter's windows still need the player. -/
def isBusy (ws : Windows) (interpreterId : Nat) : Bool :=
  ws.shown.any (fun w => w.interpreterId == interpreterId && (w.isAnimating || w.isOpened)) ||
    (ws.choosingId == interpreterId && (ws.choosing || ws.pickedCount > 0)) ||
    ws.next.any fun w => w.interpreterId == interpreterId

/-- Whether anything is on the screen or about to be. -/
def isActive (ws : Windows) : Bool :=
  ws.next.isSome || ws.choosing || !ws.balloons.isEmpty || !ws.choiceBalloons.isEmpty

/-- Whether a picked row waits for an interpreter. -/
def hasChosen (ws : Windows) (interpreterId : Nat) : Bool :=
  match ws.chosen with
  | some (id, _) => id == interpreterId
  | .none => false

/-- Hands the picked row to the interpreter that asked. -/
def takeChosen (ws : Windows) (interpreterId : Nat) : Option Nat × Windows :=
  match ws.chosen with
  | some (id, row) =>
    if id = interpreterId then (some row, { ws with chosen := .none }) else (.none, ws)
  | .none => (.none, ws)

/-! ## A frame -/

/-- Puts the window that waits on the screen, once there is room. -/
def openNext (ws : Windows) : Windows :=
  match ws.next with
  | some w =>
    if !ws.choosing && !ws.anyAnimating && !ws.anyOpened then
      { ws with next := .none, balloons := [w.beginOpening] }
    else ws
  | .none => ws

/-- Closes the rows that were not picked and starts to count. -/
def pick (ws : Windows) (row : Nat) : Windows :=
  { ws with
    pickedRow := row
    choiceBalloons := ws.choiceBalloons.zipIdx.map fun (w, i) => if i = row then w else w.close
    pickedCount := pickedFrames
    choosing := false }

/-- Counts the frames after a pick; in the last one the pick is handed over. -/
def countPick (ws : Windows) : Windows :=
  let count := ws.pickedCount - 1
  if count = 0 then
    { ws.mapShown Window.close with
      pickedCount := 0
      chosen := some (ws.choosingId, ws.pickedRow)
      choosingId := 0 }
  else { ws with pickedCount := count }

/-- What the input does; says whether it was used. -/
def respond (ws : Windows) (input : Input) : Bool × Windows :=
  if ws.pickedCount > 0 then (false, ws.countPick)
  else if ws.choosing && ws.anyOpened then
    match input.choice with
    | some row => if row < ws.choiceBalloons.length then (true, ws.pick row) else (false, ws)
    | .none => (false, ws)
  else if !ws.choosing && input.triggered then
    (ws.balloons.any Window.isOpened,
      { ws with balloons := ws.balloons.map fun w => if w.isOpened then w.close else w })
  else (false, ws)

/-- One frame later for every window; closed ones go. -/
def animate (ws : Windows) : Windows :=
  { ws with
    balloons := (ws.balloons.map Window.update).filter fun w => w.state ≠ .closed
    choiceBalloons := (ws.choiceBalloons.map Window.update).filter fun w => w.state ≠ .closed }

/-- One frame later.  Says whether the input was used, in which case nothing else may use it. -/
def update (ws : Windows) (input : Input) : Bool × Windows :=
  let (used, ws) := ws.openNext.respond input
  (used, ws.animate)

end Windows

/-- Reads an interpreter's id and a row. -/
def chosen? (m : Medium) : Value → Option (Option (Nat × Nat))
  | .null => some none
  | v =>
    match pair? m v with
    | some (id, row) =>
      match serial? id, (decode? m row : Option Nat) with
      | some id, some row => some (some (id, row))
      | _, _ => none
    | none => none

instance : Wire Windows where
  encode ws := .record
    [("nextBalloon", encode ws.next), ("balloons", encode ws.balloons),
      ("choiceBalloons", encode ws.choiceBalloons), ("choosing", encode ws.choosing),
      ("choosingInterpreterId", encode ws.choosingId), ("chosenIndex", encode ws.pickedRow),
      ("chosenBalloonWaitingCount", encode ws.pickedCount), ("chosen", encode ws.chosen)]
  decode? m v := do
    let f ← Fields.read? m ["nextBalloon", "balloons", "choiceBalloons", "choosing",
      "choosingInterpreterId", "chosenIndex", "chosenBalloonWaitingCount", "chosen"] v
    return {
      next := ← f.withDefault m "nextBalloon" .none
      balloons := ← f.withDefault m "balloons" []
      choiceBalloons := ← f.withDefault m "choiceBalloons" []
      choosing := ← f.withDefault m "choosing" false
      choosingId := ← f.orElse serial? "choosingInterpreterId" 0
      pickedRow := ← f.withDefault m "chosenIndex" 0
      pickedCount := ← f.withDefault m "chosenBalloonWaitingCount" 0
      chosen := ← f.orElse (chosen? m) "chosen" .none }

end Adventure
