import Adventure.Interpreter.Execute

/-!
# Running an interpreter

In a tick an interpreter runs commands until one of them waits, its script ends, or it has run so
many that it has to stop for this tick.
-/

namespace Adventure

/-- So many steps an interpreter makes in a tick.  This stops scripts that go round and round
without a wait. -/
def stepLimit : Nat := 1000

namespace Interpreter

/-- Whether the reason to wait is gone. -/
def isWaitOver (i : Interpreter) (s : Session) : Bool :=
  match i.wait with
  | .none => true
  | .frames count => count = 0
  | .window => !s.world.windows.isBusy i.id
  | .choices => s.world.windows.hasChosen i.id
  | .request id => s.platform.hasAnswer id
  | .route character => !s.world.stage.hasRoute character
  | .picture id => !s.world.pictures.isAnimating id
  | .tint => !s.world.screen.isChangingTint
  | .shake => !s.world.screen.isShaking
  | .fade => !s.world.screen.isFading
  | .opacity character =>
    (s.world.stage.characterIn? i.mapId i.roomId character).all fun c => !c.opacity.isAnimating

/-- Waits for one more frame. -/
def keepWaiting (i : Interpreter) : Interpreter :=
  match i.wait with
  | .frames count => { i with wait := .frames (count - 1) }
  | _ => i

/-- Goes on with the move of the character.  Says whether there is none left to wait for. -/
def updateWalk (i : Interpreter) (s : Session) (project : Project) : Bool × Interpreter × Session :=
  match i.walk with
  | none => (true, i, s)
  | some walk =>
    let (walk, stage, random) := walk.update project s.world.stage s.world.random
    let s := s.modifyWorld fun w => { w with stage := stage, random := random }
    if walk.isOver stage then (true, { i with walk := none }, s)
    else (false, { i with walk := some walk }, s)

/-- Leaves a list at its end.  A route that repeats begins again in the next tick.  Says whether the
interpreter goes on in this tick. -/
def finishFrame (i : Interpreter) : Bool × Interpreter :=
  match i.frames with
  | _ :: next :: rest => (true, { i with frames := next :: rest })
  | _ =>
    if i.isRepeating then (false, i.jump 0)
    else (false, { i with frames := [], terminated := true })

/-- Ends the interpreter and reports the fault. -/
def fail (i : Interpreter) (s : Session) (fault : ScriptFault) : Interpreter × Session :=
  ({ i with terminated := true }, s.modifyWorld fun w => w.recordError ⟨i.location, fault⟩)

/-- Goes on after a command.  Says whether it goes on in this tick. -/
def follow (e : Effect) : Bool × Interpreter × Session :=
  let i := e.interpreter
  match e.outcome with
  | .next => (true, i.advance, e.session)
  | .retry => (false, i, e.session)
  | .wait wait => (true, { i.advance with wait := wait }, e.session)
  | .waitHere wait => (true, { i with wait := wait }, e.session)
  | .enter frame => (true, i.advance.push frame, e.session)
  | .jump index => (false, i.jump index, e.session)
  | .leave => (true, i.leave, e.session)
  | .fail fault => (false, i.fail e.session fault)

/-- Runs the command that comes next.  Says whether the interpreter goes on in this tick. -/
def runCommand (i : Interpreter) (s : Session) (project : Project) : Bool × Interpreter × Session :=
  match i.frame? with
  | none => (false, { i with terminated := true }, s)
  | some frame =>
    match frame.current? with
    | some command => follow (i.execute s project command)
    | none =>
      let (goesOn, i) := i.finishFrame
      (goesOn, i, s)

/-- Makes one step: waits, walks, or runs a command.  Says whether the interpreter goes on in this
tick. -/
def step (i : Interpreter) (s : Session) (project : Project) : Bool × Interpreter × Session :=
  if i.terminated then (false, i, s)
  else if !i.isWaitOver s then (false, i.keepWaiting, s)
  else
    match { i with wait := .none }.updateWalk s project with
    | (false, i, s) => (false, i, s)
    | (true, i, s) => i.runCommand s project

/-- Makes at most so many steps. -/
def run (project : Project) : (steps : Nat) → Interpreter → Session → Interpreter × Session
  | 0, i, s => (i, s)
  | steps + 1, i, s =>
    match i.step s project with
    | (false, i, s) => (i, s)
    | (true, i, s) => run project steps i s

/-- Runs the interpreter for a tick. -/
def update (i : Interpreter) (s : Session) (project : Project) : Interpreter × Session :=
  run project stepLimit i s

/-- Runs interpreters for a tick, one after the other. -/
def updateAll (project : Project) : List Interpreter → Session → List Interpreter × Session
  | [], s => ([], s)
  | i :: rest, s =>
    let (i, s) := i.update s project
    let (rest, s) := updateAll project rest s
    (i :: rest, s)

end Interpreter

end Adventure
