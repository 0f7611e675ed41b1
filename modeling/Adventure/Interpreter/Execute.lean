import Adventure.Interpreter.Motion
import Adventure.World.Events

/-!
# Running a command

What each command does.  A command that cannot run leaves the session as it was, but that a pick is
used up, and that a permanent variable is set before all of them are found too large to be saved.
-/

namespace Adventure.Interpreter

/-! ## Flow -/

/-- Enters the branch of the first condition that holds, or else the branch after the last
condition, if there is one. -/
def enterBranch (i : Interpreter) (s : Session) (project : Project) (conditions : List Condition)
    (branches : List Script) : Effect :=
  let index? :=
    match conditions.findIdx? (s.world.meets project i.actingEvent) with
    | some index => some index
    | none => if branches.length > conditions.length then some conditions.length else none
  match index? with
  | none => i.go s .next
  | some index =>
    match branches[index]? with
    | some branch => i.go s (.enter (.enter branch .branch i.actingEvent))
    | none => i.go s (.fail (.missingBranch index))

/-- Goes to a label of the list that is running. -/
def goToLabel (i : Interpreter) (s : Session) (name : String) : Effect :=
  match i.frame?.bind fun f => f.commands.findIdx? fun c => c.label? == some name with
  | some index => i.go s (.jump index)
  | none => i.go s (.fail (.labelNotFound name))

/-- Calls a script for an event, if there is one. -/
def call (i : Interpreter) (s : Session) (eventId : Int32) : Option Script → Effect
  | some script => i.go s (.enter (.enter script .call eventId))
  | none => i.go s .next

/-- Calls a page of an event of this room. -/
def callEvent (i : Interpreter) (s : Session) (project : Project) (eventId : Int32)
    (page : UInt64) : Effect :=
  let eventId := i.eventNamed eventId
  let stage := s.world.stage
  i.call s eventId
    (((project.event? stage.mapId stage.roomId eventId).bind fun e => e.pages[page.toNat]?).map
      (·.commands))

/-- Calls the hint that is current. -/
def callHint (i : Interpreter) (s : Session) (project : Project) : Effect :=
  i.call s i.actingEvent ((s.world.hints.current?.bind project.hint?).map (·.commands))

/-- Calls the event that the player stands on. -/
def callEventHere (i : Interpreter) (s : Session) (project : Project) : Effect :=
  let stage := s.world.stage
  match stage.playerEventAt? project stage.player.position with
  | none => i.go s .next
  | some id => i.call s id ((stage.page? project id).map (·.commands))

/-! ## Dialogue -/

def showMessage (i : Interpreter) (s : Session) (project : Project) (content : String) : Effect :=
  let text := s.world.messageText s.platform project content
  { i.change s fun w => { w with windows := w.windows.showMessage text i.actingEvent i.id } with
    outcome := .wait .window }

/-- Shows a balloon over a character, if it is in this room. -/
def showBalloon (i : Interpreter) (s : Session) (project : Project) (order : BalloonOrder) :
    Effect :=
  let target := i.eventNamed order.eventId
  match s.world.stage.character? target with
  | none => i.go s .next
  | some _ =>
    let text := s.world.messageText s.platform project order.content
    { i.change s fun w => { w with windows := w.windows.showBalloon text target i.id } with
      outcome := .wait .window }

/-- Opens the choices that are shown, if there are any. -/
def openChoices (i : Interpreter) (s : Session) (project : Project) (order : ChoicesOrder) :
    Effect :=
  match s.world.shownChoices s.platform project i.actingEvent order with
  | [] => i.go s .next
  | choice :: choices =>
    { { i with pending := some .choices }.change s fun w =>
        { w with windows := w.windows.showChoices (choice :: choices) i.id } with
      outcome := .waitHere .choices }

/-- Enters the branch of the choice that was picked. -/
def enterChoice (i : Interpreter) (s : Session) (project : Project) (order : ChoicesOrder)
    (branches : List Script) : Effect :=
  match s.world.windows.takeChosen i.id with
  | (none, _) => i.go s (.waitHere .choices)
  | (some row, windows) =>
    let s := s.modifyWorld fun w => { w with windows := windows }
    let i := { i with pending := none }
    let index := s.world.choiceInRow project i.actingEvent order row
    match branches[index]? with
    | some branch => i.go s (.enter (.enter branch .branch i.actingEvent))
    | none => i.go s (.fail (.missingChoice index))

def showChoices (i : Interpreter) (s : Session) (project : Project) (order : ChoicesOrder)
    (branches : List Script) : Effect :=
  if i.pending = some .choices then i.enterChoice s project order branches
  else i.openChoices s project order

/-! ## State -/

def setSwitch (w : World) (id : Int32) (source : Source) (value internal : Bool) : World :=
  let id := w.memory.resolve source id
  { w with
    memory :=
      if internal then w.memory.setInternalSwitch id value else w.memory.setSwitch id value }

/-- Carries out an assignment.  One that cannot be computed is reported, and the script goes on. -/
def setVariable (i : Interpreter) (s : Session) (project : Project) (a : Assignment) : Effect :=
  i.change s fun w =>
    match w.assign s.platform project a i.actingEvent with
    | (none, w) => w
    | (some fault, w) => w.report (i.location.text ++ ": " ++ fault.message)

/-- Adds an item that the project has. -/
def addItem (w : World) (project : Project) (id : Int32) : World :=
  match project.item? id with
  | none => w
  | some _ =>
    match w.inventory.add id with
    | (false, _) => w
    | (true, inventory) => { w with inventory := inventory }.note ("item.add " ++ toString id.toInt)

def removeItem (w : World) (id : Int32) : World :=
  match w.inventory.remove id with
  | (false, _) => w
  | (true, inventory) =>
    { w with inventory := inventory }.note ("item.remove " ++ toString id.toInt)

def controlHint (hints : Hints) (id : Int32) : HintOrder → Hints
  | .start => hints.start id
  | .pause => hints.pause id
  | .complete => hints.complete id

/-! ## Rooms -/

/-- The color that covers the screen during a transfer. -/
def transitionColor? : Transition → Option FadeColor
  | .none => none
  | .black => some .black
  | .white => some .white

/-- Brings the player to another room. -/
def enterRoom (s : Session) (project : Project) (order : TransferOrder) :
    Except MissingRoom World :=
  let read := s.world.memory.resolve order.source
  s.world.transfer project (read order.roomId) ⟨read order.x, read order.y⟩ order.dir

/-- Covers the screen if the order says so, changes the room, and uncovers the screen. -/
def transfer (i : Interpreter) (s : Session) (project : Project) (order : TransferOrder) : Effect :=
  let covered : Bool := i.pending == some .transfer
  match transitionColor? order.transition, covered with
  | some color, false =>
    { { i with pending := some .transfer }.change s fun w =>
        { w with screen := (w.screen.setFadeColor color).fadeOut transitionFrames } with
      outcome := .waitHere .fade }
  | _, _ =>
    match enterRoom s project order with
    | .error e => i.go s (.fail (.missingRoom e))
    | .ok world =>
      let s := { s with world := world }
      if covered then
        { { i with pending := none }.change s fun w =>
            { w with screen := w.screen.fadeIn transitionFrames } with
          outcome := .wait .fade }
      else i.go s .next

/-- Sets a character on a route, if it is in this room.  A script does not wait for a route that has
no end. -/
def setRoute (i : Interpreter) (s : Session) (order : RouteOrder) (body : Script) : Effect :=
  let character := i.eventNamed order.eventId
  match s.world.stage.character? character with
  | none => i.go s .next
  | some _ =>
    i.changeThenWait s (order.wait && !order.repeats) (.route character) fun w =>
      let (id, w) := w.nextInterpreterId
      w.modifyStage fun stage =>
        stage.setRoute
          (.startRoute id stage.mapId stage.roomId ⟨character, order.repeats, order.skip⟩ body)

/-! ## Pictures -/

def changePictures (i : Interpreter) (s : Session) (change : Pictures → Pictures) : Effect :=
  i.change s fun w => { w with pictures := change w.pictures }

def changePicturesThenWait (i : Interpreter) (s : Session) (waits : Bool) (id : UInt64)
    (change : Pictures → Pictures) : Effect :=
  i.changeThenWait s waits (.picture id) fun w => { w with pictures := change w.pictures }

/-- The picture that an order shows. -/
def pictureSpec (w : World) (order : PictureOrder) : PictureSpec where
  image := order.image
  x := w.memory.resolve order.source order.x
  y := w.memory.resolve order.source order.y
  originX := order.originX
  originY := order.originY
  scaleX := order.scaleX
  scaleY := order.scaleY
  angle := order.angle
  opacity := order.opacity
  blend := order.blend

/-! ## Requests -/

/-- Queues a save.  It is sent once all interpreters are back on the stage. -/
def save (i : Interpreter) (s : Session) : Effect :=
  i.withAnswer s fun _ =>
    let (id, platform) := s.platform.nextRequestId
    i.awaitAnswer { world := s.world.scheduleSave id, platform := platform } id

def purchase (i : Interpreter) (s : Session) (project : Project) (productId : Int32) : Effect :=
  i.withAnswer s fun _ =>
    match project.product? productId with
    | none => i.go s .next
    | some product =>
      let (id, platform) := s.platform.ask (.purchase product.key)
      i.awaitAnswer { s with platform := platform } id

def savePermanentVariable (i : Interpreter) (s : Session) (permanentId : UInt64)
    (variableId : Int32) :
    Effect :=
  i.withAnswer s fun _ =>
    let value := s.world.memory.get variableId
    match s.platform.savePermanent permanentId.toNat value with
    | .ok (id, platform) => i.awaitAnswer { s with platform := platform } id
    | .error (.outOfRange id) => i.go s (.fail (.permanent (.outOfRange id)))
    -- The variable is set before all of them turn out to take too much room.
    | .error (.save fault) =>
      i.go (s.modifyPlatform fun p => p.setPermanent permanentId.toNat value)
        (.fail (.permanent (.save fault)))

/-! ## All commands -/

/-- Runs an action with the branches below it. -/
def act (i : Interpreter) (s : Session) (project : Project) (branches : List Script) :
    Action → Effect
  | .nop | .label _ => i.go s .next
  | .leave => i.go s .leave
  | .eraseEvent => i.change s fun w => w.modifyCharacter i.actingEvent Character.erase
  | .showHint => i.callHint s project
  | .save => i.save s
  | .gotoTitle => i.change s fun w => { w with titleRequested := true }
  | .gameClear => i.change s World.markCleared
  | .syncPurchases => i.request s .restorePurchases
  | .hideItem => i.change s fun w => { w with itemPreview := none }
  | .showInventory => i.change s fun w => { w with inventoryVisible := true }
  | .hideInventory => i.change s fun w => { w with inventoryVisible := false }
  | .finishPlayerMove => i.change s fun w => w.modifyStage Stage.finishPlayerWalk
  | .runEventHere => i.callEventHere s project
  | .branch conditions => i.enterBranch s project conditions branches
  | .jump name => i.goToLabel s name
  | .callEvent eventId page => i.callEvent s project eventId page
  | .callCommonEvent id => i.call s i.actingEvent ((project.commonEvent? id).map (·.commands))
  | .wait time => i.go s (.wait (.frames time))
  | .showBalloon order => i.showBalloon s project order
  | .showMessage order => i.showMessage s project order.content
  | .showChoices order => i.showChoices s project order branches
  | .setSwitch id source value internal => i.change s fun w => setSwitch w id source value internal
  | .setSelfSwitch id value => i.change s fun w =>
      { w with memory := w.memory.setSelfSwitch (w.selfSwitchKey i.actingEvent id) value }
  | .setVariable a => i.setVariable s project a
  | .transfer order => i.transfer s project order
  | .tintScreen o => i.changeThenWait s o.wait .tint fun w =>
      { w with screen := w.screen.startTint o.red o.green o.blue o.gray o.time }
  | .shakeScreen o => i.changeThenWait s o.wait .shake fun w =>
      { w with screen := w.screen.startShaking o.power o.speed o.time o.direction }
  | .weather kind => i.change s fun w => { w with screen := w.screen.setWeather kind }
  | .changeBackground image => i.change s fun w => w.setBackground image
  | .changeForeground image => i.change s fun w => w.setForeground image
  | .playSound o => i.go (s.playEffect o.name o.volume) .next
  | .playMusic o => i.go (s.playMusic o.name o.volume o.fadeTime) .next
  | .stopMusic fadeTime => i.go (s.stopMusic fadeTime) .next
  | .autosave enabled => i.change s fun w => { w with autosaves := enabled }
  | .playerControl enabled => i.change s fun w => { w with playerControl := enabled }
  | .unlockAchievement id => i.request s (.unlockAchievement id)
  | .controlHint id order => i.change s fun w => { w with hints := controlHint w.hints id order }
  | .purchase productId => i.purchase s project productId
  | .showAds .rewarded force => i.request s (.rewardedAds force)
  | .showAds .interstitial force => i.request s (.interstitialAds force)
  | .openLink kind data => i.request s (.openLink kind data)
  | .sendAnalytics event value =>
      i.go (s.modifyPlatform fun p => p.tell (.sendAnalytics event value)) .next
  | .savePermanentVariable permanentId variableId =>
    i.savePermanentVariable s permanentId variableId
  | .addItem id => i.change s fun w => addItem w project id
  | .removeItem id => i.change s fun w => removeItem w id
  | .replaceItem id replaced => i.change s fun w =>
      { w with inventory := w.inventory.replace id replaced }
  | .showItem id => i.change s fun w => { w with itemPreview := some id }
  | .showPicture o =>
    i.change s fun w => { w with pictures := w.pictures.put o.id (pictureSpec w o) }
  | .erasePicture id => i.changePictures s fun ps => ps.erase id
  | .movePicture o =>
      let read := s.world.memory.resolve o.source
      i.changePicturesThenWait s o.wait o.id fun ps => ps.moveTo o.id (read o.x) (read o.y) o.time
  | .scalePicture o => i.changePicturesThenWait s o.wait o.id fun ps =>
      ps.scaleTo o.id o.scaleX o.scaleY o.time
  | .rotatePicture o =>
    i.changePicturesThenWait s o.wait o.id fun ps => ps.rotateTo o.id o.angle o.time
  | .fadePicture o =>
    i.changePicturesThenWait s o.wait o.id fun ps => ps.fadeTo o.id o.opacity o.time
  | .tintPicture o => i.changePicturesThenWait s o.tint.wait o.id fun ps =>
      ps.tintTo o.id o.tint.red o.tint.green o.tint.blue o.tint.gray o.tint.time
  | .changePictureImage id image => i.changePictures s fun ps => ps.changeImage id image
  | .moveCharacter order => i.moveTarget s project order
  | .turnCharacter dir => i.changeTarget s fun c => c.turn dir
  | .rotateCharacter angle => i.rotateTarget s angle
  | .changeCharacter change => i.changeProperty s change
  | .setCharacterImage image => i.changeTarget s fun c => c.setImage image
  | .setCharacterOpacity change => i.fadeTarget s change
  | .unrecognized name _ why => i.go s (.fail (.unrecognized name why))

/-- Runs a command.  In a route only the commands that fit there run. -/
def execute (i : Interpreter) (s : Session) (project : Project) (command : Command) : Effect :=
  if i.kind = .route && !command.fitsRoute then i.go s (.fail (.notInRoute command.name))
  else
    match command with
    | .act action branches => i.act s project branches action
    | .route order body _ => i.setRoute s order body

end Adventure.Interpreter
