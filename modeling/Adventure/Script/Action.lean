import Adventure.Script.Assignment
import Adventure.Script.Motion
import Adventure.Script.Staging

/-!
# Actions

An action is what one command of a script does, apart from the commands below it.  On the wire it
is a name and its arguments, whose shape depends on the name.  A name that no action has, or
arguments that do not fit, give an `unrecognized` action, which keeps what stood there: a project
with such a command still loads, and the command is reported when a script reaches it.
-/

namespace Adventure

open Wire

/-- Why a command was not understood. -/
inductive Misreading where
  | malformedArgs
  | unknownName
  deriving DecidableEq, Repr

namespace Misreading

def message : Misreading → String
  | malformedArgs => "malformed args"
  | unknownName => "unknown command name"

end Misreading

/-- What one command does. -/
inductive Action where
  | nop
  /-- Ends the called list that is running. -/
  | leave
  | eraseEvent
  | showHint
  | save
  | gotoTitle
  | gameClear
  | syncPurchases
  | hideItem
  | showInventory
  | hideInventory
  | finishPlayerMove
  | runEventHere
  /-- Runs the branch of the first condition that holds. -/
  | branch (conditions : List Condition)
  | label (name : String)
  | jump (name : String)
  | callEvent (eventId : Int32) (pageIndex : UInt64)
  | callCommonEvent (eventId : Int32)
  | wait (time : UInt32)
  | showBalloon (order : BalloonOrder)
  | showMessage (order : MessageOrder)
  | showChoices (order : ChoicesOrder)
  | setSwitch (id : Int32) (source : Source) (value : Bool) (internal : Bool)
  | setSelfSwitch (id : Int32) (value : Bool)
  | setVariable (assignment : Assignment)
  | transfer (order : TransferOrder)
  | tintScreen (order : TintOrder)
  | shakeScreen (order : ShakeOrder)
  | weather (kind : Weather)
  | changeBackground (image : String)
  | changeForeground (image : String)
  | playSound (order : SoundOrder)
  | playMusic (order : MusicOrder)
  | stopMusic (fadeTime : UInt32)
  | autosave (enabled : Bool)
  | playerControl (enabled : Bool)
  | unlockAchievement (id : Int32)
  | controlHint (id : Int32) (order : HintOrder)
  | purchase (productId : Int32)
  | showAds (kind : AdKind) (force : Bool)
  | openLink (kind : String) (data : String)
  | sendAnalytics (event : String) (value : String)
  | savePermanentVariable (permanentId : UInt64) (variableId : Int32)
  | addItem (id : Int32)
  | removeItem (id : Int32)
  | replaceItem (id : Int32) (replaced : List Int32)
  | showItem (id : Int32)
  | showPicture (order : PictureOrder)
  | erasePicture (id : UInt64)
  | movePicture (order : MovePictureOrder)
  | scalePicture (order : ScalePictureOrder)
  | rotatePicture (order : RotatePictureOrder)
  | fadePicture (order : FadePictureOrder)
  | tintPicture (order : TintPictureOrder)
  | changePictureImage (id : UInt64) (image : String)
  | moveCharacter (order : MoveOrder)
  | turnCharacter (dir : Direction)
  | rotateCharacter (angle : Int32)
  | changeCharacter (change : CharacterChange)
  | setCharacterImage (image : CharacterImage)
  | setCharacterOpacity (change : OpacityChange)
  /-- A command that was not understood, as it stood. -/
  | unrecognized (name : String) (args : Value) (why : Misreading)

namespace Action

/-- The name on the wire. -/
def name : Action → String
  | nop => "nop"
  | leave => "return"
  | eraseEvent => "erase_event"
  | showHint => "show_hint"
  | save => "save"
  | gotoTitle => "goto_title"
  | gameClear => "game_clear"
  | syncPurchases => "sync_iap"
  | hideItem => "hide_item"
  | showInventory => "show_inventory"
  | hideInventory => "hide_inventory"
  | finishPlayerMove => "finish_player_moving_by_user_input"
  | runEventHere => "exec_event_here"
  | branch _ => "if"
  | label _ => "label"
  | jump _ => "goto"
  | callEvent _ _ => "call_event"
  | callCommonEvent _ => "call_common_event"
  | wait _ => "wait"
  | showBalloon _ => "show_balloon"
  | showMessage _ => "show_message"
  | showChoices _ => "show_choices"
  | setSwitch _ _ _ _ => "set_switch"
  | setSelfSwitch _ _ => "set_self_switch"
  | setVariable _ => "set_variable"
  | transfer _ => "transfer"
  | tintScreen _ => "tint_screen"
  | shakeScreen _ => "shake_screen"
  | weather _ => "weather"
  | changeBackground _ => "change_background"
  | changeForeground _ => "change_foreground"
  | playSound _ => "play_se"
  | playMusic _ => "play_bgm"
  | stopMusic _ => "stop_bgm"
  | autosave _ => "autosave"
  | playerControl _ => "player_control"
  | unlockAchievement _ => "unlock_achievement"
  | controlHint _ _ => "control_hint"
  | purchase _ => "start_iap"
  | showAds _ _ => "show_ads"
  | openLink _ _ => "open_link"
  | sendAnalytics _ _ => "send_analytics"
  | savePermanentVariable _ _ => "save_permanent_variable"
  | addItem _ => "add_item"
  | removeItem _ => "remove_item"
  | replaceItem _ _ => "replace_item"
  | showItem _ => "show_item"
  | showPicture _ => "show_picture"
  | erasePicture _ => "erase_picture"
  | movePicture _ => "move_picture"
  | scalePicture _ => "scale_picture"
  | rotatePicture _ => "rotate_picture"
  | fadePicture _ => "fade_picture"
  | tintPicture _ => "tint_picture"
  | changePictureImage _ _ => "change_picture_image"
  | moveCharacter _ => "move_character"
  | turnCharacter _ => "turn_character"
  | rotateCharacter _ => "rotate_character"
  | changeCharacter _ => "set_character_property"
  | setCharacterImage _ => "set_character_image"
  | setCharacterOpacity _ => "set_character_opacity"
  | unrecognized name _ _ => name

/-- Actions that only touch a character and may stand in a route. -/
def fitsRoute : Action → Bool
  | moveCharacter _ | turnCharacter _ | rotateCharacter _ | changeCharacter _
  | setCharacterImage _ | setCharacterOpacity _ | wait _ | playSound _ => true
  | _ => false

/-! ## Arguments -/

/-- Arguments made of fields, with the keys in order. -/
def fieldArgs (fields : List (String × Value)) : Value := (Value.record fields).plain

/-- The arguments on the wire. -/
def args : Action → Value
  | branch conditions => fieldArgs [("conditions", encode conditions)]
  | label name => fieldArgs [("name", encode name)]
  | jump name => fieldArgs [("name", encode name)]
  | callEvent eventId pageIndex =>
      fieldArgs [("eventId", encode eventId), ("pageIndex", encode pageIndex)]
  | callCommonEvent eventId => fieldArgs [("eventId", encode eventId)]
  | wait time => fieldArgs [("time", encode time)]
  | showBalloon order => (encode order).plain
  | showMessage order => (encode order).plain
  | showChoices order => (encode order).plain
  | setSwitch id source value internal =>
      fieldArgs [("id", encode id), ("idType", encode source), ("value", encode value),
        ("internal", encode internal)]
  | setSelfSwitch id value => fieldArgs [("id", encode id), ("value", encode value)]
  | setVariable assignment => (encode assignment).plain
  | transfer order => (encode order).plain
  | tintScreen order => (encode order).plain
  | shakeScreen order => (encode order).plain
  | weather kind => fieldArgs [("type", encode kind)]
  | changeBackground image => fieldArgs [("image", encode image)]
  | changeForeground image => fieldArgs [("image", encode image)]
  | playSound order => (encode order).plain
  | playMusic order => (encode order).plain
  | stopMusic fadeTime => fieldArgs [("fadeTime", encode fadeTime)]
  | autosave enabled => fieldArgs [("enabled", encode enabled)]
  | playerControl enabled => fieldArgs [("enabled", encode enabled)]
  | unlockAchievement id => fieldArgs [("id", encode id)]
  | controlHint id order => fieldArgs [("id", encode id), ("type", encode order)]
  | purchase productId => fieldArgs [("id", encode productId)]
  | showAds kind force => fieldArgs [("type", encode kind), ("force", encode force)]
  | openLink kind data => fieldArgs [("type", encode kind), ("data", encode data)]
  | sendAnalytics event value => fieldArgs [("event", encode event), ("value", encode value)]
  | savePermanentVariable permanentId variableId =>
      fieldArgs [("permanentVariableId", encode permanentId), ("variableId", encode variableId)]
  | addItem id => fieldArgs [("id", encode id)]
  | removeItem id => fieldArgs [("id", encode id)]
  | replaceItem id replaced => fieldArgs [("id", encode id), ("replaceIds", encode replaced)]
  | showItem id => fieldArgs [("id", encode id)]
  | showPicture order => (encode order).plain
  | erasePicture id => fieldArgs [("id", encode id)]
  | movePicture order => (encode order).plain
  | scalePicture order => (encode order).plain
  | rotatePicture order => (encode order).plain
  | fadePicture order => (encode order).plain
  | tintPicture order => (encode order).plain
  | changePictureImage id image => fieldArgs [("id", encode id), ("image", encode image)]
  | moveCharacter order => (encode order).plain
  | turnCharacter dir => fieldArgs [("dir", encode dir)]
  | rotateCharacter angle => fieldArgs [("angle", encode angle)]
  | changeCharacter change => (encode change).plain
  | setCharacterImage image => (encode image).plain
  | setCharacterOpacity change => (encode change).plain
  | unrecognized _ args _ => args
  | _ => .null

/-- Arguments with one field, which must be present. -/
def oneField? {α : Type} [Wire α] (name : String) (args : Value) : Option α := do
  let f ← Fields.read? .document [name] args
  f.required .document name

/-- Arguments with two fields, of which the second has a default. -/
def twoFields? {α β : Type} [Wire α] [Wire β] (first second : String) (default : β)
    (args : Value) : Option (α × β) := do
  let f ← Fields.read? .document [first, second] args
  return (← f.required .document first, ← f.withDefault .document second default)

/-- Arguments with two fields, which must be present. -/
def bothFields? {α β : Type} [Wire α] [Wire β] (first second : String) (args : Value) :
    Option (α × β) := do
  let f ← Fields.read? .document [first, second] args
  return (← f.required .document first, ← f.required .document second)

def switchArgs? (args : Value) : Option Action := do
  let m := Medium.document
  let f ← Fields.read? m ["id", "idType", "value", "internal"] args
  return .setSwitch (← f.required m "id") (← f.withDefault m "idType" .constant)
    (← f.required m "value") (← f.withDefault m "internal" false)

def fadeArgs? (args : Value) : Option UInt32 := do
  let f ← Fields.read? .document ["fadeTime"] args
  f.withDefault .document "fadeTime" 0

/-- What the arguments of a named action say: the name is not known, the arguments do not fit
(the inner `none`), or an action.  Actions without arguments step over whatever stands there. -/
def ofArgs (name : String) (args : Value) : Option (Option Action) :=
  match name with
  | "nop" => some (some .nop)
  | "return" => some (some .leave)
  | "erase_event" => some (some .eraseEvent)
  | "show_hint" => some (some .showHint)
  | "save" => some (some .save)
  | "goto_title" => some (some .gotoTitle)
  | "game_clear" => some (some .gameClear)
  | "sync_iap" => some (some .syncPurchases)
  | "hide_item" => some (some .hideItem)
  | "show_inventory" => some (some .showInventory)
  | "hide_inventory" => some (some .hideInventory)
  | "finish_player_moving_by_user_input" => some (some .finishPlayerMove)
  | "exec_event_here" => some (some .runEventHere)
  | "if" => some ((oneField? "conditions" args).map .branch)
  | "label" => some ((oneField? "name" args).map .label)
  | "goto" => some ((oneField? "name" args).map .jump)
  | "call_event" =>
    some ((twoFields? "eventId" "pageIndex" 0 args).map fun (e, p) => .callEvent e p)
  | "call_common_event" => some ((oneField? "eventId" args).map .callCommonEvent)
  | "wait" => some ((oneField? "time" args).map .wait)
  | "show_balloon" => some ((decode? .document args).map .showBalloon)
  | "show_message" => some ((decode? .document args).map .showMessage)
  | "show_choices" => some ((decode? .document args).map .showChoices)
  | "set_switch" => some (switchArgs? args)
  | "set_self_switch" => some ((bothFields? "id" "value" args).map fun (i, v) => .setSelfSwitch i v)
  | "set_variable" => some ((decode? .document args).map .setVariable)
  | "transfer" => some ((decode? .document args).map .transfer)
  | "tint_screen" => some ((decode? .document args).map .tintScreen)
  | "shake_screen" => some ((decode? .document args).map .shakeScreen)
  | "weather" => some ((oneField? "type" args).map .weather)
  | "change_background" => some ((oneField? "image" args).map .changeBackground)
  | "change_foreground" => some ((oneField? "image" args).map .changeForeground)
  | "play_se" => some ((decode? .document args).map .playSound)
  | "play_bgm" => some ((decode? .document args).map .playMusic)
  | "stop_bgm" => some ((fadeArgs? args).map .stopMusic)
  | "autosave" => some ((oneField? "enabled" args).map .autosave)
  | "player_control" => some ((oneField? "enabled" args).map .playerControl)
  | "unlock_achievement" => some ((oneField? "id" args).map .unlockAchievement)
  | "control_hint" => some ((bothFields? "id" "type" args).map fun (i, o) => .controlHint i o)
  | "start_iap" => some ((oneField? "id" args).map .purchase)
  | "show_ads" => some ((twoFields? "type" "force" false args).map fun (k, f) => .showAds k f)
  | "open_link" => some ((twoFields? "type" "data" "" args).map fun (k, d) => .openLink k d)
  | "send_analytics" =>
    some ((twoFields? "event" "value" "" args).map fun (e, v) => .sendAnalytics e v)
  | "save_permanent_variable" => some ((bothFields? "permanentVariableId" "variableId" args).map
      fun (p, v) => .savePermanentVariable p v)
  | "add_item" => some ((oneField? "id" args).map .addItem)
  | "remove_item" => some ((oneField? "id" args).map .removeItem)
  | "replace_item" => some ((bothFields? "id" "replaceIds" args).map fun (i, r) => .replaceItem i r)
  | "show_item" => some ((oneField? "id" args).map .showItem)
  | "show_picture" => some ((decode? .document args).map .showPicture)
  | "erase_picture" => some ((oneField? "id" args).map .erasePicture)
  | "move_picture" => some ((decode? .document args).map .movePicture)
  | "scale_picture" => some ((decode? .document args).map .scalePicture)
  | "rotate_picture" => some ((decode? .document args).map .rotatePicture)
  | "fade_picture" => some ((decode? .document args).map .fadePicture)
  | "tint_picture" => some ((decode? .document args).map .tintPicture)
  | "change_picture_image" =>
      some ((bothFields? "id" "image" args).map fun (i, n) => .changePictureImage i n)
  | "move_character" => some ((decode? .document args).map .moveCharacter)
  | "turn_character" => some ((oneField? "dir" args).map .turnCharacter)
  | "rotate_character" => some ((oneField? "angle" args).map .rotateCharacter)
  | "set_character_property" => some ((decode? .document args).map .changeCharacter)
  | "set_character_image" => some ((decode? .document args).map .setCharacterImage)
  | "set_character_opacity" => some ((decode? .document args).map .setCharacterOpacity)
  | _ => none

/-- Reads an action; every name and every arguments give one. -/
def read (name : String) (args : Value) : Action :=
  match ofArgs name args with
  | some (some action) => action
  | some none => .unrecognized name args .malformedArgs
  | none => .unrecognized name args .unknownName

end Action

end Adventure
