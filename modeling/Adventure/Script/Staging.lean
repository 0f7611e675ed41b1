import Adventure.Script.Condition

/-!
# Staging

What scripts show and play: dialogue, choices, screen effects, pictures and sound.
-/

namespace Adventure

open Wire

/-! ## Dialogue -/

inductive BalloonStyle where
  | normal
  | think
  | shout
  deriving DecidableEq, Repr, Inhabited

instance : Enumeration BalloonStyle where
  cases := [.normal, .think, .shout]
  label
    | .normal => "normal"
    | .think => "think"
    | .shout => "shout"

/-- A speech bubble over a character. -/
structure BalloonOrder where
  eventId : Int32
  content : String
  style : BalloonStyle
  deriving DecidableEq, Repr

instance : Wire BalloonOrder where
  encode o := .record
    [("eventId", encode o.eventId), ("content", encode o.content), ("balloonType", encode o.style)]
  decode? m v := do
    let f ← Fields.read? m ["eventId", "content", "balloonType"] v
    return {
      eventId := ← f.withDefault m "eventId" 0
      content := ← f.required m "content"
      style := ← f.withDefault m "balloonType" .normal }

inductive MessageBackground where
  | dim
  | transparent
  | banner
  deriving DecidableEq, Repr, Inhabited

instance : Enumeration MessageBackground where
  cases := [.dim, .transparent, .banner]
  label
    | .dim => "dim"
    | .transparent => "transparent"
    | .banner => "banner"

inductive MessagePosition where
  | bottom
  | middle
  | top
  | auto
  deriving DecidableEq, Repr, Inhabited

instance : Enumeration MessagePosition where
  cases := [.bottom, .middle, .top, .auto]
  label
    | .bottom => "bottom"
    | .middle => "middle"
    | .top => "top"
    | .auto => "auto"

inductive TextAlign where
  | left
  | center
  | right
  deriving DecidableEq, Repr, Inhabited

instance : Enumeration TextAlign where
  cases := [.left, .center, .right]
  label
    | .left => "left"
    | .center => "center"
    | .right => "right"

/-- A message window. -/
structure MessageOrder where
  content : String
  background : MessageBackground
  position : MessagePosition
  align : TextAlign
  styleId : Int32
  deriving DecidableEq, Repr

instance : Wire MessageOrder where
  encode o := .record
    [("content", encode o.content), ("background", encode o.background),
      ("positionType", encode o.position), ("textAlign", encode o.align),
      ("messageStyleId", encode o.styleId)]
  decode? m v := do
    let f ← Fields.read? m
      ["content", "background", "positionType", "textAlign", "messageStyleId"] v
    return {
      content := ← f.required m "content"
      background := ← f.withDefault m "background" .dim
      position := ← f.withDefault m "positionType" .bottom
      align := ← f.withDefault m "textAlign" .left
      styleId := ← f.withDefault m "messageStyleId" 0 }

/-- A list of choices, with conditions for the first of them. -/
structure ChoicesOrder where
  choices : List String
  conditions : List ChoiceCondition
  deriving DecidableEq, Repr

instance : Wire ChoicesOrder where
  encode o := .record (("choices", encode o.choices) ::
    if o.conditions.isEmpty then [] else [("conditions", encode o.conditions)])
  decode? m v := do
    let f ← Fields.read? m ["choices", "conditions"] v
    return { choices := ← f.required m "choices", conditions := ← f.withDefault m "conditions" [] }

/-! ## Going elsewhere -/

/-- What covers the screen during a transfer. -/
inductive Transition where
  | none
  | black
  | white
  deriving DecidableEq, Repr, Inhabited

instance : Enumeration Transition where
  cases := [.none, .black, .white]
  label
    | .none => "none"
    | .black => "black"
    | .white => "white"

/-- Takes the player to a place in another room of the map. -/
structure TransferOrder where
  /-- Whether room and coordinates are meant literally or name variables. -/
  source : Source
  roomId : Int32
  x : Int32
  y : Int32
  dir : Option Direction
  transition : Transition
  deriving DecidableEq, Repr

instance : Wire TransferOrder where
  encode o := .record
    ([("valueType", encode o.source), ("roomId", encode o.roomId), ("x", encode o.x),
      ("y", encode o.y)] ++ unlessNull "dir" (encode o.dir) ++
      [("transition", encode o.transition)])
  decode? m v := do
    let f ← Fields.read? m ["valueType", "roomId", "x", "y", "dir", "transition"] v
    return {
      source := ← f.withDefault m "valueType" .constant
      roomId := ← f.required m "roomId"
      x := ← f.required m "x"
      y := ← f.required m "y"
      dir := ← f.withDefault m "dir" .none
      transition := ← f.withDefault m "transition" .none }

/-! ## Screen -/

/-- A colour change over some frames. -/
structure TintOrder where
  red : Int32
  green : Int32
  blue : Int32
  gray : Int32
  time : UInt32
  wait : Bool
  deriving DecidableEq, Repr

instance : Wire TintOrder where
  encode o := .record
    [("red", encode o.red), ("green", encode o.green), ("blue", encode o.blue),
      ("gray", encode o.gray), ("time", encode o.time), ("wait", encode o.wait)]
  decode? m v := do
    let f ← Fields.read? m ["red", "green", "blue", "gray", "time", "wait"] v
    return {
      red := ← f.required m "red"
      green := ← f.required m "green"
      blue := ← f.required m "blue"
      gray := ← f.required m "gray"
      time := ← f.required m "time"
      wait := ← f.withDefault m "wait" false }

inductive ShakeDirection where
  | horizontal
  | vertical
  deriving DecidableEq, Repr, Inhabited

instance : Enumeration ShakeDirection where
  cases := [.horizontal, .vertical]
  label
    | .horizontal => "horizontal"
    | .vertical => "vertical"

structure ShakeOrder where
  power : Int32
  speed : Int32
  time : UInt32
  wait : Bool
  direction : ShakeDirection
  deriving DecidableEq, Repr

instance : Wire ShakeOrder where
  encode o := .record
    [("power", encode o.power), ("speed", encode o.speed), ("time", encode o.time),
      ("wait", encode o.wait), ("direction", encode o.direction)]
  decode? m v := do
    let f ← Fields.read? m ["power", "speed", "time", "wait", "direction"] v
    return {
      power := ← f.required m "power"
      speed := ← f.required m "speed"
      time := ← f.required m "time"
      wait := ← f.withDefault m "wait" false
      direction := ← f.withDefault m "direction" .horizontal }

inductive Weather where
  | none
  | snow
  | rain
  deriving DecidableEq, Repr, Inhabited

instance : Enumeration Weather where
  cases := [.none, .snow, .rain]
  label
    | .none => "none"
    | .snow => "snow"
    | .rain => "rain"

/-! ## Pictures -/

inductive BlendMode where
  | normal
  | add
  deriving DecidableEq, Repr, Inhabited

instance : Enumeration BlendMode where
  cases := [.normal, .add]
  label
    | .normal => "normal"
    | .add => "add"

/-- Shows a picture in a slot. -/
structure PictureOrder where
  id : UInt64
  image : String
  originX : Binary64
  originY : Binary64
  x : Int32
  y : Int32
  /-- Whether `x` and `y` are meant literally or name variables. -/
  source : Source
  /-- Percent of the natural size. -/
  scaleX : Int32
  scaleY : Int32
  angle : Int32
  /-- From 0 to 255. -/
  opacity : Int32
  blend : BlendMode
  deriving DecidableEq, Repr

/-- Half of the image's size. -/
def PictureOrder.centred : Binary64 := ⟨0x3fe0000000000000⟩

instance : Wire PictureOrder where
  encode o := .record
    [("id", encode o.id), ("image", encode o.image), ("originX", encode o.originX),
      ("originY", encode o.originY), ("x", encode o.x), ("y", encode o.y),
      ("posValueType", encode o.source), ("scaleX", encode o.scaleX), ("scaleY", encode o.scaleY),
      ("angle", encode o.angle), ("opacity", encode o.opacity), ("blendType", encode o.blend)]
  decode? m v := do
    let f ← Fields.read? m ["id", "image", "originX", "originY", "x", "y", "posValueType", "scaleX",
      "scaleY", "angle", "opacity", "blendType"] v
    return {
      id := ← f.required m "id"
      image := ← f.required m "image"
      originX := ← f.withDefault m "originX" PictureOrder.centred
      originY := ← f.withDefault m "originY" PictureOrder.centred
      x := ← f.required m "x"
      y := ← f.required m "y"
      source := ← f.withDefault m "posValueType" .constant
      scaleX := ← f.withDefault m "scaleX" 100
      scaleY := ← f.withDefault m "scaleY" 100
      angle := ← f.withDefault m "angle" 0
      opacity := ← f.withDefault m "opacity" 255
      blend := ← f.withDefault m "blendType" .normal }

structure MovePictureOrder where
  id : UInt64
  x : Int32
  y : Int32
  source : Source
  time : UInt32
  wait : Bool
  deriving DecidableEq, Repr

instance : Wire MovePictureOrder where
  encode o := .record
    [("id", encode o.id), ("x", encode o.x), ("y", encode o.y), ("posValueType", encode o.source),
      ("time", encode o.time), ("wait", encode o.wait)]
  decode? m v := do
    let f ← Fields.read? m ["id", "x", "y", "posValueType", "time", "wait"] v
    return {
      id := ← f.required m "id"
      x := ← f.required m "x"
      y := ← f.required m "y"
      source := ← f.withDefault m "posValueType" .constant
      time := ← f.required m "time"
      wait := ← f.withDefault m "wait" false }

structure ScalePictureOrder where
  id : UInt64
  scaleX : Int32
  scaleY : Int32
  time : UInt32
  wait : Bool
  deriving DecidableEq, Repr

instance : Wire ScalePictureOrder where
  encode o := .record
    [("id", encode o.id), ("scaleX", encode o.scaleX), ("scaleY", encode o.scaleY),
      ("time", encode o.time), ("wait", encode o.wait)]
  decode? m v := do
    let f ← Fields.read? m ["id", "scaleX", "scaleY", "time", "wait"] v
    return {
      id := ← f.required m "id"
      scaleX := ← f.required m "scaleX"
      scaleY := ← f.required m "scaleY"
      time := ← f.required m "time"
      wait := ← f.withDefault m "wait" false }

structure RotatePictureOrder where
  id : UInt64
  angle : Int32
  time : UInt32
  wait : Bool
  deriving DecidableEq, Repr

instance : Wire RotatePictureOrder where
  encode o := .record
    [("id", encode o.id), ("angle", encode o.angle), ("time", encode o.time),
      ("wait", encode o.wait)]
  decode? m v := do
    let f ← Fields.read? m ["id", "angle", "time", "wait"] v
    return {
      id := ← f.required m "id"
      angle := ← f.required m "angle"
      time := ← f.required m "time"
      wait := ← f.withDefault m "wait" false }

structure FadePictureOrder where
  id : UInt64
  opacity : Int32
  time : UInt32
  wait : Bool
  deriving DecidableEq, Repr

instance : Wire FadePictureOrder where
  encode o := .record
    [("id", encode o.id), ("opacity", encode o.opacity), ("time", encode o.time),
      ("wait", encode o.wait)]
  decode? m v := do
    let f ← Fields.read? m ["id", "opacity", "time", "wait"] v
    return {
      id := ← f.required m "id"
      opacity := ← f.required m "opacity"
      time := ← f.required m "time"
      wait := ← f.withDefault m "wait" false }

structure TintPictureOrder where
  id : UInt64
  tint : TintOrder
  deriving DecidableEq, Repr

instance : Wire TintPictureOrder where
  encode o := .record
    [("id", encode o.id), ("red", encode o.tint.red), ("green", encode o.tint.green),
      ("blue", encode o.tint.blue), ("gray", encode o.tint.gray), ("time", encode o.tint.time),
      ("wait", encode o.tint.wait)]
  decode? m v := do
    let f ← Fields.read? m ["id", "red", "green", "blue", "gray", "time", "wait"] v
    return {
      id := ← f.required m "id"
      tint := {
        red := ← f.required m "red"
        green := ← f.required m "green"
        blue := ← f.required m "blue"
        gray := ← f.required m "gray"
        time := ← f.required m "time"
        wait := ← f.withDefault m "wait" false } }

/-! ## Sound -/

/-- The volume of sounds that name none. -/
def fullVolume : Int32 := 100

structure SoundOrder where
  name : String
  volume : Int32
  deriving DecidableEq, Repr

instance : Wire SoundOrder where
  encode o := .record [("name", encode o.name), ("volume", encode o.volume)]
  decode? m v := do
    let f ← Fields.read? m ["name", "volume"] v
    return { name := ← f.required m "name", volume := ← f.withDefault m "volume" fullVolume }

structure MusicOrder where
  name : String
  volume : Int32
  fadeTime : UInt32
  deriving DecidableEq, Repr

instance : Wire MusicOrder where
  encode o := .record
    [("name", encode o.name), ("volume", encode o.volume), ("fadeTime", encode o.fadeTime)]
  decode? m v := do
    let f ← Fields.read? m ["name", "volume", "fadeTime"] v
    return {
      name := ← f.required m "name"
      volume := ← f.withDefault m "volume" fullVolume
      fadeTime := ← f.withDefault m "fadeTime" 0 }

/-! ## Platform -/

inductive HintOrder where
  | pause
  | start
  | complete
  deriving DecidableEq, Repr

instance : Enumeration HintOrder where
  cases := [.pause, .start, .complete]
  label
    | .pause => "pause"
    | .start => "start"
    | .complete => "complete"

inductive AdKind where
  | rewarded
  | interstitial
  deriving DecidableEq, Repr

instance : Enumeration AdKind where
  cases := [.rewarded, .interstitial]
  label
    | .rewarded => "rewarded"
    | .interstitial => "interstitial"

end Adventure
