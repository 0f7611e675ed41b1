import Adventure.World.Basic
import Adventure.World.Message

/-!
# Questions to the world

Answers conditions, reads operands, expands the texts of dialogue, and says which choices are shown.
-/

namespace Adventure.World

/-! ## Conditions -/

/-- The key of a self switch.  Self switches belong to the room that the player is in. -/
def selfSwitchKey (w : World) (eventId id : Int32) : SelfSwitchKey :=
  ⟨w.stage.mapId, w.stage.roomId, eventId, id⟩

/-- The right-hand side of a comparison. -/
def comparand (w : World) (value : Int64) : Comparand → Int64
  | .constant => value
  | .variable => w.memory.get (idOfValue value)
  | .variableRef => w.memory.getRef (idOfValue value)

/-- Whether a condition holds, asked for an event. -/
def meets (w : World) (project : Project) (eventId : Int32) : Condition → Bool
  | .switch id value => w.memory.switch id == value
  | .selfSwitch id value => w.memory.selfSwitch (w.selfSwitchKey eventId id) == value
  | .variable id comparison value comparand =>
    comparison.holds (w.memory.get id) (w.comparand value comparand)
  | .item id .owned => if id = 0 then !w.inventory.items.isEmpty else w.inventory.owns id
  | .item id .notOwned => if id = 0 then w.inventory.items.isEmpty else !w.inventory.owns id
  | .item id .active => if id = 0 then w.inventory.activeItem != 0 else w.inventory.activeItem == id
  | .eventAtPlayer => (w.stage.playerEventAt? project w.stage.player.position).isSome

/-- Whether all conditions hold. -/
def meetsAll (w : World) (project : Project) (eventId : Int32) (conditions : List Condition) :
    Bool :=
  conditions.all (w.meets project eventId)

/-! ## Operands -/

def boolValue (b : Bool) : Int64 := if b then 1 else 0

/-- What can be read of a character; nothing can of one that is not there. -/
def characterValue (w : World) (probe : CharacterProbe) (id : Int32) : Int64 :=
  match w.stage.character? id with
  | none => 0
  | some c =>
    match probe with
    | .direction => Int64.ofNat c.dir.index
    | .roomX => c.position.x.toInt64
    | .roomY => c.position.y.toInt64
    | .screenX => c.drawPosition.1.toInt64
    | .screenY => c.drawPosition.2.toInt64
    | .isPressed => boolValue (w.pressedTile == some c.position)

/-- How many there are, up to the greatest number of 64 bits. -/
def countValue (count : Nat) : Int64 :=
  if count < 0x8000000000000000 then .ofNat count else .maxValue

/-- The id of a picture; 0 where there is none, and where the id is no number of 63 bits. -/
def pictureValue : Option Nat → Int64
  | some id => if id < 0x8000000000000000 then .ofNat id else 0
  | none => 0

/-- What can be read of the game as a whole. -/
def systemValue (w : World) (platform : Platform) (project : Project) : SystemProbe → Int64
  | .interstitialAdsLoaded => boolValue platform.interstitialAdsLoaded
  | .rewardedAdsLoaded => boolValue platform.rewardedAdsLoaded
  | .activeHintCount => countValue w.hints.activeCount
  | .roomId => w.stage.roomId.toInt64
  | .currentTime => platform.clock
  | .activeItemId => w.inventory.activeItem.toInt64
  | .eventItemId => w.inventory.eventItem.toInt64
  | .triggeredPictureId => pictureValue w.touch.triggered
  | .pressedPictureId => pictureValue w.touch.pressed
  | .releasedPictureId => pictureValue w.touch.released
  | .sponsorTier => platform.sponsorTier project

/-- The number in a cell; what is no whole number of 64 bits counts as 0. -/
def cellValue : Option Wire.Value → Int64
  | some (.int n) => if -0x8000000000000000 ≤ n ∧ n < 0x8000000000000000 then Int64.ofInt n else 0
  | _ => 0

/-- Reads an operand, for an event.  Only a random one draws a number. -/
def operand (w : World) (platform : Platform) (project : Project) (eventId : Int32) :
    Operand → Int64 × Random
  | .constant value => (value, w.random)
  | .variable id => (w.memory.get id, w.random)
  | .variableRef id => (w.memory.getRef id, w.random)
  | .switch id => (boolValue (w.memory.switch id), w.random)
  | .switchRef id => (boolValue (w.memory.switchRef id), w.random)
  | .random first last => w.random.between first last
  | .character probe id => (w.characterValue probe (if id = selfId then eventId else id), w.random)
  | .itemGroup .owned group => (countValue (w.inventory.ownedInGroup project group), w.random)
  | .itemGroup .total group => (countValue (project.itemsInGroup group), w.random)
  | .product id =>
    (boolValue ((project.product? id).any fun x => platform.isPurchased x.key), w.random)
  | .system probe => (w.systemValue platform project probe, w.random)
  | .table name record source column =>
    let record :=
      match source with
      | .constant => record
      | .variable => w.memory.get (idOfValue record)
    (cellValue ((project.table? name).bind fun t => t.cell? record column), w.random)

/-- Carries out an assignment, for an event.  Where it cannot be computed the variable becomes 0 and
the fault is reported. -/
def assign (w : World) (platform : Platform) (project : Project) (a : Assignment)
    (eventId : Int32) :
    Option ArithmeticFault × World :=
  let id := w.memory.resolve a.source a.id
  let old := if a.internal then w.memory.getInternal id else w.memory.get id
  let (operand, random) := w.operand platform project eventId a.operand
  let (fault, value) :=
    match a.op.apply old operand with
    | .ok value => (none, value)
    | .error fault => (some fault, 0)
  let memory := if a.internal then w.memory.setInternal id value else w.memory.set id value
  (fault, { w with memory := memory, random := random })

/-! ## Texts -/

/-- The text with an id in the current language; a text that is no id stands for itself. -/
def localized (platform : Platform) (project : Project) (id : String) : String :=
  (project.texts.get? platform.language id).getD id

/-- A cell as a text. -/
def cellText (platform : Platform) (project : Project) : Wire.Value → String
  | .text s => localized platform project s
  | v => Wire.Json.compact v

/-- What the directives of a text look things up in. -/
def messageContext (w : World) (platform : Platform) (project : Project) : MessageContext where
  price := platform.price
  value := w.memory.get
  itemName? id := (project.item? id).map fun item => localized platform project item.name
  cell? table record column :=
    ((project.table? table).bind fun t => t.cell? record column).map (cellText platform project)

/-- The text that a message shows. -/
def messageText (w : World) (platform : Platform) (project : Project) (content : String) : String :=
  Message.expand (w.messageContext platform project) (localized platform project content)

/-! ## Choices -/

/-- Whether a choice is shown. -/
def isShown (w : World) (project : Project) (eventId : Int32) (order : ChoicesOrder)
    (index : Nat) : Bool :=
  ((order.conditions[index]?).bind (·.visible)).all (w.meets project eventId)

/-- Whether a choice is marked as picked before. -/
def isChecked (w : World) (project : Project) (eventId : Int32) (order : ChoicesOrder)
    (index : Nat) :
    Bool :=
  ((order.conditions[index]?).bind (·.checked)).any (w.meets project eventId)

/-- The choices that are shown, each with its text and whether it is marked. -/
def shownChoices (w : World) (platform : Platform) (project : Project) (eventId : Int32)
    (order : ChoicesOrder) : List (String × Bool) :=
  (order.choices.zipIdx.filter fun (_, index) => w.isShown project eventId order index).map
    fun (choice, index) =>
      (w.messageText platform project choice, w.isChecked project eventId order index)

/-- The choice that stands in a row, counting the shown ones. -/
def choiceInRow (w : World) (project : Project) (eventId : Int32) (order : ChoicesOrder)
    (row : Nat) : Nat :=
  if order.conditions.isEmpty then row
  else
    (((List.range order.choices.length).filter (w.isShown project eventId order))[row]?).getD row

end Adventure.World
