import Adventure.Script.Condition

/-!
# Assignments

An assignment combines a variable with an operand and stores the result in the variable.  Operands
read the world in many ways, so what stands in the `value` field depends on `valueType`.
-/

namespace Adventure

open Wire

/-- How an assignment combines the old value with the operand. -/
inductive AssignOp where
  | assign
  | add
  | sub
  | mul
  | div
  | mod
  deriving DecidableEq, Repr

instance : Enumeration AssignOp where
  cases := [.assign, .add, .sub, .mul, .div, .mod]
  label
    | .assign => "="
    | .add => "+"
    | .sub => "-"
    | .mul => "*"
    | .div => "/"
    | .mod => "%"

/-- What can be read of a character. -/
inductive CharacterProbe where
  | direction
  | roomX
  | roomY
  | screenX
  | screenY
  | isPressed
  deriving DecidableEq, Repr

instance : Enumeration CharacterProbe where
  cases := [.direction, .roomX, .roomY, .screenX, .screenY, .isPressed]
  label
    | .direction => "direction"
    | .roomX => "room_x"
    | .roomY => "room_y"
    | .screenX => "screen_x"
    | .screenY => "screen_y"
    | .isPressed => "is_pressed"

/-- What can be counted of an item group. -/
inductive GroupCount where
  | owned
  | total
  deriving DecidableEq, Repr

instance : Enumeration GroupCount where
  cases := [.owned, .total]
  label
    | .owned => "owned"
    | .total => "total"

/-- What can be read of the game as a whole. -/
inductive SystemProbe where
  | interstitialAdsLoaded
  | rewardedAdsLoaded
  | activeHintCount
  | roomId
  | currentTime
  | activeItemId
  | eventItemId
  | triggeredPictureId
  | pressedPictureId
  | releasedPictureId
  | sponsorTier
  deriving DecidableEq, Repr

instance : Enumeration SystemProbe where
  cases := [.interstitialAdsLoaded, .rewardedAdsLoaded, .activeHintCount, .roomId, .currentTime,
    .activeItemId, .eventItemId, .triggeredPictureId, .pressedPictureId, .releasedPictureId,
    .sponsorTier]
  label
    | .interstitialAdsLoaded => "interstitial_ads_loaded"
    | .rewardedAdsLoaded => "rewarded_ads_loaded"
    | .activeHintCount => "active_hint_count"
    | .roomId => "room_id"
    | .currentTime => "current_time"
    | .activeItemId => "active_item_id"
    | .eventItemId => "event_item_id"
    | .triggeredPictureId => "triggered_picture_id"
    | .pressedPictureId => "pressed_picture_id"
    | .releasedPictureId => "released_picture_id"
    | .sponsorTier => "sponsor_tier"

/-- The right-hand side of an assignment. -/
inductive Operand where
  | constant (value : Int64)
  | variable (id : Int32)
  /-- The variable whose id another variable holds. -/
  | variableRef (id : Int32)
  | switch (id : Int32)
  /-- The switch whose id a variable holds. -/
  | switchRef (id : Int32)
  /-- A random number from one bound to the other, both included. -/
  | random (first last : Int64)
  | character (probe : CharacterProbe) (eventId : Int32)
  /-- Items of a group; group 0 stands for all items. -/
  | itemGroup (count : GroupCount) (group : Int32)
  /-- Whether a product is owned. -/
  | product (id : Int32)
  | system (probe : SystemProbe)
  /-- A cell of a table; the record's id is literal or held by a variable. -/
  | table (name : String) (record : Int64) (source : Source) (column : String)
  deriving DecidableEq, Repr

/-- The kinds of operands, as `valueType` names them. -/
inductive OperandKind where
  | constant
  | variable
  | variableRef
  | switch
  | switchRef
  | random
  | character
  | itemGroup
  | product
  | system
  | table
  deriving DecidableEq, Repr

instance : Enumeration OperandKind where
  cases := [.constant, .variable, .variableRef, .switch, .switchRef, .random, .character,
    .itemGroup, .product, .system, .table]
  label
    | .constant => "constant"
    | .variable => "variable"
    | .variableRef => "variable_ref"
    | .switch => "switch"
    | .switchRef => "switch_ref"
    | .random => "random"
    | .character => "character"
    | .itemGroup => "item_group"
    | .product => "iap_product"
    | .system => "system"
    | .table => "table"

namespace Operand

def kind : Operand → OperandKind
  | .constant _ => .constant
  | .variable _ => .variable
  | .variableRef _ => .variableRef
  | .switch _ => .switch
  | .switchRef _ => .switchRef
  | .random _ _ => .random
  | .character _ _ => .character
  | .itemGroup _ _ => .itemGroup
  | .product _ => .product
  | .system _ => .system
  | .table _ _ _ _ => .table

/-- The `value` field, without the kind. -/
def encodeValue : Operand → Wire.Value
  | .constant value => encode value
  | .variable id => encode id
  | .variableRef id => encode id
  | .switch id => encode id
  | .switchRef id => encode id
  | .random first last => .record [("begin", encode first), ("end", encode last)]
  | .character probe eventId => .record [("type", encode probe), ("eventId", encode eventId)]
  | .itemGroup count group => .record [("type", encode count), ("group", encode group)]
  | .product id => encode id
  | .system probe => encode probe
  | .table name record source column => .record
      [("name", encode name), ("id", encode record), ("idType", encode source),
        ("attr", encode column)]

/-- Reads the `value` field of an operand of a kind. -/
def decodeValue? (kind : OperandKind) (v : Wire.Value) : Option Operand :=
  let m := Wire.Medium.document
  match kind with
  | .constant => (decode? m v).map .constant
  | .variable => (decode? m v).map .variable
  | .variableRef => (decode? m v).map .variableRef
  | .switch => (decode? m v).map .switch
  | .switchRef => (decode? m v).map .switchRef
  | .random => do
    let f ← Wire.Fields.read? m ["begin", "end"] v
    return .random (← f.required m "begin") (← f.required m "end")
  | .character => do
    let f ← Wire.Fields.read? m ["type", "eventId"] v
    return .character (← f.required m "type") (← f.withDefault m "eventId" 0)
  | .itemGroup => do
    let f ← Wire.Fields.read? m ["type", "group"] v
    return .itemGroup (← f.required m "type") (← f.withDefault m "group" 0)
  | .product => (decode? m v).map .product
  | .system => (decode? m v).map .system
  | .table => do
    let f ← Wire.Fields.read? m ["name", "id", "idType", "attr"] v
    return .table (← f.required m "name") (← f.required m "id")
      (← f.withDefault m "idType" .constant) (← f.required m "attr")

end Operand

/-- Combines a variable with an operand and stores the result in it. -/
structure Assignment where
  id : Int32
  /-- Whether `id` is the variable's id or names the variable that holds it. -/
  source : Source
  op : AssignOp
  operand : Operand
  /-- Whether the variable is one reserved for the host. -/
  internal : Bool
  deriving DecidableEq, Repr

instance : Wire Assignment where
  encode a := .record
    [("id", encode a.id), ("idType", encode a.source), ("op", encode a.op),
      ("valueType", encode a.operand.kind), ("value", a.operand.encodeValue.plain),
      ("internal", encode a.internal)]
  decode? m v := do
    let f ← Fields.read? m ["id", "idType", "op", "valueType", "value", "internal"] v
    let kind ← f.required m "valueType"
    let value : Wire.Value ← f.withDefault m "value" .null
    return {
      id := ← f.required m "id"
      source := ← f.withDefault m "idType" .constant
      op := ← f.required m "op"
      operand := ← Operand.decodeValue? kind value
      internal := ← f.withDefault m "internal" false }

end Adventure
