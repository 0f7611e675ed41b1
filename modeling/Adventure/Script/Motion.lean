import Adventure.Geometry

/-!
# Motion and appearance of characters

What scripts may ask of a character: to walk, and to change one of its properties.
-/

namespace Adventure

open Wire

/-- Where a move goes. -/
inductive MoveKind where
  /-- A given direction. -/
  | direction
  /-- A given tile. -/
  | target
  | forward
  | backward
  /-- Toward the player. -/
  | toward
  /-- Away from the player. -/
  | against
  | random
  deriving DecidableEq, Repr

instance : Enumeration MoveKind where
  cases := [.direction, .target, .forward, .backward, .toward, .against, .random]
  label
    | .direction => "direction"
    | .target => "target"
    | .forward => "forward"
    | .backward => "backward"
    | .toward => "toward"
    | .against => "against"
    | .random => "random"

/-- A move of several tiles.  Only the fields that the kind uses matter. -/
structure MoveOrder where
  kind : MoveKind
  dir : Direction
  distance : UInt32
  x : Int32
  y : Int32
  /-- Whether `x` and `y` are coordinates or name the variables that hold them. -/
  source : Source
  /-- Whether a way is planned through other characters. -/
  ignoreCharacters : Bool
  deriving DecidableEq, Repr

instance : Wire MoveOrder where
  encode o := .record
    [("type", encode o.kind), ("dir", encode o.dir), ("distance", encode o.distance),
      ("x", encode o.x), ("y", encode o.y), ("valueType", encode o.source),
      ("ignoreCharacters", encode o.ignoreCharacters)]
  decode? m v := do
    let f ← Fields.read? m ["type", "dir", "distance", "x", "y", "valueType", "ignoreCharacters"] v
    return {
      kind := ← f.required m "type"
      dir := ← f.withDefault m "dir" .down
      distance := ← f.withDefault m "distance" 1
      x := ← f.withDefault m "x" 0
      y := ← f.withDefault m "y" 0
      source := ← f.withDefault m "valueType" .constant
      ignoreCharacters := ← f.withDefault m "ignoreCharacters" false }

/-- A change of one property of a character. -/
inductive CharacterChange where
  | visibility (on : Bool)
  | dirFix (on : Bool)
  | stepping (on : Bool)
  | through (on : Bool)
  | walking (on : Bool)
  | speed (speed : Speed)
  deriving DecidableEq, Repr

/-- The properties that can be changed. -/
inductive CharacterProperty where
  | visibility
  | dirFix
  | stepping
  | through
  | walking
  | speed
  deriving DecidableEq, Repr

instance : Enumeration CharacterProperty where
  cases := [.visibility, .dirFix, .stepping, .through, .walking, .speed]
  label
    | .visibility => "visibility"
    | .dirFix => "dir_fix"
    | .stepping => "stepping"
    | .through => "through"
    | .walking => "walking"
    | .speed => "speed"

namespace CharacterChange

def property : CharacterChange → CharacterProperty
  | visibility _ => .visibility
  | dirFix _ => .dirFix
  | stepping _ => .stepping
  | through _ => .through
  | walking _ => .walking
  | speed _ => .speed

def encodeValue : CharacterChange → Value
  | visibility on | dirFix on | stepping on | through on | walking on => encode on
  | speed s => encode s

def decodeValue? (property : CharacterProperty) (v : Value) : Option CharacterChange :=
  match property with
  | .visibility => (decode? .document v).map visibility
  | .dirFix => (decode? .document v).map dirFix
  | .stepping => (decode? .document v).map stepping
  | .through => (decode? .document v).map through
  | .walking => (decode? .document v).map walking
  | .speed => (decode? .document v).map speed

end CharacterChange

instance : Wire CharacterChange where
  encode c := .record [("type", encode c.property), ("value", c.encodeValue)]
  decode? m v := do
    let f ← Fields.read? m ["type", "value"] v
    let value : Value ← f.required m "value"
    CharacterChange.decodeValue? (← f.required m "type") value

/-- A new picture for a character. -/
structure CharacterImage where
  image : String
  index : Int32
  frame : Int32
  dir : Direction
  /-- Whether the frame and direction are taken over as well. -/
  useFrameAndDir : Bool
  deriving DecidableEq, Repr

instance : Wire CharacterImage where
  encode c := .record
    [("image", encode c.image), ("imageIndex", encode c.index), ("frame", encode c.frame),
      ("dir", encode c.dir), ("useFrameAndDir", encode c.useFrameAndDir)]
  decode? m v := do
    let f ← Fields.read? m ["image", "imageIndex", "frame", "dir", "useFrameAndDir"] v
    return {
      image := ← f.required m "image"
      index := ← f.withDefault m "imageIndex" 0
      frame := ← f.withDefault m "frame" 0
      dir := ← f.withDefault m "dir" .down
      useFrameAndDir := ← f.withDefault m "useFrameAndDir" false }

/-- A change of opacity over some frames. -/
structure OpacityChange where
  opacity : Int32
  time : UInt32
  wait : Bool
  deriving DecidableEq, Repr

instance : Wire OpacityChange where
  encode c :=
    .record [("opacity", encode c.opacity), ("time", encode c.time), ("wait", encode c.wait)]
  decode? m v := do
    let f ← Fields.read? m ["opacity", "time", "wait"] v
    return {
      opacity := ← f.required m "opacity"
      time := ← f.withDefault m "time" 0
      wait := ← f.withDefault m "wait" false }

end Adventure
