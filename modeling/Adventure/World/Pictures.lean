import Adventure.Script.Staging
import Adventure.World.Interpolation

/-!
# Pictures

Images laid over the room, in numbered slots; higher numbers lie on top.  Each property of a
picture changes on its own.
-/

namespace Adventure

open Wire

/-- An image over the room. -/
structure Picture where
  image : String
  x : Interpolation
  y : Interpolation
  /-- 1 is the natural size. -/
  scaleX : Interpolation
  scaleY : Interpolation
  /-- Degrees, clockwise. -/
  angle : Interpolation
  /-- From 0 to 1. -/
  opacity : Interpolation
  tint : Tint
  /-- The point of the image that stands at `x` and `y`, as shares of its size. -/
  originX : Binary64
  originY : Binary64
  blend : BlendMode
  deriving DecidableEq, Repr

/-- What a picture starts with. -/
structure PictureSpec where
  image : String
  x : Int32
  y : Int32
  originX : Binary64
  originY : Binary64
  scaleX : Int32
  scaleY : Int32
  angle : Int32
  opacity : Int32
  blend : BlendMode
  deriving DecidableEq, Repr

/-- A number brought into the range from 0 to 255. -/
def clampByte (n : Int32) : Int32 := if n < 0 then 0 else if n > 255 then 255 else n

namespace Picture

/-- A percentage as a factor. -/
def factor (percent : Int32) : Binary64 := Binary64.ofInt percent.toInt / Binary64.ofInt 100

/-- An opacity from 0 to 255 as a share; what lies outside counts as the nearer end. -/
def opacityShare (opacity : Int32) : Binary64 :=
  Binary64.ofInt (clampByte opacity).toInt / Binary64.ofInt 255

def ofSpec (spec : PictureSpec) : Picture where
  image := spec.image
  x := .rest (Binary64.ofInt spec.x.toInt)
  y := .rest (Binary64.ofInt spec.y.toInt)
  scaleX := .rest (factor spec.scaleX)
  scaleY := .rest (factor spec.scaleY)
  angle := .rest (Binary64.ofInt spec.angle.toInt)
  opacity := .rest (opacityShare spec.opacity)
  tint := default
  originX := spec.originX
  originY := spec.originY
  blend := spec.blend

def isAnimating (p : Picture) : Bool :=
  p.x.isAnimating || p.y.isAnimating || p.scaleX.isAnimating || p.scaleY.isAnimating ||
    p.angle.isAnimating || p.opacity.isAnimating || p.tint.isAnimating

def update (p : Picture) : Picture :=
  { p with
    x := p.x.update
    y := p.y.update
    scaleX := p.scaleX.update
    scaleY := p.scaleY.update
    angle := p.angle.update
    opacity := p.opacity.update
    tint := p.tint.update }

/-- Whether a point lies on the upright rectangle of the scaled image.  A picture that cannot be
seen is not there. -/
def contains (p : Picture) (px py width height : Binary64) : Bool :=
  if p.opacity.current.le .zero then false
  else
    let w := width * p.scaleX.current.abs
    let h := height * p.scaleY.current.abs
    let left := p.x.current - w * p.originX
    let top := p.y.current - h * p.originY
    left.le px && px.lt (left + w) && top.le py && py.lt (top + h)

end Picture

instance : Wire Picture where
  encode p := .record
    [("image", encode p.image), ("x", encode p.x), ("y", encode p.y), ("scaleX", encode p.scaleX),
      ("scaleY", encode p.scaleY), ("angle", encode p.angle), ("opacity", encode p.opacity),
      ("tint", encode p.tint), ("originX", encode p.originX), ("originY", encode p.originY),
      ("blendType", encode p.blend)]
  decode? m v := do
    let f ← Fields.read? m ["image", "x", "y", "scaleX", "scaleY", "angle", "opacity", "tint",
      "originX", "originY", "blendType"] v
    return {
      image := ← f.required m "image"
      x := ← f.required m "x"
      y := ← f.required m "y"
      scaleX := ← f.required m "scaleX"
      scaleY := ← f.required m "scaleY"
      angle := ← f.required m "angle"
      opacity := ← f.required m "opacity"
      tint := ← f.withDefault m "tint" default
      originX := ← f.required m "originX"
      originY := ← f.required m "originY"
      blend := ← f.withDefault m "blendType" .normal }

/-- The slots, by number. -/
structure Pictures where
  slots : List (Option Picture)
  deriving DecidableEq, Repr

namespace Pictures

instance : Inhabited Pictures := ⟨⟨[]⟩⟩

/-- The picture in a slot. -/
def get? (ps : Pictures) (id : UInt64) : Option Picture := (ps.slots[id.toNat]?).join

/-- Changes the picture in a slot; an empty slot stays empty. -/
def modify (ps : Pictures) (id : UInt64) (change : Picture → Picture) : Pictures :=
  ⟨ps.slots.modify id.toNat (Option.map change)⟩

/-- Shows a picture in a slot, making as many slots as it takes. -/
def put (ps : Pictures) (id : UInt64) (spec : PictureSpec) : Pictures :=
  let slots := ps.slots ++ List.replicate (id.toNat + 1 - ps.slots.length) none
  ⟨slots.set id.toNat (some (.ofSpec spec))⟩

def erase (ps : Pictures) (id : UInt64) : Pictures := ⟨ps.slots.set id.toNat none⟩

def moveTo (ps : Pictures) (id : UInt64) (x y : Int32) (frames : UInt32) : Pictures :=
  ps.modify id fun p => { p with
    x := p.x.setTo (Binary64.ofInt x.toInt) frames
    y := p.y.setTo (Binary64.ofInt y.toInt) frames }

def scaleTo (ps : Pictures) (id : UInt64) (scaleX scaleY : Int32) (frames : UInt32) : Pictures :=
  ps.modify id fun p => { p with
    scaleX := p.scaleX.setTo (Picture.factor scaleX) frames
    scaleY := p.scaleY.setTo (Picture.factor scaleY) frames }

def rotateTo (ps : Pictures) (id : UInt64) (angle : Int32) (frames : UInt32) : Pictures :=
  ps.modify id fun p => { p with angle := p.angle.setTo (Binary64.ofInt angle.toInt) frames }

def fadeTo (ps : Pictures) (id : UInt64) (opacity : Int32) (frames : UInt32) : Pictures :=
  ps.modify id fun p => { p with opacity := p.opacity.setTo (Picture.opacityShare opacity) frames }

def tintTo (ps : Pictures) (id : UInt64) (red green blue gray : Int32) (frames : UInt32) :
    Pictures :=
  ps.modify id fun p => { p with tint := p.tint.setTo red green blue gray frames }

def changeImage (ps : Pictures) (id : UInt64) (image : String) : Pictures :=
  ps.modify id fun p => { p with image := image }

def isAnimating (ps : Pictures) (id : UInt64) : Bool :=
  match ps.get? id with
  | some p => p.isAnimating
  | none => false

def update (ps : Pictures) : Pictures := ⟨ps.slots.map (Option.map Picture.update)⟩

/-- Whether the picture in a slot covers a point, where the size of its image is known. -/
def covers (imageSize : String → Option (UInt32 × UInt32)) (x y : Int32) : Option Picture → Bool
  | none => false
  | some p =>
    match imageSize p.image with
    | none => false
    | some (width, height) =>
      p.contains (Binary64.ofInt x.toInt) (Binary64.ofInt y.toInt) (Binary64.ofInt width.toNat)
        (Binary64.ofInt height.toNat)

/-- The topmost picture that covers a point. -/
def pictureAt? (ps : Pictures) (x y : Int32) (imageSize : String → Option (UInt32 × UInt32)) :
    Option Nat :=
  (ps.slots.zipIdx.reverse.find? fun (slot, _) => covers imageSize x y slot).map (·.2)

end Pictures

instance : Wire Pictures where
  encode ps := .record [("pictures", encode ps.slots)]
  decode? m v := do
    let f ← Fields.read? m ["pictures"] v
    return ⟨← f.withDefault m "pictures" []⟩

end Adventure
