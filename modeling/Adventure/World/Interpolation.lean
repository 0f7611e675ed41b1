import Adventure.Wire.Codec

/-!
# Gradual changes

An `Interpolation` is a number on its way to a target over a fixed count of frames.  It holds all
that its course depends on, so one that is saved half way goes on from there.  A `Tint` is four of
them.
-/

namespace Adventure

open Wire

/-- A number on its way from `start` to `target`; `count` of `maxCount` frames are left. -/
structure Interpolation where
  current : Binary64
  start : Binary64
  target : Binary64
  count : UInt32
  maxCount : UInt32
  deriving DecidableEq, Repr

namespace Interpolation

/-- At rest. -/
def rest (value : Binary64) : Interpolation := ⟨value, value, value, 0, 0⟩

instance : Inhabited Interpolation := ⟨rest .zero⟩

/-- Sets out for a target; without frames it is there at once. -/
def setTo (i : Interpolation) (target : Binary64) (frames : UInt32) : Interpolation :=
  if frames = 0 then rest target
  else { i with start := i.current, target := target, count := frames, maxCount := frames }

/-- One frame later.  The last frame lands on the target exactly. -/
def update (i : Interpolation) : Interpolation :=
  if i.count = 0 then i
  else
    let count := i.count - 1
    if count = 0 then { i with count := count, current := i.target }
    else
      let left := Binary64.ofInt count.toNat / Binary64.ofInt i.maxCount.toNat
      { i with count := count, current := i.target - (i.target - i.start) * left }

def isAnimating (i : Interpolation) : Bool := i.count > 0

end Interpolation

instance : Wire Interpolation where
  encode i := .record
    [("current", encode i.current), ("start", encode i.start), ("target", encode i.target),
      ("count", encode i.count), ("maxCount", encode i.maxCount)]
  decode? m v := do
    let f ← Fields.read? m ["current", "start", "target", "count", "maxCount"] v
    return {
      current := ← f.required m "current"
      start := ← f.required m "start"
      target := ← f.required m "target"
      count := ← f.required m "count"
      maxCount := ← f.required m "maxCount" }

/-- A colour laid over the screen or a picture. -/
structure Tint where
  red : Interpolation
  green : Interpolation
  blue : Interpolation
  gray : Interpolation
  deriving DecidableEq, Repr, Inhabited

namespace Tint

/-- A colour component from 0 to 255 as a share. -/
def share (component : Int32) : Binary64 := Binary64.ofInt component.toInt / Binary64.ofInt 255

def setTo (t : Tint) (red green blue gray : Int32) (frames : UInt32) : Tint where
  red := t.red.setTo (share red) frames
  green := t.green.setTo (share green) frames
  blue := t.blue.setTo (share blue) frames
  gray := t.gray.setTo (share gray) frames

def update (t : Tint) : Tint := ⟨t.red.update, t.green.update, t.blue.update, t.gray.update⟩

def isAnimating (t : Tint) : Bool :=
  t.red.isAnimating || t.green.isAnimating || t.blue.isAnimating || t.gray.isAnimating

/-- Whether nothing of it shows. -/
def isZero (t : Tint) : Bool :=
  t.red.current.isZero && t.green.current.isZero && t.blue.current.isZero && t.gray.current.isZero

end Tint

instance : Wire Tint where
  encode t := .record
    [("red", encode t.red), ("green", encode t.green), ("blue", encode t.blue),
      ("gray", encode t.gray)]
  decode? m v := do
    let f ← Fields.read? m ["red", "green", "blue", "gray"] v
    return {
      red := ← f.required m "red"
      green := ← f.required m "green"
      blue := ← f.required m "blue"
      gray := ← f.required m "gray" }

end Adventure
