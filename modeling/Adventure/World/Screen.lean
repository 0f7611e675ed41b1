import Adventure.Script.Staging
import Adventure.World.Interpolation

/-!
# Screen effects

Tint, shake, fade and weather of the screen as a whole.
-/

namespace Adventure

open Wire

/-- Frames that a transfer takes to cover the screen, and again to uncover it. -/
def transitionFrames : UInt32 := 30

/-- What the screen fades to. -/
inductive FadeColor where
  | black
  | white
  deriving DecidableEq, Repr, Inhabited

instance : Enumeration FadeColor where
  cases := [.black, .white]
  label
    | .black => "black"
    | .white => "white"

/-- A shake: the screen swings to both sides for `count` frames and then comes to rest. -/
structure Shake where
  power : Int32
  speed : Int32
  count : UInt32
  direction : ShakeDirection
  offset : Binary64
  forward : Bool
  deriving DecidableEq, Repr

namespace Shake

instance : Inhabited Shake := ⟨⟨0, 0, 0, .horizontal, .zero, false⟩⟩

def start (s : Shake) (power speed : Int32) (count : UInt32) (direction : ShakeDirection) : Shake :=
  { s with power := power, speed := speed, count := count, direction := direction, forward := true }

def stop (s : Shake) : Shake := { s with count := 0, offset := .zero }

def isShaking (s : Shake) : Bool := s.count > 0 || !s.offset.isZero

/-- One frame later.  After the last frame it comes to rest as soon as one step would reach the
middle. -/
def update (s : Shake) : Shake :=
  if !s.isShaking then s
  else
    let amplitude := Binary64.ofInt s.power.toInt * Binary64.ofInt 2
    let delta := Binary64.ofInt (s.power * s.speed).toInt / Binary64.ofInt 10
    if s.count = 0 && (s.offset.abs.le delta || amplitude.isZero) then { s with offset := .zero }
    else
      let offset := if s.forward then s.offset + delta else s.offset - delta
      let forward :=
        if amplitude.lt offset then false
        else if offset.lt (-amplitude) then true
        else s.forward
      { s with
        offset := offset
        forward := forward
        count := if s.count = 0 then 0 else s.count - 1 }

end Shake

instance : Wire Shake where
  encode s := .record
    [("power", encode s.power), ("speed", encode s.speed), ("count", encode s.count),
      ("direction", encode s.direction), ("offset", encode s.offset), ("forward", encode s.forward)]
  decode? m v := do
    let f ← Fields.read? m ["power", "speed", "count", "direction", "offset", "forward"] v
    return {
      power := ← f.required m "power"
      speed := ← f.required m "speed"
      count := ← f.required m "count"
      direction := ← f.required m "direction"
      offset := ← f.required m "offset"
      forward := ← f.required m "forward" }

/-- The effects on the screen. -/
structure Screen where
  tint : Tint
  shake : Shake
  /-- 0 is fully visible, 1 fully covered. -/
  fade : Interpolation
  fadeColor : FadeColor
  weather : Weather
  deriving DecidableEq, Repr, Inhabited

namespace Screen

def startTint (s : Screen) (red green blue gray : Int32) (frames : UInt32) : Screen :=
  { s with tint := s.tint.setTo red green blue gray frames }

def startShaking (s : Screen) (power speed : Int32) (frames : UInt32) (direction : ShakeDirection) :
    Screen :=
  { s with shake := s.shake.start power speed frames direction }

def stopShaking (s : Screen) : Screen := { s with shake := s.shake.stop }

def setFadeColor (s : Screen) (color : FadeColor) : Screen := { s with fadeColor := color }

def fadeOut (s : Screen) (frames : UInt32) : Screen := { s with fade := s.fade.setTo .one frames }

def fadeIn (s : Screen) (frames : UInt32) : Screen := { s with fade := s.fade.setTo .zero frames }

def setWeather (s : Screen) (weather : Weather) : Screen := { s with weather := weather }

def isChangingTint (s : Screen) : Bool := s.tint.isAnimating

def isShaking (s : Screen) : Bool := s.shake.isShaking

def isFading (s : Screen) : Bool := s.fade.isAnimating

def isFadedOut (s : Screen) : Bool := !s.fade.isAnimating && Binary64.one.le s.fade.current

/-- How far the shake moves the picture, to the right and down. -/
def shakeOffset (s : Screen) : Binary64 × Binary64 :=
  match s.shake.direction with
  | .horizontal => (s.shake.offset, .zero)
  | .vertical => (.zero, s.shake.offset)

def update (s : Screen) : Screen :=
  { s with tint := s.tint.update, shake := s.shake.update, fade := s.fade.update }

end Screen

instance : Wire Screen where
  encode s := .record
    [("tint", encode s.tint), ("shake", encode s.shake), ("fade", encode s.fade),
      ("fadeColor", encode s.fadeColor), ("weather", encode s.weather)]
  decode? m v := do
    let f ← Fields.read? m ["tint", "shake", "fade", "fadeColor", "weather"] v
    return {
      tint := ← f.withDefault m "tint" default
      shake := ← f.withDefault m "shake" default
      fade := ← f.withDefault m "fade" default
      fadeColor := ← f.withDefault m "fadeColor" .black
      weather := ← f.withDefault m "weather" .none }

end Adventure
