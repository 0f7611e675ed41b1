import Adventure.Wire.Codec

/-!
# Sound

What scripts play.  Sound goes to a player that keeps the list of what it was told.
-/

namespace Adventure

open Wire

/-- The music that plays, as a save remembers it. -/
structure Music where
  name : String
  volume : Int32
  deriving DecidableEq, Repr

instance : Wire Music where
  encode m := .record [("name", encode m.name), ("volume", encode m.volume)]
  decode? m v := do
    let f ← Fields.read? m ["name", "volume"] v
    return { name := ← f.required m "name", volume := ← f.required m "volume" }

/-- What a player of sound is told. -/
inductive SoundEvent where
  | playMusic (name : String) (volume : Int32) (fadeFrames : UInt32)
  | stopMusic (fadeFrames : UInt32)
  | playEffect (name : String) (volume : Int32)
  deriving DecidableEq, Repr

namespace SoundEvent

/-- An event as a record, which its kind stands in. -/
def toValue : SoundEvent → Value
  | playMusic name volume fadeFrames => .record
      [("kind", .text "bgm_play"), ("name", encode name), ("volume", encode volume),
        ("fade_frames", encode fadeFrames)]
  | stopMusic fadeFrames => .record [("kind", .text "bgm_stop"), ("fade_frames", encode fadeFrames)]
  | playEffect name volume => .record
      [("kind", .text "se_play"), ("name", encode name), ("volume", encode volume)]

end SoundEvent

/-- A list of events as a document. -/
def soundLog (events : List SoundEvent) : Value := .list (events.map SoundEvent.toValue)

end Adventure
