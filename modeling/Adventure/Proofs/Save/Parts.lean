import Adventure.Platform.Sound
import Adventure.Proofs.Script.Orders
import Adventure.Proofs.Text.Numerals
import Adventure.World.Character
import Adventure.World.Hints
import Adventure.World.Inventory
import Adventure.World.Pictures
import Adventure.World.Screen
import Adventure.World.Variables
import Adventure.World.Walk
import Adventure.World.Windows

/-!
# Parts of progress come back

Everything that a save keeps, apart from scripts under way.  Numbers without a width of their own
come back if they have the width that they have on the wire.
-/

namespace Adventure

open Wire Wire.Value

variable {m : Medium}

/-! ## Switches and variables -/

theorem SelfSwitchKey.toList_text (k : SelfSwitchKey) :
    k.text.toList = (toString k.mapId.toInt).toList ++ ':' ::
      ((toString k.roomId.toInt).toList ++ ':' :: ((toString k.eventId.toInt).toList ++ ':' ::
        (toString k.id.toInt).toList)) := by
  simp [text, parts]

/-- A key of a self switch is read from its text. -/
theorem SelfSwitchKey.ofText_text (k : SelfSwitchKey) : ofText k.text = .ok k := by
  have hcolon : ∀ n : Int32, ':' ∉ (toString n.toInt).toList := fun n =>
    not_mem_toString n.toInt (by decide) (by decide)
  have hread : ∀ n : Int32, readField (toString n.toInt).toList = .ok n := by
    intro n
    rw [readField, String.ofList_toList, readInt32_toString]
  rw [ofText, toList_text, splitFields_eq_splitOn,
    List.splitOn_append_cons_self_of_not_mem (hcolon _),
    List.splitOn_append_cons_self_of_not_mem (hcolon _),
    List.splitOn_append_cons_self_of_not_mem (hcolon _), List.splitOn_eq_singleton (hcolon _)]
  simp only [hread]
  rfl

instance : FaithfulKey .packed SelfSwitchKey where
  toldKey k v h := by
    obtain rfl : v = .text k.text := h
    show (some k.text).bind (fun s => (SelfSwitchKey.ofText s).toOption) = some k
    rw [Option.bind_some, SelfSwitchKey.ofText_text]
    rfl

instance : Packable false (SortedMap SelfSwitchKey Bool) 1 :=
  ⟨fun _ => writable_encode_map (fun _ => trivial) fun e _ => Packable.writable e.2⟩

instance : Faithful .packed Variables where
  told x v h := read_record h (.refl _) (by decide) fun f hf => by
    simp [hf.withDefault "switches" x.switches .empty rfl,
      hf.withDefault "internalSwitches" x.internalSwitches .empty rfl,
      hf.withDefault "variables" x.numbers .empty rfl,
      hf.withDefault "internalVariables" x.internalNumbers .empty rfl,
      hf.withDefault "selfSwitches" x.selfSwitches .empty rfl]

instance : Packable false Variables 2 where
  writable v := writable_packed_record (by simp [writable_encode])

/-! ## Items, hints and music -/

instance : Faithful m Inventory where
  told inv v h := read_record h (.refl _) (by decide) fun f hf => by
    simp [hf.withDefault "items" inv.items [] rfl, hf.withDefault "activeItem" inv.activeItem 0 rfl,
      hf.withDefault "eventItem" inv.eventItem 0 rfl,
      hf.withDefault "combineItem" inv.combineItem 0 rfl]

instance : Packable false Inventory 2 where
  writable inv := writable_packed_record (by simp [writable_encode])

instance : Faithful m Hints where
  told x v h := read_record h (.refl _) (by decide) fun f hf => by
    simp [hf.withDefault "active" x.active [] rfl,
      hf.orElse "paused" rfl (fun _ => decodeSet?_of_retold),
      hf.orElse "completed" rfl (fun _ => decodeSet?_of_retold)]

theorem writable_encodeSet {plain : Bool} (s : SortedSet Int32) :
    (encodeSet s).Writable plain 1 := (Packable.writable s.keys : (encode s.keys).Writable plain 1)

instance : Packable false Hints 2 where
  writable h := writable_packed_record (by simp [writable_encode, writable_encodeSet])

instance : Faithful m Music where
  told x v h := read_record h (.refl _) (by decide) fun f hf => by
    simp [hf.required "name" x.name rfl, hf.required "volume" x.volume rfl]

instance : Packable false Music 1 where
  writable m := writable_packed_record (by simp [writable_encode])

theorem Music.encode_ne_null (x : Music) : encode x ≠ .null := fun h => by cases h

instance : Faithful m (Option Music) := .option Music.encode_ne_null

/-! ## Screen and pictures -/

instance : Faithful m Interpolation where
  told i v h := read_record h (.refl _) (by decide) fun f hf => by
    simp [hf.required "current" i.current rfl, hf.required "start" i.start rfl,
      hf.required "target" i.target rfl, hf.required "count" i.count rfl,
      hf.required "maxCount" i.maxCount rfl]

instance : Packable false Interpolation 1 where
  writable i := writable_packed_record (by simp [writable_encode])

instance : Faithful m Tint where
  told t v h := read_record h (.refl _) (by decide) fun f hf => by
    simp [hf.required "red" t.red rfl, hf.required "green" t.green rfl,
      hf.required "blue" t.blue rfl, hf.required "gray" t.gray rfl]

instance : Packable false Tint 2 where
  writable t := writable_packed_record (by simp [writable_encode])

instance : LawfulEnumeration FadeColor where
  ofLabel?_label a := by cases a <;> rfl

instance : Faithful m Shake where
  told s v h := read_record h (.refl _) (by decide) fun f hf => by
    simp [hf.required "power" s.power rfl, hf.required "speed" s.speed rfl,
      hf.required "count" s.count rfl, hf.required "direction" s.direction rfl,
      hf.required "offset" s.offset rfl, hf.required "forward" s.forward rfl]

instance : Packable false Shake 1 where
  writable s := writable_packed_record (by simp [writable_encode])

instance : Faithful m Screen where
  told s v h := read_record h (.refl _) (by decide) fun f hf => by
    simp [hf.withDefault "tint" s.tint default rfl, hf.withDefault "shake" s.shake default rfl,
      hf.withDefault "fade" s.fade default rfl, hf.withDefault "fadeColor" s.fadeColor .black rfl,
      hf.withDefault "weather" s.weather .none rfl]

instance : Packable false Screen 3 where
  writable s := writable_packed_record (by simp [writable_encode])

instance : Faithful m Picture where
  told p v h := read_record h (.refl _) (by decide) fun f hf => by
    simp [hf.required "image" p.image rfl, hf.required "x" p.x rfl, hf.required "y" p.y rfl,
      hf.required "scaleX" p.scaleX rfl, hf.required "scaleY" p.scaleY rfl,
      hf.required "angle" p.angle rfl, hf.required "opacity" p.opacity rfl,
      hf.withDefault "tint" p.tint default rfl, hf.required "originX" p.originX rfl,
      hf.required "originY" p.originY rfl, hf.withDefault "blendType" p.blend .normal rfl]

instance : Packable false Picture 3 where
  writable p := writable_packed_record (by simp [writable_encode])

theorem Picture.encode_ne_null (p : Picture) : encode p ≠ .null := fun h => by cases h

instance : Faithful m (Option Picture) := .option Picture.encode_ne_null

instance : Faithful m Pictures where
  told ps v h := read_record h (.refl _) (by decide) fun f hf => by
    simp [hf.withDefault "pictures" ps.slots [] rfl]

instance : Packable false Pictures 5 where
  writable ps := writable_packed_record (by simp [writable_encode])

/-! ## Characters and walks -/

instance : LawfulEnumeration Priority where
  ofLabel?_label a := by cases a <;> rfl

/-- A speed comes back, whatever stands for a level out of range. -/
theorem speedOr?_of_retold {default s : Speed} {v : Value} (h : (encode s).Retold v) :
    speedOr? default m v = some s := by
  rw [speedOr?, decode?_level h]
  cases s <;> rfl

instance : Faithful m Character where
  told c v h := read_record h (.refl _) (by decide) fun f hf => by
    simp [hf.required "eventId" c.eventId rfl,
      hf.orElse "speed" rfl (fun _ => speedOr?_of_retold),
      hf.required "imageName" c.imageName rfl, hf.required "imageIndex" c.imageIndex rfl,
      hf.required "dir" c.dir rfl, hf.required "dirFix" c.dirFix rfl,
      hf.required "stepping" c.stepping rfl, hf.required "steppingCount" c.steppingCount rfl,
      hf.required "walking" c.walking rfl, hf.required "walkingCount" c.walkingCount rfl,
      hf.required "frame" c.frame rfl, hf.required "prevFrame" c.prevFrame rfl,
      hf.required "x" c.x rfl, hf.required "y" c.y rfl, hf.required "moveCount" c.moveCount rfl,
      hf.required "moveDir" c.moveDir rfl, hf.required "visible" c.visible rfl,
      hf.required "through" c.passesThrough rfl, hf.required "erased" c.erased rfl,
      hf.withDefault "priority" c.priority .same rfl, hf.required "opacity" c.opacity rfl]

instance : Packable false Character 2 where
  writable c := writable_packed_record (by simp [writable_encode])

instance : Faithful m Walk where
  told w v h := read_record h (.refl _) (by decide) fun f hf => by
    simp [hf.required "mapId" w.mapId rfl, hf.required "roomId" w.roomId rfl,
      hf.required "eventId" w.eventId rfl, hf.required "args" w.order rfl,
      hf.required "routeSkip" w.skip rfl, hf.required "distanceCount" w.stepsLeft rfl,
      hf.withDefault "path" w.path [] rfl, hf.required "waiting" w.stepping rfl,
      hf.required "terminated" w.finished rfl]

instance : Packable false Walk 2 where
  writable w := writable_packed_record (by simp [writable_encode])

theorem Walk.encode_ne_null (w : Walk) : encode w ≠ .null := fun h => by cases h

instance : Faithful m (Option Walk) := .option Walk.encode_ne_null

end Adventure
