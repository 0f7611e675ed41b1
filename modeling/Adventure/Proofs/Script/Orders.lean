import Adventure.Proofs.Number.Finite
import Adventure.Proofs.Wire.Bounded
import Adventure.Script.Action

/-!
# Orders come back

What scripts ask for is read from whatever comes back of it, and can be brought into plain form.
-/

namespace Adventure

open Wire Wire.Value

variable {m : Medium} {plain : Bool}

/-! ## Conditions -/

instance : LawfulEnumeration Comparison where
  ofLabel?_label a := by cases a <;> rfl

instance : LawfulEnumeration Comparand where
  ofLabel?_label a := by cases a <;> rfl

instance : LawfulEnumeration ItemQuestion where
  ofLabel?_label a := by cases a <;> rfl

instance : LawfulEnumeration Condition.Special where
  ofLabel?_label a := by cases a; rfl

theorem Condition.encode_ne_null (c : Condition) : encode c ≠ .null := by
  cases c <;> exact fun h => by cases h

instance : Faithful m Condition where
  told c v h := by
    rcases c with
      ⟨id, value⟩ | ⟨id, value⟩ | ⟨id, comparison, value, comparand⟩ | ⟨id, question⟩ | _
    · refine read_tagged h (by decide) (by simp) fun v' hv' => ?_
      exact read_record hv' (.refl _) (by decide) fun f hf => by
        simp [hf.required "id" id rfl, hf.required "value" value rfl]
    · refine read_tagged h (by decide) (by simp) fun v' hv' => ?_
      exact read_record hv' (.refl _) (by decide) fun f hf => by
        simp [hf.required "id" id rfl, hf.required "value" value rfl]
    · refine read_tagged h (by decide) (by simp) fun v' hv' => ?_
      exact read_record hv' (.refl _) (by decide) fun f hf => by
        simp [hf.required "id" id rfl, hf.required "comp" comparison rfl,
          hf.required "value" value rfl, hf.withDefault "valueType" comparand .constant rfl]
    · refine read_tagged h (by decide) (by simp) fun v' hv' => ?_
      exact read_record hv' (.refl _) (by decide) fun f hf => by
        simp [hf.withDefault "id" id 0 rfl, hf.required "value" question rfl]
    · refine read_tagged h (by decide) (by simp) fun v' hv' => ?_
      exact read_record hv' (.refl _) (by decide) fun f hf => by
        simp [hf.required "value" Condition.Special.eventExistsAtPlayer rfl]

instance : Packable plain Condition 1 where
  writable c := by
    cases c <;> exact writable_record (by simp) (by simp [Writable, writable_encode])

instance : Faithful m (Option Condition) := .option Condition.encode_ne_null

@[simp] theorem unlessNull_condition (name : String) (o : Option Condition) :
    unlessNull name (encode o) = o.toList.map fun c => (name, encode c) :=
  unlessNull_option name o Condition.encode_ne_null

instance : Faithful m ChoiceCondition where
  told c v h := by
    obtain ⟨visible, checked⟩ := c
    change (Value.record (unlessNull "visible" (encode visible) ++
      unlessNull "checked" (encode checked))).Retold v at h
    rw [unlessNull_condition, unlessNull_condition] at h
    cases visible with
    | none =>
      cases checked with
      | none =>
        exact read_record h (List.nil_sublist _) (by decide) fun f hf => by
          simp [hf.leftOut "visible" _ (by simp), hf.leftOut "checked" _ (by simp)]
      | some c =>
        exact read_record h (.cons _ (.refl _)) (by decide) fun f hf => by
          simp [hf.leftOut "visible" _ (by simp), hf.withDefault "checked" (some c) none rfl]
    | some c =>
      cases checked with
      | none =>
        exact read_record h (.cons_cons _ (List.nil_sublist _)) (by decide) fun f hf => by
          simp [hf.withDefault "visible" (some c) none rfl, hf.leftOut "checked" _ (by simp)]
      | some c' =>
        exact read_record h (.refl _) (by decide) fun f hf => by
          simp [hf.withDefault "visible" (some c) none rfl,
            hf.withDefault "checked" (some c') none rfl]

instance : Packable plain ChoiceCondition 2 where
  writable c := by
    obtain ⟨visible, checked⟩ := c
    show (Value.record (unlessNull "visible" (encode visible) ++
      unlessNull "checked" (encode checked))).Writable plain 2
    rw [unlessNull_condition, unlessNull_condition]
    cases visible <;> cases checked <;>
      exact writable_record (by simp) (by simp [writable_encode])

/-! ## Staging -/

instance : LawfulEnumeration BalloonStyle where
  ofLabel?_label a := by cases a <;> rfl

instance : LawfulEnumeration MessageBackground where
  ofLabel?_label a := by cases a <;> rfl

instance : LawfulEnumeration MessagePosition where
  ofLabel?_label a := by cases a <;> rfl

instance : LawfulEnumeration TextAlign where
  ofLabel?_label a := by cases a <;> rfl

instance : LawfulEnumeration Transition where
  ofLabel?_label a := by cases a <;> rfl

instance : LawfulEnumeration ShakeDirection where
  ofLabel?_label a := by cases a <;> rfl

instance : LawfulEnumeration Weather where
  ofLabel?_label a := by cases a <;> rfl

instance : LawfulEnumeration BlendMode where
  ofLabel?_label a := by cases a <;> rfl

instance : LawfulEnumeration HintOrder where
  ofLabel?_label a := by cases a <;> rfl

instance : LawfulEnumeration AdKind where
  ofLabel?_label a := by cases a <;> rfl

instance : Faithful m BalloonOrder where
  told o v h := read_record h (.refl _) (by decide) fun f hf => by
    simp [hf.withDefault "eventId" o.eventId 0 rfl, hf.required "content" o.content rfl,
      hf.withDefault "balloonType" o.style .normal rfl]

instance : Packable plain BalloonOrder 1 where
  writable o := writable_record (by simp) (by simp [writable_encode])

instance : Faithful m MessageOrder where
  told o v h := read_record h (.refl _) (by decide) fun f hf => by
    simp [hf.required "content" o.content rfl, hf.withDefault "background" o.background .dim rfl,
      hf.withDefault "positionType" o.position .bottom rfl,
      hf.withDefault "textAlign" o.align .left rfl, hf.withDefault "messageStyleId" o.styleId 0 rfl]

instance : Packable plain MessageOrder 1 where
  writable o := writable_record (by simp) (by simp [writable_encode])

instance : Faithful m ChoicesOrder where
  told o v h := by
    obtain ⟨choices, conditions⟩ := o
    cases conditions with
    | nil =>
      exact read_record h (.cons_cons _ (List.nil_sublist _)) (by decide) fun f hf => by
        simp [hf.required "choices" choices rfl, hf.leftOut "conditions" _ (by simp)]
    | cons c rest =>
      exact read_record h (.refl _) (by decide) fun f hf => by
        simp [hf.required "choices" choices rfl, hf.withDefault "conditions" (c :: rest) [] rfl]

instance : Packable plain ChoicesOrder 4 where
  writable o := by
    obtain ⟨choices, conditions⟩ := o
    cases conditions <;> exact writable_record (by simp) (by simp [writable_encode])

theorem Direction.encode_ne_null (d : Direction) : encode d ≠ .null := fun h => by cases h

@[simp] theorem unlessNull_direction (name : String) (o : Option Direction) :
    unlessNull name (encode o) = o.toList.map fun d => (name, encode d) :=
  unlessNull_option name o Direction.encode_ne_null

instance : Faithful m (Option Direction) := .option Direction.encode_ne_null

instance : Faithful m TransferOrder where
  told o v h := by
    obtain ⟨source, roomId, x, y, dir, transition⟩ := o
    cases dir with
    | none =>
      exact read_record h (.cons_cons _ (.cons_cons _ (.cons_cons _ (.cons_cons _ (.cons _
        (.refl _)))))) (by decide) fun f hf => by
          simp [hf.withDefault "valueType" source .constant rfl, hf.required "roomId" roomId rfl,
            hf.required "x" x rfl, hf.required "y" y rfl, hf.leftOut "dir" _ (by simp),
            hf.withDefault "transition" transition .none rfl]
    | some d =>
      exact read_record h (.refl _) (by decide) fun f hf => by
        simp [hf.withDefault "valueType" source .constant rfl, hf.required "roomId" roomId rfl,
          hf.required "x" x rfl, hf.required "y" y rfl, hf.withDefault "dir" (some d) none rfl,
          hf.withDefault "transition" transition .none rfl]

instance : Packable plain TransferOrder 1 where
  writable o := by
    obtain ⟨source, roomId, x, y, dir, transition⟩ := o
    cases dir <;> exact writable_record (by simp) (by simp [writable_encode])

instance : Faithful m TintOrder where
  told o v h := read_record h (.refl _) (by decide) fun f hf => by
    simp [hf.required "red" o.red rfl, hf.required "green" o.green rfl,
      hf.required "blue" o.blue rfl, hf.required "gray" o.gray rfl, hf.required "time" o.time rfl,
      hf.withDefault "wait" o.wait false rfl]

instance : Packable plain TintOrder 1 where
  writable o := writable_record (by simp) (by simp [writable_encode])

instance : Faithful m ShakeOrder where
  told o v h := read_record h (.refl _) (by decide) fun f hf => by
    simp [hf.required "power" o.power rfl, hf.required "speed" o.speed rfl,
      hf.required "time" o.time rfl, hf.withDefault "wait" o.wait false rfl,
      hf.withDefault "direction" o.direction .horizontal rfl]

instance : Packable plain ShakeOrder 1 where
  writable o := writable_record (by simp) (by simp [writable_encode])

instance : Faithful m PictureOrder where
  told o v h := read_record h (.refl _) (by decide) fun f hf => by
    simp [hf.required "id" o.id rfl, hf.required "image" o.image rfl,
      hf.withDefault "originX" o.originX PictureOrder.centred rfl,
      hf.withDefault "originY" o.originY PictureOrder.centred rfl, hf.required "x" o.x rfl,
      hf.required "y" o.y rfl, hf.withDefault "posValueType" o.source .constant rfl,
      hf.withDefault "scaleX" o.scaleX 100 rfl, hf.withDefault "scaleY" o.scaleY 100 rfl,
      hf.withDefault "angle" o.angle 0 rfl, hf.withDefault "opacity" o.opacity 255 rfl,
      hf.withDefault "blendType" o.blend .normal rfl]

/-- A picture can be shown in plain form if its origin is finite. -/
theorem PictureOrder.writable {o : PictureOrder} (hx : o.originX.isFinite = true)
    (hy : o.originY.isFinite = true) : (encode o).Writable plain 1 := by
  have hfloat : ∀ x : Binary64, x.isFinite = true → (encode x).Writable plain 0 :=
    fun x hx _ => hx
  exact writable_record (by simp) (by simp [writable_encode, hfloat, hx, hy])

instance : Faithful m MovePictureOrder where
  told o v h := read_record h (.refl _) (by decide) fun f hf => by
    simp [hf.required "id" o.id rfl, hf.required "x" o.x rfl, hf.required "y" o.y rfl,
      hf.withDefault "posValueType" o.source .constant rfl, hf.required "time" o.time rfl,
      hf.withDefault "wait" o.wait false rfl]

instance : Packable plain MovePictureOrder 1 where
  writable o := writable_record (by simp) (by simp [writable_encode])

instance : Faithful m ScalePictureOrder where
  told o v h := read_record h (.refl _) (by decide) fun f hf => by
    simp [hf.required "id" o.id rfl, hf.required "scaleX" o.scaleX rfl,
      hf.required "scaleY" o.scaleY rfl, hf.required "time" o.time rfl,
      hf.withDefault "wait" o.wait false rfl]

instance : Packable plain ScalePictureOrder 1 where
  writable o := writable_record (by simp) (by simp [writable_encode])

instance : Faithful m RotatePictureOrder where
  told o v h := read_record h (.refl _) (by decide) fun f hf => by
    simp [hf.required "id" o.id rfl, hf.required "angle" o.angle rfl, hf.required "time" o.time rfl,
      hf.withDefault "wait" o.wait false rfl]

instance : Packable plain RotatePictureOrder 1 where
  writable o := writable_record (by simp) (by simp [writable_encode])

instance : Faithful m FadePictureOrder where
  told o v h := read_record h (.refl _) (by decide) fun f hf => by
    simp [hf.required "id" o.id rfl, hf.required "opacity" o.opacity rfl,
      hf.required "time" o.time rfl, hf.withDefault "wait" o.wait false rfl]

instance : Packable plain FadePictureOrder 1 where
  writable o := writable_record (by simp) (by simp [writable_encode])

instance : Faithful m TintPictureOrder where
  told o v h := read_record h (.refl _) (by decide) fun f hf => by
    simp [hf.required "id" o.id rfl, hf.required "red" o.tint.red rfl,
      hf.required "green" o.tint.green rfl, hf.required "blue" o.tint.blue rfl,
      hf.required "gray" o.tint.gray rfl, hf.required "time" o.tint.time rfl,
      hf.withDefault "wait" o.tint.wait false rfl]

instance : Packable plain TintPictureOrder 1 where
  writable o := writable_record (by simp) (by simp [writable_encode])

instance : Faithful m SoundOrder where
  told o v h := read_record h (.refl _) (by decide) fun f hf => by
    simp [hf.required "name" o.name rfl, hf.withDefault "volume" o.volume fullVolume rfl]

instance : Packable plain SoundOrder 1 where
  writable o := writable_record (by simp) (by simp [writable_encode])

instance : Faithful m MusicOrder where
  told o v h := read_record h (.refl _) (by decide) fun f hf => by
    simp [hf.required "name" o.name rfl, hf.withDefault "volume" o.volume fullVolume rfl,
      hf.withDefault "fadeTime" o.fadeTime 0 rfl]

instance : Packable plain MusicOrder 1 where
  writable o := writable_record (by simp) (by simp [writable_encode])

/-! ## Motion -/

instance : LawfulEnumeration MoveKind where
  ofLabel?_label a := by cases a <;> rfl

instance : LawfulEnumeration CharacterProperty where
  ofLabel?_label a := by cases a <;> rfl

instance : Faithful m MoveOrder where
  told o v h := read_record h (.refl _) (by decide) fun f hf => by
    simp [hf.required "type" o.kind rfl, hf.withDefault "dir" o.dir .down rfl,
      hf.withDefault "distance" o.distance 1 rfl, hf.withDefault "x" o.x 0 rfl,
      hf.withDefault "y" o.y 0 rfl, hf.withDefault "valueType" o.source .constant rfl,
      hf.withDefault "ignoreCharacters" o.ignoreCharacters false rfl]

instance : Packable plain MoveOrder 1 where
  writable o := writable_record (by simp) (by simp [writable_encode])

instance : Faithful m CharacterImage where
  told c v h := read_record h (.refl _) (by decide) fun f hf => by
    simp [hf.required "image" c.image rfl, hf.withDefault "imageIndex" c.index 0 rfl,
      hf.withDefault "frame" c.frame 0 rfl, hf.withDefault "dir" c.dir .down rfl,
      hf.withDefault "useFrameAndDir" c.useFrameAndDir false rfl]

instance : Packable plain CharacterImage 1 where
  writable c := writable_record (by simp) (by simp [writable_encode])

instance : Faithful m OpacityChange where
  told c v h := read_record h (.refl _) (by decide) fun f hf => by
    simp [hf.required "opacity" c.opacity rfl, hf.withDefault "time" c.time 0 rfl,
      hf.withDefault "wait" c.wait false rfl]

instance : Packable plain OpacityChange 1 where
  writable c := writable_record (by simp) (by simp [writable_encode])

namespace CharacterChange

theorem plain?_encodeValue (c : CharacterChange) : c.encodeValue.plain? = some c.encodeValue := by
  cases c <;> simp only [encodeValue, encode, plain?]

theorem decodeValue?_encodeValue (c : CharacterChange) :
    decodeValue? c.property c.encodeValue = some c := by
  cases c with
  | speed s => cases s <;> rfl
  | _ => rfl

end CharacterChange

instance : Faithful m CharacterChange where
  told c v h := read_record h (.refl _) (by decide) fun f hf => by
    have hvalue : f.required m "value" = some c.encodeValue :=
      hf.requiredOf "value" (told_plain c.plain?_encodeValue) rfl
    simp [hvalue, hf.required "type" c.property rfl, c.decodeValue?_encodeValue]

instance : Packable plain CharacterChange 1 where
  writable c := by
    have hvalue : c.encodeValue.Writable plain 0 := by
      cases c <;> exact Packable.writable _
    exact writable_record (by simp) (by simp [writable_encode, hvalue])

/-! ## Assignments -/

instance : LawfulEnumeration AssignOp where
  ofLabel?_label a := by cases a <;> rfl

instance : LawfulEnumeration CharacterProbe where
  ofLabel?_label a := by cases a <;> rfl

instance : LawfulEnumeration GroupCount where
  ofLabel?_label a := by cases a <;> rfl

instance : LawfulEnumeration SystemProbe where
  ofLabel?_label a := by cases a <;> rfl

instance : LawfulEnumeration OperandKind where
  ofLabel?_label a := by cases a <;> rfl

namespace Operand

theorem decodeValue?_of_retold (o : Operand) {v : Value} (h : o.encodeValue.Retold v) :
    decodeValue? o.kind v = some o := by
  cases o with
  | constant value =>
    have hread : (decode? .document v : Option Int64) = some value := Faithful.told value v h
    show (decode? .document v).map Operand.constant = _
    rw [hread]
    rfl
  | random first last =>
    exact read_record h (.refl _) (by decide) fun f hf => by
      simp [hf.required "begin" first rfl, hf.required "end" last rfl]
  | character probe eventId =>
    exact read_record h (.refl _) (by decide) fun f hf => by
      simp [hf.required "type" probe rfl, hf.withDefault "eventId" eventId 0 rfl]
  | itemGroup count group =>
    exact read_record h (.refl _) (by decide) fun f hf => by
      simp [hf.required "type" count rfl, hf.withDefault "group" group 0 rfl]
  | table name record source column =>
    exact read_record h (.refl _) (by decide) fun f hf => by
      simp [hf.required "name" name rfl, hf.required "id" record rfl,
        hf.withDefault "idType" source .constant rfl, hf.required "attr" column rfl]
  | system probe =>
    have hread : (decode? .document v : Option SystemProbe) = some probe := Faithful.told probe v h
    show (decode? .document v).map Operand.system = _
    rw [hread]
    rfl
  | _ id =>
    have hread : (decode? .document v : Option Int32) = some id := Faithful.told id v h
    show (decode? .document v).map _ = _
    rw [hread]
    rfl

theorem writable_encodeValue (o : Operand) : o.encodeValue.Writable plain 1 := by
  cases o with
  | random | character | itemGroup | table =>
    exact writable_record (by simp) (by simp [writable_encode])
  | _ => exact writable_encode _ (Nat.zero_le _)

end Operand

instance : Faithful m Assignment where
  told a v h := read_record h (.refl _) (by decide) fun f hf => by
    have hwritable : a.operand.encodeValue.Writable true 1 := a.operand.writable_encodeValue
    obtain ⟨htold, hplain⟩ := hwritable.plain_spec
    have hvalue : f.withDefault m "value" Value.null = some a.operand.encodeValue.plain :=
      hf.withDefaultOf "value" (told_plain hplain) rfl
    simp [hf.required "valueType" a.operand.kind rfl, hvalue, hf.required "id" a.id rfl,
      hf.withDefault "idType" a.source .constant rfl, hf.required "op" a.op rfl,
      a.operand.decodeValue?_of_retold htold, hf.withDefault "internal" a.internal false rfl]

instance : Packable plain Assignment 2 where
  writable a := by
    have hvalue : a.operand.encodeValue.plain.Writable plain 1 :=
      a.operand.writable_encodeValue.plain.anyway
    exact writable_record (by simp) (by simp [writable_encode, hvalue])

end Adventure
