import Adventure.Proofs.Script.Orders

/-!
# Actions come back

An action is read from its name and arguments.  For an action that was not understood this is so if
its arguments are plain data that still are not understood.
-/

namespace Adventure

open Wire Wire.Value

/-! ## Arguments -/

section Fields

variable {α β : Type} [Wire α] [Wire β]

/-- An order is read from its plain form. -/
theorem decode?_plain [Faithful .document α] {depth : Nat} [Packable true α depth] (a : α) :
    decode? .document (encode a).plain = some a :=
  Faithful.told a _ (Packable.writable a : (encode a).Writable true depth).plain_spec.1

namespace Action

variable {depth depth' : Nat}

theorem writable_one [Packable true α depth] (name : String) (a : α) :
    (Value.record [(name, encode a)]).Writable true (depth + 1) :=
  writable_record (by simp) (by simp [writable_encode])

theorem writable_two [Packable true α depth] [Packable true β depth'] {first second : String}
    (h : first ≠ second) (a : α) (b : β) :
    (Value.record [(first, encode a), (second, encode b)]).Writable true
      (max depth depth' + 1) := by
  have hfirst : (encode a).Writable true (max depth depth') :=
    (Packable.writable a).mono (Nat.le_max_left _ _)
  have hsecond : (encode b).Writable true (max depth depth') :=
    (Packable.writable b).mono (Nat.le_max_right _ _)
  exact writable_record (by simpa using h) (by simp [hfirst, hsecond])

theorem oneField?_fieldArgs [Faithful .document α] [Packable true α depth] (name : String)
    (a : α) : oneField? name (fieldArgs [(name, encode a)]) = some a := by
  refine read_record (writable_one name a).plain_spec.1 (.refl _) (by simp) fun f hf => ?_
  exact hf.required name a (by simp)

/-- The second of two fields. -/
theorem lookup_second {first second : String} (h : first ≠ second) (v w : Value) :
    [(first, v), (second, w)].lookup second = some w := by
  have hne : (second == first) = false := beq_false_of_ne h.symm
  simp [List.lookup_cons, hne]

variable [Faithful .document α] [Faithful .document β]

theorem bothFields?_fieldArgs [Packable true α depth] [Packable true β depth']
    {first second : String} (h : first ≠ second) (a : α) (b : β) :
    bothFields? first second (fieldArgs [(first, encode a), (second, encode b)]) = some (a, b) := by
  refine read_record (writable_two h a b).plain_spec.1 (.refl _) (by simpa using h) fun f hf => ?_
  simp [hf.required first a (by simp), hf.required second b (lookup_second h _ _)]

theorem twoFields?_fieldArgs [Packable true α depth] [Packable true β depth']
    {first second : String} (h : first ≠ second) (a : α) (b default : β) :
    twoFields? first second default (fieldArgs [(first, encode a), (second, encode b)]) =
      some (a, b) := by
  refine read_record (writable_two h a b).plain_spec.1 (.refl _) (by simpa using h) fun f hf => ?_
  simp [hf.required first a (by simp), hf.withDefault second b default (lookup_second h _ _)]

end Action

end Fields

namespace Action

/-! ## Understood actions -/

/-- An action that is read from its name and its arguments, which are plain data. -/
structure Kept (a : Action) : Prop where
  read : Action.read a.name a.args = a
  plain : a.args.plain? = some a.args
  writable : a.args.Writable true 4

namespace Kept

variable {a : Action} {α β : Type} [Wire α] [Wire β] [Faithful .document α] [Faithful .document β]
  {depth depth' : Nat} [Packable true α depth] [Packable true β depth']

omit [Faithful .document α] [Faithful .document β] [Packable true α depth]
  [Packable true β depth'] in
/-- The arguments are the plain form of a tree. -/
theorem of_plain {v : Value} (hargs : a.args = v.plain) (hv : v.Writable true depth)
    (hdepth : depth ≤ 4) (hread : ofArgs a.name v.plain = some (some a)) : a.Kept := by
  refine ⟨?_, ?_, ?_⟩
  · rw [Action.read, hargs, hread]
  · rw [hargs, hv.plain_spec.2]
  · rw [hargs]
    exact hv.plain.mono hdepth

/-- An action with an order. -/
theorem order (o : α) (mk : α → Action) (hargs : (mk o).args = (encode o).plain)
    (hread : ofArgs (mk o).name (encode o).plain =
      some ((decode? .document (encode o).plain).map mk))
    (hdepth : depth ≤ 4) : (mk o).Kept := by
  refine .of_plain hargs (Packable.writable o) hdepth ?_
  rw [hread, decode?_plain]
  rfl

/-- An action with one argument. -/
theorem one (name : String) (a : α) (mk : α → Action)
    (hargs : (mk a).args = fieldArgs [(name, encode a)])
    (hread : ofArgs (mk a).name (fieldArgs [(name, encode a)]) =
      some ((oneField? name (fieldArgs [(name, encode a)])).map mk))
    (hdepth : depth + 1 ≤ 4) : (mk a).Kept := by
  refine .of_plain hargs (writable_one name a) hdepth ?_
  show ofArgs (mk a).name (fieldArgs [(name, encode a)]) = _
  rw [hread, oneField?_fieldArgs]
  rfl

/-- An action with two arguments. -/
theorem both (first second : String) (a : α) (b : β) (mk : α × β → Action)
    (hne : first ≠ second)
    (hargs : (mk (a, b)).args = fieldArgs [(first, encode a), (second, encode b)])
    (hread : ofArgs (mk (a, b)).name (fieldArgs [(first, encode a), (second, encode b)]) =
      some ((bothFields? first second
        (fieldArgs [(first, encode a), (second, encode b)])).map mk))
    (hdepth : max depth depth' + 1 ≤ 4) : (mk (a, b)).Kept := by
  refine .of_plain hargs (writable_two hne a b) hdepth ?_
  show ofArgs (mk (a, b)).name (fieldArgs [(first, encode a), (second, encode b)]) = _
  rw [hread, bothFields?_fieldArgs hne a b]
  rfl

/-- An action with two arguments, of which the second has a default. -/
theorem two (first second : String) (a : α) (b default : β) (mk : α × β → Action)
    (hne : first ≠ second)
    (hargs : (mk (a, b)).args = fieldArgs [(first, encode a), (second, encode b)])
    (hread : ofArgs (mk (a, b)).name (fieldArgs [(first, encode a), (second, encode b)]) =
      some ((twoFields? first second default
        (fieldArgs [(first, encode a), (second, encode b)])).map mk))
    (hdepth : max depth depth' + 1 ≤ 4) : (mk (a, b)).Kept := by
  refine .of_plain hargs (writable_two hne a b) hdepth ?_
  show ofArgs (mk (a, b)).name (fieldArgs [(first, encode a), (second, encode b)]) = _
  rw [hread, twoFields?_fieldArgs hne a b default]
  rfl

end Kept

/-- Whether an action was understood and its doubles are finite. -/
def IsProper : Action → Prop
  | showPicture o => o.originX.isFinite = true ∧ o.originY.isFinite = true
  | unrecognized _ _ _ => False
  | _ => True

theorem kept_setSwitch (id : Int32) (source : Source) (value internal : Bool) :
    (setSwitch id source value internal).Kept := by
  have hwritable : (Value.record [("id", encode id), ("idType", encode source),
      ("value", encode value), ("internal", encode internal)]).Writable true 1 :=
    writable_record (by simp) (by simp [writable_encode])
  refine .of_plain rfl hwritable (by decide) (congrArg some ?_)
  exact read_record hwritable.plain_spec.1 (.refl _) (by decide) fun f hf => by
    simp [hf.required "id" id rfl, hf.withDefault "idType" source .constant rfl,
      hf.required "value" value rfl, hf.withDefault "internal" internal false rfl]

theorem kept_stopMusic (fadeTime : UInt32) : (stopMusic fadeTime).Kept := by
  have hwritable : (Value.record [("fadeTime", encode fadeTime)]).Writable true 1 :=
    writable_record (by simp) (by simp [writable_encode])
  have hread : fadeArgs? (fieldArgs [("fadeTime", encode fadeTime)]) = some fadeTime :=
    read_record hwritable.plain_spec.1 (.refl _) (by decide) fun f hf =>
      hf.withDefault "fadeTime" fadeTime 0 rfl
  refine .of_plain rfl hwritable (by decide) (congrArg some ?_)
  exact congrArg (Option.map stopMusic) hread

theorem kept_showPicture {o : PictureOrder} (hx : o.originX.isFinite = true)
    (hy : o.originY.isFinite = true) : (showPicture o).Kept := by
  have hwritable : (encode o).Writable true 1 := PictureOrder.writable hx hy
  refine .of_plain rfl hwritable (by decide) (congrArg some ?_)
  have hread : decode? .document (encode o).plain = some o :=
    Faithful.told o _ hwritable.plain_spec.1
  exact congrArg (Option.map showPicture) hread

/-- A route is no action. -/
theorem IsProper.name_ne {a : Action} (h : a.IsProper) : a.name ≠ "set_route" := by
  cases a with
  | unrecognized name args why => exact h.elim
  | _ => simp [name]

/-- Every action that was understood is kept. -/
theorem IsProper.kept {a : Action} (h : a.IsProper) : a.Kept := by
  cases a with
  | branch conditions => exact .one "conditions" conditions .branch rfl rfl (by decide)
  | label name => exact .one "name" name .label rfl rfl (by decide)
  | jump name => exact .one "name" name .jump rfl rfl (by decide)
  | callEvent eventId page =>
    exact .two "eventId" "pageIndex" eventId page 0 (fun r => .callEvent r.1 r.2) (by decide)
      rfl rfl (by decide)
  | callCommonEvent eventId => exact .one "eventId" eventId .callCommonEvent rfl rfl (by decide)
  | wait time => exact .one "time" time .wait rfl rfl (by decide)
  | showBalloon o => exact .order o .showBalloon rfl rfl (by decide)
  | showMessage o => exact .order o .showMessage rfl rfl (by decide)
  | showChoices o => exact .order o .showChoices rfl rfl (by decide)
  | setSwitch id source value internal => exact kept_setSwitch id source value internal
  | setSelfSwitch id value =>
    exact .both "id" "value" id value (fun r => .setSelfSwitch r.1 r.2) (by decide) rfl rfl
      (by decide)
  | setVariable o => exact .order o .setVariable rfl rfl (by decide)
  | transfer o => exact .order o .transfer rfl rfl (by decide)
  | tintScreen o => exact .order o .tintScreen rfl rfl (by decide)
  | shakeScreen o => exact .order o .shakeScreen rfl rfl (by decide)
  | weather kind => exact .one "type" kind .weather rfl rfl (by decide)
  | changeBackground image => exact .one "image" image .changeBackground rfl rfl (by decide)
  | changeForeground image => exact .one "image" image .changeForeground rfl rfl (by decide)
  | playSound o => exact .order o .playSound rfl rfl (by decide)
  | playMusic o => exact .order o .playMusic rfl rfl (by decide)
  | stopMusic fadeTime => exact kept_stopMusic fadeTime
  | autosave enabled => exact .one "enabled" enabled .autosave rfl rfl (by decide)
  | playerControl enabled => exact .one "enabled" enabled .playerControl rfl rfl (by decide)
  | unlockAchievement id => exact .one "id" id .unlockAchievement rfl rfl (by decide)
  | controlHint id o =>
    exact .both "id" "type" id o (fun r => .controlHint r.1 r.2) (by decide) rfl rfl
      (by decide)
  | purchase id => exact .one "id" id .purchase rfl rfl (by decide)
  | showAds kind force =>
    exact .two "type" "force" kind force false (fun r => .showAds r.1 r.2) (by decide) rfl rfl
      (by decide)
  | openLink kind data =>
    exact .two "type" "data" kind data "" (fun r => .openLink r.1 r.2) (by decide) rfl rfl
      (by decide)
  | sendAnalytics event value =>
    exact .two "event" "value" event value "" (fun r => .sendAnalytics r.1 r.2) (by decide) rfl
      rfl (by decide)
  | savePermanentVariable permanentId variableId =>
    exact .both "permanentVariableId" "variableId" permanentId variableId
      (fun r => .savePermanentVariable r.1 r.2) (by decide) rfl rfl (by decide)
  | addItem id => exact .one "id" id .addItem rfl rfl (by decide)
  | removeItem id => exact .one "id" id .removeItem rfl rfl (by decide)
  | replaceItem id replaced =>
    exact .both "id" "replaceIds" id replaced (fun r => .replaceItem r.1 r.2) (by decide) rfl rfl
      (by decide)
  | showItem id => exact .one "id" id .showItem rfl rfl (by decide)
  | showPicture o => exact kept_showPicture h.1 h.2
  | erasePicture id => exact .one "id" id .erasePicture rfl rfl (by decide)
  | movePicture o => exact .order o .movePicture rfl rfl (by decide)
  | scalePicture o => exact .order o .scalePicture rfl rfl (by decide)
  | rotatePicture o => exact .order o .rotatePicture rfl rfl (by decide)
  | fadePicture o => exact .order o .fadePicture rfl rfl (by decide)
  | tintPicture o => exact .order o .tintPicture rfl rfl (by decide)
  | changePictureImage id image =>
    exact .both "id" "image" id image (fun r => .changePictureImage r.1 r.2) (by decide)
      rfl rfl (by decide)
  | moveCharacter o => exact .order o .moveCharacter rfl rfl (by decide)
  | turnCharacter dir => exact .one "dir" dir .turnCharacter rfl rfl (by decide)
  | rotateCharacter angle => exact .one "angle" angle .rotateCharacter rfl rfl (by decide)
  | changeCharacter o => exact .order o .changeCharacter rfl rfl (by decide)
  | setCharacterImage o => exact .order o .setCharacterImage rfl rfl (by decide)
  | setCharacterOpacity o => exact .order o .setCharacterOpacity rfl rfl (by decide)
  | unrecognized name args why => exact h.elim
  | _ => exact ⟨rfl, rfl, trivial⟩

end Action

end Adventure
