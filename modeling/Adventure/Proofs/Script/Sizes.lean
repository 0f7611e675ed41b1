import Adventure.Proofs.Script.Documents
import Adventure.Proofs.Wire.Sizes

/-!
# Scripts stay within lengths of 32 bits

A script that is read from a tree whose lengths have 32 bits is written with such lengths.  So a
script that was read from packed data can be written as packed data again, whatever it says.
-/

namespace Adventure

open Wire Wire.Value

variable {α β : Type} [Wire α] [Wire β] {m : Medium} {v : Value} {name : String} {a : α}

/-! ## Orders without texts -/

theorem isSized_taggedRecord {tag : String} {fields : List (String × Value)}
    (htag : namesFit [tag] = true) (hnames : namesFit ("type" :: fields.map (·.1)) = true)
    (h : ∀ e ∈ fields, e.2.isSized = true) : (taggedRecord tag fields).isSized = true := by
  refine isSized_record hnames (List.forall_mem_cons.2 ⟨?_, h⟩)
  rw [namesFit, Bool.and_eq_true, List.all_cons, Bool.and_eq_true] at htag
  exact htag.2.1

instance : AlwaysSized Condition where
  isSized c := by
    cases c <;> exact isSized_taggedRecord rfl rfl (by simp [AlwaysSized.isSized])

instance : AlwaysSized TransferOrder where
  isSized o := by
    obtain ⟨source, roomId, x, y, dir, transition⟩ := o
    have hnone : encode (none : Option Direction) = .null := rfl
    cases dir with
    | none => exact isSized_record rfl (by simp [hnone, unlessNull, AlwaysSized.isSized])
    | some dir =>
      cases dir <;> exact isSized_record rfl (by simp [unlessNull, AlwaysSized.isSized])

instance : AlwaysSized TintOrder := ⟨fun _ => isSized_record rfl (by simp [AlwaysSized.isSized])⟩

instance : AlwaysSized ShakeOrder := ⟨fun _ => isSized_record rfl (by simp [AlwaysSized.isSized])⟩

instance : AlwaysSized MovePictureOrder :=
  ⟨fun _ => isSized_record rfl (by simp [AlwaysSized.isSized])⟩

instance : AlwaysSized ScalePictureOrder :=
  ⟨fun _ => isSized_record rfl (by simp [AlwaysSized.isSized])⟩

instance : AlwaysSized RotatePictureOrder :=
  ⟨fun _ => isSized_record rfl (by simp [AlwaysSized.isSized])⟩

instance : AlwaysSized FadePictureOrder :=
  ⟨fun _ => isSized_record rfl (by simp [AlwaysSized.isSized])⟩

instance : AlwaysSized TintPictureOrder :=
  ⟨fun _ => isSized_record rfl (by simp [AlwaysSized.isSized])⟩

instance : AlwaysSized MoveOrder := ⟨fun _ => isSized_record rfl (by simp [AlwaysSized.isSized])⟩

instance : AlwaysSized CharacterChange where
  isSized c := by
    cases c <;>
      exact isSized_record rfl (by simp [CharacterChange.encodeValue, AlwaysSized.isSized])

instance : AlwaysSized OpacityChange :=
  ⟨fun _ => isSized_record rfl (by simp [AlwaysSized.isSized])⟩

/-! ## Orders with texts -/

instance : StaysSized BalloonOrder where
  isSized {m v o} h hv := by
    obtain ⟨f, hf, h⟩ := Option.bind_eq_some_iff.1 h
    simp only [Option.bind_eq_bind, Option.bind_eq_some_iff] at h
    obtain ⟨eventId, -, content, hcontent, style, -, h⟩ := h
    obtain rfl := Option.some.inj h
    have hsized := (Fields.isSized_of_read hf hv).required hcontent
    exact isSized_record rfl (by simp [AlwaysSized.isSized, hsized])

instance : StaysSized MessageOrder where
  isSized {m v o} h hv := by
    obtain ⟨f, hf, h⟩ := Option.bind_eq_some_iff.1 h
    simp only [Option.bind_eq_bind, Option.bind_eq_some_iff] at h
    obtain ⟨content, hcontent, background, -, position, -, align, -, styleId, -, h⟩ := h
    obtain rfl := Option.some.inj h
    have hsized := (Fields.isSized_of_read hf hv).required hcontent
    exact isSized_record rfl (by simp [AlwaysSized.isSized, hsized])

instance : StaysSized PictureOrder where
  isSized {m v o} h hv := by
    obtain ⟨f, hf, h⟩ := Option.bind_eq_some_iff.1 h
    simp only [Option.bind_eq_bind, Option.bind_eq_some_iff] at h
    obtain ⟨id, -, image, himage, originX, -, originY, -, x, -, y, -, source, -, scaleX, -, scaleY,
      -, angle, -, opacity, -, blend, -, h⟩ := h
    obtain rfl := Option.some.inj h
    have hsized := (Fields.isSized_of_read hf hv).required himage
    exact isSized_record rfl (by simp [AlwaysSized.isSized, hsized])

instance : StaysSized SoundOrder where
  isSized {m v o} h hv := by
    obtain ⟨f, hf, h⟩ := Option.bind_eq_some_iff.1 h
    simp only [Option.bind_eq_bind, Option.bind_eq_some_iff] at h
    obtain ⟨name, hname, volume, -, h⟩ := h
    obtain rfl := Option.some.inj h
    have hsized := (Fields.isSized_of_read hf hv).required hname
    exact isSized_record rfl (by simp [AlwaysSized.isSized, hsized])

instance : StaysSized MusicOrder where
  isSized {m v o} h hv := by
    obtain ⟨f, hf, h⟩ := Option.bind_eq_some_iff.1 h
    simp only [Option.bind_eq_bind, Option.bind_eq_some_iff] at h
    obtain ⟨name, hname, volume, -, fadeTime, -, h⟩ := h
    obtain rfl := Option.some.inj h
    have hsized := (Fields.isSized_of_read hf hv).required hname
    exact isSized_record rfl (by simp [AlwaysSized.isSized, hsized])

instance : StaysSized CharacterImage where
  isSized {m v o} h hv := by
    obtain ⟨f, hf, h⟩ := Option.bind_eq_some_iff.1 h
    simp only [Option.bind_eq_bind, Option.bind_eq_some_iff] at h
    obtain ⟨image, himage, index, -, frame, -, dir, -, useFrameAndDir, -, h⟩ := h
    obtain rfl := Option.some.inj h
    have hsized := (Fields.isSized_of_read hf hv).required himage
    exact isSized_record rfl (by simp [AlwaysSized.isSized, hsized])

theorem forall_mem_unlessNull {p : String × Value → Prop} {w : Value} (h : p (name, w)) :
    ∀ e ∈ unlessNull name w, p e := by
  cases w with
  | null => exact fun e he => by cases he
  | _ => exact List.forall_mem_singleton.2 h

theorem unlessNull_sublist (name : String) (w : Value) :
    (unlessNull name w).Sublist [(name, w)] := by
  cases w with
  | null => exact List.nil_sublist _
  | _ => exact List.Sublist.refl _

instance : AlwaysSized ChoiceCondition where
  isSized c := by
    have hnames := ((unlessNull_sublist "visible" (encode c.visible)).append
      (unlessNull_sublist "checked" (encode c.checked))).map (·.1)
    refine isSized_record (namesFit_of_sublist hnames rfl) (List.forall_mem_append.2 ⟨?_, ?_⟩)
    · exact forall_mem_unlessNull (AlwaysSized.isSized c.visible)
    · exact forall_mem_unlessNull (AlwaysSized.isSized c.checked)

instance : StaysSized ChoicesOrder where
  isSized {m v o} h hv := by
    obtain ⟨f, hf, h⟩ := Option.bind_eq_some_iff.1 h
    simp only [Option.bind_eq_bind, Option.bind_eq_some_iff] at h
    obtain ⟨choices, hchoices, conditions, hconditions, h⟩ := h
    obtain rfl := Option.some.inj h
    have hsized := Fields.isSized_of_read hf hv
    have hfirst := hsized.required hchoices
    have hsecond := hsized.withDefault rfl hconditions
    cases conditions with
    | nil => exact isSized_record rfl (List.forall_mem_singleton.2 hfirst)
    | cons condition rest => exact isSized_record rfl (by simp [hfirst, hsecond])

theorem Operand.isSized_encodeValue {kind : OperandKind} {o : Operand}
    (h : decodeValue? kind v = some o) (hv : v.isSized = true) : o.encodeValue.isSized = true := by
  cases kind with
  | table =>
    obtain ⟨f, hf, h⟩ := Option.bind_eq_some_iff.1 h
    simp only [Option.bind_eq_bind, Option.bind_eq_some_iff] at h
    obtain ⟨name, hname, record, -, source, -, column, hcolumn, h⟩ := h
    obtain rfl := Option.some.inj h
    have hsized := Fields.isSized_of_read hf hv
    have hfirst := hsized.required hname
    have hlast := hsized.required hcolumn
    exact isSized_record rfl (by simp [AlwaysSized.isSized, hfirst, hlast])
  | random | character | itemGroup =>
    obtain ⟨f, -, h⟩ := Option.bind_eq_some_iff.1 h
    simp only [Option.bind_eq_bind, Option.bind_eq_some_iff] at h
    obtain ⟨first, -, last, -, h⟩ := h
    obtain rfl := Option.some.inj h
    exact isSized_record rfl (by simp [AlwaysSized.isSized])
  | system =>
    obtain ⟨probe, -, rfl⟩ := Option.map_eq_some_iff.1 h
    exact AlwaysSized.isSized probe
  | _ =>
    obtain ⟨x, -, rfl⟩ := Option.map_eq_some_iff.1 h
    rfl

instance : StaysSized Assignment where
  isSized {m v o} h hv := by
    obtain ⟨f, hf, h⟩ := Option.bind_eq_some_iff.1 h
    simp only [Option.bind_eq_bind, Option.bind_eq_some_iff] at h
    obtain ⟨kind, -, value, hvalue, id, -, source, -, op, -, operand, hoperand, internal, -, h⟩ := h
    obtain rfl := Option.some.inj h
    have hsized := (Fields.isSized_of_read hf hv).withDefault rfl hvalue
    have hplain := isSized_plain (Operand.isSized_encodeValue hoperand hsized)
    exact isSized_record rfl (by simp [AlwaysSized.isSized, hplain])

/-! ## Actions -/

namespace Action

variable {args : Value} {f : Fields}

theorem isSized_fieldArgs {fields : List (String × Value)}
    (hnames : namesFit (fields.map (·.1)) = true) (h : ∀ e ∈ fields, e.2.isSized = true) :
    (fieldArgs fields).isSized = true := isSized_plain (isSized_record hnames h)

theorem isSized_of_decode? [StaysSized α] (hargs : args.isSized = true)
    (h : decode? .document args = some a) : (encode a).plain.isSized = true :=
  isSized_plain (StaysSized.isSized h hargs)

theorem isSized_of_oneField? [StaysSized α] (hargs : args.isSized = true)
    (hname : namesFit [name] = true) (h : oneField? name args = some a) :
    (fieldArgs [(name, encode a)]).isSized = true := by
  obtain ⟨f, hf, ha⟩ := Option.bind_eq_some_iff.1 h
  have hsized := Fields.isSized_of_read hf hargs
  exact isSized_fieldArgs hname (List.forall_mem_singleton.2 (hsized.required ha))

theorem isSized_of_bothFields? [StaysSized α] [StaysSized β] {first second : String} {r : α × β}
    (hargs : args.isSized = true) (hnames : namesFit [first, second] = true)
    (h : bothFields? first second args = some r) :
    (fieldArgs [(first, encode r.1), (second, encode r.2)]).isSized = true := by
  simp only [bothFields?, Option.bind_eq_bind, Option.bind_eq_some_iff] at h
  obtain ⟨f, hf, a, ha, b, hb, h⟩ := h
  obtain rfl := Option.some.inj h
  have hsized := Fields.isSized_of_read hf hargs
  refine isSized_fieldArgs hnames (List.forall_mem_cons.2 ⟨hsized.required ha, ?_⟩)
  exact List.forall_mem_singleton.2 (hsized.required hb)

theorem isSized_of_twoFields? [StaysSized α] [StaysSized β] {first second : String} {default : β}
    {r : α × β} (hargs : args.isSized = true) (hnames : namesFit [first, second] = true)
    (hdefault : (encode default).isSized = true)
    (h : twoFields? first second default args = some r) :
    (fieldArgs [(first, encode r.1), (second, encode r.2)]).isSized = true := by
  simp only [twoFields?, Option.bind_eq_bind, Option.bind_eq_some_iff] at h
  obtain ⟨f, hf, a, ha, b, hb, h⟩ := h
  obtain rfl := Option.some.inj h
  have hsized := Fields.isSized_of_read hf hargs
  refine isSized_fieldArgs hnames (List.forall_mem_cons.2 ⟨hsized.required ha, ?_⟩)
  exact List.forall_mem_singleton.2 (hsized.withDefault hdefault hb)

theorem isSized_of_switchArgs? {action : Action} (h : switchArgs? args = some action) :
    action.args.isSized = true := by
  obtain ⟨id, source, value, internal, rfl⟩ := eq_of_switchArgs? h
  exact isSized_fieldArgs rfl (by simp [AlwaysSized.isSized])

/-- An action that is understood is written with lengths of 32 bits if its arguments have such. -/
theorem isSized_args {action : Action} (hargs : args.isSized = true)
    (h : ofArgs name args = some (some action)) : action.args.isSized = true := by
  unfold ofArgs at h
  split at h
  -- one case a name, then the names that are not known
  all_goals first
    | (obtain rfl := Option.some.inj (Option.some.inj h); rfl)
    | exact isSized_of_switchArgs? (Option.some.inj h)
    | (obtain ⟨x, hx, rfl⟩ := Option.map_eq_some_iff.1 (Option.some.inj h)
       dsimp only [Action.args]
       with_reducible first
         | exact isSized_of_oneField? hargs rfl hx
         | exact isSized_of_decode? hargs hx
         | exact isSized_of_bothFields? hargs rfl hx
         | exact isSized_of_twoFields? hargs rfl rfl hx
         | exact isSized_fieldArgs rfl (List.forall_mem_singleton.2 rfl))
    | cases h

theorem isSized_read (name : String) {args : Value} (hargs : args.isSized = true) :
    (read name args).args.isSized = true := by
  unfold read
  split
  · next h => exact isSized_args hargs h
  · exact hargs
  · exact hargs

end Action

/-! ## Commands -/

namespace Command

theorem isSized_commandRecord {name : String} {args : Value} {branches : List Value}
    (hname : (Value.text name).isSized = true) (hargs : args.isSized = true)
    (hbranches : (Value.list branches).isSized = true) :
    (Command.record name args branches).isSized = true := by
  unfold Command.record
  split
  · exact isSized_record rfl (by simp [hname, hargs])
  · exact isSized_record rfl (by simp [hname, hargs, hbranches])

theorem isSized_routeArgs {read : Value → Option Command} {order : RouteOrder} {body : Script}
    (hread : ∀ {w : Value} {c : Command}, read w = some c → w.isSized = true →
      (toValue c).isSized = true)
    (hv : v.isSized = true) (h : routeArgs? read v = some (order, body)) :
    (Action.fieldArgs (routeFields order body)).isSized = true := by
  simp only [routeArgs?, Option.bind_eq_bind, Option.bind_eq_some_iff] at h
  obtain ⟨f, hf, id, -, repeats, -, skip, -, wait, -, commands, ⟨x, hx, hbody⟩, h⟩ := h
  obtain ⟨-, rfl⟩ := Prod.mk.inj (Option.some.inj h)
  have hlist := isSized_list hread hbody (Fields.isSized_of_read hf hv _ _ hx)
  rw [← listToValues_eq] at hlist
  exact Action.isSized_fieldArgs rfl (by simp [routeFields, AlwaysSized.isSized, hlist])

/-- A command is written with lengths of 32 bits if it is read from such. -/
theorem isSized_toValue {fuel : Nat} : ∀ {m : Medium} {v : Value} {c : Command},
    ofValueWithin? fuel m v = some c → v.isSized = true → (toValue c).isSized = true := by
  induction fuel with
  | zero => exact fun h => by cases h
  | succ fuel ih =>
    intro m v c h hv
    simp only [ofValueWithin?, Option.bind_eq_bind, Option.bind_eq_some_iff] at h
    obtain ⟨f, hf, name, hname, args, hargs, branches, hbranches, h⟩ := h
    have hsized := Fields.isSized_of_read hf hv
    have hname' : (Value.text name).isSized = true := hsized.required hname
    have hargs' : args.isSized = true := hsized.withDefault rfl hargs
    have hlists : (Value.list (listsToValues branches)).isSized = true := by
      unfold Fields.orElse at hbranches
      split at hbranches
      · next x hx =>
        have hlist := isSized_list (fun h => isSized_list ih h) hbranches (hsized _ _ hx)
        simpa only [← listToValues_eq, ← listsToValues_eq] using hlist
      · obtain rfl := Option.some.inj hbranches
        rfl
    split at h
    · split at h
      · next order body hbody =>
        obtain rfl := Option.some.inj h
        exact isSized_commandRecord rfl (isSized_routeArgs ih hargs' hbody) hlists
      · obtain rfl := Option.some.inj h
        exact isSized_commandRecord hname' hargs' hlists
    · obtain rfl := Option.some.inj h
      have hsame : (Action.read name args).name = name := (Action.read_spec name args).1
      exact isSized_commandRecord (hsame.symm ▸ hname') (Action.isSized_read name hargs') hlists

end Command

instance : StaysSized Command := ⟨Command.isSized_toValue⟩

end Adventure
