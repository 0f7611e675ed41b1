import Adventure.Proofs.Script.Documents

/-!
# Scripts keep their depth

A script that is read from a document is written no deeper than it was read, so that a document that
was not nested too deeply is not after its script is written again.
-/

namespace Adventure

open Wire Wire.Value

/-! ## Depth -/

namespace Wire

theorem Value.depthOfItems_le_iff {xs : List Value} {n : Nat} :
    depthOfItems xs ≤ n ↔ ∀ x ∈ xs, x.depth ≤ n := by
  induction xs with
  | nil => simp [depthOfItems]
  | cons x rest ih => rw [depthOfItems, Nat.max_le, ih, List.forall_mem_cons]

theorem Value.depthOfEntries_le_iff {es : List (Value × Value)} {n : Nat} :
    depthOfEntries es ≤ n ↔ ∀ e ∈ es, e.1.depth ≤ n ∧ e.2.depth ≤ n := by
  induction es with
  | nil => simp [depthOfEntries]
  | cons e rest ih =>
    obtain ⟨k, x⟩ := e
    rw [depthOfEntries, Nat.max_le, Nat.max_le, ih, List.forall_mem_cons]

theorem Value.depth_texts_le {fields : List (String × Value)} {n : Nat}
    (h : ∀ e ∈ fields, e.2.depth ≤ n) : depthOfEntries (texts fields) ≤ n := by
  refine depthOfEntries_le_iff.2 fun e he => ?_
  obtain ⟨field, hfield, rfl⟩ := List.mem_map.1 he
  exact ⟨Nat.zero_le _, h field hfield⟩

theorem Value.depth_record_le {fields : List (String × Value)} {n : Nat} (hpos : 0 < n)
    (h : ∀ e ∈ fields, e.2.depth < n) : (record fields).depth ≤ n := by
  have hle := depth_texts_le (n := n - 1) fun e he => Nat.le_sub_one_of_lt (h e he)
  show depthOfEntries (texts fields) + 1 ≤ n
  omega

mutual

/-- Plain data is nested no deeper than the tree that it is the plain form of. -/
theorem Value.depth_le_of_plain? : ∀ {v w : Value}, v.plain? = some w → w.depth ≤ v.depth
  | .null, _, h | .bool _, _, h | .int _, _, h | .formed _ _, _, h | .text _, _, h
  | .escaped _, _, h => by
    rw [plain?] at h
    obtain rfl := Option.some.inj h
    exact Nat.zero_le _
  | .float x, _, h => by
    rw [plain?] at h
    obtain rfl := Option.some.inj h
    split <;> exact Nat.zero_le _
  | .list items, _, h => by
    rw [plain?, Option.map_eq_some_iff] at h
    obtain ⟨items', hitems, rfl⟩ := h
    exact Nat.succ_le_succ (depth_le_of_plainItems? hitems)
  | .map entries, _, h => by
    rw [plain?_map, Option.map_eq_some_iff] at h
    obtain ⟨fields, hfields, rfl⟩ := h
    refine Nat.succ_le_succ (depth_texts_le fun e he => ?_)
    exact depth_le_of_plainFields? hfields e (SortedMap.mem_of_mem_ofList he)
  | .bytes _, _, h | .damaged, _, h | .unreadable, _, h => by
    rw [plain?] at h
    cases h

theorem Value.depth_le_of_plainItems? : ∀ {xs ys : List Value}, plainItems? xs = some ys →
    depthOfItems ys ≤ depthOfItems xs
  | [], _, h => by
    rw [plainItems?] at h
    obtain rfl := Option.some.inj h
    exact Nat.le_refl _
  | x :: rest, _, h => by
    rw [plainItems?] at h
    split at h
    · next y ys hy hys =>
      obtain rfl := Option.some.inj h
      have hfirst := depth_le_of_plain? hy
      have hothers := depth_le_of_plainItems? hys
      rw [depthOfItems, depthOfItems]
      omega
    · cases h

theorem Value.depth_le_of_plainFields? : ∀ {es : List (Value × Value)}
    {fields : List (String × Value)}, plainFields? es = some fields →
      ∀ e ∈ fields, e.2.depth ≤ depthOfEntries es
  | [], _, h => by
    obtain rfl := Option.some.inj h
    exact fun _ he => by cases he
  | (k, x) :: rest, _, h => by
    simp only [plainFields?_cons, Option.bind_eq_some_iff, Option.map_eq_some_iff] at h
    obtain ⟨name, _, y, hy, fields, hfields, rfl⟩ := h
    have hfirst := depth_le_of_plain? hy
    refine List.forall_mem_cons.2 ⟨?_, fun e he => ?_⟩
    · rw [depthOfEntries]
      exact Nat.le_trans hfirst (by omega)
    · have hrest := depth_le_of_plainFields? hfields e he
      rw [depthOfEntries]
      omega

end

theorem Value.depth_plain_le (v : Value) : v.plain.depth ≤ v.depth := by
  rw [plain]
  cases h : v.plain? with
  | none => exact Nat.zero_le _
  | some w => exact depth_le_of_plain? h

end Wire

/-! ## Types -/

/-- Types whose values are written no deeper than they are read from a document. -/
class NoDeeper (α : Type) [Wire α] : Prop where
  depth_le {v : Value} {a : α} (h : decode? .document v = some a) : (encode a).depth ≤ v.depth

variable {α β : Type} [Wire α] [Wire β] {v : Value} {names : List String} {f : Fields}
  {name : String} {a : α}

theorem depth_encode_le {depth : Nat} [Packable false α depth] (a : α) : (encode a).depth ≤ depth :=
  (Packable.writable a : (encode a).Writable false depth).bounded.depth_le

instance : NoDeeper Value := ⟨depth_le_of_plain?⟩

instance [Packable false α 0] : NoDeeper α :=
  ⟨fun {_ a} _ => Nat.le_trans (depth_encode_le a) (Nat.zero_le _)⟩

theorem Wire.Fields.depth_pos (h : Fields.read? .document names v = some f) : 0 < v.depth := by
  cases v with
  | list items => exact Nat.succ_pos _
  | map entries => exact Nat.succ_pos _
  | bytes data => simp [Fields.read?] at h
  | _ => cases h

/-- A record of leaves is read from a record or a list. -/
theorem NoDeeper.of_record [Packable false α 1] {build : Fields → Option α}
    (h : ∀ v : Value, decode? .document v = (Fields.read? .document names v).bind build) :
    NoDeeper α := by
  refine ⟨fun {v a} ha => ?_⟩
  rw [h v] at ha
  obtain ⟨f, hf, -⟩ := Option.bind_eq_some_iff.1 ha
  exact Nat.le_trans (depth_encode_le a) (Fields.depth_pos hf)

/-- A list is written no deeper than it was read if its members are. -/
theorem depth_list_le {γ : Type} {read : Value → Option γ} {write : γ → Value} {xs : List γ}
    (hitem : ∀ {w : Value} {x : γ}, read w = some x → (write x).depth ≤ w.depth)
    (h : Command.readList? .document read v = some xs) :
    (Value.list (xs.map write)).depth ≤ v.depth := by
  obtain ⟨items, hitems, hread⟩ := Option.bind_eq_some_iff.1 h
  cases v with
  | list items' =>
    obtain rfl := Option.some.inj hitems
    refine Nat.succ_le_succ (depthOfItems_le_iff.2 fun w hw => ?_)
    obtain ⟨x, hx, rfl⟩ := List.mem_map.1 hw
    obtain ⟨y, hy, hyx⟩ := Command.exists_item hread x hx
    exact Nat.le_trans (hitem hyx) (depth_le_of_mem_items hy)
  | bytes data => simp [items?] at hitems
  | _ => cases hitems

instance [NoDeeper α] : NoDeeper (List α) := ⟨fun h => depth_list_le NoDeeper.depth_le h⟩

/-- What is there is read as if it could not be missing. -/
theorem decode?_of_some {m : Medium} (h : decode? m v = some (some a)) : decode? m v = some a := by
  have hmap : (decode? m v : Option α).map some = some (some a) := by
    cases v with
    | null => cases h
    | formed form n =>
      cases form with
      | octet => cases h
      | _ => exact h
    | _ => exact h
  obtain ⟨a', ha, heq⟩ := Option.map_eq_some_iff.1 hmap
  exact ha.trans heq

instance [NoDeeper α] : NoDeeper (Option α) where
  depth_le {v o} h := by
    cases o with
    | none => exact Nat.zero_le _
    | some a =>
      show (encode a).depth ≤ v.depth
      exact NoDeeper.depth_le (decode?_of_some h)

/-! ## Fields -/

namespace Wire.Fields

theorem depth_lt_of_required [NoDeeper α] (hf : Fields.read? .document names v = some f)
    (h : f.required .document name = some a) : (encode a).depth < v.depth := by
  obtain ⟨x, hx, ha⟩ := Option.bind_eq_some_iff.1 h
  exact Nat.lt_of_le_of_lt (NoDeeper.depth_le ha) (Fields.part_of_read hf hx).depth_lt

theorem eq_or_depth_lt_of_withDefault [NoDeeper α] {default : α}
    (hf : Fields.read? .document names v = some f)
    (h : f.withDefault .document name default = some a) :
    a = default ∨ (encode a).depth < v.depth := by
  unfold withDefault orElse at h
  split at h
  · next x hx =>
    exact .inr (Nat.lt_of_le_of_lt (NoDeeper.depth_le h) (Fields.part_of_read hf hx).depth_lt)
  · exact .inl (Option.some.inj h).symm

theorem depth_lt_of_withDefault [NoDeeper α] {default : α}
    (hf : Fields.read? .document names v = some f) (hdefault : (encode default).depth < v.depth)
    (h : f.withDefault .document name default = some a) : (encode a).depth < v.depth := by
  rcases eq_or_depth_lt_of_withDefault hf h with rfl | hlt
  · exact hdefault
  · exact hlt

end Wire.Fields

/-! ## Orders -/

instance : NoDeeper BalloonOrder := .of_record fun _ => rfl

instance : NoDeeper MessageOrder := .of_record fun _ => rfl

instance : NoDeeper TransferOrder := .of_record fun _ => rfl

instance : NoDeeper TintOrder := .of_record fun _ => rfl

instance : NoDeeper ShakeOrder := .of_record fun _ => rfl

instance : Packable false PictureOrder 1 :=
  ⟨fun _ => writable_packed_record (by simp [writable_encode])⟩

instance : NoDeeper PictureOrder := .of_record fun _ => rfl

instance : NoDeeper MovePictureOrder := .of_record fun _ => rfl

instance : NoDeeper ScalePictureOrder := .of_record fun _ => rfl

instance : NoDeeper RotatePictureOrder := .of_record fun _ => rfl

instance : NoDeeper FadePictureOrder := .of_record fun _ => rfl

instance : NoDeeper TintPictureOrder := .of_record fun _ => rfl

instance : NoDeeper SoundOrder := .of_record fun _ => rfl

instance : NoDeeper MusicOrder := .of_record fun _ => rfl

instance : NoDeeper MoveOrder := .of_record fun _ => rfl

instance : NoDeeper CharacterImage := .of_record fun _ => rfl

instance : NoDeeper CharacterChange := .of_record fun _ => rfl

instance : NoDeeper OpacityChange := .of_record fun _ => rfl

instance : NoDeeper Condition where
  depth_le {v c} h := by
    obtain ⟨⟨tag, fields⟩, hv, -⟩ := Option.bind_eq_some_iff.1 h
    have hpos : 0 < v.depth := by
      cases v with
      | map entries => exact Nat.succ_pos _
      | list items => exact Nat.succ_pos _
      | _ => cases hv
    exact Nat.le_trans (depth_encode_le c) hpos

theorem depth_lt_of_mem_unlessNull {w : Value} {n : Nat} (h : w.depth < n) :
    ∀ e ∈ unlessNull name w, e.2.depth < n := by
  intro e he
  cases w with
  | null => cases he
  | _ =>
    obtain rfl := List.mem_singleton.1 he
    exact h

instance : NoDeeper ChoiceCondition where
  depth_le {v c} h := by
    obtain ⟨f, hf, h⟩ := Option.bind_eq_some_iff.1 h
    simp only [Option.bind_eq_bind, Option.bind_eq_some_iff] at h
    obtain ⟨visible, hvisible, checked, hchecked, h⟩ := h
    obtain rfl := Option.some.inj h
    have hnone : (encode (none : Option Condition)).depth < v.depth := Fields.depth_pos hf
    refine depth_record_le (Fields.depth_pos hf) (List.forall_mem_append.2 ⟨?_, ?_⟩)
    · exact depth_lt_of_mem_unlessNull (Fields.depth_lt_of_withDefault hf hnone hvisible)
    · exact depth_lt_of_mem_unlessNull (Fields.depth_lt_of_withDefault hf hnone hchecked)

instance : NoDeeper ChoicesOrder where
  depth_le {v o} h := by
    obtain ⟨f, hf, h⟩ := Option.bind_eq_some_iff.1 h
    simp only [Option.bind_eq_bind, Option.bind_eq_some_iff] at h
    obtain ⟨choices, hchoices, conditions, hconditions, h⟩ := h
    obtain rfl := Option.some.inj h
    refine depth_record_le (Fields.depth_pos hf)
      (List.forall_mem_cons.2 ⟨Fields.depth_lt_of_required hf hchoices, ?_⟩)
    rcases Fields.eq_or_depth_lt_of_withDefault hf hconditions with rfl | hlt
    · exact fun e he => by cases he
    · split
      · exact fun e he => by cases he
      · exact List.forall_mem_singleton.2 hlt

theorem Operand.depth_encodeValue_le {kind : OperandKind} {v : Value} {o : Operand}
    (h : decodeValue? kind v = some o) : o.encodeValue.depth ≤ v.depth := by
  have hone : o.encodeValue.depth ≤ 1 :=
    (o.writable_encodeValue : o.encodeValue.Writable false 1).bounded.depth_le
  cases kind with
  | random | character | itemGroup | table =>
    obtain ⟨f, hf, -⟩ := Option.bind_eq_some_iff.1 h
    exact Nat.le_trans hone (Fields.depth_pos hf)
  | _ =>
    obtain ⟨x, -, rfl⟩ := Option.map_eq_some_iff.1 h
    exact Nat.zero_le _

instance : NoDeeper Assignment where
  depth_le {v a} h := by
    obtain ⟨f, hf, h⟩ := Option.bind_eq_some_iff.1 h
    simp only [Option.bind_eq_bind, Option.bind_eq_some_iff] at h
    obtain ⟨kind, hkind, value, hvalue, id, hid, source, hsource, op, hop, operand, hoperand,
      internal, hinternal, h⟩ := h
    obtain rfl := Option.some.inj h
    have hpos := Fields.depth_pos hf
    have hnull : (encode Value.null).depth < v.depth := hpos
    have hvalue' : value.depth < v.depth := Fields.depth_lt_of_withDefault hf hnull hvalue
    have hplain : operand.encodeValue.plain.depth < v.depth :=
      Nat.lt_of_le_of_lt (Nat.le_trans (depth_plain_le _) (Operand.depth_encodeValue_le hoperand))
        hvalue'
    refine depth_record_le hpos ?_
    simp only [List.forall_mem_cons]
    exact ⟨hpos, hpos, hpos, hpos, hplain, hpos, fun e he => by cases he⟩

/-! ## Actions -/

namespace Action

variable {args : Value}

theorem depth_le_of_decode? [NoDeeper α] (h : decode? .document args = some a) :
    (encode a).plain.depth ≤ args.depth :=
  Nat.le_trans (depth_plain_le _) (NoDeeper.depth_le h)

theorem depth_fieldArgs_le {fields : List (String × Value)}
    (hf : Fields.read? .document names args = some f)
    (h : ∀ e ∈ fields, e.2.depth < args.depth) : (fieldArgs fields).depth ≤ args.depth :=
  Nat.le_trans (depth_plain_le _) (depth_record_le (Fields.depth_pos hf) h)

theorem depth_le_of_oneField? [NoDeeper α] (h : oneField? name args = some a) :
    (fieldArgs [(name, encode a)]).depth ≤ args.depth := by
  obtain ⟨f, hf, ha⟩ := Option.bind_eq_some_iff.1 h
  exact depth_fieldArgs_le hf (List.forall_mem_singleton.2 (Fields.depth_lt_of_required hf ha))

theorem depth_le_of_bothFields? [NoDeeper α] [NoDeeper β] {first second : String} {r : α × β}
    (h : bothFields? first second args = some r) :
    (fieldArgs [(first, encode r.1), (second, encode r.2)]).depth ≤ args.depth := by
  simp only [bothFields?, Option.bind_eq_bind, Option.bind_eq_some_iff] at h
  obtain ⟨f, hf, a, ha, b, hb, h⟩ := h
  obtain rfl := Option.some.inj h
  refine depth_fieldArgs_le hf (List.forall_mem_cons.2 ⟨Fields.depth_lt_of_required hf ha, ?_⟩)
  exact List.forall_mem_singleton.2 (Fields.depth_lt_of_required hf hb)

theorem depth_le_of_twoFields? [NoDeeper α] [Packable false β 0] {first second : String}
    {default : β} {r : α × β} (h : twoFields? first second default args = some r) :
    (fieldArgs [(first, encode r.1), (second, encode r.2)]).depth ≤ args.depth := by
  simp only [twoFields?, Option.bind_eq_bind, Option.bind_eq_some_iff] at h
  obtain ⟨f, hf, a, ha, b, hb, h⟩ := h
  obtain rfl := Option.some.inj h
  refine depth_fieldArgs_le hf (List.forall_mem_cons.2 ⟨Fields.depth_lt_of_required hf ha, ?_⟩)
  exact List.forall_mem_singleton.2
    (Nat.lt_of_le_of_lt (depth_encode_le b) (Fields.depth_pos hf))

theorem depth_le_of_switchArgs? {action : Action} (h : switchArgs? args = some action) :
    action.args.depth ≤ args.depth := by
  simp only [switchArgs?, Option.bind_eq_bind, Option.bind_eq_some_iff] at h
  obtain ⟨f, hf, id, -, source, -, value, -, internal, -, h⟩ := h
  obtain rfl := Option.some.inj h
  have hpos := Fields.depth_pos hf
  refine depth_fieldArgs_le hf ?_
  simp only [List.forall_mem_cons]
  exact ⟨hpos, hpos, hpos, hpos, fun e he => by cases he⟩

theorem depth_le_of_fadeArgs? {time : UInt32} (h : fadeArgs? args = some time) :
    (fieldArgs [("fadeTime", encode time)]).depth ≤ args.depth := by
  obtain ⟨f, hf, -⟩ := Option.bind_eq_some_iff.1 h
  exact depth_fieldArgs_le hf (List.forall_mem_singleton.2 (Fields.depth_pos hf))

/-- An action that is understood is written no deeper than its arguments were. -/
theorem depth_args_le {action : Action} (h : ofArgs name args = some (some action)) :
    action.args.depth ≤ args.depth := by
  unfold ofArgs at h
  split at h
  -- one case a name, then the names that are not known
  all_goals first
    | (obtain rfl := Option.some.inj (Option.some.inj h); exact Nat.zero_le _)
    | exact depth_le_of_switchArgs? (Option.some.inj h)
    | (obtain ⟨x, hx, rfl⟩ := Option.map_eq_some_iff.1 (Option.some.inj h)
       dsimp only [Action.args]
       with_reducible first
         | exact depth_le_of_oneField? hx
         | exact depth_le_of_decode? hx
         | exact depth_le_of_bothFields? hx
         | exact depth_le_of_twoFields? hx
         | exact depth_le_of_fadeArgs? hx)
    | cases h

theorem depth_read_le (name : String) (args : Value) :
    (read name args).args.depth ≤ args.depth := by
  unfold read
  split
  · next h => exact depth_args_le h
  · exact Nat.le_refl _
  · exact Nat.le_refl _

end Action

/-! ## Commands -/

namespace Command

theorem depth_record_le {name : String} {args : Value} {branches : List Value} {n : Nat}
    (hargs : args.depth < n) (hbranches : branches = [] ∨ (Value.list branches).depth < n) :
    (Command.record name args branches).depth ≤ n := by
  have hpos : 0 < n := Nat.lt_of_le_of_lt (Nat.zero_le _) hargs
  refine Value.depth_record_le hpos (List.forall_mem_append.2 ⟨?_, ?_⟩)
  · simp only [List.forall_mem_cons]
    exact ⟨hpos, hargs, fun e he => by cases he⟩
  · split
    · exact fun e he => by cases he
    · next hne =>
      rcases hbranches with rfl | hlt
      · exact absurd rfl hne
      · exact List.forall_mem_singleton.2 hlt

theorem depth_routeArgs_le {read : Value → Option Command} {order : RouteOrder} {body : Script}
    (hread : ∀ {w : Value} {c : Command}, read w = some c → (toValue c).depth ≤ w.depth)
    (h : routeArgs? read v = some (order, body)) :
    (Action.fieldArgs (routeFields order body)).depth ≤ v.depth := by
  simp only [routeArgs?, Option.bind_eq_bind, Option.bind_eq_some_iff] at h
  obtain ⟨f, hf, id, -, repeats, -, skip, -, wait, -, commands, ⟨x, hx, hbody⟩, h⟩ := h
  obtain ⟨-, rfl⟩ := Prod.mk.inj (Option.some.inj h)
  have hpos := Fields.depth_pos hf
  have hlist := depth_list_le hread hbody
  rw [← listToValues_eq] at hlist
  refine Action.depth_fieldArgs_le hf ?_
  simp only [routeFields, List.forall_mem_cons]
  exact ⟨hpos, hpos, hpos, hpos, Nat.lt_of_le_of_lt hlist (Fields.part_of_read hf hx).depth_lt,
    fun e he => by cases he⟩

/-- A command is written no deeper than it was read. -/
theorem depth_toValue_le {fuel : Nat} : ∀ {v : Value} {c : Command},
    ofValueWithin? fuel .document v = some c → (toValue c).depth ≤ v.depth := by
  induction fuel with
  | zero => exact fun h => by cases h
  | succ fuel ih =>
    intro v c h
    simp only [ofValueWithin?, Option.bind_eq_bind, Option.bind_eq_some_iff] at h
    obtain ⟨f, hf, name, -, args, hargs, branches, hbranches, h⟩ := h
    have hnull : (encode Value.null).depth < v.depth := Fields.depth_pos hf
    have hargs' : args.depth < v.depth := Fields.depth_lt_of_withDefault hf hnull hargs
    have hlists : listsToValues branches = [] ∨
        (Value.list (listsToValues branches)).depth < v.depth := by
      unfold Fields.orElse at hbranches
      split at hbranches
      · next x hx =>
        have hlist := depth_list_le (fun h => depth_list_le ih h) hbranches
        simp only [← listToValues_eq, ← listsToValues_eq] at hlist
        exact .inr (Nat.lt_of_le_of_lt hlist (Fields.part_of_read hf hx).depth_lt)
      · obtain rfl := Option.some.inj hbranches
        exact .inl rfl
    split at h
    · split at h
      · next order body hbody =>
        obtain rfl := Option.some.inj h
        exact depth_record_le (Nat.lt_of_le_of_lt (depth_routeArgs_le ih hbody) hargs') hlists
      · obtain rfl := Option.some.inj h
        exact depth_record_le hargs' hlists
    · obtain rfl := Option.some.inj h
      exact depth_record_le (Nat.lt_of_le_of_lt (Action.depth_read_le _ _) hargs') hlists

end Command

instance : NoDeeper Command := ⟨Command.depth_toValue_le⟩

end Adventure
