import Adventure.Proofs.Script.Commands

/-!
# Scripts of documents

Whatever is read from a document as a command is storable.
-/

namespace Adventure

open Wire Wire.Value

/-- Doubles in plain data are finite. -/
theorem isFinite_of_decode? {v : Value} {x : Binary64} {depth : Nat} (hv : v.Writable true depth)
    (h : decode? .document v = some x) : x.isFinite = true := by
  cases v with
  | float y =>
    obtain rfl := Option.some.inj h
    exact hv rfl
  | int n =>
    obtain rfl := Option.some.inj h
    refine Binary64.isFinite_ofInt ?_
    rw [Writable] at hv
    omega
  | formed form n => exact hv.elim
  | _ => cases h

/-- The origin of a picture is finite where its order is plain data. -/
theorem PictureOrder.isFinite_of_decode? {args : Value} {o : PictureOrder} {depth : Nat}
    (hargs : args.Writable true depth) (h : decode? .document args = some o) :
    o.originX.isFinite = true ∧ o.originY.isFinite = true := by
  obtain ⟨f, hf, h⟩ := Option.bind_eq_some_iff.1 h
  have hfinite : ∀ {name : String} {x : Binary64},
      f.withDefault .document name centred = some x → x.isFinite = true := by
    intro name x hx
    unfold Fields.withDefault Fields.orElse at hx
    split at hx
    · next v hv =>
      exact Adventure.isFinite_of_decode? ((Fields.part_of_read hf hv).writable hargs).2 hx
    · obtain rfl := Option.some.inj hx
      decide
  simp only [Option.bind_eq_bind, Option.bind_eq_some_iff] at h
  obtain ⟨id, -, image, -, originX, hx, originY, hy, h⟩ := h
  obtain ⟨x, -, y, -, source, -, scaleX, -, scaleY, -, angle, -, opacity, -, blend, -, h⟩ := h
  obtain rfl := Option.some.inj h
  exact ⟨hfinite hx, hfinite hy⟩

namespace Action

theorem eq_of_switchArgs? {args : Value} {action : Action} (h : switchArgs? args = some action) :
    ∃ id source value internal, action = setSwitch id source value internal := by
  simp only [switchArgs?, Option.bind_eq_bind, Option.bind_eq_some_iff] at h
  obtain ⟨f, -, id, -, source, -, value, -, internal, -, h⟩ := h
  exact ⟨id, source, value, internal, (Option.some.inj h).symm⟩

/-- An action that is understood has the name that it was read from. -/
theorem name_of_ofArgs {name : String} {args : Value} {action : Action}
    (h : ofArgs name args = some (some action)) :
    action.name = name ∧ (Command.act action []).misreading? = none := by
  unfold ofArgs at h
  split at h
  -- one case a name, then the names that are not known
  all_goals first
    | (obtain rfl := Option.some.inj (Option.some.inj h); exact ⟨rfl, rfl⟩)
    | (obtain ⟨x, -, rfl⟩ := Option.map_eq_some_iff.1 (Option.some.inj h); exact ⟨rfl, rfl⟩)
    | (obtain ⟨id, source, value, internal, rfl⟩ := eq_of_switchArgs? (Option.some.inj h)
       exact ⟨rfl, rfl⟩)
    | cases h

/-- An action that is read keeps its name, and its arguments if they are not understood. -/
theorem read_spec (name : String) (args : Value) : (read name args).name = name ∧
    ((Command.act (read name args) []).misreading?.isSome → (read name args).args = args) := by
  unfold read
  split
  · next h =>
    obtain ⟨hname, hunderstood⟩ := name_of_ofArgs h
    refine ⟨hname, fun hmisread => ?_⟩
    rw [hunderstood] at hmisread
    cases hmisread
  · exact ⟨rfl, fun _ => rfl⟩
  · exact ⟨rfl, fun _ => rfl⟩

/-- An action that is understood from plain data is proper. -/
theorem isProper_of_ofArgs {name : String} {args : Value} {action : Action} {depth : Nat}
    (hargs : args.Writable true depth) (h : ofArgs name args = some (some action)) :
    action.IsProper := by
  unfold ofArgs at h
  split at h
  -- one case a name, then the names that are not known
  all_goals first
    | (obtain rfl := Option.some.inj (Option.some.inj h); exact trivial)
    | (obtain ⟨id, source, value, internal, rfl⟩ := eq_of_switchArgs? (Option.some.inj h)
       exact trivial)
    | (obtain ⟨x, hx, rfl⟩ := Option.map_eq_some_iff.1 (Option.some.inj h); exact trivial)
    | (obtain ⟨x, hx, rfl⟩ := Option.map_eq_some_iff.1 (Option.some.inj h)
       exact PictureOrder.isFinite_of_decode? hargs hx)
    | cases h

/-- Whatever is read from plain data is storable. -/
theorem storable_read {name : String} {args : Value} {depth : Nat} (hname : name ≠ "set_route")
    (hplain : args.plain? = some args) (hargs : args.Writable true depth) :
    (read name args).Storable depth := by
  have hkept : ∀ why, read name args = .unrecognized name args why →
      (unrecognized name args why).Storable depth := by
    intro why hread
    refine ⟨hplain, hargs, ?_⟩
    rw [Misread, if_neg hname, hread]
  unfold read at hkept ⊢
  split
  · next action haction =>
    have hproper := isProper_of_ofArgs hargs haction
    cases action with
    | unrecognized name args why => exact hproper.elim
    | _ => exact hproper
  · next hread => exact hkept _ (by simp [hread])
  · next hread => exact hkept _ (by simp [hread])

end Action

namespace Command

/-- No command is read from a byte of bytes that stand for a list. -/
theorem ofValueWithin?_octet (fuel : Nat) (m : Medium) (n : Int) :
    ofValueWithin? fuel m (.formed .octet n) = none := by
  cases fuel <;> rfl

/-- A list has a level of its own, except that bytes may stand for an empty one. -/
theorem pos_of_readList {α : Type} {m : Medium} {read : Value → Option α} {v : Value} {xs : List α}
    {depth extra : Nat} (hextra : m = .document ∨ 0 < extra) (hv : v.Bounded depth)
    (h : readList? m read v = some xs) : 0 < depth + extra := by
  rcases hextra with rfl | hpos
  · cases v with
    | list items =>
      rw [Bounded] at hv
      exact Nat.add_pos_left hv.1 _
    | bytes data => simp [readList?, items?] at h
    | _ => cases h
  · exact Nat.add_pos_right _ hpos

/-- The fields of a record with a name are parts of it. -/
theorem part_of_named {m : Medium} {v : Value} {f : Fields} {name : String}
    (hf : Fields.read? m ["name", "args", "branches"] v = some f)
    (hname : f.required m "name" = some name) {key : String} {x : Value}
    (hx : f.find? key = some x) : x.Part v := by
  refine Fields.part_of_read_of_ne ?_ hf hx
  rintro data rfl
  simp only [Fields.read?] at hf
  split at hf
  · obtain rfl := Option.some.inj hf
    cases data <;> cases hname
  · cases hf

/-- The body of a route is read from parts of its arguments. -/
theorem part_of_routeArgs {read : Value → Option Command} {args : Value} {order : RouteOrder}
    {body : Script} (h : routeArgs? read args = some (order, body)) :
    ∀ c ∈ body, ∃ x y : Value, x.Part args ∧ y.Part x ∧ read y = some c := by
  simp only [routeArgs?, Option.bind_eq_bind, Option.bind_eq_some_iff] at h
  obtain ⟨f, hf, id, -, repeats, -, skip, -, wait, -, commands, ⟨x, hx, hread⟩, h⟩ := h
  obtain ⟨-, rfl⟩ := Prod.mk.inj (Option.some.inj h)
  intro c hc
  obtain ⟨y, hy, hyc⟩ := part_of_readList hread c hc
  exact ⟨x, y, Fields.part_of_read hf hx, hy, hyc⟩

/-- A command that is read is storable, one level deeper where bytes may stand for lists. -/
theorem storable_of_readWithin {fuel extra : Nat} : ∀ {m : Medium} {depth : Nat} {v : Value}
    {c : Command}, m = .document ∨ 0 < extra → v.Bounded depth → depth < fuel →
      ofValueWithin? fuel m v = some c → c.Storable (depth + extra) := by
  induction fuel with
  | zero => exact fun _ _ h _ => absurd h (Nat.not_lt_zero _)
  | succ fuel ih =>
    intro m depth v c hextra hv hfuel hc
    simp only [ofValueWithin?, Option.bind_eq_bind, Option.bind_eq_some_iff] at hc
    obtain ⟨f, hf, name, hname, args, hargs, branches, hbranches, hc⟩ := hc
    have hpart : ∀ {key : String} {x : Value}, f.find? key = some x → x.Part v :=
      part_of_named hf hname
    obtain ⟨hplain, hwritable⟩ := plain_of_args hv hpart hargs
    have hpos : 0 < depth := by
      obtain ⟨x, hx, -⟩ := Option.bind_eq_some_iff.1 hname
      exact ((hpart hx).bounded hv).1
    have hdeeper : args.Writable true (depth + extra - 1) := hwritable.mono (by omega)
    have hlists : StorableLists (depth + extra - 2) branches := by
      unfold Fields.orElse at hbranches
      split at hbranches
      · next x hx =>
        have hxv := ((hpart hx).bounded hv).2
        refine storableLists_iff.2 fun script hscript => ?_
        obtain ⟨y, hy | ⟨-, n, rfl⟩, hread⟩ := part_or_octet_of_readList hbranches script hscript
        · obtain ⟨hposx, hyx⟩ := hy.bounded hxv
          have hlevel := pos_of_readList hextra hyx hread
          refine ⟨by omega, storableList_iff.2 fun c hc => ?_⟩
          obtain ⟨z, hz | ⟨-, n, rfl⟩, hzc⟩ := part_or_octet_of_readList hread c hc
          · obtain ⟨hposy, hzy⟩ := hz.bounded hyx
            have hsame : depth + extra - 2 - 1 = depth - 1 - 1 - 1 + extra := by omega
            rw [hsame]
            exact ih hextra hzy (by omega) hzc
          · rw [ofValueWithin?_octet] at hzc
            cases hzc
        · cases hread
      · obtain rfl := Option.some.inj hbranches
        trivial
    split at hc
    · next hroute =>
      split at hc
      · next order body hbody =>
        obtain rfl := Option.some.inj hc
        refine ⟨by omega, storableList_iff.2 fun c hc => ?_, hlists⟩
        obtain ⟨x, y, hx, hy, hyc⟩ := part_of_routeArgs hbody c hc
        obtain ⟨hposv, hxv⟩ := hx.bounded hwritable.bounded
        obtain ⟨hposx, hyv⟩ := hy.bounded hxv
        have hsame : depth + extra - 3 = depth - 1 - 1 - 1 + extra := by omega
        rw [hsame]
        exact ih (.inl rfl) hyv (by omega) hyc
      · next hnone =>
        obtain rfl := Option.some.inj hc
        refine ⟨by omega, ⟨hplain, hdeeper, ?_⟩, hlists⟩
        rw [Action.Misread, if_pos hroute]
        refine ⟨rfl, hnone ▸ routeArgs?_congr hwritable.bounded fun x _ hx => ?_⟩
        exact ofValue?_eq hx (by omega)
    · next hother =>
      obtain rfl := Option.some.inj hc
      exact ⟨by omega, Action.storable_read hother hplain hdeeper, hlists⟩

theorem storable_of_read {depth : Nat} {v : Value} {c : Command} (hv : v.Bounded depth)
    (h : ofValue? .document v = some c) : c.Storable depth := by
  rw [ofValue?_eq hv (Nat.lt_succ_self depth)] at h
  show c.Storable (depth + 0)
  exact storable_of_readWithin (.inl rfl) hv (Nat.lt_succ_self depth) h

/-- A command of either medium is storable. -/
theorem storable_of_ofValue? {m : Medium} {v : Value} {c : Command} {depth : Nat}
    (hv : v.Bounded depth) (h : ofValue? m v = some c) : c.Storable (v.depth + 1) :=
  storable_of_readWithin (.inr Nat.one_pos) (hv.of_depth_le (Nat.le_refl _)) (Nat.lt_succ_self _) h

end Command

end Adventure
