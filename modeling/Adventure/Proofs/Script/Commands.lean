import Adventure.Proofs.Script.Actions
import Adventure.Proofs.Wire.Parts
import Adventure.Script.Command

/-!
# Command trees come back

`Command.Storable` says of a command tree that it is one that a document holds: it is nested at most
so deeply, and what was not understood still is not.  A storable command can be written, and it is
read from whatever comes back of it.
-/

namespace Adventure

open Wire Wire.Value

namespace Command

/-! ## Lists -/

theorem listToValues_eq (script : Script) : listToValues script = script.map toValue := by
  induction script with
  | nil => rfl
  | cons command rest ih => rw [listToValues, ih, List.map_cons]

theorem listsToValues_eq (lists : List Script) :
    listsToValues lists = lists.map fun list => .list (listToValues list) := by
  induction lists with
  | nil => rfl
  | cons list rest ih => rw [listsToValues, ih, List.map_cons]

theorem readList?_of_retold {α : Type} {m : Medium} {read : Value → Option α}
    {write : α → Value} {xs : List α} {v : Value}
    (hread : ∀ x ∈ xs, ∀ v, (write x).Retold v → read v = some x)
    (h : (Value.list (xs.map write)).Retold v) : readList? m read v = some xs := by
  rw [Retold] at h
  obtain ⟨items, hitems, rfl⟩ := h
  exact decodeItems?_of_retold hread hitems

theorem exists_item {α : Type} {read : Value → Option α} {items : List Value} {xs : List α}
    (h : decodeItems? read items = some xs) : ∀ x ∈ xs, ∃ v ∈ items, read v = some x := by
  induction items generalizing xs with
  | nil =>
    obtain rfl := Option.some.inj h
    exact fun _ hx => by cases hx
  | cons v rest ih =>
    rw [decodeItems?] at h
    split at h
    · next y ys hy hys =>
      obtain rfl := Option.some.inj h
      refine List.forall_mem_cons.2 ⟨⟨v, List.mem_cons_self, hy⟩, fun x hx => ?_⟩
      obtain ⟨v', hv', hread⟩ := ih hys x hx
      exact ⟨v', List.mem_cons_of_mem _ hv', hread⟩
    · cases h

/-- The members of a list are read from parts of it, or from bytes that stand for them. -/
theorem part_or_octet_of_readList {α : Type} {m : Medium} {read : Value → Option α} {v : Value}
    {xs : List α} (h : readList? m read v = some xs) :
    ∀ x ∈ xs, ∃ y, (y.Part v ∨ m = .packed ∧ ∃ n, y = .formed .octet n) ∧ read y = some x := by
  intro x hx
  obtain ⟨items, hitems, hread⟩ := Option.bind_eq_some_iff.1 h
  obtain ⟨y, hy, hyx⟩ := exists_item hread x hx
  refine ⟨y, ?_, hyx⟩
  cases v with
  | list items' =>
    obtain rfl := Option.some.inj hitems
    exact .inl (.item hy)
  | bytes data =>
    simp only [items?] at hitems
    split at hitems
    · next hpacked =>
      obtain rfl := Option.some.inj hitems
      obtain ⟨b, -, rfl⟩ := List.mem_map.1 hy
      exact .inr ⟨hpacked, _, rfl⟩
    · cases hitems
  | _ => cases hitems

/-- The members of a list in a document are read from parts of it. -/
theorem part_of_readList {α : Type} {read : Value → Option α} {v : Value} {xs : List α}
    (h : readList? .document read v = some xs) : ∀ x ∈ xs, ∃ y, y.Part v ∧ read y = some x := by
  intro x hx
  obtain ⟨y, hy | ⟨hpacked, -⟩, hyx⟩ := part_or_octet_of_readList h x hx
  · exact ⟨y, hy, hyx⟩
  · cases hpacked

theorem decodeItems?_congr {α : Type} {read read' : Value → Option α} {items : List Value}
    (h : ∀ x ∈ items, read x = read' x) : decodeItems? read items = decodeItems? read' items := by
  induction items with
  | nil => rfl
  | cons x rest ih =>
    obtain ⟨hfirst, hrest⟩ := List.forall_mem_cons.1 h
    rw [decodeItems?, decodeItems?, hfirst, ih hrest]

/-- Readers that agree on the parts of a tree read the same list from it. -/
theorem readList?_congr {α : Type} {read read' : Value → Option α} {v : Value}
    (h : ∀ x : Value, x.Part v → read x = read' x) :
    readList? .document read v = readList? .document read' v := by
  cases v with
  | list items => exact decodeItems?_congr fun x hx => h x (.item hx)
  | _ => rfl

theorem routeArgs?_congr {read read' : Value → Option Command} {args : Value} {depth : Nat}
    (hargs : args.Bounded depth)
    (h : ∀ x : Value, 0 < depth → x.Bounded (depth - 1 - 1) → read x = read' x) :
    routeArgs? read args = routeArgs? read' args := by
  simp only [routeArgs?, Option.bind_eq_bind]
  refine Option.bind_congr fun f hf => ?_
  have hbody : (f.find? "commands").bind (readList? .document read) =
      (f.find? "commands").bind (readList? .document read') := by
    refine Option.bind_congr fun x hx => readList?_congr fun y hy => ?_
    obtain ⟨hpos, hx⟩ := (Fields.part_of_read hf hx).bounded hargs
    exact h y hpos (hy.bounded hx).2
  rw [hbody]

/-- The arguments of a command are plain data. -/
theorem plain_of_args {m : Medium} {v args : Value} {f : Fields} {depth : Nat}
    (hv : v.Bounded depth) (hpart : ∀ {x : Value}, f.find? "args" = some x → x.Part v)
    (hargs : f.withDefault m "args" Value.null = some args) :
    args.plain? = some args ∧ args.Writable true (depth - 1) := by
  unfold Fields.withDefault Fields.orElse at hargs
  split at hargs
  · next x hx =>
    exact ⟨plain?_of_plain? hargs, writable_of_plain? hargs ((hpart hx).bounded hv).2⟩
  · obtain rfl := Option.some.inj hargs
    exact ⟨rfl, trivial⟩

/-- Fuel does not matter where there is enough of it. -/
theorem ofValueWithin?_fuel {fuel : Nat} : ∀ {fuel' depth : Nat} {v : Value}, v.Bounded depth →
    depth < fuel → depth < fuel' →
      ofValueWithin? fuel .document v = ofValueWithin? fuel' .document v := by
  induction fuel with
  | zero => exact fun _ h _ => absurd h (Nat.not_lt_zero _)
  | succ fuel ih =>
    intro fuel' depth v hv hfuel hfuel'
    obtain ⟨fuel', rfl⟩ : ∃ n, fuel' = n + 1 := ⟨fuel' - 1, by omega⟩
    simp only [ofValueWithin?, Option.bind_eq_bind]
    refine Option.bind_congr fun f hf => Option.bind_congr fun name _ =>
      Option.bind_congr fun args hargs => ?_
    -- the commands of a branch are parts of parts of a part, those of a route stand deeper still
    have hbranches : f.orElse (readList? .document (readList? .document
        (ofValueWithin? fuel .document))) "branches" [] = f.orElse (readList? .document
          (readList? .document (ofValueWithin? fuel' .document))) "branches" [] := by
      unfold Fields.orElse
      split
      · next x hx =>
        obtain ⟨hpos, hx⟩ := (Fields.part_of_read hf hx).bounded hv
        refine readList?_congr fun y hy => readList?_congr fun z hz => ?_
        exact ih (hz.bounded (hy.bounded hx).2).2 (by omega) (by omega)
      · rfl
    have hroute : routeArgs? (ofValueWithin? fuel .document) args =
        routeArgs? (ofValueWithin? fuel' .document) args := by
      refine routeArgs?_congr (plain_of_args hv (Fields.part_of_read hf) hargs).2.bounded
        fun x hpos hx => ?_
      exact ih hx (by omega) (by omega)
    rw [hbranches, hroute]

theorem ofValue?_eq {fuel depth : Nat} {v : Value} (hv : v.Bounded depth) (hfuel : depth < fuel) :
    ofValue? .document v = ofValueWithin? fuel .document v :=
  ofValueWithin?_fuel (hv.of_depth_le (Nat.le_refl _)) (Nat.lt_succ_self _)
    (Nat.lt_of_le_of_lt hv.depth_le hfuel)

/-! ## Storable commands -/

end Command

/-- Whether the arguments of an action that was not understood still are not. -/
def Action.Misread (name : String) (args : Value) (why : Misreading) : Prop :=
  if name = "set_route" then
    why = .malformedArgs ∧ Command.routeArgs? (Command.ofValue? .document) args = none
  else read name args = .unrecognized name args why

/-- Whether a document may hold an action, with arguments nested at most `depth` deep where they
were not understood. -/
def Action.Storable (depth : Nat) : Action → Prop
  | unrecognized name args why =>
      args.plain? = some args ∧ args.Writable true depth ∧ Misread name args why
  | action => action.IsProper

/-- A storable action was understood, or is kept as it stood. -/
theorem Action.Storable.understood_or {depth : Nat} {action : Action} (h : action.Storable depth) :
    action.IsProper ∨ ∃ name args why, action = .unrecognized name args why ∧
      args.plain? = some args ∧ args.Writable true depth ∧ Misread name args why := by
  cases action with
  | unrecognized name args why => exact .inr ⟨name, args, why, rfl, h⟩
  | _ => exact .inl h

namespace Command

mutual

/-- Whether a document that is nested at most `depth` deep may hold a command. -/
def Storable : (depth : Nat) → Command → Prop
  | depth, act action branches =>
      0 < depth ∧ action.Storable (depth - 1) ∧ StorableLists (depth - 2) branches
  | depth, route _ body branches =>
      0 < depth ∧ StorableList (depth - 3) body ∧ StorableLists (depth - 2) branches

def StorableLists : (depth : Nat) → List Script → Prop
  | _, [] => True
  | depth, script :: rest =>
      0 < depth ∧ StorableList (depth - 1) script ∧ StorableLists depth rest

def StorableList : (depth : Nat) → Script → Prop
  | _, [] => True
  | depth, command :: rest => Storable depth command ∧ StorableList depth rest

end

theorem storableList_iff {depth : Nat} {script : Script} :
    StorableList depth script ↔ ∀ c ∈ script, c.Storable depth := by
  induction script with
  | nil => simp [StorableList]
  | cons c rest ih => simp [StorableList, ih]

theorem storableLists_iff {depth : Nat} {lists : List Script} :
    StorableLists depth lists ↔ ∀ script ∈ lists, 0 < depth ∧ StorableList (depth - 1) script := by
  induction lists with
  | nil => simp [StorableLists]
  | cons script rest ih => simp [StorableLists, ih, and_assoc]

/-! ## Writing -/

theorem writable_record {name : String} {args : Value} {branches : List Value} {depth : Nat}
    (hargs : args.Writable true (depth + 1))
    (hbranches : ∀ x ∈ branches, x.Writable true depth) :
    (Command.record name args branches).Writable true (depth + 2) := by
  have hname : (Value.text name).Writable true (depth + 1) := trivial
  have hlist : (Value.list branches).Writable true (depth + 1) := writable_list hbranches
  unfold Command.record
  split <;> exact Value.writable_record (by simp) (by simp [hname, hargs, hlist])

theorem writable_args {action : Action} {depth : Nat} (h : action.Storable depth) :
    action.args.Writable true (depth + 4) := by
  rcases h.understood_or with hproper | ⟨name, args, why, rfl, _, hwritable, _⟩
  · exact hproper.kept.writable.mono (Nat.le_add_left _ _)
  · exact hwritable.mono (Nat.le_add_right _ _)

/-- The arguments of a route, before they are put in order. -/
def routeFields (order : RouteOrder) (body : Script) : List (String × Value) :=
  [("eventId", encode order.eventId), ("repeat", encode order.repeats), ("skip", encode order.skip),
    ("wait", encode order.wait), ("commands", .list (listToValues body))]

theorem writable_routeFields {order : RouteOrder} {body : Script} {depth : Nat}
    (hbody : ∀ x ∈ listToValues body, x.Writable true depth) :
    (Value.record (routeFields order body)).Writable true (depth + 2) := by
  have hlist : (Value.list (listToValues body)).Writable true (depth + 1) := writable_list hbody
  exact Value.writable_record (by simp [routeFields])
    (by simp [routeFields, writable_encode, hlist])

mutual

/-- A storable command can be written, in a tree that is nested not much deeper. -/
theorem Storable.writable : ∀ {c : Command} {depth : Nat}, c.Storable depth →
    (toValue c).Writable true (depth + 5)
  | act action branches, depth, h => by
    rw [Storable] at h
    obtain ⟨hpos, haction, hbranches⟩ := h
    refine writable_record ((writable_args haction).mono (by omega)) fun x hx => ?_
    obtain ⟨hdepth, hwritable⟩ := StorableLists.writable hbranches x hx
    exact hwritable.mono (by omega)
  | route order body branches, depth, h => by
    rw [Storable] at h
    obtain ⟨hpos, hbody, hbranches⟩ := h
    refine writable_record (Writable.plain (writable_routeFields fun x hx => ?_)) fun x hx => ?_
    · obtain ⟨hdepth, hwritable⟩ := StorableList.writable hbody x hx
      exact hwritable.mono (by omega)
    · obtain ⟨hdepth, hwritable⟩ := StorableLists.writable hbranches x hx
      exact hwritable.mono (by omega)

theorem StorableLists.writable : ∀ {lists : List Script} {depth : Nat}, StorableLists depth lists →
    ∀ x ∈ listsToValues lists, 0 < depth ∧ x.Writable true (depth + 5)
  | [], _, _ => fun _ hx => by cases hx
  | script :: rest, depth, h => by
    rw [StorableLists] at h
    rw [listsToValues]
    refine List.forall_mem_cons.2 ⟨⟨h.1, ?_⟩, StorableLists.writable h.2.2⟩
    refine writable_list fun x hx => ?_
    obtain ⟨hdepth, hwritable⟩ := StorableList.writable h.2.1 x hx
    exact hwritable.mono (by omega)

theorem StorableList.writable : ∀ {script : Script} {depth : Nat}, StorableList depth script →
    ∀ x ∈ listToValues script, 0 < depth ∧ x.Writable true (depth + 5)
  | [], _, _ => fun _ hx => by cases hx
  | command :: rest, depth, h => by
    rw [StorableList] at h
    rw [listToValues]
    refine List.forall_mem_cons.2 ⟨⟨?_, Storable.writable h.1⟩, StorableList.writable h.2⟩
    cases command with
    | act action branches =>
      rw [Storable] at h
      exact h.1.1
    | route order body branches =>
      rw [Storable] at h
      exact h.1.1

end

/-! ## Reading -/

/-- A command that is written as a record is read from its name, its arguments and its branches. -/
theorem ofValueWithin?_record {fuel : Nat} {m : Medium} {v : Value} {name : String} {args : Value}
    {values : List Value} {branches : List Script}
    (h : (Command.record name args values).Retold v) (hargs : args.plain? = some args)
    (hbranches : ∀ x, (Value.list values).Retold x →
      readList? m (readList? m (ofValueWithin? fuel m)) x = some branches)
    (hempty : values = [] → branches = []) :
    ofValueWithin? (fuel + 1) m v =
      if name = "set_route" then
        match routeArgs? (ofValueWithin? fuel .document) args with
        | some (order, body) => some (.route order body branches)
        | none => some (.act (.unrecognized name args .malformedArgs) branches)
      else some (.act (Action.read name args) branches) := by
  have hread : ∃ f, Fields.read? m ["name", "args", "branches"] v = some f ∧
      f.required m "name" = some name ∧ f.withDefault m "args" Value.null = some args ∧
        f.orElse (readList? m (readList? m (ofValueWithin? fuel m))) "branches" [] =
          some branches := by
    cases values with
    | nil =>
      have hknown : ["name", "args"].Sublist ["name", "args", "branches"] := by decide
      obtain ⟨f, hf, htells⟩ := Fields.exists_read (m := m) h hknown (by decide)
      refine ⟨f, hf, htells.required "name" name rfl,
        htells.withDefaultOf "args" (told_plain hargs) rfl, ?_⟩
      rw [Fields.orElse, htells.absent (by simp), hempty rfl]
    | cons x rest =>
      have hknown : ["name", "args", "branches"].Sublist ["name", "args", "branches"] := .refl _
      obtain ⟨f, hf, htells⟩ := Fields.exists_read (m := m) h hknown (by decide)
      exact ⟨f, hf, htells.required "name" name rfl,
        htells.withDefaultOf "args" (told_plain hargs) rfl, htells.orElse "branches" rfl hbranches⟩
  obtain ⟨f, hf, hname, hargs', hbranches'⟩ := hread
  simp only [ofValueWithin?, hf, Option.bind_eq_bind, Option.bind_some, hname, hargs', hbranches']
  rfl

theorem depth_record (name : String) (args : Value) (branches : List Value) :
    args.depth < (Command.record name args branches).depth ∧
      depthOfItems branches < (Command.record name args branches).depth := by
  cases branches with
  | nil =>
    simp only [Command.record, Value.record, Value.depth, depthOfItems, depthOfEntries,
      List.map_cons, List.map_nil, List.nil_append, List.cons_append,
      List.isEmpty_nil, if_true]
    omega
  | cons x rest =>
    simp only [Command.record, Value.record, Value.depth, depthOfItems, depthOfEntries,
      List.map_cons, List.map_nil, List.nil_append, List.cons_append,
      List.isEmpty_cons, Bool.false_eq_true, if_false]
    omega

theorem depth_routeFields (order : RouteOrder) (body : Script) :
    depthOfItems (listToValues body) < (Value.record (routeFields order body)).depth := by
  simp only [routeFields, Value.record, Value.depth, depthOfEntries, List.map_cons, List.map_nil]
  omega

/-- The body of a route is read from its arguments. -/
theorem routeArgs?_of_retold {read : Value → Option Command} {order : RouteOrder} {body : Script}
    {v : Value} (hread : ∀ c ∈ body, ∀ v, (toValue c).Retold v → read v = some c)
    (h : (Value.record (routeFields order body)).Retold v) :
    routeArgs? read v = some (order, body) := by
  refine read_record h (.refl _) (by decide) fun f hf => ?_
  have hbody : (f.find? "commands").bind (readList? .document read) = some body := by
    refine hf.requiredBy "commands" rfl fun v' hv' => ?_
    rw [listToValues_eq] at hv'
    exact readList?_of_retold hread hv'
  simp [hf.withDefault "eventId" order.eventId 0 rfl,
    hf.withDefault "repeat" order.repeats false rfl,
    hf.withDefault "skip" order.skip false rfl, hf.withDefault "wait" order.wait false rfl, hbody]

/-- An action by itself is read from its record. -/
theorem ofValueWithin?_act {action : Action} {depth fuel : Nat} {m : Medium} {v : Value}
    {values : List Value} {branches : List Script} (haction : action.Storable depth)
    (h : (Command.record action.name action.args values).Retold v)
    (hfuel : action.args.depth ≤ fuel)
    (hbranches : ∀ x, (Value.list values).Retold x →
      readList? m (readList? m (ofValueWithin? fuel m)) x = some branches)
    (hempty : values = [] → branches = []) :
    ofValueWithin? (fuel + 1) m v = some (.act action branches) := by
  rcases haction.understood_or with hproper | ⟨name, args, why, rfl, hplain, hwritable, hmisread⟩
  · have hkept := Action.IsProper.kept hproper
    rw [ofValueWithin?_record h hkept.plain hbranches hempty,
      if_neg (Action.IsProper.name_ne hproper), hkept.read]
  · change (Command.record name args values).Retold v at h
    change args.depth ≤ fuel at hfuel
    rw [ofValueWithin?_record h hplain hbranches hempty]
    unfold Action.Misread at hmisread
    by_cases hname : name = "set_route"
    · rw [if_pos hname] at hmisread ⊢
      obtain ⟨rfl, hroute⟩ := hmisread
      -- the document was read with other fuel, but there was enough of it
      have hbounded : args.Bounded args.depth := hwritable.bounded.of_depth_le (Nat.le_refl _)
      have hsame : routeArgs? (ofValueWithin? fuel .document) args =
          routeArgs? (ofValue? .document) args :=
        routeArgs?_congr hbounded fun x hpos hx => (ofValue?_eq hx (by omega)).symm
      rw [hsame, hroute]
    · rw [if_neg hname] at hmisread ⊢
      rw [hmisread]

theorem listsToValues_eq_nil {lists : List Script} (h : listsToValues lists = []) : lists = [] := by
  cases lists with
  | nil => rfl
  | cons script rest => cases h

mutual

/-- A storable command is read from whatever comes back of it. -/
theorem Storable.read : ∀ {m : Medium} {c : Command} {depth fuel : Nat} {v : Value},
    c.Storable depth → (toValue c).Retold v → (toValue c).depth < fuel →
      ofValueWithin? fuel m v = some c
  | m, act action branches, depth, fuel, v, h, htold, hfuel => by
    rw [Storable] at h
    rw [toValue] at htold hfuel
    obtain ⟨hargs, hlists⟩ := depth_record action.name action.args (listsToValues branches)
    obtain ⟨fuel, rfl⟩ : ∃ n, fuel = n + 1 := ⟨fuel - 1, by omega⟩
    refine ofValueWithin?_act h.2.1 htold (by omega) (fun x hx => ?_) listsToValues_eq_nil
    rw [listsToValues_eq] at hx
    exact readList?_of_retold (StorableLists.read h.2.2 (by omega)) hx
  | m, route order body branches, depth, fuel, v, h, htold, hfuel => by
    rw [Storable] at h
    rw [toValue] at htold hfuel
    change (Command.record "set_route" (Value.record (routeFields order body)).plain
      (listsToValues branches)).Retold v at htold
    change (Command.record "set_route" (Value.record (routeFields order body)).plain
      (listsToValues branches)).depth < fuel at hfuel
    obtain ⟨hargs, hlists⟩ := depth_record "set_route"
      (Value.record (routeFields order body)).plain (listsToValues branches)
    obtain ⟨fuel, rfl⟩ : ∃ n, fuel = n + 1 := ⟨fuel - 1, by omega⟩
    have hwritable := @writable_routeFields order body _ fun x hx =>
      (StorableList.writable h.2.1 x hx).2
    have hplain := hwritable.plain_spec
    have hbody := depth_routeFields order body
    rw [← hplain.1.depth_eq] at hbody
    have hread : ∀ c ∈ body, ∀ v, (toValue c).Retold v →
        ofValueWithin? fuel .document v = some c := StorableList.read h.2.1 (by omega)
    have hroute := routeArgs?_of_retold hread hplain.1
    rw [ofValueWithin?_record htold hplain.2 (fun x hx => ?_) listsToValues_eq_nil, if_pos rfl,
      hroute]
    rw [listsToValues_eq] at hx
    exact readList?_of_retold (StorableLists.read h.2.2 (by omega)) hx

theorem StorableLists.read : ∀ {m : Medium} {lists : List Script} {depth fuel : Nat},
    StorableLists depth lists → depthOfItems (listsToValues lists) ≤ fuel →
      ∀ script ∈ lists, ∀ v, (Value.list (listToValues script)).Retold v →
        readList? m (ofValueWithin? fuel m) v = some script
  | _, [], _, _, _, _ => fun _ hscript => by cases hscript
  | m, script :: rest, depth, fuel, h, hfuel => by
    rw [StorableLists] at h
    rw [listsToValues, depthOfItems, Value.depth] at hfuel
    refine List.forall_mem_cons.2 ⟨fun v hv => ?_, StorableLists.read h.2.2 (by omega)⟩
    rw [listToValues_eq] at hv
    exact readList?_of_retold (StorableList.read h.2.1 (by omega)) hv

theorem StorableList.read : ∀ {m : Medium} {script : Script} {depth fuel : Nat},
    StorableList depth script → depthOfItems (listToValues script) < fuel →
      ∀ c ∈ script, ∀ v, (toValue c).Retold v → ofValueWithin? fuel m v = some c
  | _, [], _, _, _, _ => fun _ hc => by cases hc
  | m, command :: rest, depth, fuel, h, hfuel => by
    rw [StorableList] at h
    rw [listToValues, depthOfItems] at hfuel
    exact List.forall_mem_cons.2
      ⟨fun v hv => Storable.read h.1 hv (by omega), StorableList.read h.2 (by omega)⟩

end

/-- A storable command comes back. -/
theorem Storable.told {m : Medium} {c : Command} {depth : Nat} (h : c.Storable depth) :
    Told m c := by
  intro v hv
  change (toValue c).Retold v at hv
  exact h.read hv (by rw [← hv.depth_eq]; exact Nat.lt_succ_self _)

end Command

end Adventure
