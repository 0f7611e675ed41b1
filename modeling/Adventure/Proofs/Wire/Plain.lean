import Adventure.Proofs.Wire.Records
import Adventure.Proofs.Wire.Writable

/-!
# Plain data

What comes back of a tree has the same plain form, and the plain form of a tree that values are
written as is one of the trees that may come back of it.
-/

namespace Adventure.Wire

namespace Value

/-- The entries of a map in plain form, before they are put in order. -/
def plainFields? (entries : List (Value × Value)) : Option (List (String × Value)) :=
  entries.mapM fun e => e.1.text?.bind fun k => e.2.plain?.map fun x => (k, x)

theorem plainFields?_cons (k x : Value) (rest : List (Value × Value)) :
    plainFields? ((k, x) :: rest) = k.text?.bind fun name => x.plain?.bind fun y =>
      (plainFields? rest).map fun fields => (name, y) :: fields := by
  simp only [plainFields?, List.mapM_cons]
  cases k.text? <;> cases x.plain? <;> cases (rest.mapM _ : Option (List (String × Value))) <;> rfl

theorem plainEntries?_eq (entries : List (Value × Value)) (placed : SortedMap String Value) :
    plainEntries? entries (texts placed.entries) = (plainFields? entries).map fun fields =>
      texts (fields.foldl (fun m e => m.insert e.1 e.2) placed).entries := by
  induction entries generalizing placed with
  | nil => rfl
  | cons e rest ih =>
    obtain ⟨k, x⟩ := e
    rw [plainEntries?, plainFields?_cons]
    cases k.text? with
    | none => rfl
    | some name =>
      cases x.plain? with
      | none => rfl
      | some y =>
        dsimp only
        rw [placeEntry_texts, show SortedMap.place name y placed.entries =
          (placed.insert name y).entries from rfl, ih]
        cases plainFields? rest <;> rfl

/-- In plain form a map is one from texts. -/
theorem plain?_map (entries : List (Value × Value)) :
    (Value.map entries).plain? = (plainFields? entries).map fun fields =>
      .map (texts (SortedMap.ofList fields).entries) := by
  rw [plain?, show ([] : List (Value × Value)) = texts (.empty : SortedMap String Value).entries
    from rfl, plainEntries?_eq]
  cases plainFields? entries <;> rfl

theorem keys_of_plainFields? {fields l : List (String × Value)}
    (h : plainFields? (texts fields) = some l) : l.map (·.1) = fields.map (·.1) := by
  induction fields generalizing l with
  | nil =>
    obtain rfl := Option.some.inj h
    rfl
  | cons e rest ih =>
    obtain ⟨k, x⟩ := e
    change plainFields? ((.text k, x) :: texts rest) = some l at h
    simp only [plainFields?_cons, text?, Option.bind_some, Option.bind_eq_some_iff,
      Option.map_eq_some_iff] at h
    obtain ⟨y, hy, rest', hrest, rfl⟩ := h
    rw [List.map_cons, List.map_cons, ih hrest]

/-! ## The same plain form -/

theorem Retold.text?_eq {v v' : Value} (h : v.Retold v') : v'.text? = v.text? := by
  cases v with
  | int n =>
    rw [Retold] at h
    rcases h with rfl | ⟨form, _, rfl⟩ <;> rfl
  | list items =>
    rw [Retold] at h
    obtain ⟨_, _, rfl⟩ := h
    rfl
  | map entries =>
    rw [Retold] at h
    obtain ⟨_, _, _, _, rfl⟩ := h
    rfl
  | null | bool b | float x | text s =>
    rw [Retold] at h
    rw [h]
  | _ =>
    rw [Retold] at h
    exact h.elim

/-- The order of entries with different keys does not matter. -/
theorem Reordered.plain?_eq {es es' : List (Value × Value)} (h : Reordered es es') :
    (Value.map es').plain? = (Value.map es).plain? := by
  rcases h with rfl | ⟨fields, rfl, nodup, hperm⟩
  · rfl
  · rw [plain?_map, plain?_map]
    cases hl : plainFields? (texts fields) with
    | some l =>
      obtain ⟨l', hl', hp⟩ := mapM_perm hperm.symm hl
      have hnodup : (l.map (·.1)).Nodup := by rwa [keys_of_plainFields? hl]
      change plainFields? es' = some l' at hl'
      rw [hl', Option.map_some, Option.map_some, SortedMap.ofList_eq_of_perm hnodup hp.symm]
    | none =>
      cases hl' : plainFields? es' with
      | none => rfl
      | some l' =>
        obtain ⟨l, hl'', _⟩ := mapM_perm hperm hl'
        change plainFields? (texts fields) = some l at hl''
        rw [hl] at hl''
        cases hl''

mutual

/-- What comes back of a tree has the same plain form. -/
theorem Retold.plain?_eq : ∀ {v v' : Value}, v.Retold v' → v'.plain? = v.plain?
  | .null, _, h | .bool _, _, h | .float _, _, h | .text _, _, h => by
    rw [Retold] at h
    rw [h]
  | .int n, _, h => by
    rw [Retold] at h
    rcases h with rfl | ⟨form, _, rfl⟩
    · rfl
    · rw [plain?, plain?]
  | .list items, _, h => by
    rw [Retold] at h
    obtain ⟨items', hitems, rfl⟩ := h
    rw [plain?, plain?, RetoldItems.plainItems?_eq hitems]
  | .map entries, _, h => by
    rw [Retold] at h
    obtain ⟨entries', told, hentries, hreordered, rfl⟩ := h
    rw [hreordered.plain?_eq, plain?_map, plain?_map, RetoldEntries.plainFields?_eq hentries]
  | .formed _ _, _, h | .escaped _, _, h | .bytes _, _, h | .damaged, _, h
  | .unreadable, _, h => by
    rw [Retold] at h
    exact h.elim

theorem RetoldItems.plainItems?_eq : ∀ {xs xs' : List Value}, RetoldItems xs xs' →
    plainItems? xs' = plainItems? xs
  | [], _, h => by
    rw [RetoldItems] at h
    rw [h]
  | x :: rest, _, h => by
    rw [RetoldItems] at h
    obtain ⟨x', rest', hx, hrest, rfl⟩ := h
    simp only [plainItems?, Retold.plain?_eq hx, RetoldItems.plainItems?_eq hrest]

theorem RetoldEntries.plainFields?_eq : ∀ {es es' : List (Value × Value)}, RetoldEntries es es' →
    plainFields? es' = plainFields? es
  | [], _, h => by
    rw [RetoldEntries] at h
    rw [h]
  | (k, x) :: rest, _, h => by
    rw [RetoldEntries] at h
    obtain ⟨k', x', rest', hk, hx, hrest, rfl⟩ := h
    simp only [plainFields?_cons, hk.text?_eq, Retold.plain?_eq hx,
      RetoldEntries.plainFields?_eq hrest]

end

/-! ## Plain data comes back -/

mutual

/-- A tree that can be brought into plain form may come back in it. -/
theorem exists_plain : ∀ {v : Value} {depth : Nat}, v.Writable true depth →
    ∃ w, v.plain? = some w ∧ v.Retold w
  | .null, _, _ => ⟨.null, by rw [plain?], rfl⟩
  | .bool b, _, _ => ⟨.bool b, by rw [plain?], rfl⟩
  | .int n, _, _ => ⟨.int n, by rw [plain?], .inl rfl⟩
  | .float x, _, h => ⟨.float x, by rw [plain?, if_pos (h rfl)], rfl⟩
  | .text s, _, _ => ⟨.text s, by rw [plain?], rfl⟩
  | .list items, _, h => by
    rw [Writable] at h
    obtain ⟨items', hplain, htold⟩ := exists_plainItems h.2
    exact ⟨.list items', by rw [plain?, hplain, Option.map_some], ⟨items', htold, rfl⟩⟩
  | .map entries, _, h => by
    rw [Writable] at h
    obtain ⟨fields, rfl, nodup⟩ := h.2.1 rfl
    obtain ⟨l, hplain, htold⟩ := exists_plainFields fields rfl h.2.2
    have hnodup : (l.map (·.1)).Nodup := by rwa [keys_of_plainFields? hplain]
    refine ⟨.map (texts (SortedMap.ofList l).entries), by rw [plain?_map, hplain, Option.map_some],
      ⟨texts l, _, htold, .inr ⟨l, rfl, hnodup, ?_⟩, rfl⟩⟩
    exact (SortedMap.ofList_perm hnodup).map _
  | .formed _ _, _, h | .escaped _, _, h | .bytes _, _, h | .damaged, _, h
  | .unreadable, _, h => h.elim

theorem exists_plainItems : ∀ {xs : List Value} {depth : Nat}, WritableItems true depth xs →
    ∃ ys, plainItems? xs = some ys ∧ RetoldItems xs ys
  | [], _, _ => ⟨[], by rw [plainItems?], rfl⟩
  | x :: rest, _, h => by
    obtain ⟨y, hy, hx⟩ := exists_plain h.1
    obtain ⟨ys, hys, hrest⟩ := exists_plainItems h.2
    exact ⟨y :: ys, by rw [plainItems?, hy, hys], ⟨y, ys, hx, hrest, rfl⟩⟩

theorem exists_plainFields : ∀ {es : List (Value × Value)} {depth : Nat}
    (fields : List (String × Value)), es = texts fields → WritableEntries true depth es →
      ∃ l, plainFields? es = some l ∧ RetoldEntries es (texts l)
  | [], _, _, _, _ => ⟨[], rfl, rfl⟩
  | (k, x) :: rest, _, [], hes, _ => by cases hes
  | (k, x) :: rest, _, (name, v) :: fields, hes, h => by
    obtain ⟨hentry, hrest⟩ := List.cons.inj hes
    obtain ⟨rfl, rfl⟩ := Prod.mk.inj hentry
    obtain ⟨y, hy, hx⟩ := exists_plain h.2.1
    obtain ⟨l, hl, htold⟩ := exists_plainFields fields hrest h.2.2
    refine ⟨(name, y) :: l, ?_, ⟨.text name, y, texts l, rfl, hx, htold, rfl⟩⟩
    rw [plainFields?_cons, hy, hl]
    rfl

end

/-! ## Plain once and for all -/

theorem plainFields?_of_plain {fields : List (String × Value)}
    (h : ∀ e ∈ fields, e.2.plain? = some e.2) : plainFields? (texts fields) = some fields := by
  induction fields with
  | nil => rfl
  | cons e rest ih =>
    obtain ⟨hfirst, hrest⟩ := List.forall_mem_cons.1 h
    show plainFields? ((.text e.1, e.2) :: texts rest) = _
    rw [plainFields?_cons, hfirst, ih hrest]
    rfl

mutual

/-- Plain data is its own plain form. -/
theorem plain?_of_plain? : ∀ {v w : Value}, v.plain? = some w → w.plain? = some w
  | .null, _, h | .bool _, _, h | .int _, _, h | .formed _ _, _, h | .text _, _, h
  | .escaped _, _, h => by
    rw [plain?] at h
    obtain rfl := Option.some.inj h
    rw [plain?]
  | .float x, _, h => by
    rw [plain?] at h
    obtain rfl := Option.some.inj h
    split
    · next hx => rw [plain?, if_pos hx]
    · rw [plain?]
  | .list items, _, h => by
    rw [plain?, Option.map_eq_some_iff] at h
    obtain ⟨items', hitems, rfl⟩ := h
    rw [plain?, plainItems?_of_plainItems? hitems, Option.map_some]
  | .map entries, _, h => by
    rw [plain?_map, Option.map_eq_some_iff] at h
    obtain ⟨fields, hfields, rfl⟩ := h
    have hplain := plain?_of_plainFields? hfields
    rw [plain?_map, plainFields?_of_plain fun e he => hplain e (SortedMap.mem_of_mem_ofList he),
      Option.map_some, SortedMap.ofList_eq (.refl _)]
  | .bytes _, _, h | .damaged, _, h | .unreadable, _, h => by
    rw [plain?] at h
    cases h

theorem plainItems?_of_plainItems? : ∀ {xs ys : List Value}, plainItems? xs = some ys →
    plainItems? ys = some ys
  | [], _, h => by
    rw [plainItems?] at h
    obtain rfl := Option.some.inj h
    rw [plainItems?]
  | x :: rest, _, h => by
    rw [plainItems?] at h
    split at h
    · next y ys hy hys =>
      obtain rfl := Option.some.inj h
      rw [plainItems?, plain?_of_plain? hy, plainItems?_of_plainItems? hys]
    · cases h

theorem plain?_of_plainFields? : ∀ {es : List (Value × Value)} {fields : List (String × Value)},
    plainFields? es = some fields → ∀ e ∈ fields, e.2.plain? = some e.2
  | [], _, h => by
    obtain rfl := Option.some.inj h
    exact fun _ he => by cases he
  | (k, x) :: rest, _, h => by
    simp only [plainFields?_cons, Option.bind_eq_some_iff, Option.map_eq_some_iff] at h
    obtain ⟨name, _, y, hy, fields, hfields, rfl⟩ := h
    exact List.forall_mem_cons.2 ⟨plain?_of_plain? hy, plain?_of_plainFields? hfields⟩

end

end Value

open Value

/-- Data without a fixed shape comes back, if it is in plain form. -/
theorem told_plain {m : Medium} {v : Value} (h : v.plain? = some v) : Told m v := by
  intro v' htold
  show v'.plain? = some v
  exact htold.plain?_eq.trans h

/-- The plain form of a tree: it comes back as such, and the tree may come back as it. -/
theorem Value.Writable.plain_spec {v : Value} {depth : Nat} (h : v.Writable true depth) :
    v.Retold v.plain ∧ v.plain.plain? = some v.plain := by
  obtain ⟨w, hw, htold⟩ := exists_plain h
  rw [Value.plain, hw, Option.getD_some]
  exact ⟨htold, plain?_of_plain? hw⟩

end Adventure.Wire
