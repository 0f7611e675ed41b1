import Adventure.Proofs.Wire.Bounded

/-!
# Parts of a tree

A value in a list or in a map is nested less deeply than the list or the map, and it can be written
where they can.  The fields of a record in a document are parts of it.
-/

namespace Adventure

open Wire.Value

namespace Wire

/-- A value in a list, or under a key of a map. -/
inductive Value.Part (x : Value) : Value → Prop where
  | item {items : List Value} (h : x ∈ items) : Part x (.list items)
  | entry {entries : List (Value × Value)} {k : Value} (h : (k, x) ∈ entries) :
      Part x (.map entries)

theorem Value.depth_le_of_mem_items {x : Value} {items : List Value} (h : x ∈ items) :
    x.depth ≤ depthOfItems items := by
  induction items with
  | nil => cases h
  | cons y rest ih =>
    rw [depthOfItems]
    rcases List.mem_cons.1 h with rfl | h
    · exact Nat.le_max_left _ _
    · exact Nat.le_trans (ih h) (Nat.le_max_right _ _)

theorem Value.depth_le_of_mem_entries {k x : Value} {entries : List (Value × Value)}
    (h : (k, x) ∈ entries) : x.depth ≤ depthOfEntries entries := by
  induction entries with
  | nil => cases h
  | cons e rest ih =>
    obtain ⟨l, y⟩ := e
    rw [depthOfEntries]
    rcases List.mem_cons.1 h with heq | h
    · obtain ⟨rfl, rfl⟩ := Prod.mk.inj heq
      omega
    · have hrest := ih h
      omega

theorem Value.Part.depth_lt {x v : Value} (h : x.Part v) : x.depth < v.depth := by
  cases h with
  | item h => exact Nat.lt_succ_of_le (depth_le_of_mem_items h)
  | entry h => exact Nat.lt_succ_of_le (depth_le_of_mem_entries h)

theorem Value.Part.bounded {x v : Value} {depth : Nat} (h : x.Part v) (hv : v.Bounded depth) :
    0 < depth ∧ x.Bounded (depth - 1) := by
  cases h with
  | item h =>
    rw [Bounded] at hv
    exact ⟨hv.1, boundedItems_iff.1 hv.2 x h⟩
  | entry h =>
    rw [Bounded] at hv
    exact ⟨hv.1, (boundedEntries_iff.1 hv.2 _ h).2⟩

theorem Value.Part.writable {plain : Bool} {x v : Value} {depth : Nat} (h : x.Part v)
    (hv : v.Writable plain depth) : 0 < depth ∧ x.Writable plain (depth - 1) := by
  cases h with
  | item h =>
    rw [Writable] at hv
    exact ⟨hv.1, writableItems_iff.1 hv.2 x h⟩
  | entry h =>
    rw [Writable] at hv
    exact ⟨hv.1, (writableEntries_iff.1 hv.2.2 _ h).2⟩

/-- The fields of a record are entries under keys that stand for their names. -/
theorem mem_of_collectFields? {m : Medium} {names : List String} {entries : List (Value × Value)}
    {fields : List (String × Value)} (h : collectFields? m names entries = some fields) :
    ∀ e ∈ fields, ∃ k, (k, e.2) ∈ entries ∧ fieldKey? m names k = some (.known e.1) := by
  induction entries generalizing fields with
  | nil =>
    obtain rfl := Option.some.inj h
    exact fun _ he => by cases he
  | cons entry rest ih =>
    obtain ⟨k, x⟩ := entry
    rw [collectFields?] at h
    split at h
    · next s others hkey hrest =>
      split at h
      · cases h
      · obtain rfl := Option.some.inj h
        refine List.forall_mem_cons.2 ⟨⟨k, List.mem_cons_self, hkey⟩, fun e he => ?_⟩
        obtain ⟨k', hk', hname⟩ := ih hrest e he
        exact ⟨k', List.mem_cons_of_mem _ hk', hname⟩
    · next others hkey hrest =>
      obtain rfl := Option.some.inj h
      intro e he
      obtain ⟨k', hk', hname⟩ := ih hrest e he
      exact ⟨k', List.mem_cons_of_mem _ hk', hname⟩
    · cases h

/-- The fields of a record are parts of it, unless bytes stand for it. -/
theorem Fields.part_of_read_of_ne {m : Medium} {names : List String} {v : Value} {f : Fields}
    (hv : ∀ data, v ≠ .bytes data) (h : Fields.read? m names v = some f) {name : String} {x : Value}
    (hx : f.find? name = some x) : x.Part v := by
  obtain ⟨e, he, rfl⟩ := Option.map_eq_some_iff.1 hx
  have hmem := List.mem_of_find?_eq_some he
  cases v with
  | map entries =>
    obtain ⟨fields, hfields, rfl⟩ := Option.map_eq_some_iff.1 h
    obtain ⟨k, hk, -⟩ := mem_of_collectFields? hfields e hmem
    exact .entry hk
  | list items =>
    simp only [Fields.read?] at h
    split at h
    · obtain rfl := Option.some.inj h
      exact .item (List.of_mem_zip hmem).2
    · cases h
  | bytes data => exact absurd rfl (hv data)
  | _ => cases h

/-- The fields of a record in a document are parts of it. -/
theorem Fields.part_of_read {names : List String} {v : Value} {f : Fields}
    (h : Fields.read? .document names v = some f) {name : String} {x : Value}
    (hx : f.find? name = some x) : x.Part v := by
  refine part_of_read_of_ne ?_ h hx
  rintro data rfl
  simp [Fields.read?] at h

end Wire

end Adventure
