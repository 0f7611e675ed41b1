import Adventure.Proofs.Wire.Json
import Adventure.Proofs.Wire.Plain

/-!
# Spelling does not matter

Whether a key is spelled with escapes is told apart where keys stand for numbers only.  Names of
fields and keys of plain data are the same in either spelling.
-/

namespace Adventure.Wire

namespace Value

theorem spelledItems_eq (items : List Value) : spelledItems items = items.map spelled := by
  induction items with
  | nil => rfl
  | cons x rest ih => rw [spelledItems, ih, List.map_cons]

/-! ## Keys -/

@[simp] theorem text?_spelledKey (k : Value) : k.spelledKey.text? = k.text? := by
  cases k with
  | text s =>
    rw [spelledKey]
    split <;> rfl
  | _ => rfl

@[simp] theorem naming?_spelledKey (m : Medium) (k : Value) :
    naming? m k.spelledKey = naming? m k := by
  cases k with
  | text s =>
    rw [spelledKey]
    split <;> rfl
  | _ => rfl

@[simp] theorem depth_spelledKey (k : Value) : k.spelledKey.depth = k.depth := by
  cases k with
  | text s =>
    rw [spelledKey]
    split <;> rfl
  | _ => rfl

/-! ## Trees -/

mutual

theorem depth_spelled : ∀ v : Value, v.spelled.depth = v.depth
  | .list items => by rw [spelled, depth, depth, depthOfItems_spelled items]
  | .map entries => by rw [spelled, depth, depth, depthOfEntries_spelled entries]
  | .null | .bool _ | .int _ | .formed _ _ | .float _ | .text _ | .escaped _ | .bytes _
  | .damaged | .unreadable => rfl

theorem depthOfItems_spelled : ∀ xs : List Value, depthOfItems (spelledItems xs) = depthOfItems xs
  | [] => rfl
  | x :: rest => by
    rw [spelledItems, depthOfItems, depthOfItems, depth_spelled x, depthOfItems_spelled rest]

theorem depthOfEntries_spelled : ∀ es : List (Value × Value),
    depthOfEntries (spelledEntries es) = depthOfEntries es
  | [] => rfl
  | (k, x) :: rest => by
    rw [spelledEntries, depthOfEntries, depthOfEntries, depth_spelledKey, depth_spelled x,
      depthOfEntries_spelled rest]

end

mutual

/-- The plain form of a tree does not depend on the spelling of its keys. -/
theorem plain?_spelled : ∀ v : Value, v.spelled.plain? = v.plain?
  | .list items => by rw [spelled, plain?, plain?, plainItems?_spelled items]
  | .map entries => by rw [spelled, plain?_map, plain?_map, plainFields?_spelled entries]
  | .null | .bool _ | .int _ | .formed _ _ | .float _ | .text _ | .escaped _ | .bytes _
  | .damaged | .unreadable => rfl

theorem plainItems?_spelled : ∀ xs : List Value, plainItems? (spelledItems xs) = plainItems? xs
  | [] => rfl
  | x :: rest => by
    rw [spelledItems, plainItems?, plainItems?, plain?_spelled x, plainItems?_spelled rest]

theorem plainFields?_spelled : ∀ es : List (Value × Value),
    plainFields? (spelledEntries es) = plainFields? es
  | [] => rfl
  | (k, x) :: rest => by
    rw [spelledEntries, plainFields?_cons, plainFields?_cons, text?_spelledKey, plain?_spelled x,
      plainFields?_spelled rest]

end

/-! ## Trees told as they are -/

mutual

/-- A tree may come back as it is. -/
theorem Writable.retold {plain : Bool} : ∀ {v : Value} {depth : Nat}, v.Writable plain depth →
    v.Retold v
  | .null, _, _ | .bool _, _, _ | .float _, _, _ | .text _, _, _ => rfl
  | .int _, _, _ => .inl rfl
  | .list items, _, h => by
    rw [Writable] at h
    exact ⟨items, WritableItems.retold h.2, rfl⟩
  | .map entries, _, h => by
    rw [Writable] at h
    exact ⟨entries, entries, WritableEntries.retold h.2.2, .inl rfl, rfl⟩
  | .formed _ _, _, h | .escaped _, _, h | .bytes _, _, h | .damaged, _, h
  | .unreadable, _, h => h.elim

theorem WritableItems.retold {plain : Bool} : ∀ {xs : List Value} {depth : Nat},
    WritableItems plain depth xs → RetoldItems xs xs
  | [], _, _ => rfl
  | x :: rest, _, h => ⟨x, rest, Writable.retold h.1, WritableItems.retold h.2, rfl⟩

theorem WritableEntries.retold {plain : Bool} : ∀ {es : List (Value × Value)} {depth : Nat},
    WritableEntries plain depth es → RetoldEntries es es
  | [], _, _ => rfl
  | (k, x) :: rest, _, h =>
    ⟨k, x, rest, Writable.retold h.1, Writable.retold h.2.1, WritableEntries.retold h.2.2, rfl⟩

end

end Value

open Value

variable {m : Medium} {names : List String}

/-! ## Texts and lists -/

theorem decode?_text_spelled (v : Value) :
    (decode? m v.spelled : Option String) = decode? m v := by
  cases v <;> rfl

/-- Bytes that stand for a list have no keys. -/
theorem octets_spelled (data : List UInt8) : (octets data).map spelled = octets data := by
  simp [octets, spelled]

theorem items?_spelled (v : Value) :
    items? m v.spelled = (items? m v).map fun xs => xs.map spelled := by
  cases v with
  | list items => rw [spelled, spelledItems_eq]; rfl
  | bytes data =>
    simp only [spelled, items?]
    split
    · exact congrArg some (octets_spelled data).symm
    · rfl
  | _ => rfl

/-! ## Records -/

/-- The fields of a record after its values were spelled anew. -/
def Fields.spelled (f : Fields) : Fields :=
  ⟨f.positional, f.entries.map fun e => (e.1, e.2.spelled)⟩

theorem fieldKey?_spelledKey (k : Value) :
    fieldKey? m names k.spelledKey = fieldKey? m names k := by
  rw [fieldKey?, fieldKey?, naming?_spelledKey]

theorem collectFields?_spelled (entries : List (Value × Value)) :
    collectFields? m names (spelledEntries entries) =
      (collectFields? m names entries).map fun fields => fields.map fun e =>
        (e.1, e.2.spelled) := by
  induction entries with
  | nil => rfl
  | cons e rest ih =>
    obtain ⟨k, x⟩ := e
    rw [spelledEntries, collectFields?, collectFields?, ih, fieldKey?_spelledKey]
    cases collectFields? m names rest with
    | none => cases fieldKey? m names k with
      | none => rfl
      | some key => cases key <;> rfl
    | some fields => cases fieldKey? m names k with
      | none => rfl
      | some key => cases key with
        | unknown => rfl
        | known name =>
          simp only [Option.map_some, List.any_map, Function.comp_def]
          split <;> rfl

theorem Fields.read?_spelled (v : Value) :
    Fields.read? m names v.spelled = (Fields.read? m names v).map Fields.spelled := by
  cases v with
  | map entries =>
    rw [Value.spelled, Fields.read?, Fields.read?, collectFields?_spelled]
    cases collectFields? m names entries <;> rfl
  | list items =>
    rw [Value.spelled, Fields.read?, Fields.read?, spelledItems_eq, List.length_map,
      List.zip_map_right]
    split <;> rfl
  | bytes data =>
    simp only [Value.spelled, Fields.read?]
    split
    · have hzip : (names.zip (octets data)).map (fun e => (e.1, e.2.spelled)) =
          names.zip (octets data) := by
        conv_rhs => rw [← octets_spelled, List.zip_map_right]
        rfl
      rw [Option.map_some, Fields.spelled, hzip]
    · rfl
  | _ => rfl

theorem Fields.find?_spelled (f : Fields) (name : String) :
    f.spelled.find? name = (f.find? name).map Value.spelled := by
  simp [Fields.find?, Fields.spelled, List.find?_map, Function.comp_def]

section Read

variable {α : Type} {read : Value → Option α} (h : ∀ v : Value, read v.spelled = read v)

include h

/-- A field is read the same if its value is. -/
theorem Fields.orElse_spelled (f : Fields) (name : String) (default : α) :
    f.spelled.orElse read name default = f.orElse read name default := by
  rw [Fields.orElse, Fields.orElse, Fields.find?_spelled]
  cases f.find? name with
  | none => rfl
  | some x => exact h x

theorem Fields.requiredBy_spelled (f : Fields) (name : String) :
    f.spelled.requiredBy read name = f.requiredBy read name := by
  rw [Fields.requiredBy, Fields.requiredBy, Fields.find?_spelled]
  cases f.find? name with
  | none => rfl
  | some x => exact h x

end Read

end Adventure.Wire
