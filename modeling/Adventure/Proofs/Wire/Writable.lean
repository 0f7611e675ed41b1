import Adventure.Proofs.Wire.Faithful

/-!
# Trees that can be written

`Value.Writable` says that a tree is one that values are written as: its numbers have 64 bits, and
it is not nested too deeply.  A tree that can be brought into plain form has finite doubles only,
and no key twice.
-/

namespace Adventure.Wire

namespace Value

mutual

/-- Whether a tree can be written, nested at most `depth` deep, and in plain form if asked for. -/
def Writable (plain : Bool) : (depth : Nat) → Value → Prop
  | _, .null => True
  | _, .bool _ => True
  | _, .int n => -0x8000000000000000 ≤ n ∧ n < 0x10000000000000000
  | _, .formed _ _ => False
  | _, .float x => plain = true → x.isFinite = true
  | _, .text _ => True
  | _, .escaped _ => False
  | _, .bytes _ => False
  | _, .damaged => False
  | depth, .list items => 0 < depth ∧ WritableItems plain (depth - 1) items
  | depth, .map entries => 0 < depth ∧
      (plain = true → ∃ fields, entries = texts fields ∧ (fields.map (·.1)).Nodup) ∧
      WritableEntries plain (depth - 1) entries
  | _, .unreadable => False

def WritableItems (plain : Bool) : (depth : Nat) → List Value → Prop
  | _, [] => True
  | depth, x :: rest => x.Writable plain depth ∧ WritableItems plain depth rest

def WritableEntries (plain : Bool) : (depth : Nat) → List (Value × Value) → Prop
  | _, [] => True
  | depth, (k, x) :: rest =>
      k.Writable plain depth ∧ x.Writable plain depth ∧ WritableEntries plain depth rest

end

variable {plain : Bool} {depth depth' : Nat}

mutual

theorem Writable.mono : ∀ {depth depth' : Nat} {v : Value}, v.Writable plain depth →
    depth ≤ depth' → v.Writable plain depth'
  | _, _, .null, _, _ | _, _, .bool _, _, _ | _, _, .text _, _, _ => trivial
  | _, _, .int _, h, _ | _, _, .float _, h, _ => h
  | _, _, .list items, h, hle => by
    rw [Writable] at h ⊢
    exact ⟨by omega, WritableItems.mono h.2 (by omega)⟩
  | _, _, .map entries, h, hle => by
    rw [Writable] at h ⊢
    exact ⟨by omega, h.2.1, WritableEntries.mono h.2.2 (by omega)⟩
  | _, _, .formed _ _, h, _ | _, _, .escaped _, h, _ | _, _, .bytes _, h, _ | _, _, .damaged, h, _
  | _, _, .unreadable, h, _ => h.elim

theorem WritableItems.mono : ∀ {depth depth' : Nat} {xs : List Value},
    WritableItems plain depth xs → depth ≤ depth' → WritableItems plain depth' xs
  | _, _, [], _, _ => trivial
  | _, _, _ :: _, h, hle => ⟨Writable.mono h.1 hle, WritableItems.mono h.2 hle⟩

theorem WritableEntries.mono : ∀ {depth depth' : Nat} {es : List (Value × Value)},
    WritableEntries plain depth es → depth ≤ depth' → WritableEntries plain depth' es
  | _, _, [], _, _ => trivial
  | _, _, (_, _) :: _, h, hle =>
    ⟨Writable.mono h.1 hle, Writable.mono h.2.1 hle, WritableEntries.mono h.2.2 hle⟩

end

mutual

/-- What can be written in plain form can be written. -/
theorem Writable.anyway : ∀ {depth : Nat} {v : Value}, v.Writable true depth →
    v.Writable plain depth
  | _, .null, _ | _, .bool _, _ | _, .text _, _ => trivial
  | _, .int _, h => h
  | _, .float _, h => fun _ => h rfl
  | _, .list items, h => by
    rw [Writable] at h ⊢
    exact ⟨h.1, WritableItems.anyway h.2⟩
  | _, .map entries, h => by
    rw [Writable] at h ⊢
    exact ⟨h.1, fun _ => h.2.1 rfl, WritableEntries.anyway h.2.2⟩
  | _, .formed _ _, h | _, .escaped _, h | _, .bytes _, h | _, .damaged, h
  | _, .unreadable, h => h.elim

theorem WritableItems.anyway : ∀ {depth : Nat} {xs : List Value}, WritableItems true depth xs →
    WritableItems plain depth xs
  | _, [], _ => trivial
  | _, _ :: _, h => ⟨Writable.anyway h.1, WritableItems.anyway h.2⟩

theorem WritableEntries.anyway : ∀ {depth : Nat} {es : List (Value × Value)},
    WritableEntries true depth es → WritableEntries plain depth es
  | _, [], _ => trivial
  | _, (_, _) :: _, h => ⟨Writable.anyway h.1, Writable.anyway h.2.1, WritableEntries.anyway h.2.2⟩

end

theorem writableItems_iff {xs : List Value} :
    WritableItems plain depth xs ↔ ∀ x ∈ xs, x.Writable plain depth := by
  induction xs with
  | nil => simp [WritableItems]
  | cons x rest ih => simp [WritableItems, ih]

theorem writableEntries_iff {es : List (Value × Value)} :
    WritableEntries plain depth es ↔
      ∀ e ∈ es, e.1.Writable plain depth ∧ e.2.Writable plain depth := by
  induction es with
  | nil => simp [WritableEntries]
  | cons e rest ih => simp [WritableEntries, ih, and_assoc]

/-! ## Lists and records -/

theorem writable_list {xs : List Value} (h : ∀ x ∈ xs, x.Writable plain depth) :
    (Value.list xs).Writable plain (depth + 1) :=
  ⟨Nat.succ_pos _, writableItems_iff.2 h⟩

theorem writable_texts {fields : List (String × Value)} (nodup : (fields.map (·.1)).Nodup)
    (h : ∀ e ∈ fields, e.2.Writable plain depth) :
    (Value.map (texts fields)).Writable plain (depth + 1) := by
  refine ⟨Nat.succ_pos _, fun _ => ⟨fields, rfl, nodup⟩, writableEntries_iff.2 fun e he => ?_⟩
  obtain ⟨field, hfield, rfl⟩ := List.mem_map.1 he
  exact ⟨trivial, h field hfield⟩

theorem writable_record {fields : List (String × Value)} (nodup : (fields.map (·.1)).Nodup)
    (h : ∀ e ∈ fields, e.2.Writable plain depth) : (record fields).Writable plain (depth + 1) :=
  writable_texts nodup h

/-- A record that is only to be written, not brought into plain form. -/
theorem writable_packed_record {fields : List (String × Value)}
    (h : ∀ e ∈ fields, e.2.Writable false depth) : (record fields).Writable false (depth + 1) := by
  refine ⟨Nat.succ_pos _, fun hplain => (by cases hplain), writableEntries_iff.2 fun e he => ?_⟩
  obtain ⟨field, hfield, rfl⟩ := List.mem_map.1 he
  exact ⟨trivial, h field hfield⟩

end Value

open Value

/-! ## Types that can be written -/

/-- Types whose values can be written, nested at most `depth` deep. -/
class Packable (plain : Bool) (α : Type) [Wire α] (depth : outParam Nat) : Prop where
  writable (a : α) : (encode a).Writable plain depth

variable {plain : Bool} {depth : Nat} {α β κ ν : Type}

theorem writable_encode [Wire α] {least : Nat} [Packable plain α least] (a : α)
    (h : least ≤ depth) : (encode a).Writable plain depth := (Packable.writable a).mono h

instance : Packable plain Int32 0 where
  writable n := by
    have hlow := n.le_toInt
    have hhigh := n.toInt_lt
    exact ⟨by omega, by omega⟩

instance : Packable plain Int64 0 where
  writable n := by
    have hlow := n.le_toInt
    have hhigh := n.toInt_lt
    exact ⟨by omega, by omega⟩

instance : Packable plain UInt32 0 where
  writable n := by
    have hlt := n.toNat_lt
    exact ⟨by omega, by omega⟩

instance : Packable plain UInt64 0 where
  writable n := by
    have hlt := n.toNat_lt
    exact ⟨by omega, by omega⟩

theorem writable_position {n : Nat} (h : n < 2 ^ 64) : (encode n).Writable plain depth :=
  ⟨by omega, by omega⟩

instance : Packable plain Bool 0 := ⟨fun _ => trivial⟩

instance : Packable false Binary64 0 := ⟨fun _ h => by cases h⟩

instance : Packable plain String 0 := ⟨fun _ => trivial⟩

instance (priority := low) [Enumeration α] : Packable plain α 0 := ⟨fun _ => trivial⟩

instance : Packable plain Direction 0 := ⟨fun d => by cases d <;> exact ⟨by decide, by decide⟩⟩

instance : Packable plain Speed 0 := ⟨fun s => by cases s <;> exact ⟨by decide, by decide⟩⟩

theorem writable_encode_list [Wire α] {xs : List α}
    (h : ∀ x ∈ xs, (encode x).Writable plain depth) : (encode xs).Writable plain (depth + 1) :=
  writable_list fun v hv => by
    obtain ⟨x, hx, rfl⟩ := List.mem_map.1 hv
    exact h x hx

instance [Wire α] [Packable plain α depth] : Packable plain (List α) (depth + 1) :=
  ⟨fun _ => writable_encode_list fun x _ => Packable.writable x⟩

theorem writable_encode_option [Wire α] {o : Option α}
    (h : ∀ a ∈ o, (encode a).Writable plain depth) : (encode o).Writable plain depth := by
  cases o with
  | none => trivial
  | some a => exact h a rfl

instance [Wire α] [Packable plain α depth] : Packable plain (Option α) depth :=
  ⟨fun _ => writable_encode_option fun a _ => Packable.writable a⟩

theorem writable_encode_map [Ord κ] [Std.TransOrd κ] [Std.LawfulEqOrd κ] [WireKey κ] [Wire ν]
    {map : SortedMap κ ν} (hkey : ∀ k : κ, (WireKey.encodeKey k).Writable false 0)
    (h : ∀ e ∈ map.entries, (encode e.2).Writable false depth) :
    (encode map).Writable false (depth + 1) := by
  refine ⟨Nat.succ_pos _, fun hplain => (by cases hplain), writableEntries_iff.2 fun e he => ?_⟩
  obtain ⟨entry, hentry, rfl⟩ := List.mem_map.1 he
  exact ⟨(hkey entry.1).mono (Nat.zero_le _), h entry hentry⟩

instance [Wire ν] [Packable false ν depth] : Packable false (SortedMap Int32 ν) (depth + 1) :=
  ⟨fun _ => writable_encode_map (fun k => Packable.writable k) fun e _ => Packable.writable e.2⟩

end Adventure.Wire
