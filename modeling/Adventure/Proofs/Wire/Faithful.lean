import Adventure.Geometry
import Adventure.Proofs.Wire.Retold
import Mathlib.Algebra.Group.Nat.Defs

/-!
# Types that come back

Numbers, texts, enumerations, lists and maps are read from whatever comes back of what they are
written as.
-/

namespace Adventure.Wire

open Value

variable {m : Medium} {α β κ ν : Type}

/-! ## Whole numbers -/

theorem intWithin?_of_retold {low high n : Int} {v : Value} (h : (Value.int n).Retold v)
    (hlow : low ≤ n) (hhigh : n ≤ high) : intWithin? low high v = some n := by
  simp [intWithin?, h.whole?, hlow, hhigh]

instance : Faithful m Int32 where
  told n v h := by
    have hn : intWithin? (-0x80000000) 0x7fffffff v = some n.toInt :=
      intWithin?_of_retold h n.le_toInt (Int.le_of_lt_add_one n.toInt_lt)
    show (intWithin? (-0x80000000) 0x7fffffff v).map Int32.ofInt = some n
    rw [hn, Option.map_some, Int32.ofInt_toInt]

instance : Faithful m Int64 where
  told n v h := by
    have hn : intWithin? (-0x8000000000000000) 0x7fffffffffffffff v = some n.toInt :=
      intWithin?_of_retold h n.le_toInt (Int.le_of_lt_add_one n.toInt_lt)
    show (intWithin? (-0x8000000000000000) 0x7fffffffffffffff v).map Int64.ofInt = some n
    rw [hn, Option.map_some, Int64.ofInt_toInt]

instance : Faithful m UInt8 where
  told n v h := by
    have hlt := n.toNat_lt
    have hn : intWithin? 0 0xff v = some (n.toNat : Int) :=
      intWithin?_of_retold h (by omega) (by omega)
    show (intWithin? 0 0xff v).map (fun n => UInt8.ofNat n.toNat) = some n
    rw [hn, Option.map_some, Int.toNat_natCast, UInt8.ofNat_toNat]

instance : Faithful m UInt32 where
  told n v h := by
    have hlt := n.toNat_lt
    have hn : intWithin? 0 0xffffffff v = some (n.toNat : Int) :=
      intWithin?_of_retold h (by omega) (by omega)
    show (intWithin? 0 0xffffffff v).map (fun n => UInt32.ofNat n.toNat) = some n
    rw [hn, Option.map_some, Int.toNat_natCast, UInt32.ofNat_toNat]

instance : Faithful m UInt64 where
  told n v h := by
    have hlt := n.toNat_lt
    have hn : intWithin? 0 0xffffffffffffffff v = some (n.toNat : Int) :=
      intWithin?_of_retold h (by omega) (by omega)
    show (intWithin? 0 0xffffffffffffffff v).map (fun n => UInt64.ofNat n.toNat) = some n
    rw [hn, Option.map_some, Int.toNat_natCast, UInt64.ofNat_toNat]

/-- A position comes back if it fits into 64 bits. -/
theorem told_position {n : Nat} (hn : n < 2 ^ 64) : Told m n := by
  intro v h
  show (intWithin? 0 0xffffffffffffffff v).map Int.toNat = some n
  rw [intWithin?_of_retold h (by omega) (by omega), Option.map_some, Int.toNat_natCast]

/-- A number handed out in order comes back if it fits into 32 bits. -/
theorem serial?_of_retold {n : Nat} {v : Value} (hn : n < 2 ^ 32) (h : (encode n).Retold v) :
    serial? v = some n := by
  show (intWithin? 0 0xffffffff v).map Int.toNat = some n
  rw [intWithin?_of_retold h (by omega) (by omega), Option.map_some, Int.toNat_natCast]

/-! ## Other leaves -/

instance : Faithful m Bool where
  told b v h := by
    obtain rfl : v = .bool b := h
    rfl

instance : Faithful m Binary64 where
  told x v h := by
    obtain rfl : v = .float x := h
    rfl

instance : Faithful m String where
  told s v h := by
    obtain rfl : v = .text s := h
    rfl

/-- Enumerations whose labels differ, and are short enough for packed data. -/
class LawfulEnumeration (α : Type) [Enumeration α] : Prop where
  ofLabel?_label (a : α) : ofLabel? (Enumeration.label a) = some a
  short (a : α) : (Enumeration.label a).utf8ByteSize < 0x100000000 := by intro a; cases a <;> decide

instance (priority := low) [Enumeration α] [LawfulEnumeration α] : Faithful m α where
  told a v h := by
    obtain rfl : v = .text (Enumeration.label a) := h
    exact LawfulEnumeration.ofLabel?_label a

instance : Faithful m Direction where
  told d v h := by
    have hn : (decode? m v : Option UInt8) = some (UInt8.ofNat d.index) :=
      Faithful.told (UInt8.ofNat d.index) v (by cases d <;> exact h)
    show (decode? m v : Option UInt8).bind (fun n => Direction.ofIndex? n.toNat) = some d
    rw [hn]
    cases d <;> rfl

theorem decode?_level {s : Speed} {v : Value} (h : (encode s).Retold v) :
    (decode? m v : Option UInt8) = some (UInt8.ofNat s.level) :=
  Faithful.told (UInt8.ofNat s.level) v (by cases s <;> exact h)

instance : Faithful m Speed where
  told s v h := by
    show (decode? m v : Option UInt8).bind (fun n => Speed.ofLevel? n.toNat) = some s
    rw [decode?_level h]
    cases s <;> rfl

instance : LawfulEnumeration Source where
  ofLabel?_label s := by cases s <;> rfl

/-! ## Lists and options -/

theorem decodeItems?_of_retold {read : Value → Option α} {write : α → Value} {xs : List α}
    {items : List Value} (hread : ∀ x ∈ xs, ∀ v, (write x).Retold v → read v = some x)
    (h : RetoldItems (xs.map write) items) : decodeItems? read items = some xs := by
  induction xs generalizing items with
  | nil =>
    rw [List.map_nil, RetoldItems] at h
    rw [h]
    rfl
  | cons x rest ih =>
    rw [List.map_cons, RetoldItems] at h
    obtain ⟨x', rest', hx, hrest, rfl⟩ := h
    obtain ⟨hfirst, hothers⟩ := List.forall_mem_cons.1 hread
    rw [decodeItems?, hfirst x' hx, ih hothers hrest]

theorem told_list [Wire α] {xs : List α} (hxs : ∀ x ∈ xs, Told m x) : Told m xs := by
  intro v h
  change (Value.list (xs.map encode)).Retold v at h
  rw [Retold] at h
  obtain ⟨items, hitems, rfl⟩ := h
  exact decodeItems?_of_retold hxs hitems

instance [Wire α] [Faithful m α] : Faithful m (List α) :=
  ⟨fun _ => told_list fun x _ => Faithful.told x⟩

theorem told_none [Wire α] : Told m (none : Option α) := by
  intro v h
  obtain rfl : v = .null := h
  rfl

theorem told_some [Wire α] {a : α} (ha : Told m a) (hne : encode a ≠ .null) :
    Told m (some a) := by
  intro v h
  change (encode a).Retold v at h
  have hnull := h.ne_null hne
  have hoctet := h.ne_octet
  simp only [decode?]
  rw [ha v h, Option.map_some]

theorem told_option [Wire α] {o : Option α} (ho : ∀ a ∈ o, Told m a)
    (hne : ∀ a : α, encode a ≠ .null) : Told m o := by
  cases o with
  | none => exact told_none
  | some a => exact told_some (ho a rfl) (hne a)

/-- Options of a type come back, if no value of it is written like nothing. -/
theorem Faithful.option [Wire α] [Faithful m α] (hne : ∀ a : α, encode a ≠ .null) :
    Faithful m (Option α) := ⟨fun _ => told_option (fun a _ => Faithful.told a) hne⟩

instance [Wire α] [Wire β] [Faithful m α] [Faithful m β] : Faithful m (α × β) where
  told p v h := by
    obtain ⟨a, b⟩ := p
    change (Value.list [encode a, encode b]).Retold v at h
    simp only [Retold, RetoldItems] at h
    obtain ⟨_, ⟨a', _, ha, ⟨b', _, hb, rfl, rfl⟩, rfl⟩, rfl⟩ := h
    show (match decode? m a', decode? m b' with
      | some a, some b => some (a, b)
      | _, _ => none) = some (a, b)
    rw [Faithful.told a a' ha, Faithful.told b b' hb]

/-! ## Maps -/

/-- Types whose keys come back. -/
class FaithfulKey (m : Medium) (κ : Type) [WireKey κ] : Prop where
  toldKey (k : κ) (v : Value) (h : (WireKey.encodeKey k).Retold v) :
    WireKey.decodeKey? m v = some k

instance : FaithfulKey .packed Int32 where
  toldKey n v h := by
    have hn : intWithin? (-0x80000000) 0x7fffffff v = some n.toInt :=
      intWithin?_of_retold h n.le_toInt (Int.le_of_lt_add_one n.toInt_lt)
    show (intWithin? (-0x80000000) 0x7fffffff v).map Int32.ofInt = some n
    rw [hn, Option.map_some, Int32.ofInt_toInt]

theorem decodeEntries?_of_retold [WireKey κ] [Wire ν] [FaithfulKey m κ] {l : List (κ × ν)}
    {entries : List (Value × Value)} (hl : ∀ e ∈ l, Told m e.2)
    (h : RetoldEntries (l.map fun e => (WireKey.encodeKey e.1, encode e.2)) entries) :
    decodeEntries? m entries = some l := by
  induction l generalizing entries with
  | nil =>
    rw [List.map_nil, RetoldEntries] at h
    rw [h]
    rfl
  | cons e rest ih =>
    rw [List.map_cons, RetoldEntries] at h
    obtain ⟨k', x', rest', hk, hx, hrest, rfl⟩ := h
    obtain ⟨hfirst, hothers⟩ := List.forall_mem_cons.1 hl
    rw [decodeEntries?, FaithfulKey.toldKey e.1 k' hk, hfirst x' hx, ih hothers hrest]

theorem decodeEntries?_eq [WireKey κ] [Wire ν] (m : Medium) (entries : List (Value × Value)) :
    (decodeEntries? m entries : Option (List (κ × ν))) = entries.mapM fun e =>
      (WireKey.decodeKey? m e.1).bind fun k => (decode? m e.2).map fun x => (k, x) := by
  induction entries with
  | nil => rfl
  | cons e rest ih =>
    obtain ⟨k, x⟩ := e
    rw [decodeEntries?, List.mapM_cons, ih]
    cases (WireKey.decodeKey? m k : Option κ) <;> cases (decode? m x : Option ν) <;>
      cases (rest.mapM _ : Option (List (κ × ν))) <;> rfl

theorem told_map [Ord κ] [Std.TransOrd κ] [Std.LawfulEqOrd κ] [WireKey κ] [Wire ν]
    [FaithfulKey m κ] {map : SortedMap κ ν} (hmap : ∀ e ∈ map.entries, Told m e.2) :
    Told m map := by
  intro v h
  change (Value.map (map.entries.map fun e => (WireKey.encodeKey e.1, encode e.2))).Retold v at h
  rw [Retold] at h
  obtain ⟨entries, told, hentries, hreordered, rfl⟩ := h
  have hread := decodeEntries?_of_retold hmap hentries
  rw [decodeEntries?_eq] at hread
  obtain ⟨l, hl, hperm⟩ := mapM_perm hreordered.perm.symm hread
  rw [← decodeEntries?_eq] at hl
  show (decodeEntries? m told).map SortedMap.ofList = some map
  rw [hl, Option.map_some, SortedMap.ofList_eq hperm.symm]

instance [Ord κ] [Std.TransOrd κ] [Std.LawfulEqOrd κ] [WireKey κ] [Wire ν] [FaithfulKey m κ]
    [Faithful m ν] : Faithful m (SortedMap κ ν) :=
  ⟨fun _ => told_map fun e _ => Faithful.told e.2⟩

theorem decodeSet?_of_retold [Ord κ] [Std.TransOrd κ] [Std.LawfulEqOrd κ] [Wire κ]
    [Faithful m κ] {s : SortedSet κ} {v : Value} (h : (encodeSet s).Retold v) :
    decodeSet? m v = some s := by
  have hkeys : (decode? m v : Option (List κ)) = some s.keys := Faithful.told s.keys v h
  show (decode? m v : Option (List κ)).map
    (fun xs => SortedMap.ofList (xs.map fun x => (x, ()))) = _
  rw [hkeys, Option.map_some, SortedMap.ofList_keys]

end Adventure.Wire
