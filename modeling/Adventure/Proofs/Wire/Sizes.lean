import Adventure.Proofs.Wire.Entries
import Adventure.Proofs.Wire.MessagePack
import Adventure.Proofs.Wire.Parts
import Adventure.Proofs.Wire.Plain
import Mathlib.Data.List.Nodup

/-!
# Lengths of 32 bits

Packed data says the lengths of texts, bytes, lists and maps in 32 bits, so all lengths in what is
read from it are such lengths.  A type stays within them if what is written of a value has such
lengths whenever what the value was read from had.
-/

namespace Adventure

open Wire Wire.Value

/-! ## Trees -/

namespace Wire

theorem Value.sizedItems_iff {xs : List Value} :
    sizedItems xs = true ↔ ∀ x ∈ xs, x.isSized = true := by
  induction xs with
  | nil => simp [sizedItems]
  | cons x rest ih => rw [sizedItems, Bool.and_eq_true, ih, List.forall_mem_cons]

theorem Value.sizedEntries_iff {es : List (Value × Value)} :
    sizedEntries es = true ↔ ∀ e ∈ es, e.1.isSized = true ∧ e.2.isSized = true := by
  induction es with
  | nil => simp [sizedEntries]
  | cons e rest ih =>
    obtain ⟨k, x⟩ := e
    rw [sizedEntries, Bool.and_eq_true, Bool.and_eq_true, ih, List.forall_mem_cons]

theorem Value.isSized_list_iff {xs : List Value} : (Value.list xs).isSized = true ↔
    xs.length < 0x100000000 ∧ ∀ x ∈ xs, x.isSized = true := by
  rw [isSized, Bool.and_eq_true, decide_eq_true_iff, sizedItems_iff]

theorem Value.isSized_map_iff {es : List (Value × Value)} : (Value.map es).isSized = true ↔
    es.length < 0x100000000 ∧ ∀ e ∈ es, e.1.isSized = true ∧ e.2.isSized = true := by
  rw [isSized, Bool.and_eq_true, decide_eq_true_iff, sizedEntries_iff]

theorem Value.Part.isSized {x v : Value} (h : x.Part v) (hv : v.isSized = true) :
    x.isSized = true := by
  cases h with
  | item h => exact (isSized_list_iff.1 hv).2 x h
  | entry h => exact ((isSized_map_iff.1 hv).2 _ h).2

/-- Whether there are few enough names, none of which is too long. -/
def namesFit (names : List String) : Bool :=
  names.length < 0x100000000 && names.all fun s => s.utf8ByteSize < 0x100000000

theorem namesFit_of_sublist {names names' : List String} (h : names.Sublist names')
    (hfit : namesFit names' = true) : namesFit names = true := by
  rw [namesFit, Bool.and_eq_true, decide_eq_true_iff, List.all_eq_true] at hfit ⊢
  exact ⟨Nat.lt_of_le_of_lt h.length_le hfit.1, fun s hs => hfit.2 s (h.subset hs)⟩

theorem Value.isSized_record {fields : List (String × Value)}
    (hnames : namesFit (fields.map (·.1)) = true) (h : ∀ e ∈ fields, e.2.isSized = true) :
    (record fields).isSized = true := by
  rw [namesFit, Bool.and_eq_true, decide_eq_true_iff, List.length_map, List.all_map,
    List.all_eq_true] at hnames
  refine isSized_map_iff.2 ⟨by rw [List.length_map]; exact hnames.1, ?_⟩
  exact List.forall_mem_map.2 fun e he => ⟨hnames.2 e he, h e he⟩

theorem Value.isSized_of_text? {v : Value} {s : String} (h : v.text? = some s)
    (hv : v.isSized = true) : s.utf8ByteSize < 0x100000000 := by
  cases v with
  | text s' | escaped s' =>
    obtain rfl := Option.some.inj h
    exact of_decide_eq_true hv
  | _ => cases h

theorem Value.length_plainItems? {xs ys : List Value} (h : plainItems? xs = some ys) :
    ys.length = xs.length := by
  induction xs generalizing ys with
  | nil =>
    obtain rfl := Option.some.inj h
    rfl
  | cons x rest ih =>
    rw [plainItems?] at h
    split at h
    · next y ys' hy hys =>
      obtain rfl := Option.some.inj h
      rw [List.length_cons, List.length_cons, ih hys]
    · cases h

theorem Value.length_plainFields? {es : List (Value × Value)} {fields : List (String × Value)}
    (h : plainFields? es = some fields) : fields.length = es.length := by
  induction es generalizing fields with
  | nil =>
    obtain rfl := Option.some.inj h
    rfl
  | cons e rest ih =>
    obtain ⟨k, x⟩ := e
    simp only [plainFields?_cons, Option.bind_eq_some_iff, Option.map_eq_some_iff] at h
    obtain ⟨name, -, y, -, others, hothers, rfl⟩ := h
    rw [List.length_cons, List.length_cons, ih hothers]

/-- A map has no more entries than it is made of. -/
theorem length_ofList_le {κ ν : Type} [Ord κ] [Std.TransOrd κ] [Std.LawfulEqOrd κ]
    (l : List (κ × ν)) : (SortedMap.ofList l).entries.length ≤ l.length :=
  (List.Nodup.of_map _ (SortedMap.nodup_keys _)).length_le_of_subset
    fun _ he => SortedMap.mem_of_mem_ofList he

mutual

/-- Plain data keeps the lengths of what it is the plain form of. -/
theorem Value.isSized_of_plain? : ∀ {v w : Value}, v.plain? = some w → v.isSized = true →
    w.isSized = true
  | .null, _, h, hv | .bool _, _, h, hv | .int _, _, h, hv | .formed _ _, _, h, hv
  | .text _, _, h, hv | .escaped _, _, h, hv => by
    rw [plain?] at h
    obtain rfl := Option.some.inj h
    exact hv
  | .float x, _, h, _ => by
    rw [plain?] at h
    obtain rfl := Option.some.inj h
    split <;> rfl
  | .list items, _, h, hv => by
    rw [plain?, Option.map_eq_some_iff] at h
    obtain ⟨items', hitems, rfl⟩ := h
    obtain ⟨hlength, hall⟩ := isSized_list_iff.1 hv
    refine isSized_list_iff.2 ⟨?_, isSized_of_plainItems? hitems hall⟩
    rwa [length_plainItems? hitems]
  | .map entries, _, h, hv => by
    rw [plain?_map, Option.map_eq_some_iff] at h
    obtain ⟨fields, hfields, rfl⟩ := h
    obtain ⟨hlength, hall⟩ := isSized_map_iff.1 hv
    have hsized := isSized_of_plainFields? hfields hall
    refine isSized_map_iff.2 ⟨?_, List.forall_mem_map.2 fun e he => ?_⟩
    · rw [texts, List.length_map]
      exact Nat.lt_of_le_of_lt (length_ofList_le fields) (length_plainFields? hfields ▸ hlength)
    · obtain ⟨hname, hvalue⟩ := hsized e (SortedMap.mem_of_mem_ofList he)
      exact ⟨decide_eq_true hname, hvalue⟩
  | .bytes _, _, h, _ | .damaged, _, h, _ | .unreadable, _, h, _ => by
    rw [plain?] at h
    cases h

theorem Value.isSized_of_plainItems? : ∀ {xs ys : List Value}, plainItems? xs = some ys →
    (∀ x ∈ xs, x.isSized = true) → ∀ y ∈ ys, y.isSized = true
  | [], _, h, _ => by
    obtain rfl := Option.some.inj h
    exact fun _ hy => by cases hy
  | x :: rest, _, h, hxs => by
    rw [plainItems?] at h
    split at h
    · next y ys hy hys =>
      obtain rfl := Option.some.inj h
      obtain ⟨hx, hrest⟩ := List.forall_mem_cons.1 hxs
      exact List.forall_mem_cons.2 ⟨isSized_of_plain? hy hx, isSized_of_plainItems? hys hrest⟩
    · cases h

theorem Value.isSized_of_plainFields? : ∀ {es : List (Value × Value)}
    {fields : List (String × Value)}, plainFields? es = some fields →
      (∀ e ∈ es, e.1.isSized = true ∧ e.2.isSized = true) →
        ∀ e ∈ fields, e.1.utf8ByteSize < 0x100000000 ∧ e.2.isSized = true
  | [], _, h, _ => by
    obtain rfl := Option.some.inj h
    exact fun _ he => by cases he
  | (k, x) :: rest, _, h, hes => by
    simp only [plainFields?_cons, Option.bind_eq_some_iff, Option.map_eq_some_iff] at h
    obtain ⟨name, hname, y, hy, fields, hfields, rfl⟩ := h
    obtain ⟨hfirst, hrest⟩ := List.forall_mem_cons.1 hes
    exact List.forall_mem_cons.2 ⟨⟨isSized_of_text? hname hfirst.1, isSized_of_plain? hy hfirst.2⟩,
      isSized_of_plainFields? hfields hrest⟩

end

theorem Value.isSized_plain {v : Value} (hv : v.isSized = true) : v.plain.isSized = true := by
  rw [plain]
  cases h : v.plain? with
  | none => rfl
  | some w => exact isSized_of_plain? h hv

end Wire

/-! ## Types -/

/-- Types whose values are never written with a length of more than 32 bits. -/
class AlwaysSized (α : Type) [Wire α] : Prop where
  isSized (a : α) : (encode a).isSized = true

/-- Types whose values are written with lengths of 32 bits if they are read from such. -/
class StaysSized (α : Type) [Wire α] : Prop where
  isSized {m : Medium} {v : Value} {a : α} (h : decode? m v = some a) (hv : v.isSized = true) :
    (encode a).isSized = true

variable {α β : Type} [Wire α] [Wire β] {m : Medium} {v : Value} {names : List String} {f : Fields}
  {name : String} {a : α}

instance [AlwaysSized α] : StaysSized α := ⟨fun _ _ => AlwaysSized.isSized _⟩

instance : AlwaysSized Int32 := ⟨fun _ => rfl⟩

instance : AlwaysSized Int64 := ⟨fun _ => rfl⟩

instance : AlwaysSized UInt32 := ⟨fun _ => rfl⟩

instance : AlwaysSized UInt64 := ⟨fun _ => rfl⟩

instance : AlwaysSized Bool := ⟨fun _ => rfl⟩

instance : AlwaysSized Binary64 := ⟨fun _ => rfl⟩

instance : AlwaysSized Direction := ⟨fun d => by cases d <;> rfl⟩

instance : AlwaysSized Speed := ⟨fun s => by cases s <;> rfl⟩

instance (priority := low) {α : Type} [Enumeration α] [LawfulEnumeration α] : AlwaysSized α :=
  ⟨fun a => decide_eq_true (LawfulEnumeration.short a)⟩

instance [AlwaysSized α] : AlwaysSized (Option α) where
  isSized
    | some a => (AlwaysSized.isSized a : (encode a).isSized = true)
    | none => rfl

instance : StaysSized Value := ⟨isSized_of_plain?⟩

theorem utf8ByteSize_of_textOfBytes? {data : List UInt8} {s : String}
    (h : textOfBytes? data = some s) : s.utf8ByteSize = data.length := by
  rw [textOfBytes?, String.fromUTF8?] at h
  split at h
  · obtain rfl := Option.some.inj h
    rfl
  · cases h

instance : StaysSized String where
  isSized {m v s} h hv := by
    refine decide_eq_true ?_
    cases v with
    | bytes data =>
      rw [utf8ByteSize_of_textOfBytes? h]
      exact of_decide_eq_true hv
    | _ => exact isSized_of_text? h hv

/-! ## Lists -/

theorem isSized_of_decodeItems? {γ : Type} {read : Value → Option γ} {write : γ → Value}
    (hitem : ∀ {w : Value} {x : γ}, read w = some x → w.isSized = true → (write x).isSized = true)
    {items : List Value} {xs : List γ} (h : decodeItems? read items = some xs)
    (hitems : ∀ w ∈ items, w.isSized = true) :
    xs.length = items.length ∧ ∀ x ∈ xs, (write x).isSized = true := by
  induction items generalizing xs with
  | nil =>
    obtain rfl := Option.some.inj h
    exact ⟨rfl, fun _ hx => by cases hx⟩
  | cons w rest ih =>
    rw [decodeItems?] at h
    split at h
    · next y ys hy hys =>
      obtain rfl := Option.some.inj h
      obtain ⟨hfirst, hrest⟩ := List.forall_mem_cons.1 hitems
      obtain ⟨hlength, hsized⟩ := ih hys hrest
      refine ⟨?_, List.forall_mem_cons.2 ⟨hitem hy hfirst, hsized⟩⟩
      rw [List.length_cons, List.length_cons, hlength]
    · cases h

theorem isSized_of_items? {items : List Value} (h : items? m v = some items)
    (hv : v.isSized = true) : items.length < 0x100000000 ∧ ∀ w ∈ items, w.isSized = true := by
  cases v with
  | list items' =>
    obtain rfl := Option.some.inj h
    exact isSized_list_iff.1 hv
  | bytes data =>
    rw [items?] at h
    split at h
    · obtain rfl := Option.some.inj h
      refine ⟨?_, List.forall_mem_map.2 fun _ _ => rfl⟩
      rw [octets, List.length_map]
      exact of_decide_eq_true hv
    · cases h
  | _ => cases h

/-- A list is written with lengths of 32 bits if its members are. -/
theorem isSized_list {γ : Type} {read : Value → Option γ} {write : γ → Value} {xs : List γ}
    (hitem : ∀ {w : Value} {x : γ}, read w = some x → w.isSized = true → (write x).isSized = true)
    (h : (items? m v).bind (decodeItems? read) = some xs) (hv : v.isSized = true) :
    (Value.list (xs.map write)).isSized = true := by
  obtain ⟨items, hitems, hread⟩ := Option.bind_eq_some_iff.1 h
  obtain ⟨hlength, hsized⟩ := isSized_of_items? hitems hv
  obtain ⟨hsame, hwritten⟩ := isSized_of_decodeItems? hitem hread hsized
  refine isSized_list_iff.2 ⟨?_, List.forall_mem_map.2 hwritten⟩
  rwa [List.length_map, hsame]

instance [StaysSized α] : StaysSized (List α) := ⟨isSized_list StaysSized.isSized⟩

/-! ## Fields -/

namespace Wire.Fields

/-- Whether all fields have lengths of 32 bits. -/
def IsSized (f : Fields) : Prop := ∀ name x, f.find? name = some x → x.isSized = true

theorem isSized_of_read (h : Fields.read? m names v = some f) (hv : v.isSized = true) :
    f.IsSized := by
  intro name x hx
  by_cases hbytes : ∃ data, v = .bytes data
  · obtain ⟨data, rfl⟩ := hbytes
    rw [Fields.read?] at h
    split at h
    · obtain rfl := Option.some.inj h
      obtain ⟨e, he, rfl⟩ := Option.map_eq_some_iff.1 hx
      obtain ⟨b, -, hb⟩ := List.mem_map.1 (List.of_mem_zip (List.mem_of_find?_eq_some he)).2
      rw [← hb]
      rfl
    · cases h
  · exact (part_of_read_of_ne (fun data hdata => hbytes ⟨data, hdata⟩) h hx).isSized hv

theorem IsSized.required [StaysSized α] (hf : f.IsSized) (h : f.required m name = some a) :
    (encode a).isSized = true := by
  obtain ⟨x, hx, ha⟩ := Option.bind_eq_some_iff.1 h
  exact StaysSized.isSized ha (hf name x hx)

theorem IsSized.withDefault [StaysSized α] {default : α} (hf : f.IsSized)
    (hdefault : (encode default).isSized = true)
    (h : f.withDefault m name default = some a) : (encode a).isSized = true := by
  unfold Fields.withDefault Fields.orElse at h
  split at h
  · next x hx => exact StaysSized.isSized h (hf name x hx)
  · obtain rfl := Option.some.inj h
    exact hdefault

end Wire.Fields

end Adventure
