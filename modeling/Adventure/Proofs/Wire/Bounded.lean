import Adventure.Proofs.Wire.Plain
import Adventure.Wire.Document

/-!
# Trees that are read

A document is nested at most so deeply and has numbers of 64 bits only, so whatever plain data it
holds can be written.
-/

namespace Adventure.Wire

namespace Value

mutual

/-- Whether the numbers of a tree have 64 bits and it is nested at most `depth` deep. -/
def Bounded : (depth : Nat) → Value → Prop
  | _, .null => True
  | _, .bool _ => True
  | _, .int n => -0x8000000000000000 ≤ n ∧ n < 0x10000000000000000
  | _, .formed _ n => -0x8000000000000000 ≤ n ∧ n < 0x10000000000000000
  | _, .float _ => True
  | _, .text _ => True
  | _, .escaped _ => True
  | _, .bytes _ => True
  | _, .damaged => True
  | depth, .list items => 0 < depth ∧ BoundedItems (depth - 1) items
  | depth, .map entries => 0 < depth ∧ BoundedEntries (depth - 1) entries
  | _, .unreadable => True

def BoundedItems : (depth : Nat) → List Value → Prop
  | _, [] => True
  | depth, x :: rest => x.Bounded depth ∧ BoundedItems depth rest

def BoundedEntries : (depth : Nat) → List (Value × Value) → Prop
  | _, [] => True
  | depth, (k, x) :: rest => k.Bounded depth ∧ x.Bounded depth ∧ BoundedEntries depth rest

end

theorem boundedItems_iff {depth : Nat} {xs : List Value} :
    BoundedItems depth xs ↔ ∀ x ∈ xs, x.Bounded depth := by
  induction xs with
  | nil => simp [BoundedItems]
  | cons x rest ih => simp [BoundedItems, ih]

theorem boundedEntries_iff {depth : Nat} {es : List (Value × Value)} :
    BoundedEntries depth es ↔ ∀ e ∈ es, e.1.Bounded depth ∧ e.2.Bounded depth := by
  induction es with
  | nil => simp [BoundedEntries]
  | cons e rest ih => simp [BoundedEntries, ih, and_assoc]

mutual

theorem Bounded.depth_le : ∀ {v : Value} {depth : Nat}, v.Bounded depth → v.depth ≤ depth
  | .list items, depth, h => by
    rw [Bounded] at h
    have hitems := BoundedItems.depth_le h.2
    rw [Value.depth]
    omega
  | .map entries, depth, h => by
    rw [Bounded] at h
    have hentries := BoundedEntries.depth_le h.2
    rw [Value.depth]
    omega
  | .null, _, _ | .bool _, _, _ | .int _, _, _ | .formed _ _, _, _ | .float _, _, _
  | .text _, _, _ | .escaped _, _, _ | .bytes _, _, _ | .damaged, _, _ | .unreadable, _, _ =>
    Nat.zero_le _

theorem BoundedItems.depth_le : ∀ {xs : List Value} {depth : Nat}, BoundedItems depth xs →
    depthOfItems xs ≤ depth
  | [], _, _ => Nat.zero_le _
  | _ :: _, _, h => Nat.max_le.2 ⟨Bounded.depth_le h.1, BoundedItems.depth_le h.2⟩

theorem BoundedEntries.depth_le : ∀ {es : List (Value × Value)} {depth : Nat},
    BoundedEntries depth es → depthOfEntries es ≤ depth
  | [], _, _ => Nat.zero_le _
  | (_, _) :: _, _, h => Nat.max_le.2
    ⟨Nat.max_le.2 ⟨Bounded.depth_le h.1, Bounded.depth_le h.2.1⟩, BoundedEntries.depth_le h.2.2⟩

end

mutual

/-- A tree is bounded by any depth that it is not nested beyond. -/
theorem Bounded.of_depth_le : ∀ {v : Value} {depth depth' : Nat}, v.Bounded depth →
    v.depth ≤ depth' → v.Bounded depth'
  | .list items, _, _, h, hle => by
    rw [Bounded] at h ⊢
    rw [Value.depth] at hle
    exact ⟨by omega, BoundedItems.of_depth_le h.2 (by omega)⟩
  | .map entries, _, _, h, hle => by
    rw [Bounded] at h ⊢
    rw [Value.depth] at hle
    exact ⟨by omega, BoundedEntries.of_depth_le h.2 (by omega)⟩
  | .int _, _, _, h, _ | .formed _ _, _, _, h, _ => h
  | .null, _, _, _, _ | .bool _, _, _, _, _ | .float _, _, _, _, _ | .text _, _, _, _, _
  | .escaped _, _, _, _, _ | .bytes _, _, _, _, _ | .damaged, _, _, _, _
  | .unreadable, _, _, _, _ => trivial

theorem BoundedItems.of_depth_le : ∀ {xs : List Value} {depth depth' : Nat},
    BoundedItems depth xs → depthOfItems xs ≤ depth' → BoundedItems depth' xs
  | [], _, _, _, _ => trivial
  | x :: rest, _, _, h, hle => by
    rw [depthOfItems] at hle
    exact ⟨Bounded.of_depth_le h.1 (by omega), BoundedItems.of_depth_le h.2 (by omega)⟩

theorem BoundedEntries.of_depth_le : ∀ {es : List (Value × Value)} {depth depth' : Nat},
    BoundedEntries depth es → depthOfEntries es ≤ depth' → BoundedEntries depth' es
  | [], _, _, _, _ => trivial
  | (k, x) :: rest, _, _, h, hle => by
    rw [depthOfEntries] at hle
    exact ⟨Bounded.of_depth_le h.1 (by omega), Bounded.of_depth_le h.2.1 (by omega),
      BoundedEntries.of_depth_le h.2.2 (by omega)⟩

end

mutual

/-- What can be written is bounded. -/
theorem Writable.bounded {plain : Bool} : ∀ {v : Value} {depth : Nat}, v.Writable plain depth →
    v.Bounded depth
  | .null, _, _ | .bool _, _, _ | .float _, _, _ | .text _, _, _ => trivial
  | .int _, _, h => h
  | .list items, _, h => by
    rw [Writable] at h
    exact ⟨h.1, WritableItems.bounded h.2⟩
  | .map entries, _, h => by
    rw [Writable] at h
    exact ⟨h.1, WritableEntries.bounded h.2.2⟩
  | .formed _ _, _, h | .escaped _, _, h | .bytes _, _, h | .damaged, _, h
  | .unreadable, _, h => h.elim

theorem WritableItems.bounded {plain : Bool} : ∀ {xs : List Value} {depth : Nat},
    WritableItems plain depth xs → BoundedItems depth xs
  | [], _, _ => trivial
  | _ :: _, _, h => ⟨Writable.bounded h.1, WritableItems.bounded h.2⟩

theorem WritableEntries.bounded {plain : Bool} : ∀ {es : List (Value × Value)} {depth : Nat},
    WritableEntries plain depth es → BoundedEntries depth es
  | [], _, _ => trivial
  | (_, _) :: _, _, h =>
    ⟨Writable.bounded h.1, Writable.bounded h.2.1, WritableEntries.bounded h.2.2⟩

end

mutual

/-- A tree that can be written can be written at the depth that it has. -/
theorem Writable.of_depth_le {plain : Bool} : ∀ {v : Value} {depth depth' : Nat},
    v.Writable plain depth → v.depth ≤ depth' → v.Writable plain depth'
  | .list items, _, _, h, hle => by
    rw [Writable] at h ⊢
    rw [Value.depth] at hle
    exact ⟨by omega, WritableItems.of_depth_le h.2 (by omega)⟩
  | .map entries, _, _, h, hle => by
    rw [Writable] at h ⊢
    rw [Value.depth] at hle
    exact ⟨by omega, h.2.1, WritableEntries.of_depth_le h.2.2 (by omega)⟩
  | .int _, _, _, h, _ | .float _, _, _, h, _ => h
  | .null, _, _, _, _ | .bool _, _, _, _, _ | .text _, _, _, _, _ => trivial
  | .formed _ _, _, _, h, _ | .escaped _, _, _, h, _ | .bytes _, _, _, h, _ | .damaged, _, _, h, _
  | .unreadable, _, _, h, _ => h.elim

theorem WritableItems.of_depth_le {plain : Bool} : ∀ {xs : List Value} {depth depth' : Nat},
    WritableItems plain depth xs → depthOfItems xs ≤ depth' → WritableItems plain depth' xs
  | [], _, _, _, _ => trivial
  | x :: rest, _, _, h, hle => by
    rw [depthOfItems] at hle
    exact ⟨Writable.of_depth_le h.1 (by omega), WritableItems.of_depth_le h.2 (by omega)⟩

theorem WritableEntries.of_depth_le {plain : Bool} : ∀ {es : List (Value × Value)}
    {depth depth' : Nat}, WritableEntries plain depth es → depthOfEntries es ≤ depth' →
      WritableEntries plain depth' es
  | [], _, _, _, _ => trivial
  | (k, x) :: rest, _, _, h, hle => by
    rw [depthOfEntries] at hle
    exact ⟨Writable.of_depth_le h.1 (by omega), Writable.of_depth_le h.2.1 (by omega),
      WritableEntries.of_depth_le h.2.2 (by omega)⟩

end

/-! ## Plain forms -/

mutual

/-- The plain form of a bounded tree can be written. -/
theorem writable_of_plain? : ∀ {v w : Value} {depth : Nat}, v.plain? = some w →
    v.Bounded depth → w.Writable true depth
  | .null, _, _, h, _ | .bool _, _, _, h, _ | .text _, _, _, h, _ | .escaped _, _, _, h, _ => by
    rw [plain?] at h
    obtain rfl := Option.some.inj h
    trivial
  | .int _, _, _, h, hb | .formed _ _, _, _, h, hb => by
    rw [plain?] at h
    obtain rfl := Option.some.inj h
    exact hb
  | .float x, _, _, h, _ => by
    rw [plain?] at h
    obtain rfl := Option.some.inj h
    split
    · next hx => exact fun _ => hx
    · trivial
  | .list items, _, _, h, hb => by
    rw [plain?, Option.map_eq_some_iff] at h
    obtain ⟨items', hitems, rfl⟩ := h
    rw [Bounded] at hb
    exact ⟨hb.1, writableItems_of_plainItems? hitems hb.2⟩
  | .map entries, _, depth, h, hb => by
    rw [plain?_map, Option.map_eq_some_iff] at h
    obtain ⟨fields, hfields, rfl⟩ := h
    rw [Bounded] at hb
    have hwritable := writable_of_plainFields? hfields hb.2
    have hdepth : depth = depth - 1 + 1 := by omega
    rw [hdepth]
    exact writable_texts (SortedMap.nodup_keys _) fun e he =>
      hwritable e (SortedMap.mem_of_mem_ofList he)
  | .bytes _, _, _, h, _ | .damaged, _, _, h, _ | .unreadable, _, _, h, _ => by
    rw [plain?] at h
    cases h

theorem writableItems_of_plainItems? : ∀ {xs ys : List Value} {depth : Nat},
    plainItems? xs = some ys → BoundedItems depth xs → WritableItems true depth ys
  | [], _, _, h, _ => by
    rw [plainItems?] at h
    obtain rfl := Option.some.inj h
    trivial
  | x :: rest, _, _, h, hb => by
    rw [plainItems?] at h
    split at h
    · next y ys hy hys =>
      obtain rfl := Option.some.inj h
      exact ⟨writable_of_plain? hy hb.1, writableItems_of_plainItems? hys hb.2⟩
    · cases h

theorem writable_of_plainFields? : ∀ {es : List (Value × Value)} {fields : List (String × Value)}
    {depth : Nat}, plainFields? es = some fields → BoundedEntries depth es →
      ∀ e ∈ fields, e.2.Writable true depth
  | [], _, _, h, _ => by
    obtain rfl := Option.some.inj h
    exact fun _ he => by cases he
  | (k, x) :: rest, _, _, h, hb => by
    simp only [plainFields?_cons, Option.bind_eq_some_iff, Option.map_eq_some_iff] at h
    obtain ⟨name, _, y, hy, fields, hfields, rfl⟩ := h
    exact List.forall_mem_cons.2
      ⟨writable_of_plain? hy hb.2.1, writable_of_plainFields? hfields hb.2.2⟩

end

/-- The plain form of a tree that has one can be written as well. -/
theorem Writable.plain {v : Value} {depth : Nat} (h : v.Writable true depth) :
    v.plain.Writable true depth := by
  obtain ⟨w, hw, _⟩ := exists_plain h
  rw [Value.plain, hw]
  exact writable_of_plain? hw h.bounded

end Value

namespace Json

open Value

/-! ## Documents -/

theorem takeDigits_lt {significand : Nat} (h : significand < 0x10000000000000000)
    (cs : List Piece) : (takeDigits significand cs).1 < 0x10000000000000000 := by
  induction cs generalizing significand with
  | nil => exact h
  | cons c rest ih =>
    rw [takeDigits]
    split
    · next hnext => exact ih hnext
    · exact h

theorem bounded_scaled (depth : Nat) (negative : Bool) (significand : Nat) (exponent : Int) :
    (scaled negative significand exponent).Bounded depth := by
  unfold scaled
  split <;> trivial

theorem bounded_whole (depth : Nat) (negative : Bool) {n : Nat} (h : n < 0x10000000000000000) :
    (whole negative n).Bounded depth := by
  unfold whole
  split
  · exact ⟨by omega, by omega⟩
  · split
    · exact bounded_scaled ..
    · next hn =>
      simp only [Bool.or_eq_true, decide_eq_true_eq, not_or] at hn
      exact ⟨by omega, by omega⟩

theorem bounded_readExponent {depth : Nat} {negative : Bool} {significand : Nat} {start : Int}
    {cs rest : List Piece} {v : Value}
    (h : readExponent negative significand start cs = some (v, rest)) : v.Bounded depth := by
  unfold readExponent at h
  split at h
  all_goals
    dsimp only at h
    split at h
    · cases h
    · split at h
      · split at h
        · cases h
          trivial
        · cases h
          exact bounded_scaled ..
      · cases h
        exact bounded_scaled ..

theorem bounded_readNumber {depth : Nat} {negative : Bool} {cs rest : List Piece} {v : Value}
    (h : readNumber negative cs = some (v, rest)) : v.Bounded depth := by
  unfold readNumber at h
  dsimp only at h
  split at h
  · cases h
  · split at h
    · split at h
      · cases h
      · split at h
        · exact bounded_readExponent h
        · exact bounded_readExponent h
        · cases h
          exact bounded_scaled ..
    · exact bounded_readExponent h
    · exact bounded_readExponent h
    · cases h
      split
      · exact bounded_whole _ _ (takeDigits_lt (by decide) _)
      · exact bounded_scaled ..

theorem bounded_readString {depth : Nat} {cs rest : List Piece} {v : Value}
    (h : readString cs = some (v, rest)) : v.Bounded depth := by
  rw [readString, Option.map_eq_some_iff] at h
  obtain ⟨⟨_ | s, rest'⟩, _, heq⟩ := h
  · cases heq
    trivial
  · cases heq
    trivial

theorem bounded_readKey {depth : Nat} {cs rest : List Piece} {v : Value}
    (h : readKey cs = some (v, rest)) : v.Bounded depth := by
  rw [readKey, Option.map_eq_some_iff] at h
  obtain ⟨⟨k, rest'⟩, hk, heq⟩ := h
  dsimp only at heq
  split at heq
  · cases heq
    split <;> trivial
  · cases heq
    exact bounded_readString hk

theorem bounded_contained {depth : Nat} {v : Value} (h : 0 < depth → v.Bounded depth) :
    (contained depth v).Bounded depth := by
  unfold contained
  split
  · trivial
  · exact h (by omega)

/-- What is read is bounded, item by item and entry by entry. -/
theorem bounded_read (fuel : Nat) :
    (∀ {depth cs v rest}, readValue fuel depth cs = some (v, rest) → v.Bounded depth) ∧
      (∀ {depth acc cs v rest}, BoundedItems depth acc →
        readItems fuel depth acc cs = some (v, rest) → v.Bounded (depth + 1)) ∧
      (∀ {depth acc cs v rest}, BoundedEntries depth acc →
        readEntries fuel depth acc cs = some (v, rest) → v.Bounded (depth + 1)) := by
  induction fuel with
  | zero =>
    refine ⟨fun h => ?_, fun _ h => ?_, fun _ h => ?_⟩
    · rw [readValue] at h
      cases h
    · rw [readItems] at h
      cases h
    · rw [readEntries] at h
      cases h
  | succ fuel ih =>
    obtain ⟨ihValue, ihItems, ihEntries⟩ := ih
    refine ⟨fun {depth cs v rest} h => ?_, fun {depth acc cs v rest} hacc h => ?_,
      fun {depth acc cs v rest} hacc h => ?_⟩
    · rw [readValue] at h
      split at h
      · cases h
      · exact bounded_readString h
      · exact bounded_readNumber h
      · split at h
        · cases h
          exact bounded_contained fun hpos => ⟨hpos, trivial⟩
        · obtain ⟨⟨v', rest'⟩, hread, heq⟩ := Option.map_eq_some_iff.1 h
          cases heq
          refine bounded_contained fun hpos => ?_
          have hnil : BoundedItems (depth - 1) [] := trivial
          have hv := ihItems hnil hread
          rwa [Nat.sub_add_cancel hpos] at hv
      · split at h
        · cases h
          exact bounded_contained fun hpos => ⟨hpos, trivial⟩
        · obtain ⟨⟨v', rest'⟩, hread, heq⟩ := Option.map_eq_some_iff.1 h
          cases heq
          refine bounded_contained fun hpos => ?_
          have hnil : BoundedEntries (depth - 1) [] := trivial
          have hv := ihEntries hnil hread
          rwa [Nat.sub_add_cancel hpos] at hv
      · obtain ⟨_, _, heq⟩ := Option.map_eq_some_iff.1 h
        cases heq
        trivial
      · obtain ⟨_, _, heq⟩ := Option.map_eq_some_iff.1 h
        cases heq
        trivial
      · obtain ⟨_, _, heq⟩ := Option.map_eq_some_iff.1 h
        cases heq
        trivial
      · exact bounded_readNumber h
    · rw [readItems] at h
      split at h
      · cases h
      · next v' rest' hread =>
        have hacc' : BoundedItems depth (v' :: acc) := ⟨ihValue hread, hacc⟩
        split at h
        · exact ihItems hacc' h
        · cases h
          refine ⟨Nat.succ_pos _, boundedItems_iff.2 fun x hx => ?_⟩
          exact boundedItems_iff.1 hacc' x (List.mem_reverse.1 hx)
        · cases h
    · rw [readEntries] at h
      split at h
      · split at h
        · cases h
        · next k rest' hkey =>
          split at h
          · split at h
            · cases h
            · next v' rest'' hread =>
              have hacc' : BoundedEntries depth ((k, v') :: acc) :=
                ⟨bounded_readKey hkey, ihValue hread, hacc⟩
              split at h
              · exact ihEntries hacc' h
              · cases h
                refine ⟨Nat.succ_pos _, boundedEntries_iff.2 fun e he => ?_⟩
                exact boundedEntries_iff.1 hacc' e (List.mem_reverse.1 he)
              · cases h
          · cases h
      · cases h

/-- A document is bounded. -/
theorem bounded_readPieces? {cs : List Piece} {v : Value} (h : readPieces? cs = some v) :
    v.Bounded maxDepth := by
  unfold readPieces? at h
  split at h
  · next v' rest hread =>
    split at h
    · cases h
      exact (bounded_read _).1 hread
    · cases h
  · cases h

end Json

end Adventure.Wire
