import Adventure.Proofs.Wire.Bounded
import Adventure.Proofs.Wire.Sizes

/-!
# Packed trees are bounded

Numbers of packed data have 64 bits in every width, lengths have 32 bits, and what is nested too
deeply is refused, so that the plain data in it can be written again.
-/

namespace Adventure.Wire.MessagePack

open Value

/-! ## Numbers -/

theorem foldl_bytes_lt (data : List UInt8) (acc : Nat) :
    data.foldl (fun acc b => acc * 256 + b.toNat) acc < (acc + 1) * 256 ^ data.length := by
  induction data generalizing acc with
  | nil => simp
  | cons b rest ih =>
    have hbyte := b.toNat_lt
    have hle : acc * 256 + b.toNat + 1 ≤ (acc + 1) * 256 := by omega
    calc rest.foldl (fun acc b => acc * 256 + b.toNat) (acc * 256 + b.toNat)
        < (acc * 256 + b.toNat + 1) * 256 ^ rest.length := ih _
      _ ≤ (acc + 1) * 256 * 256 ^ rest.length := Nat.mul_le_mul_right _ hle
      _ = (acc + 1) * 256 ^ (rest.length + 1) := by
        rw [Nat.pow_succ, Nat.mul_assoc, Nat.mul_comm 256]

theorem length_of_take? {n : Nat} {bytes data rest : List UInt8}
    (h : take? n bytes = some (data, rest)) : data.length = n := by
  unfold take? at h
  dsimp only at h
  split at h
  · next hlength =>
    obtain ⟨rfl, -⟩ := Prod.mk.inj (Option.some.inj h)
    exact hlength
  · cases h

theorem lt_of_readUnsigned {count n : Nat} {bytes rest : List UInt8}
    (h : readUnsigned count bytes = some (n, rest)) : n < 256 ^ count := by
  obtain ⟨⟨front, rest'⟩, htake, heq⟩ := Option.map_eq_some_iff.1 h
  obtain ⟨rfl, -⟩ := Prod.mk.inj heq
  have hlength := length_of_take? htake
  have hlt := foldl_bytes_lt front 0
  rwa [Nat.zero_add, Nat.one_mul, hlength] at hlt

theorem bounds_of_readSigned {count : Nat} {n : Int} {bytes rest : List UInt8}
    (h : readSigned count bytes = some (n, rest)) :
    -(256 ^ count : Nat) ≤ 2 * n ∧ 2 * n < (256 ^ count : Nat) := by
  obtain ⟨⟨k, rest'⟩, hread, heq⟩ := Option.map_eq_some_iff.1 h
  have hlt := lt_of_readUnsigned hread
  obtain ⟨rfl, -⟩ := Prod.mk.inj heq
  rw [Nat.pow_eq]
  generalize 256 ^ count = limit at *
  split <;> omega

/-! ## Leaves -/

variable {depth : Nat} {bytes rest : List UInt8} {v : Value}

theorem bounded_unsignedLeaf {form : Int → Value} {count : Nat}
    (hform : ∀ n : Int, 0 ≤ n → n < 0x10000000000000000 → (form n).Bounded depth)
    (hcount : count ≤ 8)
    (h : unsignedLeaf form count bytes = some (.leaf v, rest)) : v.Bounded depth := by
  obtain ⟨r, hread, heq⟩ := Option.map_eq_some_iff.1 h
  obtain ⟨hv, -⟩ := Prod.mk.inj heq
  obtain rfl := Head.leaf.inj hv
  have hlt := lt_of_readUnsigned hread
  have hpow : 256 ^ count ≤ 256 ^ 8 := Nat.pow_le_pow_right (by decide) hcount
  exact hform _ (Int.natCast_nonneg _) (by omega)

theorem bounded_int (n : Int) (hlow : 0 ≤ n) (hhigh : n < 0x10000000000000000) :
    (Value.int n).Bounded depth := ⟨by omega, hhigh⟩

theorem bounded_middle (n : Int) (hlow : 0 ≤ n) (hhigh : n < 0x10000000000000000) :
    (Value.formed .middle n).Bounded depth := ⟨by omega, hhigh⟩

theorem bounded_signedLeaf {count : Nat} (hcount : count ≤ 8)
    (h : signedLeaf count bytes = some (.leaf v, rest)) : v.Bounded depth := by
  obtain ⟨r, hread, heq⟩ := Option.map_eq_some_iff.1 h
  obtain ⟨hv, -⟩ := Prod.mk.inj heq
  obtain rfl := Head.leaf.inj hv
  have hbounds := bounds_of_readSigned hread
  have hpow : 256 ^ count ≤ 256 ^ 8 := Nat.pow_le_pow_right (by decide) hcount
  exact ⟨by omega, by omega⟩

theorem bounded_readText {n : Nat} (h : readText n bytes = some (v, rest)) : v.Bounded depth := by
  obtain ⟨r, -, heq⟩ := Option.map_eq_some_iff.1 h
  obtain ⟨rfl, -⟩ := Prod.mk.inj heq
  unfold textOf
  split <;> trivial

theorem bounded_readBytes {n : Nat} (h : readBytes n bytes = some (v, rest)) : v.Bounded depth := by
  obtain ⟨r, -, heq⟩ := Option.map_eq_some_iff.1 h
  obtain ⟨rfl, -⟩ := Prod.mk.inj heq
  trivial

theorem bounded_leaf {r : Option (Value × List UInt8)}
    (hr : ∀ {w : Value} {rest : List UInt8}, r = some (w, rest) → w.Bounded depth)
    (h : leaf r = some (.leaf v, rest)) : v.Bounded depth := by
  obtain ⟨⟨w, rest'⟩, hw, heq⟩ := Option.map_eq_some_iff.1 h
  obtain ⟨hv, -⟩ := Prod.mk.inj heq
  obtain rfl := Head.leaf.inj hv
  exact hr hw

theorem exists_of_sized {α : Type} {count : Nat} {next : Nat → List UInt8 → Option (α × List UInt8)}
    {r : α × List UInt8} (h : sized count bytes next = some r) :
    ∃ n rest, n < 256 ^ count ∧ next n rest = some r := by
  unfold sized at h
  split at h
  · next hread => exact ⟨_, _, lt_of_readUnsigned hread, h⟩
  · cases h

theorem bounded_sizedText {count : Nat}
    (h : leaf (sized count bytes readText) = some (.leaf v, rest)) : v.Bounded depth := by
  refine bounded_leaf (fun hr => ?_) h
  obtain ⟨n, rest', -, hread⟩ := exists_of_sized hr
  exact bounded_readText hread

theorem bounded_sizedBytes {count : Nat}
    (h : leaf (sized count bytes readBytes) = some (.leaf v, rest)) : v.Bounded depth := by
  refine bounded_leaf (fun hr => ?_) h
  obtain ⟨n, rest', -, hread⟩ := exists_of_sized hr
  exact bounded_readBytes hread

/-- An extension is no leaf. -/
theorem readExtension_ne {n : Nat} : readExtension n bytes ≠ some (.leaf v, rest) := by
  intro h
  obtain ⟨r, -, heq⟩ := Option.map_eq_some_iff.1 h
  cases heq

theorem sizedExtension_ne {count : Nat} :
    sized count bytes readExtension ≠ some (.leaf v, rest) := by
  intro h
  obtain ⟨n, rest', -, hread⟩ := exists_of_sized h
  exact readExtension_ne hread

/-- A leaf at the front of packed data is bounded. -/
theorem bounded_readHead (h : readHead bytes = some (.leaf v, rest)) : v.Bounded depth := by
  unfold readHead at h
  split at h
  · cases h
  · next tag rest' =>
    have htag := tag.toNat_lt
    dsimp only at h
    split at h
    · cases h
      exact ⟨by omega, by omega⟩
    · split at h
      · cases h
      · split at h
        · cases h
        · split at h
          · exact bounded_leaf bounded_readText h
          · split at h
            · cases h
              exact ⟨by omega, by omega⟩
            · -- the kinds with a tag of their own
              split at h
              all_goals first
                | exact bounded_sizedText h
                | exact bounded_sizedBytes h
                | exact bounded_unsignedLeaf bounded_int (by decide) h
                | exact bounded_unsignedLeaf bounded_middle (by decide) h
                | exact bounded_signedLeaf (by decide) h
                | exact absurd h readExtension_ne
                | exact absurd h sizedExtension_ne
                | (cases h; done)
                | (cases h; trivial)
                | (obtain ⟨r, -, heq⟩ := Option.map_eq_some_iff.1 h
                   cases heq
                   trivial)
                | (obtain ⟨r, -, heq⟩ := Option.map_eq_some_iff.1 h
                   cases heq)

/-! ## Values -/

/-- What is read is bounded, item by item and entry by entry. -/
theorem bounded_read (fuel : Nat) :
    (∀ {depth bytes v rest}, readValue fuel depth bytes = some (v, rest) → v.Bounded depth) ∧
      (∀ {depth n acc bytes v rest}, BoundedItems depth acc →
        readItems fuel depth n acc bytes = some (v, rest) → v.Bounded (depth + 1)) ∧
      (∀ {depth n acc bytes v rest}, BoundedEntries depth acc →
        readEntries fuel depth n acc bytes = some (v, rest) → v.Bounded (depth + 1)) := by
  induction fuel with
  | zero =>
    refine ⟨fun h => ?_, fun _ h => ?_, fun _ h => ?_⟩
    · rw [readValue] at h
      cases h
    · rw [readItems] at h
      cases h
    · rw [readEntries] at h
      cases h
  | succ fuel ih =>
    obtain ⟨ihValue, ihItems, ihEntries⟩ := ih
    refine ⟨fun {depth bytes v rest} h => ?_, fun {depth n acc bytes v rest} hacc h => ?_,
      fun {depth n acc bytes v rest} hacc h => ?_⟩
    · rw [readValue] at h
      split at h
      · cases h
      · next hhead =>
        cases h
        exact bounded_readHead hhead
      · split at h
        · cases h
        · cases h
          trivial
      · split at h
        · cases h
        · next hpos =>
          have hnil : BoundedItems (depth - 1) [] := trivial
          have hv := ihItems hnil h
          rwa [Nat.sub_add_cancel (Nat.pos_of_ne_zero hpos)] at hv
      · split at h
        · cases h
        · next hpos =>
          have hnil : BoundedEntries (depth - 1) [] := trivial
          have hv := ihEntries hnil h
          rwa [Nat.sub_add_cancel (Nat.pos_of_ne_zero hpos)] at hv
    · rw [readItems] at h
      split at h
      · cases h
        refine ⟨Nat.succ_pos _, boundedItems_iff.2 fun x hx => ?_⟩
        exact boundedItems_iff.1 hacc x (List.mem_reverse.1 hx)
      · split at h
        · cases h
        · next v' rest' hread =>
          have hacc' : BoundedItems depth (v' :: acc) := ⟨ihValue hread, hacc⟩
          exact ihItems hacc' h
    · rw [readEntries] at h
      split at h
      · cases h
        refine ⟨Nat.succ_pos _, boundedEntries_iff.2 fun e he => ?_⟩
        exact boundedEntries_iff.1 hacc e (List.mem_reverse.1 he)
      · split at h
        · cases h
        · next k rest' hkey =>
          split at h
          · cases h
          · next v' rest'' hread =>
            have hacc' : BoundedEntries depth ((k, v') :: acc) :=
              ⟨ihValue hkey, ihValue hread, hacc⟩
            exact ihEntries hacc' h

/-- Packed data is bounded. -/
theorem bounded_read? (h : read? bytes = some v) : v.Bounded maxDepth := by
  obtain ⟨⟨v', rest⟩, hread, rfl⟩ := Option.map_eq_some_iff.1 h
  exact (bounded_read _).1 hread

/-! ## Lengths -/

/-- Whether a leaf, or the number of entries that a container begins with, has 32 bits. -/
def Head.IsSized : Head → Prop
  | .leaf v => v.isSized = true
  | .extension => True
  | .list n | .map n => n < 0x100000000

variable {head : Head}

theorem isSized_textOf {data : List UInt8} (h : data.length < 0x100000000) :
    (textOf data).isSized = true := by
  unfold textOf
  split
  · next s hs =>
    refine decide_eq_true ?_
    rwa [utf8ByteSize_of_textOfBytes? hs]
  · rfl

theorem isSized_leaf {r : Option (Value × List UInt8)}
    (hr : ∀ {w : Value} {rest : List UInt8}, r = some (w, rest) → w.isSized = true)
    (h : leaf r = some (head, rest)) : head.IsSized := by
  obtain ⟨⟨w, rest'⟩, hw, heq⟩ := Option.map_eq_some_iff.1 h
  obtain ⟨rfl, -⟩ := Prod.mk.inj heq
  exact hr hw

theorem isSized_readText {n : Nat} (hn : n < 0x100000000)
    (h : readText n bytes = some (v, rest)) : v.isSized = true := by
  obtain ⟨⟨data, rest'⟩, htake, heq⟩ := Option.map_eq_some_iff.1 h
  obtain ⟨rfl, -⟩ := Prod.mk.inj heq
  exact isSized_textOf ((length_of_take? htake).symm ▸ hn)

theorem isSized_readBytes {n : Nat} (hn : n < 0x100000000)
    (h : readBytes n bytes = some (v, rest)) : v.isSized = true := by
  obtain ⟨⟨data, rest'⟩, htake, heq⟩ := Option.map_eq_some_iff.1 h
  obtain ⟨rfl, -⟩ := Prod.mk.inj heq
  exact decide_eq_true ((length_of_take? htake).symm ▸ hn)

/-- A length in four bytes or less has 32 bits. -/
theorem isSized_sized {count : Nat} {read : Nat → List UInt8 → Option (Value × List UInt8)}
    (hcount : count ≤ 4)
    (hread : ∀ {n : Nat} {bytes rest : List UInt8} {w : Value}, n < 0x100000000 →
      read n bytes = some (w, rest) → w.isSized = true)
    (h : leaf (sized count bytes read) = some (head, rest)) : head.IsSized := by
  refine isSized_leaf (fun hr => ?_) h
  obtain ⟨n, rest', hn, hr⟩ := exists_of_sized hr
  have hpow : 256 ^ count ≤ 256 ^ 4 := Nat.pow_le_pow_right (by decide) hcount
  exact hread (Nat.lt_of_lt_of_le hn hpow) hr

theorem isSized_readExtension {n : Nat} (h : readExtension n bytes = some (head, rest)) :
    head.IsSized := by
  obtain ⟨r, -, heq⟩ := Option.map_eq_some_iff.1 h
  obtain ⟨rfl, -⟩ := Prod.mk.inj heq
  trivial

theorem isSized_sizedExtension {count : Nat}
    (h : sized count bytes readExtension = some (head, rest)) : head.IsSized := by
  obtain ⟨n, rest', -, hread⟩ := exists_of_sized h
  exact isSized_readExtension hread

theorem isSized_count (container : Nat → Head) {count : Nat} (hcount : count ≤ 4)
    (hcontainer : ∀ n, n < 0x100000000 → (container n).IsSized)
    (h : (readUnsigned count bytes).map (fun r => (container r.1, r.2)) = some (head, rest)) :
    head.IsSized := by
  obtain ⟨⟨n, rest'⟩, hread, heq⟩ := Option.map_eq_some_iff.1 h
  obtain ⟨rfl, -⟩ := Prod.mk.inj heq
  have hpow : 256 ^ count ≤ 256 ^ 4 := Nat.pow_le_pow_right (by decide) hcount
  exact hcontainer n (Nat.lt_of_lt_of_le (lt_of_readUnsigned hread) hpow)

/-- The lengths at the front of packed data have 32 bits. -/
theorem isSized_readHead (h : readHead bytes = some (head, rest)) : head.IsSized := by
  unfold readHead at h
  split at h
  · cases h
  · next tag rest' =>
    have htag := tag.toNat_lt
    dsimp only at h
    split at h
    · cases h
      rfl
    · split at h
      · cases h
        exact (by omega : tag.toNat - 0x80 < 0x100000000)
      · split at h
        · cases h
          exact (by omega : tag.toNat - 0x90 < 0x100000000)
        · split at h
          · exact isSized_leaf (isSized_readText (by omega)) h
          · split at h
            · cases h
              rfl
            · -- the kinds with a tag of their own
              split at h
              all_goals first
                | (cases h; done)
                | (cases h; rfl)
                | exact isSized_sized (by decide) isSized_readText h
                | exact isSized_sized (by decide) isSized_readBytes h
                | exact isSized_readExtension h
                | exact isSized_sizedExtension h
                | exact isSized_count .list (by decide) (fun _ hn => hn) h
                | exact isSized_count .map (by decide) (fun _ hn => hn) h
                | (obtain ⟨r, -, heq⟩ := Option.map_eq_some_iff.1 h
                   obtain ⟨rfl, -⟩ := Prod.mk.inj heq
                   rfl)

/-- All lengths in what is read have 32 bits, item by item and entry by entry. -/
theorem isSized_read (fuel : Nat) :
    (∀ {depth bytes v rest}, readValue fuel depth bytes = some (v, rest) → v.isSized = true) ∧
      (∀ {depth n acc bytes v rest}, acc.length + n < 0x100000000 →
        (∀ x ∈ acc, x.isSized = true) → readItems fuel depth n acc bytes = some (v, rest) →
          v.isSized = true) ∧
      (∀ {depth n acc bytes v rest}, acc.length + n < 0x100000000 →
        (∀ e ∈ acc, e.1.isSized = true ∧ e.2.isSized = true) →
          readEntries fuel depth n acc bytes = some (v, rest) → v.isSized = true) := by
  induction fuel with
  | zero =>
    refine ⟨fun h => ?_, fun _ _ h => ?_, fun _ _ h => ?_⟩
    · rw [readValue] at h
      cases h
    · rw [readItems] at h
      cases h
    · rw [readEntries] at h
      cases h
  | succ fuel ih =>
    obtain ⟨ihValue, ihItems, ihEntries⟩ := ih
    refine ⟨fun {depth bytes v rest} h => ?_, fun {depth n acc bytes v rest} hlength hacc h => ?_,
      fun {depth n acc bytes v rest} hlength hacc h => ?_⟩
    · rw [readValue] at h
      split at h
      · cases h
      · next hhead =>
        cases h
        exact isSized_readHead hhead
      · split at h
        · cases h
        · cases h
          rfl
      · next n _ hhead =>
        have hn : n < 0x100000000 := isSized_readHead hhead
        split at h
        · cases h
        · exact ihItems (by simpa using hn) (fun _ hx => by cases hx) h
      · next n _ hhead =>
        have hn : n < 0x100000000 := isSized_readHead hhead
        split at h
        · cases h
        · exact ihEntries (by simpa using hn) (fun _ he => by cases he) h
    · rw [readItems] at h
      split at h
      · cases h
        refine isSized_list_iff.2 ⟨?_, fun x hx => hacc x (List.mem_reverse.1 hx)⟩
        rw [List.length_reverse]
        omega
      · split at h
        · cases h
        · next v' rest' hread =>
          refine ihItems ?_ (List.forall_mem_cons.2 ⟨ihValue hread, hacc⟩) h
          rw [List.length_cons]
          omega
    · rw [readEntries] at h
      split at h
      · cases h
        refine isSized_map_iff.2 ⟨?_, fun e he => hacc e (List.mem_reverse.1 he)⟩
        rw [List.length_reverse]
        omega
      · split at h
        · cases h
        · next k rest' hkey =>
          split at h
          · cases h
          · next v' rest'' hread =>
            refine ihEntries ?_
              (List.forall_mem_cons.2 ⟨⟨ihValue hkey, ihValue hread⟩, hacc⟩) h
            rw [List.length_cons]
            omega

/-- All lengths in packed data have 32 bits. -/
theorem isSized_read? (h : read? bytes = some v) : v.isSized = true := by
  obtain ⟨⟨v', rest⟩, hread, rfl⟩ := Option.map_eq_some_iff.1 h
  exact (isSized_read _).1 hread

end Adventure.Wire.MessagePack
