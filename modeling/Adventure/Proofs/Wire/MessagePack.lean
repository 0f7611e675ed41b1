import Adventure.Proofs.Wire.Writable
import Adventure.Save.Envelope

/-!
# MessagePack comes back

Whatever can be written as packed data is read back, up to the form of its numbers, and what follows
it is left alone.
-/

namespace Adventure.Wire

theorem toList_loop_eq (bytes : ByteArray) (i : Nat) (front : List UInt8) :
    ByteArray.toList.loop bytes i front = front.reverse ++ bytes.data.toList.drop i := by
  fun_induction ByteArray.toList.loop bytes i front with
  | case1 i front hi ih =>
    have hlt : i < bytes.data.toList.length := by simpa using hi
    rw [ih, List.drop_eq_getElem_cons hlt]
    simp [ByteArray.get!, hi]
  | case2 i front hi =>
    have hle : bytes.data.toList.length ≤ i := by simpa using hi
    rw [List.drop_eq_nil_of_le hle, List.append_nil]

/-- An array is made of its bytes. -/
theorem mk_toList (bytes : ByteArray) : (⟨bytes.toList.toArray⟩ : ByteArray) = bytes := by
  rw [ByteArray.toList, toList_loop_eq]
  rfl

theorem length_toList (bytes : ByteArray) : bytes.toList.length = bytes.size := by
  rw [ByteArray.toList, toList_loop_eq]
  rfl

/-- A text is read back from its bytes. -/
theorem fromUTF8?_toUTF8 (s : String) :
    String.fromUTF8? (⟨s.toUTF8.toList.toArray⟩ : ByteArray) = some s := by
  rw [mk_toList, String.toUTF8_eq_toByteArray, String.fromUTF8?, dif_pos s.isValidUTF8]
  rfl

namespace Value

mutual

/-- Whether all texts, bytes, lists and maps of a tree have a length of 32 bits, as packed data can
say. -/
def isSized : Value → Bool
  | .text s | .escaped s => s.utf8ByteSize < 0x100000000
  | .bytes data => data.length < 0x100000000
  | .list items => items.length < 0x100000000 && sizedItems items
  | .map entries => entries.length < 0x100000000 && sizedEntries entries
  | _ => true

def sizedItems : List Value → Bool
  | [] => true
  | x :: rest => x.isSized && sizedItems rest

def sizedEntries : List (Value × Value) → Bool
  | [] => true
  | (k, x) :: rest => k.isSized && x.isSized && sizedEntries rest

end

end Value

namespace MessagePack

open Value

/-! ## Numbers in bytes -/

theorem length_bigEndian (count n : Nat) : (bigEndian count n).length = count := by
  induction count with
  | zero => rfl
  | succ count ih => rw [bigEndian, List.length_cons, ih]

theorem foldl_bigEndian (count n acc : Nat) :
    (bigEndian count n).foldl (fun acc b => acc * 256 + b.toNat) acc =
      acc * 256 ^ count + n % 256 ^ count := by
  induction count generalizing acc with
  | zero => simp [bigEndian, Nat.mod_one]
  | succ count ih =>
    have hbyte : (UInt8.ofNat (n / Nat.pow 256 count % 256)).toNat = n / 256 ^ count % 256 := by
      rw [UInt8.toNat_ofNat', Nat.pow_eq]
      omega
    have hsplit : n % 256 ^ (count + 1) =
        n % 256 ^ count + 256 ^ count * (n / 256 ^ count % 256) := by
      rw [Nat.pow_succ, Nat.mod_mul]
    rw [bigEndian, List.foldl_cons, ih, hbyte, hsplit, Nat.pow_succ, Nat.add_mul, Nat.mul_assoc,
      Nat.mul_comm 256, Nat.mul_comm (n / 256 ^ count % 256)]
    omega

theorem ofBigEndian_bigEndian {count n : Nat} (h : n < 256 ^ count) :
    ofBigEndian (bigEndian count n) = n := by
  rw [ofBigEndian, foldl_bigEndian, Nat.zero_mul, Nat.zero_add, Nat.mod_eq_of_lt h]

theorem take?_append (front rest : List UInt8) :
    take? front.length (front ++ rest) = some (front, rest) := by
  simp [take?]

theorem readUnsigned_bigEndian {count n : Nat} (h : n < 256 ^ count) (rest : List UInt8) :
    readUnsigned count (bigEndian count n ++ rest) = some (n, rest) := by
  have htake : take? count (bigEndian count n ++ rest) = some (bigEndian count n, rest) := by
    simpa only [length_bigEndian] using take?_append (bigEndian count n) rest
  rw [readUnsigned, htake]
  exact congrArg (fun n => some (n, rest)) (ofBigEndian_bigEndian h)

theorem readSigned_bigEndian {count n : Nat} (h : 2 * n ≤ 256 ^ count) (hpos : 0 < n)
    (rest : List UInt8) :
    readSigned count (bigEndian count (256 ^ count - n) ++ rest) = some (-(n : Int), rest) := by
  have hvalue : (if 2 * (256 ^ count - n) < Nat.pow 256 count then ((256 ^ count - n : Nat) : Int)
      else ((256 ^ count - n : Nat) : Int) - (Nat.pow 256 count : Nat)) = -(n : Int) := by
    rw [Nat.pow_eq, if_neg (by omega)]
    omega
  rw [readSigned, readUnsigned_bigEndian (by omega)]
  exact congrArg (fun n => some (n, rest)) hvalue

/-! ## Heads -/

theorem readHead_small {n : Nat} (h : n < 128) (rest : List UInt8) :
    readHead (UInt8.ofNat n :: rest) = some (.leaf (.int n), rest) := by
  have ht : (UInt8.ofNat n).toNat = n := by
    rw [UInt8.toNat_ofNat']
    omega
  simp [readHead, ht, h]

theorem readHead_small_negative {n : Nat} (hpos : 0 < n) (h : n ≤ 32) (rest : List UInt8) :
    readHead (UInt8.ofNat (256 - n) :: rest) = some (.leaf (.int (-(n : Int))), rest) := by
  have ht : (UInt8.ofNat (256 - n)).toNat = 256 - n := by
    rw [UInt8.toNat_ofNat']
    omega
  have hvalue : ((256 - n : Nat) : Int) - 256 = -(n : Int) := by omega
  simp only [readHead, ht]
  rw [if_neg (by omega), if_neg (by omega), if_neg (by omega), if_neg (by omega), if_pos (by omega),
    hvalue]

/-- The two ways to write a number after its tag. -/
theorem unsignedLeaf_bigEndian (form : Int → Value) (count n : Nat) (h : n < 256 ^ count)
    (rest : List UInt8) :
    unsignedLeaf form count (bigEndian count n ++ rest) = some (.leaf (form n), rest) := by
  rw [unsignedLeaf, readUnsigned_bigEndian h]
  rfl

theorem signedLeaf_bigEndian (count n : Nat) (h : 2 * n ≤ 256 ^ count) (hpos : 0 < n)
    (rest : List UInt8) :
    signedLeaf count (bigEndian count (256 ^ count - n) ++ rest) =
      some (.leaf (.formed .signed (-(n : Int))), rest) := by
  rw [signedLeaf, readSigned_bigEndian h hpos]
  rfl

theorem readHead_writeUnsigned {n : Nat} (h : n < 0x10000000000000000) (rest : List UInt8) :
    ∃ v, (Value.int n).Retold v ∧ readHead (writeUnsigned n ++ rest) = some (.leaf v, rest) := by
  unfold writeUnsigned
  split
  · next hsmall => exact ⟨.int n, .inl rfl, readHead_small hsmall rest⟩
  · split
    · next hn => exact ⟨.int n, .inl rfl, unsignedLeaf_bigEndian .int 1 n (by omega) rest⟩
    · split
      · next hn =>
        exact ⟨.formed .middle n, .inr ⟨_, by decide, rfl⟩,
          unsignedLeaf_bigEndian (.formed .middle) 2 n (by omega) rest⟩
      · split
        · next hn =>
          exact ⟨.formed .middle n, .inr ⟨_, by decide, rfl⟩,
            unsignedLeaf_bigEndian (.formed .middle) 4 n (by omega) rest⟩
        · exact ⟨.int n, .inl rfl, unsignedLeaf_bigEndian .int 8 n (by omega) rest⟩

theorem readHead_writeNegative {n : Nat} (hpos : 0 < n) (h : n ≤ 0x8000000000000000)
    (rest : List UInt8) :
    ∃ v, (Value.int (-(n : Int))).Retold v ∧
      readHead (writeNegative n ++ rest) = some (.leaf v, rest) := by
  have hsigned : (Value.int (-(n : Int))).Retold (.formed .signed (-(n : Int))) :=
    .inr ⟨_, by decide, rfl⟩
  unfold writeNegative
  split
  · next hsmall => exact ⟨.int (-(n : Int)), .inl rfl, readHead_small_negative hpos hsmall rest⟩
  · split
    · next hn => exact ⟨_, hsigned, signedLeaf_bigEndian 1 n (by omega) hpos rest⟩
    · split
      · next hn => exact ⟨_, hsigned, signedLeaf_bigEndian 2 n (by omega) hpos rest⟩
      · split
        · next hn => exact ⟨_, hsigned, signedLeaf_bigEndian 4 n (by omega) hpos rest⟩
        · exact ⟨_, hsigned, signedLeaf_bigEndian 8 n (by omega) hpos rest⟩

/-- A whole number comes back, in some form. -/
theorem readHead_writeInt {n : Int} (hlow : -0x8000000000000000 ≤ n)
    (hhigh : n < 0x10000000000000000)
    (rest : List UInt8) :
    ∃ v, (Value.int n).Retold v ∧ readHead (writeInt n ++ rest) = some (.leaf v, rest) := by
  unfold writeInt
  split
  · next hneg =>
    have hn : -(n.natAbs : Int) = n := by omega
    have h := readHead_writeNegative (n := n.natAbs) (by omega) (by omega) rest
    rwa [hn] at h
  · next hpos =>
    have hn : (n.natAbs : Int) = n := by omega
    have h := readHead_writeUnsigned (n := n.natAbs) (by omega) rest
    rwa [hn] at h

theorem textOf_toUTF8 (s : String) : textOf s.toUTF8.toList = .text s := by
  rw [textOf, fromUTF8?_toUTF8]

theorem readText_append (s : String) (rest : List UInt8) :
    readText s.toUTF8.toList.length (s.toUTF8.toList ++ rest) = some (.text s, rest) := by
  rw [readText, take?_append]
  exact congrArg (fun v => some (v, rest)) (textOf_toUTF8 s)

theorem sized_bigEndian {α : Type} {count n : Nat} (h : n < 256 ^ count) (rest : List UInt8)
    (next : Nat → List UInt8 → Option (α × List UInt8)) :
    sized count (bigEndian count n ++ rest) next = next n rest := by
  rw [sized, readUnsigned_bigEndian h]

theorem readHead_writeText {s : String} (h : s.toUTF8.toList.length < 0x100000000)
    (rest : List UInt8) : readHead (writeText s ++ rest) = some (.leaf (.text s), rest) := by
  have hread : leaf (readText s.toUTF8.toList.length (s.toUTF8.toList ++ rest)) =
      some (.leaf (.text s), rest) := by
    rw [readText_append]
    rfl
  simp only [writeText, List.append_assoc]
  generalize s.toUTF8.toList = data at h hread
  split
  · next hn =>
    have ht : (UInt8.ofNat (0xa0 + data.length)).toNat = 0xa0 + data.length := by
      rw [UInt8.toNat_ofNat']
      omega
    rw [List.singleton_append, ← hread]
    simp only [readHead, ht]
    rw [if_neg (by omega), if_neg (by omega), if_neg (by omega), if_pos (by omega),
      Nat.add_sub_cancel_left]
  · split
    · next hn =>
      show leaf (sized 1 (bigEndian 1 data.length ++ (data ++ rest)) readText) = _
      rw [sized_bigEndian (by omega), hread]
    · split
      · next hn =>
        show leaf (sized 2 (bigEndian 2 data.length ++ (data ++ rest)) readText) = _
        rw [sized_bigEndian (by omega), hread]
      · show leaf (sized 4 (bigEndian 4 data.length ++ (data ++ rest)) readText) = _
        rw [sized_bigEndian (by omega), hread]

theorem readHead_listHeader {n : Nat} (h : n < 0x100000000) (rest : List UInt8) :
    readHead (listHeader n ++ rest) = some (.list n, rest) := by
  unfold listHeader
  split
  · next hn =>
    have ht : (UInt8.ofNat (0x90 + n)).toNat = 0x90 + n := by
      rw [UInt8.toNat_ofNat']
      omega
    rw [List.singleton_append]
    simp only [readHead, ht]
    rw [if_neg (by omega), if_neg (by omega), if_pos (by omega), Nat.add_sub_cancel_left]
  · split
    · next hn =>
      show (readUnsigned 2 (bigEndian 2 n ++ rest)).map (fun r => (Head.list r.1, r.2)) = _
      rw [readUnsigned_bigEndian (by omega)]
      rfl
    · show (readUnsigned 4 (bigEndian 4 n ++ rest)).map (fun r => (Head.list r.1, r.2)) = _
      rw [readUnsigned_bigEndian (by omega)]
      rfl

theorem readHead_mapHeader {n : Nat} (h : n < 0x100000000) (rest : List UInt8) :
    readHead (mapHeader n ++ rest) = some (.map n, rest) := by
  unfold mapHeader
  split
  · next hn =>
    have ht : (UInt8.ofNat (0x80 + n)).toNat = 0x80 + n := by
      rw [UInt8.toNat_ofNat']
      omega
    rw [List.singleton_append]
    simp only [readHead, ht]
    rw [if_neg (by omega), if_pos (by omega), Nat.add_sub_cancel_left]
  · split
    · next hn =>
      show (readUnsigned 2 (bigEndian 2 n ++ rest)).map (fun r => (Head.map r.1, r.2)) = _
      rw [readUnsigned_bigEndian (by omega)]
      rfl
    · show (readUnsigned 4 (bigEndian 4 n ++ rest)).map (fun r => (Head.map r.1, r.2)) = _
      rw [readUnsigned_bigEndian (by omega)]
      rfl

/-! ## Values -/

theorem length_listHeader_pos (n : Nat) : 0 < (listHeader n).length := by
  unfold listHeader
  split
  · exact Nat.one_pos
  · split <;> exact Nat.succ_pos _

theorem length_mapHeader_pos (n : Nat) : 0 < (mapHeader n).length := by
  unfold mapHeader
  split
  · exact Nat.one_pos
  · split <;> exact Nat.succ_pos _

theorem length_writeInt_pos (n : Int) : 0 < (writeInt n).length := by
  unfold writeInt writeNegative writeUnsigned
  split
  · split
    · exact Nat.one_pos
    · split <;> (try split) <;> (try split) <;> exact Nat.succ_pos _
  · split
    · exact Nat.one_pos
    · split <;> (try split) <;> (try split) <;> exact Nat.succ_pos _

theorem length_writeText_pos (s : String) : 0 < (writeText s).length := by
  simp only [writeText, List.length_append]
  split
  · exact Nat.add_pos_left Nat.one_pos _
  · split <;> (try split) <;> exact Nat.add_pos_left (Nat.succ_pos _) _

theorem length_writeText_ge (s : String) : s.toUTF8.toList.length ≤ (writeText s).length := by
  simp only [writeText, List.length_append]
  exact Nat.le_add_left _ _

variable {plain : Bool}

/-- Something is written for every value. -/
theorem length_write_pos {depth : Nat} {v : Value} (h : v.Writable plain depth) :
    0 < (write v).length := by
  cases v with
  | null => exact Nat.one_pos
  | bool b => cases b <;> exact Nat.one_pos
  | int n => exact length_writeInt_pos n
  | float x => exact Nat.succ_pos _
  | text s => exact length_writeText_pos s
  | list items =>
    rw [write, List.length_append]
    exact Nat.add_pos_left (length_listHeader_pos _) _
  | map entries =>
    rw [write, List.length_append]
    exact Nat.add_pos_left (length_mapHeader_pos _) _
  | _ => exact h.elim

theorem length_le_writeItems {depth : Nat} {xs : List Value} (h : WritableItems plain depth xs) :
    xs.length ≤ (writeItems xs).length := by
  induction xs with
  | nil => exact Nat.le_refl _
  | cons x rest ih =>
    have hx := length_write_pos h.1
    have hrest := ih h.2
    rw [writeItems, List.length_append, List.length_cons]
    omega

theorem length_le_writeEntries {depth : Nat} {es : List (Value × Value)}
    (h : WritableEntries plain depth es) : es.length ≤ (writeEntries es).length := by
  induction es with
  | nil => exact Nat.le_refl _
  | cons e rest ih =>
    have hkey := length_write_pos h.1
    have hrest := ih h.2.2
    rw [writeEntries, List.length_append, List.length_append, List.length_cons]
    omega

theorem readValue_leaf {fuel depth : Nat} {bytes rest : List UInt8} {v : Value} (hfuel : 0 < fuel)
    (h : readHead bytes = some (.leaf v, rest)) : readValue fuel depth bytes = some (v, rest) := by
  obtain ⟨fuel, rfl⟩ : ∃ n, fuel = n + 1 := ⟨fuel - 1, by omega⟩
  rw [readValue, h]

mutual

/-- A value comes back from the front of the bytes.  Two units of fuel for each byte are enough. -/
theorem readValue_write : ∀ {v : Value} {depth : Nat} (fuel : Nat) (rest : List UInt8),
    v.Writable plain depth → v.isSized = true → 2 * (write v).length ≤ fuel →
      ∃ v', v.Retold v' ∧ readValue fuel depth (write v ++ rest) = some (v', rest)
  | .null, _, fuel, _, _, _, hfuel =>
    ⟨.null, rfl, readValue_leaf (by simp [write] at hfuel; omega) rfl⟩
  | .bool true, _, fuel, _, _, _, hfuel =>
    ⟨.bool true, rfl, readValue_leaf (by simp [write] at hfuel; omega) rfl⟩
  | .bool false, _, fuel, _, _, _, hfuel =>
    ⟨.bool false, rfl, readValue_leaf (by simp [write] at hfuel; omega) rfl⟩
  | .int n, _, fuel, rest, h, _, hfuel => by
    have hpos : 0 < (write (.int n)).length := length_writeInt_pos n
    obtain ⟨v', htold, hread⟩ := readHead_writeInt h.1 h.2 rest
    exact ⟨v', htold, readValue_leaf (by omega) hread⟩
  | .float x, _, fuel, rest, _, _, hfuel => by
    have hpos : 0 < (write (.float x)).length := Nat.succ_pos _
    have hbits := x.bits.toNat_lt
    refine ⟨.float x, rfl, readValue_leaf (by omega) ?_⟩
    show (readUnsigned 8 (bigEndian 8 x.bits.toNat ++ rest)).map
      (fun (n, rest) => (Head.leaf (.float ⟨UInt64.ofNat n⟩), rest)) = _
    rw [readUnsigned_bigEndian (by omega), Option.map_some]
    simp only [UInt64.ofNat_toNat]
  | .text s, _, fuel, rest, _, hsized, hfuel => by
    have hpos : 0 < (write (.text s)).length := length_writeText_pos s
    have hlength : s.toUTF8.toList.length < 0x100000000 := by
      rw [length_toList]
      exact of_decide_eq_true hsized
    exact ⟨.text s, rfl, readValue_leaf (by omega) (readHead_writeText hlength rest)⟩
  | .list items, depth, fuel, rest, h, hsized, hfuel => by
    rw [Writable] at h
    rw [isSized, Bool.and_eq_true, decide_eq_true_iff] at hsized
    rw [write, List.length_append] at hfuel
    -- the header pays for the list itself, and the bytes of an item for the item
    have hheader := length_listHeader_pos items.length
    obtain ⟨fuel, rfl⟩ : ∃ n, fuel = n + 1 := ⟨fuel - 1, by omega⟩
    obtain ⟨items', htold, hread⟩ := readItems_write fuel [] rest h.2 hsized.2 (by omega)
    refine ⟨.list items', ⟨items', htold, rfl⟩, ?_⟩
    rw [write, List.append_assoc, readValue, readHead_listHeader hsized.1]
    simpa [Nat.ne_of_gt h.1] using hread
  | .map entries, depth, fuel, rest, h, hsized, hfuel => by
    rw [Writable] at h
    rw [isSized, Bool.and_eq_true, decide_eq_true_iff] at hsized
    rw [write, List.length_append] at hfuel
    have hheader := length_mapHeader_pos entries.length
    obtain ⟨fuel, rfl⟩ : ∃ n, fuel = n + 1 := ⟨fuel - 1, by omega⟩
    obtain ⟨entries', htold, hread⟩ := readEntries_write fuel [] rest h.2.2 hsized.2 (by omega)
    refine ⟨.map entries', ⟨entries', entries', htold, .inl rfl, rfl⟩, ?_⟩
    rw [write, List.append_assoc, readValue, readHead_mapHeader hsized.1]
    simpa [Nat.ne_of_gt h.1] using hread
  | .formed _ _, _, _, _, h, _, _ | .escaped _, _, _, _, h, _, _ | .bytes _, _, _, _, h, _, _
  | .damaged, _, _, _, h, _, _ | .unreadable, _, _, _, h, _, _ => h.elim

theorem readItems_write : ∀ {xs : List Value} {depth : Nat} (fuel : Nat) (acc : List Value)
    (rest : List UInt8), WritableItems plain depth xs → sizedItems xs = true →
      2 * (writeItems xs).length < fuel →
        ∃ xs', RetoldItems xs xs' ∧ readItems fuel depth xs.length acc (writeItems xs ++ rest) =
          some (.list (acc.reverse ++ xs'), rest)
  | [], _, fuel, acc, rest, _, _, hfuel => by
    obtain ⟨fuel, rfl⟩ : ∃ n, fuel = n + 1 := ⟨fuel - 1, by omega⟩
    exact ⟨[], rfl, by simp [readItems, writeItems]⟩
  | x :: more, depth, fuel, acc, rest, h, hsized, hfuel => by
    rw [sizedItems, Bool.and_eq_true] at hsized
    rw [writeItems, List.length_append] at hfuel
    have hpos := length_write_pos h.1
    obtain ⟨fuel, rfl⟩ : ∃ n, fuel = n + 1 := ⟨fuel - 1, by omega⟩
    obtain ⟨x', hx, hread⟩ :=
      readValue_write fuel (writeItems more ++ rest) h.1 hsized.1 (by omega)
    obtain ⟨more', hmore, hreads⟩ :=
      readItems_write fuel (x' :: acc) rest h.2 hsized.2 (by omega)
    refine ⟨x' :: more', ⟨x', more', hx, hmore, rfl⟩, ?_⟩
    rw [writeItems, List.append_assoc, readItems, if_neg (by simp), hread]
    simpa using hreads

theorem readEntries_write : ∀ {es : List (Value × Value)} {depth : Nat}
    (fuel : Nat) (acc : List (Value × Value)) (rest : List UInt8), WritableEntries plain depth es →
      sizedEntries es = true → 2 * (writeEntries es).length < fuel →
        ∃ es', RetoldEntries es es' ∧
          readEntries fuel depth es.length acc (writeEntries es ++ rest) =
            some (.map (acc.reverse ++ es'), rest)
  | [], _, fuel, acc, rest, _, _, hfuel => by
    obtain ⟨fuel, rfl⟩ : ∃ n, fuel = n + 1 := ⟨fuel - 1, by omega⟩
    exact ⟨[], rfl, by simp [readEntries, writeEntries]⟩
  | (k, x) :: more, depth, fuel, acc, rest, h, hsized, hfuel => by
    rw [sizedEntries, Bool.and_eq_true, Bool.and_eq_true] at hsized
    rw [writeEntries, List.length_append, List.length_append] at hfuel
    have hpos := length_write_pos h.1
    obtain ⟨fuel, rfl⟩ : ∃ n, fuel = n + 1 := ⟨fuel - 1, by omega⟩
    obtain ⟨k', hk, hreadKey⟩ := readValue_write fuel
      (write x ++ (writeEntries more ++ rest)) h.1 hsized.1.1 (by omega)
    obtain ⟨x', hx, hread⟩ :=
      readValue_write fuel (writeEntries more ++ rest) h.2.1 hsized.1.2 (by omega)
    obtain ⟨more', hmore, hreads⟩ :=
      readEntries_write fuel ((k', x') :: acc) rest h.2.2 hsized.2 (by omega)
    refine ⟨(k', x') :: more', ⟨k', x', more', hk, hx, hmore, rfl⟩, ?_⟩
    rw [writeEntries, List.append_assoc, List.append_assoc, readEntries, if_neg (by simp), hreadKey]
    simp only [hread]
    simpa using hreads

end

/-- A value that is not nested too deeply comes back. -/
theorem read?_write_of_sized {v : Value} (h : v.Writable plain maxDepth)
    (hsized : v.isSized = true) :
    ∃ v', v.Retold v' ∧ read? (write v) = some v' := by
  obtain ⟨v', htold, hread⟩ :=
    readValue_write (2 * (write v).length + 2) [] h hsized (Nat.le_add_right _ _)
  refine ⟨v', htold, ?_⟩
  rw [List.append_nil] at hread
  rw [read?, hread]
  rfl

mutual

/-- Lengths have 32 bits where the whole has a length of 32 bits. -/
theorem sized_of_length : ∀ {v : Value} {depth : Nat}, v.Writable plain depth →
    (write v).length < 0x100000000 → v.isSized = true
  | .null, _, _, _ | .bool _, _, _, _ | .int _, _, _, _ | .float _, _, _, _ => rfl
  | .text s, _, _, hlength => by
    have hbytes := length_writeText_ge s
    rw [length_toList] at hbytes
    rw [write] at hlength
    exact decide_eq_true (Nat.lt_of_le_of_lt hbytes hlength)
  | .list items, _, h, hlength => by
    rw [Writable] at h
    rw [write, List.length_append] at hlength
    have hitems := length_le_writeItems h.2
    rw [isSized, sized_of_length_items h.2 (by omega), Bool.and_true]
    exact decide_eq_true (by omega)
  | .map entries, _, h, hlength => by
    rw [Writable] at h
    rw [write, List.length_append] at hlength
    have hentries := length_le_writeEntries h.2.2
    rw [isSized, sized_of_length_entries h.2.2 (by omega), Bool.and_true]
    exact decide_eq_true (by omega)
  | .formed _ _, _, h, _ | .escaped _, _, h, _ | .bytes _, _, h, _ | .damaged, _, h, _
  | .unreadable, _, h, _ => h.elim

theorem sized_of_length_items : ∀ {xs : List Value} {depth : Nat}, WritableItems plain depth xs →
    (writeItems xs).length < 0x100000000 → sizedItems xs = true
  | [], _, _, _ => rfl
  | x :: rest, _, h, hlength => by
    rw [writeItems, List.length_append] at hlength
    rw [sizedItems, sized_of_length h.1 (by omega), sized_of_length_items h.2 (by omega)]
    rfl

theorem sized_of_length_entries : ∀ {es : List (Value × Value)} {depth : Nat},
    WritableEntries plain depth es → (writeEntries es).length < 0x100000000 →
      sizedEntries es = true
  | [], _, _, _ => rfl
  | (k, x) :: rest, _, h, hlength => by
    rw [writeEntries, List.length_append, List.length_append] at hlength
    rw [sizedEntries, sized_of_length h.1 (by omega), sized_of_length h.2.1 (by omega),
      sized_of_length_entries h.2.2 (by omega)]
    rfl

end

/-- A value that is not nested too deeply and makes less than 4 GiB comes back. -/
theorem read?_write {v : Value} (h : v.Writable plain maxDepth)
    (hlength : (write v).length < 0x100000000) : ∃ v', v.Retold v' ∧ read? (write v) = some v' :=
  read?_write_of_sized h (sized_of_length h hlength)

end MessagePack

end Adventure.Wire
