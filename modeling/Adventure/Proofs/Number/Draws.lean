import Adventure.World.Walking
import Mathlib.Algebra.Order.Group.Nat
import Mathlib.Data.Nat.Find

/-!
# Drawing from a range

A number from a range is the high half of a word times the size of the range, for the first word of
the stream whose low half lies in the zone.  The stream begins again after `period` draws, so a word
that is not met by then is not met at all, and the search that is given up after a period is the
search without an end.

The draw is told here a second time, in words of 64 bits as the machine computes it: there the size
of the range of all numbers is 0, a product has 128 bits, and sums wrap around.  Both tell the same
numbers, and these lie between the bounds.
-/

namespace Adventure.Random

variable {size attempts k n : Nat} {r r' : Random}

/-! ## The stream -/

/-- The generator after some draws. -/
def later (r : Random) (count : Nat) : Random := { r with drawn := r.drawn + count }

/-- The word that a later draw gives. -/
def word (r : Random) (k : Nat) : UInt64 := (r.later k).next.1

theorem later_later (r : Random) (m n : Nat) : (r.later m).later n = r.later (m + n) := by
  simp only [later, Nat.add_assoc]

theorem word_later (r : Random) (m k : Nat) : (r.later m).word k = r.word (m + k) := by
  rw [word, later_later, word]

theorem streamBlock_add_mul (key : List UInt32) (counter m : Nat) :
    streamBlock key (counter + 0x10000000000000000 * m) = streamBlock key counter := by
  have hlow : UInt32.ofNat (counter + 0x10000000000000000 * m) = UInt32.ofNat counter := by
    apply UInt32.toNat_inj.1
    simp only [UInt32.toNat_ofNat']
    omega
  have hhigh : UInt32.ofNat ((counter + 0x10000000000000000 * m) / 0x100000000) =
      UInt32.ofNat (counter / 0x100000000) := by
    apply UInt32.toNat_inj.1
    simp only [UInt32.toNat_ofNat']
    omega
  simp only [streamBlock, hlow, hhigh]

theorem word_add_mul (r : Random) (k m : Nat) : r.word (k + period * m) = r.word k := by
  have hblock : (r.drawn + (k + period * m)) / 8 =
      (r.drawn + k) / 8 + 0x10000000000000000 * m := by
    simp only [period]
    omega
  have hplace : (r.drawn + (k + period * m)) % 8 = (r.drawn + k) % 8 := by
    simp only [period]
    omega
  simp only [word, next, later, hblock, hplace, streamBlock_add_mul]

theorem word_mod (r : Random) (k : Nat) : r.word (k % period) = r.word k := by
  conv => rhs; rw [← Nat.mod_add_div k period]
  exact (word_add_mul r _ _).symm

/-! ## The first word that is taken -/

/-- Whether a word is taken: the low half of its product with the size lies in the zone. -/
def Takes (size : Nat) (v : UInt64) : Prop := v.toNat * size % 0x10000000000000000 ≤ zone size

instance (size : Nat) (v : UInt64) : Decidable (Takes size v) := inferInstanceAs (Decidable (_ ≤ _))

/-- The number that a word gives: the high half of its product with the size. -/
def number (size : Nat) (v : UInt64) : Nat := v.toNat * size / 0x10000000000000000

/-- A word to take comes up in the stream. -/
def Meets (r : Random) (size : Nat) : Prop := ∃ k, Takes size (r.word k)

/-- Draw `k` is the first that is taken. -/
structure FirstTaken (size : Nat) (r : Random) (k : Nat) : Prop where
  taken : Takes size (r.word k)
  thrown : ∀ j < k, ¬ Takes size (r.word j)

theorem number_lt (hsize : 0 < size) (v : UInt64) : number size v < size := by
  rw [number, Nat.div_lt_iff_lt_mul (by decide), Nat.mul_comm]
  exact Nat.mul_lt_mul_of_pos_left v.toNat_lt hsize

theorem Meets.exists_firstTaken (h : r.Meets size) : ∃ k, FirstTaken size r k := by
  classical
  exact ⟨Nat.find h, Nat.find_spec h, fun _ hj => Nat.find_min h hj⟩

theorem FirstTaken.lt_period (h : FirstTaken size r k) : k < period := by
  by_contra hlt
  have hmod : k % period < k := (Nat.mod_lt k (by decide)).trans_le (Nat.le_of_not_lt hlt)
  exact h.thrown _ hmod ((word_mod r k).symm ▸ h.taken)

theorem firstTaken_later_iff (h : ¬ Takes size (r.word 0)) :
    FirstTaken size (r.later 1) k ↔ FirstTaken size r (k + 1) := by
  constructor
  · rintro ⟨htaken, hthrown⟩
    refine ⟨by simpa only [word_later, Nat.add_comm 1] using htaken, fun j hj => ?_⟩
    cases j with
    | zero => exact h
    | succ j => simpa only [word_later, Nat.add_comm 1] using hthrown j (by omega)
  · rintro ⟨htaken, hthrown⟩
    exact ⟨by simpa only [word_later, Nat.add_comm 1] using htaken,
      fun j hj => by simpa only [word_later, Nat.add_comm 1] using hthrown (j + 1) (by omega)⟩

theorem below?_succ (size attempts : Nat) (r : Random) :
    below? size (attempts + 1) r =
      if Takes size (r.word 0) then some (number size (r.word 0), r.later 1)
      else below? size attempts (r.later 1) := rfl

theorem below?_of_firstTaken (h : FirstTaken size r k) (hk : k < attempts) :
    below? size attempts r = some (number size (r.word k), r.later (k + 1)) := by
  induction attempts generalizing r k with
  | zero => omega
  | succ attempts ih =>
    rw [below?_succ]
    cases k with
    | zero => rw [if_pos h.taken]
    | succ k =>
      have hthrown := h.thrown 0 (by omega)
      rw [if_neg hthrown, ih ((firstTaken_later_iff hthrown).2 h) (by omega), word_later,
        later_later, Nat.add_comm 1 k, Nat.add_comm 1 (k + 1)]

theorem below?_of_not_meets (h : ¬ r.Meets size) : below? size attempts r = none := by
  induction attempts generalizing r with
  | zero => rfl
  | succ attempts ih =>
    rw [below?_succ, if_neg fun htaken => h ⟨0, htaken⟩]
    exact ih fun ⟨k, htaken⟩ => h ⟨1 + k, word_later r 1 k ▸ htaken⟩

theorem below_of_firstTaken (h : FirstTaken size r k) :
    below size r = (number size (r.word k), r.later (k + 1)) := by
  rw [below, below?_of_firstTaken h h.lt_period, Option.getD_some]

theorem below_of_not_meets (h : ¬ r.Meets size) : below size r = (0, r) := by
  rw [below, below?_of_not_meets h, Option.getD_none]

theorem below_lt (hsize : 0 < size) (r : Random) : (below size r).1 < size := by
  by_cases h : r.Meets size
  · obtain ⟨k, hk⟩ := h.exists_firstTaken
    rw [below_of_firstTaken hk]
    exact number_lt hsize _
  · rw [below_of_not_meets h]
    exact hsize

theorem index_lt (hn : 0 < n) (r : Random) : (r.index n).1 < n := by
  rw [index, if_neg hn.ne']
  exact below_lt hn r

/-- A walk that goes anywhere always finds a direction to go. -/
theorem nextStep?_random_isSome {w : Walk} (h : w.order.kind = .random) (s : Stage) (c : Character)
    (r : Random) : (w.nextStep? s c r).1.isSome := by
  have hlt : (r.index Direction.all.length).1 < Direction.all.length := index_lt (by decide) r
  simp only [Walk.nextStep?, h, List.getElem?_eq_getElem hlt, Option.isSome_some]

/-! ## The zone -/

theorem zone_add_one (hsize : 0 < size) : zone size + 1 = size * 2 ^ (63 - size.log2) :=
  Nat.sub_add_cancel (Nat.mul_pos hsize (Nat.two_pow_pos _))

theorem zone_add_one_lt (hsize : 0 < size) (hlt : size < 0x10000000000000000) :
    size * 2 ^ (63 - size.log2) < 0x10000000000000000 := by
  have hlog : size.log2 < 64 := (Nat.log2_lt hsize.ne').2 hlt
  calc size * 2 ^ (63 - size.log2)
      < 2 ^ (size.log2 + 1) * 2 ^ (63 - size.log2) :=
        Nat.mul_lt_mul_of_pos_right Nat.lt_log2_self (Nat.two_pow_pos _)
    _ = 2 ^ 64 := by rw [← Nat.pow_add]; congr 1; omega

theorem takes_and_number_iff (hsize : 0 < size) (hlt : size < 0x10000000000000000) (v : UInt64) :
    Takes size v ∧ number size v = n ↔
      n * 0x10000000000000000 ≤ v.toNat * size ∧
        v.toNat * size < n * 0x10000000000000000 + size * 2 ^ (63 - size.log2) := by
  have hzone := zone_add_one hsize
  have hzone_lt := zone_add_one_lt hsize hlt
  rw [Takes, number]
  omega

/-- No number is more likely than another: each is given by as many words, and these follow each
other. -/
theorem words_of_number (hsize : 0 < size) (hlt : size < 0x10000000000000000) (hn : n < size) :
    ∃ first, first + 2 ^ (63 - size.log2) ≤ 0x10000000000000000 ∧
      ∀ v : UInt64, Takes size v ∧ number size v = n ↔
        first ≤ v.toNat ∧ v.toNat < first + 2 ^ (63 - size.log2) := by
  have hzone_lt := zone_add_one_lt hsize hlt
  generalize hcount : 2 ^ (63 - size.log2) = count at hzone_lt
  -- a multiple of the size reaches a bound where its factor reaches the bound divided, rounded up
  have hceil : ∀ u : Nat, n * 0x10000000000000000 ≤ u * size ↔
      (n * 0x10000000000000000 + (size - 1)) / size ≤ u := fun u => by
    rw [Nat.div_le_iff_le_mul_add_pred hsize, Nat.mul_comm size u]
    omega
  generalize (n * 0x10000000000000000 + (size - 1)) / size = first at hceil
  rw [Nat.mul_comm] at hzone_lt
  refine ⟨first, ?_, fun v => ?_⟩
  · have := Nat.le_mul_of_pos_right count hsize
    obtain ⟨last, hlast⟩ := Nat.exists_eq_add_of_le' (show count ≤ 0x10000000000000000 by omega)
    have hsplit : 0x10000000000000000 * size = last * size + count * size := by
      rw [hlast, Nat.add_mul]
    have := (hceil last).1 (by omega)
    omega
  · rw [takes_and_number_iff hsize hlt, hcount, hceil, Nat.mul_comm size count]
    refine and_congr_right fun _ => ?_
    rcases Nat.lt_or_ge v.toNat count with hfew | hmany
    · have := Nat.mul_lt_mul_of_pos_right hfew hsize
      omega
    · have hsub := hceil (v.toNat - count)
      have := Nat.mul_le_mul_right size hmany
      rw [Nat.sub_mul] at hsub
      omega

/-! ## Words of 64 bits -/

/-- A word times the size of a range, in 128 bits. -/
def wideProduct (v size : UInt64) : BitVec 128 :=
  v.toBitVec.setWidth 128 * size.toBitVec.setWidth 128

def lowHalf (v size : UInt64) : UInt64 := .ofBitVec ((wideProduct v size).setWidth 64)

def highHalf (v size : UInt64) : UInt64 := .ofBitVec ((wideProduct v size >>> 64).setWidth 64)

/-- The zeros before the highest bit of a word that is not 0. -/
def leadingZeros (x : UInt64) : UInt64 := .ofNat (63 - x.toNat.log2)

def zoneWord (size : UInt64) : UInt64 := (size <<< leadingZeros size) - 1

/-- The search without an end: which offset into a range is drawn, and the generator after it. -/
inductive Offset (size : UInt64) : Random → UInt64 → Random → Prop
  | taken {r : Random} (h : lowHalf r.next.1 size ≤ zoneWord size) :
    Offset size r (highHalf r.next.1 size) r.next.2
  | thrown {r : Random} {offset : UInt64} {r' : Random} (h : zoneWord size < lowHalf r.next.1 size)
      (rest : Offset size r.next.2 offset r') : Offset size r offset r'

variable {sizeWord drawn : UInt64}

theorem product_lt (v size : UInt64) : v.toNat * size.toNat < 2 ^ 128 :=
  calc v.toNat * size.toNat < 2 ^ 64 * 2 ^ 64 := Nat.mul_lt_mul'' v.toNat_lt size.toNat_lt
    _ = 2 ^ 128 := rfl

theorem toNat_wideProduct (v size : UInt64) :
    (wideProduct v size).toNat = v.toNat * size.toNat := by
  have hv := v.toNat_lt
  have hsize := size.toNat_lt
  rw [wideProduct, BitVec.toNat_mul, BitVec.toNat_setWidth, BitVec.toNat_setWidth,
    UInt64.toNat_toBitVec, UInt64.toNat_toBitVec, Nat.mod_eq_of_lt (by omega : v.toNat < 2 ^ 128),
    Nat.mod_eq_of_lt (by omega : size.toNat < 2 ^ 128), Nat.mod_eq_of_lt (product_lt v size)]

theorem toNat_lowHalf (v size : UInt64) :
    (lowHalf v size).toNat = v.toNat * size.toNat % 0x10000000000000000 := by
  rw [lowHalf, UInt64.toNat_ofBitVec, BitVec.toNat_setWidth, toNat_wideProduct]

theorem toNat_highHalf (v size : UInt64) : (highHalf v size).toNat = number size.toNat v := by
  have hlt := product_lt v size
  rw [highHalf, UInt64.toNat_ofBitVec, BitVec.toNat_setWidth, BitVec.toNat_ushiftRight,
    toNat_wideProduct, Nat.shiftRight_eq_div_pow, number]
  exact Nat.mod_eq_of_lt (by omega)

theorem toNat_pos (h : sizeWord ≠ 0) : 0 < sizeWord.toNat :=
  Nat.pos_of_ne_zero fun hzero => h (UInt64.toNat_inj.1 hzero)

theorem toNat_zoneWord (h : sizeWord ≠ 0) : (zoneWord sizeWord).toNat = zone sizeWord.toNat := by
  have hpos := toNat_pos h
  have hshift : (leadingZeros sizeWord).toNat = 63 - sizeWord.toNat.log2 :=
    UInt64.toNat_ofNat_of_lt' (Nat.lt_of_le_of_lt (Nat.sub_le _ _) (by decide))
  have hmul : (sizeWord <<< leadingZeros sizeWord).toNat =
      sizeWord.toNat * 2 ^ (63 - sizeWord.toNat.log2) := by
    rw [UInt64.toNat_shiftLeft, hshift, Nat.mod_eq_of_lt (by omega : 63 - sizeWord.toNat.log2 < 64),
      Nat.shiftLeft_eq]
    exact Nat.mod_eq_of_lt (zone_add_one_lt hpos sizeWord.toNat_lt)
  rw [zoneWord, UInt64.toNat_sub_of_le, hmul]
  · rfl
  · rw [UInt64.le_iff_toNat_le, hmul]
    exact Nat.mul_pos hpos (Nat.two_pow_pos _)

theorem takes_iff (h : sizeWord ≠ 0) (v : UInt64) :
    Takes sizeWord.toNat v ↔ lowHalf v sizeWord ≤ zoneWord sizeWord := by
  rw [UInt64.le_iff_toNat_le, toNat_lowHalf, toNat_zoneWord h, Takes]

theorem Offset.exists_firstTaken (h : sizeWord ≠ 0) (hdrawn : Offset sizeWord r drawn r') :
    ∃ k, FirstTaken sizeWord.toNat r k ∧
      drawn.toNat = number sizeWord.toNat (r.word k) ∧ r' = r.later (k + 1) := by
  induction hdrawn with
  | taken htaken => exact ⟨0, ⟨(takes_iff h _).2 htaken, by simp⟩, toNat_highHalf _ _, rfl⟩
  | @thrown r drawn r' hthrown _ ih =>
    obtain ⟨k, hk, hoffset, rfl⟩ := ih
    have hthrown : ¬ Takes sizeWord.toNat (r.word 0) := fun ht =>
      UInt64.not_le.2 hthrown ((takes_iff h _).1 ht)
    change FirstTaken sizeWord.toNat (r.later 1) k at hk
    change drawn.toNat = number sizeWord.toNat ((r.later 1).word k) at hoffset
    rw [word_later, Nat.add_comm] at hoffset
    refine ⟨k + 1, (firstTaken_later_iff hthrown).1 hk, hoffset, ?_⟩
    change (r.later 1).later (k + 1) = _
    rw [later_later, Nat.add_comm]

theorem FirstTaken.offset (h : sizeWord ≠ 0) (hk : FirstTaken sizeWord.toNat r k)
    (hoffset : drawn.toNat = number sizeWord.toNat (r.word k)) :
    Offset sizeWord r drawn (r.later (k + 1)) := by
  induction k generalizing r with
  | zero =>
    rw [UInt64.toNat_inj.1 (hoffset.trans (toNat_highHalf _ _).symm)]
    exact .taken ((takes_iff h _).1 hk.taken)
  | succ k ih =>
    have hthrown := hk.thrown 0 (by omega)
    have hrest := ih ((firstTaken_later_iff hthrown).2 hk) (by rwa [word_later, Nat.add_comm])
    rw [later_later, Nat.add_comm 1] at hrest
    exact .thrown (UInt64.not_le.1 fun hle => hthrown ((takes_iff h _).2 hle)) hrest

/-- The search that is given up after a period finds what the search without an end finds. -/
theorem offset_iff (h : sizeWord ≠ 0) :
    Offset sizeWord r drawn r' ↔
      below sizeWord.toNat r = (drawn.toNat, r') ∧ r.Meets sizeWord.toNat := by
  constructor
  · intro hdrawn
    obtain ⟨k, hk, hoffset, rfl⟩ := hdrawn.exists_firstTaken h
    exact ⟨by rw [below_of_firstTaken hk, hoffset], k, hk.taken⟩
  · rintro ⟨hbelow, hmeets⟩
    obtain ⟨k, hk⟩ := hmeets.exists_firstTaken
    rw [below_of_firstTaken hk, Prod.mk.injEq] at hbelow
    exact hbelow.2 ▸ hk.offset h hbelow.1.symm

/-! ## Ranges -/

/-- How many numbers a range holds. -/
def span (low high : Int64) : Nat := (high.toInt - low.toInt + 1).toNat

/-- How many numbers a range holds, in a word: 0 if it holds all. -/
def spanWord (low high : Int64) : UInt64 := (high - low).toUInt64 + 1

/-- How a number of a range is drawn in words: any word will do in the range of all numbers, and an
offset is added to the lower bound, wrapping around, in another. -/
inductive Yields (low high : Int64) : Random → Int64 → Random → Prop
  | whole {r : Random} (h : spanWord low high = 0) : Yields low high r r.next.1.toInt64 r.next.2
  | offset {r r' : Random} {offset : UInt64} (h : spanWord low high ≠ 0)
      (drawn : Offset (spanWord low high) r offset r') : Yields low high r (low + offset.toInt64) r'

/-- The draw for bounds in order. -/
def spread (r : Random) (low high : Int64) : Int64 × Random :=
  if span low high = 0x10000000000000000 then (r.next.1.toInt64, r.next.2)
  else
    (Int64.ofInt (low.toInt + (below (span low high) r).1), (below (span low high) r).2)

theorem between_eq (r : Random) (a b : Int64) : r.between a b = r.spread (min a b) (max a b) := rfl

theorem min_swap (a b : Int64) : min b a = min a b :=
  Int64.le_antisymm (Std.le_min_iff.2 ⟨Std.min_le_right, Std.min_le_left⟩)
    (Std.le_min_iff.2 ⟨Std.min_le_right, Std.min_le_left⟩)

theorem max_swap (a b : Int64) : max b a = max a b := by
  simp only [max]
  split <;> split
  · exact Int64.le_antisymm ‹_› ‹_›
  · rfl
  · rfl
  · exact absurd (Int64.le_total a b) (not_or.2 ⟨‹_›, ‹_›⟩)

theorem min_le_max (a b : Int64) : min a b ≤ max a b := by
  simp only [min, max]
  split
  · assumption
  · exact (Int64.le_total a b).resolve_left ‹_›

theorem between_swap (r : Random) (a b : Int64) : r.between b a = r.between a b := by
  rw [between_eq, between_eq, min_swap, max_swap]

section Bounds

variable {low high v : Int64}

theorem span_pos (h : low ≤ high) : 0 < span low high := by
  rw [Int64.le_iff_toInt_le] at h
  rw [span]
  omega

theorem span_le (low high : Int64) : span low high ≤ 0x10000000000000000 := by
  have := low.le_toInt
  have := high.toInt_lt
  rw [span]
  omega

theorem toNat_sub_toUInt64 (h : low ≤ high) :
    (high - low).toUInt64.toNat = (high.toInt - low.toInt).toNat := by
  have hlow := low.toBitVec.isLt
  have hhigh := high.toBitVec.isLt
  rw [Int64.le_iff_toInt_le] at h
  rw [← UInt64.toNat_toBitVec, Int64.toBitVec_toUInt64, Int64.toBitVec_sub, BitVec.toNat_sub]
  simp only [← Int64.toInt_toBitVec, BitVec.toInt_eq_toNat_cond] at h ⊢
  split at h <;> split at h <;> simp only [*, if_true, if_false] <;> omega

theorem toNat_spanWord (h : low ≤ high) :
    (spanWord low high).toNat = span low high % 0x10000000000000000 := by
  rw [Int64.le_iff_toInt_le] at *
  rw [spanWord, UInt64.toNat_add, toNat_sub_toUInt64 (Int64.le_iff_toInt_le.2 h), span,
    UInt64.toNat_one]
  omega

theorem spanWord_eq_zero_iff (h : low ≤ high) :
    spanWord low high = 0 ↔ span low high = 0x10000000000000000 := by
  have := span_pos h
  have := span_le low high
  rw [← UInt64.toNat_inj, toNat_spanWord h, UInt64.toNat_zero]
  omega

theorem toNat_spanWord_of_ne (h : low ≤ high) (hword : spanWord low high ≠ 0) :
    (spanWord low high).toNat = span low high := by
  have := span_le low high
  rw [Ne, spanWord_eq_zero_iff h] at hword
  rw [toNat_spanWord h]
  omega

theorem add_toInt64 (low : Int64) (offset : UInt64) :
    low + offset.toInt64 = Int64.ofInt (low.toInt + offset.toNat) := by
  apply Int64.toBitVec_inj.1
  rw [Int64.toBitVec_add, UInt64.toBitVec_toInt64, Int64.toBitVec_ofInt, BitVec.ofInt_add,
    ← Int64.toInt_toBitVec, BitVec.ofInt_toInt, BitVec.ofInt_natCast, ← UInt64.toNat_toBitVec,
    BitVec.ofNat_toNat, BitVec.setWidth_eq]

theorem yields_iff (h : low ≤ high) :
    Yields low high r v r' ↔ r.spread low high = (v, r') ∧
      (span low high = 0x10000000000000000 ∨ r.Meets (span low high)) := by
  by_cases hword : spanWord low high = 0
  · have hspan := (spanWord_eq_zero_iff h).1 hword
    rw [spread, if_pos hspan]
    constructor
    · rintro (_ | ⟨hne, _⟩)
      · exact ⟨rfl, .inl hspan⟩
      · exact absurd hword hne
    · rintro ⟨hv, _⟩
      cases hv
      exact .whole hword
  · have hspan := mt (spanWord_eq_zero_iff h).2 hword
    have hoffset := @offset_iff r r' (spanWord low high)
    rw [toNat_spanWord_of_ne h hword] at hoffset
    rw [spread, if_neg hspan]
    constructor
    · rintro (hzero | ⟨_, hdrawn⟩)
      · exact absurd hzero hword
      · obtain ⟨hbelow, hmeets⟩ := (hoffset hword).1 hdrawn
        exact ⟨by rw [hbelow, add_toInt64], .inr hmeets⟩
    · rintro ⟨hv, hmeets⟩
      obtain ⟨rfl, rfl⟩ := Prod.mk.inj hv
      have hword_of :
          (UInt64.ofNat (below (span low high) r).1).toNat = (below (span low high) r).1 :=
        UInt64.toNat_ofNat_of_lt' ((below_lt (span_pos h) r).trans_le (span_le low high))
      rw [← hword_of, ← add_toInt64]
      exact .offset hword ((hoffset hword).2 ⟨by rw [hword_of], hmeets.resolve_left hspan⟩)

theorem spread_within (h : low ≤ high) (r : Random) :
    low ≤ (r.spread low high).1 ∧ (r.spread low high).1 ≤ high := by
  have hlow := low.le_toInt
  have hhigh := high.toInt_lt
  have hpos := span_pos h
  simp only [Int64.le_iff_toInt_le] at h ⊢
  rw [spread]
  split
  · next hspan =>
    have := r.next.1.toInt64.le_toInt
    have := r.next.1.toInt64.toInt_lt
    rw [span] at hspan
    dsimp only
    omega
  · have hlt := below_lt hpos r
    generalize (below (span low high) r).1 = offset at hlt
    rw [span] at hlt
    rw [Int64.toInt_ofInt_of_le (by omega) (by omega)]
    omega

end Bounds

theorem index_iff (hn : 0 < n) (hlt : n < 0x10000000000000000) :
    Offset (.ofNat n) r drawn r' ↔ r.index n = (drawn.toNat, r') ∧ r.Meets n := by
  have hword : (UInt64.ofNat n).toNat = n := UInt64.toNat_ofNat_of_lt' hlt
  have hne : UInt64.ofNat n ≠ 0 := fun hzero => by
    rw [hzero, UInt64.toNat_zero] at hword
    omega
  rw [offset_iff hne, hword, index, if_neg hn.ne']

/-- A number from a range lies between its bounds, whichever is named first, and a position lies in
its list.  Both are what the draw in words gives, which has no answer on a stream without a word to
take. -/
theorem draws_in_bounds (r : Random) :
    (∀ a b : Int64,
      (min a b ≤ (r.between a b).1 ∧ (r.between a b).1 ≤ max a b) ∧
      r.between b a = r.between a b ∧
      ∀ v r', Yields (min a b) (max a b) r v r' ↔ r.between a b = (v, r') ∧
        (span (min a b) (max a b) = 0x10000000000000000 ∨ r.Meets (span (min a b) (max a b)))) ∧
    (∀ n, 0 < n → (r.index n).1 < n ∧
      (n < 0x10000000000000000 → ∀ position r',
        Offset (.ofNat n) r position r' ↔ r.index n = (position.toNat, r') ∧ r.Meets n)) ∧
    r.index 0 = (0, r) := by
  refine ⟨fun a b => ⟨?_, between_swap r a b, fun v r' => ?_⟩, fun n hn => ⟨index_lt hn r, ?_⟩, rfl⟩
  · rw [between_eq]
    exact spread_within (min_le_max a b) r
  · rw [between_eq]
    exact yields_iff (min_le_max a b)
  · exact fun hlt _ _ => index_iff hn hlt

/-- A die, with the bounds the other way round: the first word is thrown away, and the second is
taken. -/
theorem die_in_bounds :
    ¬ Takes 6 ((ofSeed 7).word 0) ∧
      (∃ v r', Yields 1 6 (ofSeed 7) v r' ∧ (ofSeed 7).between 6 1 = (v, r') ∧ 1 ≤ v ∧ v ≤ 6) ∧
      0 < 6 ∧ ((ofSeed 7).index 6).1 < 6 := by
  obtain ⟨hbetween, hindex, _⟩ := draws_in_bounds (ofSeed 7)
  obtain ⟨hwithin, _, hyields⟩ := hbetween 6 1
  have hmeets : (ofSeed 7).Meets 6 := ⟨1, by decide +kernel⟩
  refine ⟨by decide +kernel,
    ⟨_, _, (hyields _ _).2 ⟨rfl, .inr hmeets⟩, rfl, hwithin⟩, by decide, ?_⟩
  exact (hindex 6 (by decide)).1

end Adventure.Random
