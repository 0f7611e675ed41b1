import Adventure.Text.Utf8

/-!
# Characters come back from their bytes

The cases are those of the lead byte.  The byte after it is in the range that the lead byte asks
for, which is narrower than usual where an encoding longer than needed, a surrogate or a number
beyond the characters would begin.
-/

namespace Adventure.Utf8

variable {acc : List (Option Char)} {rest : List UInt8}

/-! ## Bytes -/

theorem toNat_ofNat {n : Nat} (h : n < 256) : (UInt8.ofNat n).toNat = n := by
  rw [UInt8.toNat_ofNat']
  omega

theorem lead_single {n : Nat} (h : n < 0x80) :
    lead (UInt8.ofNat n) = .single (Char.ofNat n) := by
  have hlow : UInt8.ofNat n < 0x80 := by
    rw [UInt8.lt_iff_toNat_lt, toNat_ofNat (by omega)]
    exact h
  rw [lead, if_pos hlow, toNat_ofNat (by omega)]

theorem lead_two : ∀ d : Fin 32, 2 ≤ d.val →
    lead (UInt8.ofNat (d + 0xc0)) = .begun ⟨d, 1, 0x80, 0xbf⟩ := by
  decide

theorem lead_three : ∀ d : Fin 16, lead (UInt8.ofNat (d + 0xe0)) =
    .begun ⟨d, 2, if d.val = 0 then 0xa0 else 0x80, if d.val = 13 then 0x9f else 0xbf⟩ := by
  decide

theorem lead_four : ∀ d : Fin 5, lead (UInt8.ofNat (d + 0xf0)) =
    .begun ⟨d, 3, if d.val = 0 then 0x90 else 0x80, if d.val = 4 then 0x8f else 0xbf⟩ := by
  decide

theorem readFrom_begun {b : UInt8} {p : Begun} (h : lead b = .begun p) :
    readFrom acc none (b :: rest) = readFrom acc (some p) rest := by
  rw [readFrom, h]

section Next

variable {bits owed n : Nat} {low high : UInt8}

theorem readFrom_next {p : Begun} (low : p.low.toNat ≤ n + 128) (high : n + 128 ≤ p.high.toNat) :
    readFrom acc (some p) (UInt8.ofNat (n + 128) :: rest) =
      if p.owed - 1 = 0 then readFrom (some (Char.ofNat (p.bits * 64 + n)) :: acc) none rest
      else readFrom acc (some ⟨p.bits * 64 + n, p.owed - 1, 0x80, 0xbf⟩) rest := by
  have hsmall : p.high.toNat < 256 := p.high.toNat_lt
  have hbyte : (UInt8.ofNat (n + 128)).toNat = n + 128 := toNat_ofNat (by omega)
  have hrange : (p.low ≤ UInt8.ofNat (n + 128) && UInt8.ofNat (n + 128) ≤ p.high) = true := by
    rw [Bool.and_eq_true, decide_eq_true_iff, decide_eq_true_iff, UInt8.le_iff_toNat_le,
      UInt8.le_iff_toNat_le, hbyte]
    exact ⟨low, high⟩
  have htake : p.take (UInt8.ofNat (n + 128)) = ⟨p.bits * 64 + n, p.owed - 1, 0x80, 0xbf⟩ := by
    unfold Begun.take
    rw [hbyte, Nat.add_sub_cancel]
  rw [readFrom, if_pos hrange, htake]

/-- A byte in the middle of a character. -/
theorem readFrom_more (hlow : low.toNat ≤ n + 128) (hhigh : n + 128 ≤ high.toNat) :
    readFrom acc (some ⟨bits, owed + 2, low, high⟩) (UInt8.ofNat (n + 128) :: rest) =
      readFrom acc (some ⟨bits * 64 + n, owed + 1, 0x80, 0xbf⟩) rest := by
  rw [readFrom_next hlow hhigh]
  exact if_neg (Nat.succ_ne_zero _)

theorem low_le : (0x80 : UInt8).toNat ≤ n + 128 := Nat.le_add_left _ _

theorem le_high (h : n < 64) : n + 128 ≤ (0xbf : UInt8).toNat := by
  show _ ≤ 191
  omega

/-- The last byte of a character. -/
theorem readFrom_last (h : n < 64) :
    readFrom acc (some ⟨bits, 1, 0x80, 0xbf⟩) (UInt8.ofNat (n + 128) :: rest) =
      readFrom (some (Char.ofNat (bits * 64 + n)) :: acc) none rest := by
  rw [readFrom_next low_le (le_high h)]
  exact if_pos rfl

end Next

/-! ## Characters -/

theorem readFrom_two {n : Nat} (hlow : 128 ≤ n) (hhigh : n < 2048) :
    readFrom acc none
        (UInt8.ofNat (n / 64 + 192) :: UInt8.ofNat (n % 64 + 128) :: rest) =
      readFrom (some (Char.ofNat n) :: acc) none rest := by
  have hlead : lead (UInt8.ofNat (n / 64 + 192)) = .begun ⟨n / 64, 1, 0x80, 0xbf⟩ :=
    lead_two ⟨n / 64, by omega⟩ (by dsimp only; omega)
  rw [readFrom_begun hlead, readFrom_last (by omega), Nat.div_add_mod']

theorem readFrom_three {n : Nat} (hlow : 2048 ≤ n) (hhigh : n < 65536)
    (hvalid : n < 0xd800 ∨ 0xdfff < n) :
    readFrom acc none (UInt8.ofNat (n / 4096 + 224) :: UInt8.ofNat (n / 64 % 64 + 128) ::
        UInt8.ofNat (n % 64 + 128) :: rest) =
      readFrom (some (Char.ofNat n) :: acc) none rest := by
  have hlead : lead (UInt8.ofNat (n / 4096 + 224)) = .begun ⟨n / 4096, 2,
      if n / 4096 = 0 then 0xa0 else 0x80, if n / 4096 = 13 then 0x9f else 0xbf⟩ :=
    lead_three ⟨n / 4096, by omega⟩
  have hback : (n / 4096 * 64 + n / 64 % 64) * 64 + n % 64 = n := by omega
  rw [readFrom_begun hlead, readFrom_more, readFrom_last (by omega), hback]
  · split
    · show 160 ≤ _
      omega
    · exact low_le
  · split
    · show _ ≤ 159
      omega
    · exact le_high (by omega)

theorem readFrom_four {n : Nat} (hlow : 65536 ≤ n) (hhigh : n < 0x110000) :
    readFrom acc none (UInt8.ofNat (n / 262144 + 240) :: UInt8.ofNat (n / 4096 % 64 + 128) ::
        UInt8.ofNat (n / 64 % 64 + 128) :: UInt8.ofNat (n % 64 + 128) :: rest) =
      readFrom (some (Char.ofNat n) :: acc) none rest := by
  have hlead : lead (UInt8.ofNat (n / 262144 + 240)) = .begun ⟨n / 262144, 3,
      if n / 262144 = 0 then 0x90 else 0x80, if n / 262144 = 4 then 0x8f else 0xbf⟩ :=
    lead_four ⟨n / 262144, by omega⟩
  have hback : ((n / 262144 * 64 + n / 4096 % 64) * 64 + n / 64 % 64) * 64 + n % 64 = n := by omega
  rw [readFrom_begun hlead, readFrom_more, readFrom_more low_le (le_high (by omega)),
    readFrom_last (by omega), hback]
  · split
    · show 144 ≤ _
      omega
    · exact low_le
  · split
    · show _ ≤ 143
      omega
    · exact le_high (by omega)

/-- A character is read from its bytes, and then what follows. -/
theorem readFrom_utf8EncodeChar (acc : List (Option Char)) (c : Char) (rest : List UInt8) :
    readFrom acc none (String.utf8EncodeChar c ++ rest) = readFrom (some c :: acc) none rest := by
  have hvalid : c.val.toNat < 0xd800 ∨ 0xdfff < c.val.toNat ∧ c.val.toNat < 0x110000 := c.valid
  have hback : Char.ofNat c.val.toNat = c := Char.ofNat_toNat c
  unfold String.utf8EncodeChar
  generalize c.val.toNat = n at *
  dsimp only
  rw [← hback]
  by_cases hone : n ≤ 127
  · rw [if_pos hone, List.singleton_append, readFrom, lead_single (by omega)]
  · rw [if_neg hone]
    by_cases htwo : n ≤ 2047
    · have htop : n / 64 % 32 = n / 64 := by omega
      rw [if_pos htwo, htop]
      exact readFrom_two (by omega) (by omega)
    · rw [if_neg htwo]
      by_cases hthree : n ≤ 65535
      · have htop : n / 4096 % 16 = n / 4096 := by omega
        rw [if_pos hthree, htop]
        exact readFrom_three (by omega) (by omega) (by omega)
      · have htop : n / 262144 % 8 = n / 262144 := by omega
        rw [if_neg hthree, htop]
        exact readFrom_four (by omega) (by omega)

/-- Characters are read from their bytes. -/
theorem characters_utf8EncodeChar (cs : List Char) :
    characters (cs.flatMap String.utf8EncodeChar) = cs.map some := by
  have hread : ∀ acc : List (Option Char), readFrom acc none (cs.flatMap String.utf8EncodeChar) =
      acc.reverse ++ cs.map some := by
    induction cs with
    | nil => simp [readFrom]
    | cons c cs ih =>
      intro acc
      rw [List.flatMap_cons, readFrom_utf8EncodeChar, ih]
      simp
  exact hread []

end Adventure.Utf8
