import Adventure.Text.Integer
import Adventure.Text.Split
import Mathlib.Data.List.Basic

/-!
# Numbers as text

A whole number is read from its digits, and fields from the text that they are joined to.
-/

namespace Adventure

/-! ## Digits -/

theorem digitValue?_of_isDigit {c : Char} (h : c.isDigit) :
    digitValue? c = some (c.toNat - '0'.toNat) := by
  rw [digitValue?, if_pos]
  simpa [Char.isDigit, Char.le_def] using h

/-- Digits of a number within the limit are taken in, whatever follows them. -/
theorem readDigits_append {limit : Nat} {overflow : IntegerFault} {digits : List Char} {acc : Nat}
    (rest : List Char) (hdigits : ∀ c ∈ digits, c.isDigit)
    (hlimit : Nat.ofDigitChars 10 digits acc ≤ limit) :
    readDigits limit overflow acc (digits ++ rest) =
      readDigits limit overflow (Nat.ofDigitChars 10 digits acc) rest := by
  induction digits generalizing acc with
  | nil => simp
  | cons c digits ih =>
    obtain ⟨hc, hmore⟩ := List.forall_mem_cons.1 hdigits
    rw [Nat.ofDigitChars_cons, Nat.mul_comm] at hlimit ⊢
    have hle : acc * 10 + (c.toNat - '0'.toNat) ≤ limit := by
      rw [Nat.ofDigitChars_eq_ofDigitChars_zero] at hlimit
      have hpos : 0 < 10 ^ digits.length := Nat.pow_pos (by decide)
      exact Nat.le_trans (Nat.le_mul_of_pos_left _ hpos)
        (Nat.le_trans (Nat.le_add_right _ _) hlimit)
    simp only [List.cons_append, readDigits, digitValue?_of_isDigit hc]
    rw [if_neg (Nat.not_lt.2 hle), ih hmore hlimit]

/-- Digits are read as the number that they stand for. -/
theorem readDigits_of_isDigit {limit : Nat} {overflow : IntegerFault} {cs : List Char} {acc : Nat}
    (hdigits : ∀ c ∈ cs, c.isDigit) (hlimit : Nat.ofDigitChars 10 cs acc ≤ limit) :
    readDigits limit overflow acc cs = .ok (Nat.ofDigitChars 10 cs acc) := by
  have hread : readDigits limit overflow acc (cs ++ []) =
      readDigits limit overflow (Nat.ofDigitChars 10 cs acc) [] :=
    readDigits_append [] hdigits hlimit
  rwa [List.append_nil, readDigits] at hread

theorem readDigits_toDigits {limit n : Nat} {overflow : IntegerFault} (h : n ≤ limit) :
    readDigits limit overflow 0 (Nat.toDigits 10 n) = .ok n := by
  have hvalue : Nat.ofDigitChars 10 (Nat.toDigits 10 n) 0 = n := Nat.ofDigitChars_ten_toDigits
  rw [readDigits_of_isDigit, hvalue]
  · exact fun c hc => Nat.isDigit_of_mem_toDigits (by decide) (Nat.le_refl 10) hc
  · rw [hvalue]
    exact h

/-! ## Whole numbers -/

theorem toDigits_eq_cons (n : Nat) : ∃ c rest, Nat.toDigits 10 n = c :: rest ∧ c.isDigit := by
  cases h : Nat.toDigits 10 n with
  | nil => exact absurd h Nat.toDigits_ne_nil
  | cons c rest =>
    refine ⟨c, rest, rfl,
      Nat.isDigit_of_mem_toDigits (b := 10) (n := n) (by decide) (Nat.le_refl 10) ?_⟩
    rw [h]
    exact List.mem_cons_self

theorem readInteger_toDigits {low high : Int} {n : Nat} (h : (n : Int) ≤ high) :
    readInteger low high (Nat.toDigits 10 n) = .ok (n : Int) := by
  obtain ⟨c, rest, heq, hc⟩ := toDigits_eq_cons n
  have hread : readDigits high.toNat .tooLarge 0 (Nat.toDigits 10 n) = .ok n :=
    readDigits_toDigits (by omega)
  rw [heq] at hread ⊢
  unfold readInteger
  split
  all_goals first
    | contradiction
    | (rw [hread]; rfl)
    | (obtain ⟨rfl, -⟩ := List.cons.inj ‹_›; exact absurd hc (by decide))

theorem readInteger_neg {low high : Int} {n : Nat} (hlow : low ≤ -(n : Int)) (hn : 0 < n) :
    readInteger low high ('-' :: Nat.toDigits 10 n) = .ok (-(n : Int)) := by
  obtain ⟨c, rest, heq, hc⟩ := toDigits_eq_cons n
  have hread : readDigits (-low).toNat .tooSmall 0 (Nat.toDigits 10 n) = .ok n :=
    readDigits_toDigits (by omega)
  rw [heq] at hread ⊢
  have hneg : low < 0 := by omega
  simp only [readInteger, hneg, if_true, hread]
  rfl

/-- A number within the bounds is read from its digits. -/
theorem readInteger_toString {low high n : Int} (hlow : low ≤ n) (hhigh : n ≤ high) :
    readInteger low high (toString n).toList = .ok n := by
  cases n with
  | ofNat k =>
    show readInteger _ _ (Nat.repr k).toList = _
    rw [Nat.toList_repr]
    exact readInteger_toDigits hhigh
  | negSucc k =>
    show readInteger _ _ ("-" ++ Nat.repr (k + 1)).toList = _
    rw [String.toList_append, Nat.toList_repr]
    exact readInteger_neg hlow (Nat.succ_pos k)

theorem readInt32_toString (n : Int32) : readInt32 (toString n.toInt) = .ok n := by
  have hread : readInteger (-0x80000000) 0x7fffffff (toString n.toInt).toList = .ok n.toInt :=
    readInteger_toString n.le_toInt (Int.le_of_lt_add_one n.toInt_lt)
  rw [readInt32, hread]
  exact congrArg Except.ok (Int32.ofInt_toInt n)

/-- The digits of a number have no other character than a sign among them. -/
theorem not_mem_toString {c : Char} (n : Int) (hdigit : ¬ c.isDigit) (hsign : c ≠ '-') :
    c ∉ (toString n).toList := by
  have hdigits : ∀ k, c ∉ (Nat.repr k).toList := by
    intro k hk
    rw [Nat.toList_repr] at hk
    exact hdigit (Nat.isDigit_of_mem_toDigits (by decide) (Nat.le_refl 10) hk)
  cases n with
  | ofNat k => exact hdigits k
  | negSucc k =>
    show c ∉ ("-" ++ Nat.repr (k + 1)).toList
    rw [String.toList_append, List.mem_append]
    rintro (h | h)
    · exact hsign (List.mem_singleton.1 h)
    · exact hdigits _ h

/-! ## Fields -/

/-- Fields are what a text is split into at its separators. -/
theorem splitFields_eq_splitOn (separator : Char) (cs : List Char) :
    splitFields separator cs = cs.splitOn separator := by
  induction cs with
  | nil => rfl
  | cons c rest ih =>
    rw [splitFields, ih, List.splitOn_cons_eq_if_modifyHead]
    cases hrest : rest.splitOn separator with
    | nil => exact absurd hrest (List.splitOn_ne_nil _ _)
    | cons field fields => by_cases hc : c = separator <;> simp [hc]

theorem not_mem_of_mem_splitOn {separator : Char} {cs field : List Char}
    (h : field ∈ cs.splitOn separator) : separator ∉ field := by
  induction cs generalizing field with
  | nil =>
    obtain rfl := List.mem_singleton.1 h
    exact List.not_mem_nil
  | cons c rest ih =>
    rw [List.splitOn_cons_eq_if_modifyHead] at h
    cases hrest : rest.splitOn separator with
    | nil => exact absurd hrest (List.splitOn_ne_nil _ _)
    | cons first fields =>
      rw [hrest] at h ih
      obtain ⟨hfirst, hfields⟩ := List.forall_mem_cons.1 fun field hfield => @ih field hfield
      split at h
      · rcases List.mem_cons.1 h with rfl | h
        · exact List.not_mem_nil
        · exact ih h
      · next hc =>
        rcases List.mem_cons.1 h with rfl | h
        · rw [List.mem_cons, not_or]
          exact ⟨fun heq => hc (beq_iff_eq.2 heq.symm), hfirst⟩
        · exact hfields field h

end Adventure
