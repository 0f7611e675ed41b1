import Adventure.Proofs.Text.Numerals

/-!
# Which texts are whole numbers

`Spells` says what number a text stands for: an optional sign and at least one digit.  `Flawed` says
what is wrong with a text that stands for none within the bounds.  A text is read as the number that
it spells, and refused for the flaw that it has; it always has the one or the other.
-/

namespace Adventure

/-! ## Spelling -/

/-- What may stand in front of the digits. -/
inductive Sign where
  | absent
  | plus
  | minus
  deriving DecidableEq

namespace Sign

def chars : Sign → List Char
  | absent => []
  | plus => ['+']
  | minus => ['-']

/-- The number with the sign. -/
def apply : Sign → Nat → Int
  | minus, n => -(n : Int)
  | _, n => n

/-- The largest number that the sign may stand before. -/
def limit (low high : Int) : Sign → Nat
  | minus => (-low).toNat
  | _ => high.toNat

/-- The fault of a number beyond the limit. -/
def overflow : Sign → IntegerFault
  | minus => .tooSmall
  | _ => .tooLarge

end Sign

/-- Whether a text begins with a sign. -/
def BeginsWithSign (cs : List Char) : Prop := cs.head? = some '+' ∨ cs.head? = some '-'

/-- A text stands for a number: an optional sign, and at least one digit. -/
def Spells (cs : List Char) (n : Int) : Prop :=
  ∃ (sign : Sign) (digits : List Char), cs = sign.chars ++ digits ∧ digits ≠ [] ∧
    (∀ c ∈ digits, c.isDigit) ∧ n = sign.apply (Nat.ofDigitChars 10 digits 0)

/-- What is wrong with a text that is to be a number from `low` to `high`.  Of several flaws the one
that is met first counts. -/
inductive Flawed (low high : Int) : List Char → IntegerFault → Prop where
  | empty : Flawed low high [] .empty
  | loneSign {sign : Sign} (signed : sign ≠ .absent) : Flawed low high sign.chars .invalidDigit
  /-- A character that is no digit, before the number is out of bounds. -/
  | stray {sign : Sign} {digits : List Char} {c : Char} {rest : List Char}
      (unsigned : sign = .absent → ¬ BeginsWithSign (digits ++ c :: rest))
      (digit : ∀ d ∈ digits, d.isDigit)
      (within : Nat.ofDigitChars 10 digits 0 ≤ sign.limit low high)
      (other : c.isDigit = false) :
      Flawed low high (sign.chars ++ (digits ++ c :: rest)) .invalidDigit
  /-- Digits of a number that is out of bounds, whatever follows them. -/
  | beyond {sign : Sign} {digits : List Char} {rest : List Char} (digit : ∀ d ∈ digits, d.isDigit)
      (above : sign.limit low high < Nat.ofDigitChars 10 digits 0) :
      Flawed low high (sign.chars ++ (digits ++ rest)) sign.overflow

/-! ## Digits -/

variable {limit acc : Nat} {overflow : IntegerFault}

theorem digitValue?_of_not_isDigit {c : Char} (h : c.isDigit = false) : digitValue? c = none := by
  rw [digitValue?, if_neg]
  simpa [Char.isDigit, Char.le_def] using h

theorem readDigits_stray {digits : List Char} {c : Char} (rest : List Char)
    (digit : ∀ d ∈ digits, d.isDigit) (within : Nat.ofDigitChars 10 digits acc ≤ limit)
    (other : c.isDigit = false) :
    readDigits limit overflow acc (digits ++ c :: rest) = .error .invalidDigit := by
  rw [readDigits_append _ digit within]
  simp only [readDigits, digitValue?_of_not_isDigit other]

theorem readDigits_beyond {digits : List Char} (rest : List Char) (start : acc ≤ limit)
    (digit : ∀ d ∈ digits, d.isDigit) (above : limit < Nat.ofDigitChars 10 digits acc) :
    readDigits limit overflow acc (digits ++ rest) = .error overflow := by
  induction digits generalizing acc with
  | nil =>
    rw [Nat.ofDigitChars_nil] at above
    omega
  | cons c digits ih =>
    obtain ⟨hc, hdigits⟩ := List.forall_mem_cons.1 digit
    rw [Nat.ofDigitChars_cons, Nat.mul_comm] at above
    simp only [List.cons_append, readDigits, digitValue?_of_isDigit hc]
    split
    · rfl
    · next hle => exact ih (Nat.not_lt.1 hle) hdigits above

/-- A text is digits of a number within the limit, or it leaves them somewhere, or the number passes
the limit. -/
theorem digits_cases (limit : Nat) (cs : List Char) (start : acc ≤ limit) :
    ((∀ c ∈ cs, c.isDigit) ∧ Nat.ofDigitChars 10 cs acc ≤ limit) ∨
      (∃ digits c rest, cs = digits ++ c :: rest ∧ (∀ d ∈ digits, d.isDigit) ∧
        Nat.ofDigitChars 10 digits acc ≤ limit ∧ c.isDigit = false) ∨
      ∃ digits rest, cs = digits ++ rest ∧ (∀ d ∈ digits, d.isDigit) ∧
        limit < Nat.ofDigitChars 10 digits acc := by
  induction cs generalizing acc with
  | nil => exact .inl ⟨fun _ hc => (by cases hc), by rwa [Nat.ofDigitChars_nil]⟩
  | cons c cs ih =>
    cases hc : c.isDigit with
    | false =>
      refine .inr (.inl ⟨[], c, cs, rfl, fun _ hd => (by cases hd), ?_, hc⟩)
      rwa [Nat.ofDigitChars_nil]
    | true =>
      have hcons : ∀ digits, Nat.ofDigitChars 10 (c :: digits) acc =
          Nat.ofDigitChars 10 digits (10 * acc + (c.toNat - '0'.toNat)) := fun digits =>
        Nat.ofDigitChars_cons
      have hdigit : ∀ {digits : List Char}, (∀ d ∈ digits, d.isDigit) →
          ∀ d ∈ c :: digits, d.isDigit := fun h => List.forall_mem_cons.2 ⟨hc, h⟩
      by_cases hle : 10 * acc + (c.toNat - '0'.toNat) ≤ limit
      · rcases ih hle with ⟨hcs, hwithin⟩ | ⟨digits, d, rest, rfl, hdigits, hwithin, hd⟩ |
          ⟨digits, rest, rfl, hdigits, habove⟩
        · exact .inl ⟨hdigit hcs, by rwa [hcons]⟩
        · exact .inr (.inl ⟨c :: digits, d, rest, rfl, hdigit hdigits, by rwa [hcons], hd⟩)
        · exact .inr (.inr ⟨c :: digits, rest, rfl, hdigit hdigits, by rwa [hcons]⟩)
      · refine .inr (.inr ⟨[c], cs, rfl, hdigit fun _ hd => (by cases hd), ?_⟩)
        rw [hcons, Nat.ofDigitChars_nil]
        exact Nat.not_le.1 hle

/-! ## Whole numbers -/

/-- Every text has one sign in front, if only the absent one. -/
theorem exists_sign (cs : List Char) : ∃ (sign : Sign) (rest : List Char),
    cs = sign.chars ++ rest ∧ (sign = .absent → ¬ BeginsWithSign rest) := by
  by_cases hsign : BeginsWithSign cs
  · cases cs with
    | nil => rcases hsign with h | h <;> cases h
    | cons c rest =>
      rcases hsign with h | h
      · obtain rfl := Option.some.inj h
        exact ⟨.plus, rest, rfl, fun h => by cases h⟩
      · obtain rfl := Option.some.inj h
        exact ⟨.minus, rest, rfl, fun h => by cases h⟩
  · exact ⟨.absent, cs, rfl, fun _ => hsign⟩

theorem not_beginsWithSign {digits : List Char} (digit : ∀ c ∈ digits, c.isDigit) :
    ¬ BeginsWithSign digits := by
  cases digits with
  | nil => rintro (h | h) <;> cases h
  | cons c rest =>
    have hc := digit c List.mem_cons_self
    rintro (h | h)
    · obtain rfl := Option.some.inj h
      exact absurd hc (by decide)
    · obtain rfl := Option.some.inj h
      exact absurd hc (by decide)

section Bounds

variable {low high : Int} (negative : low < 0) (nonneg : 0 ≤ high)

include negative

/-- What follows the sign is read as digits. -/
theorem readInteger_signed {sign : Sign} {rest : List Char} (some : rest ≠ [])
    (unsigned : sign = .absent → ¬ BeginsWithSign rest) :
    readInteger low high (sign.chars ++ rest) =
      (readDigits (sign.limit low high) sign.overflow 0 rest).map sign.apply := by
  obtain ⟨c, cs, rfl⟩ := List.exists_cons_of_ne_nil some
  cases sign with
  | plus => rfl
  | minus =>
    show readInteger low high ('-' :: c :: cs) = _
    simp only [readInteger, if_pos negative, Sign.limit, Sign.overflow]
    cases readDigits (-low).toNat .tooSmall 0 (c :: cs) <;> rfl
  | absent =>
    have hplus : c ≠ '+' := fun h => unsigned rfl (.inl (congrArg _ h))
    have hminus : c ≠ '-' := fun h => unsigned rfl (.inr (congrArg _ h))
    show readInteger low high (c :: cs) = _
    unfold readInteger
    split
    all_goals first
      | rfl
      | contradiction
      | (obtain ⟨rfl, -⟩ := List.cons.inj ‹_›; contradiction)

/-- A flawed text is refused for its flaw. -/
theorem readInteger_of_flawed {cs : List Char} {why : IntegerFault} (h : Flawed low high cs why) :
    readInteger low high cs = .error why := by
  cases h with
  | empty => rfl
  | @loneSign sign signed => cases sign with
    | absent => exact absurd rfl signed
    | plus => rfl
    | minus => rfl
  | stray unsigned digit within other =>
    rw [readInteger_signed negative (List.append_ne_nil_of_right_ne_nil _ (List.cons_ne_nil _ _))
      unsigned, readDigits_stray _ digit within other]
    rfl
  | @beyond sign digits rest digit above =>
    have hne : digits ≠ [] := by
      rintro rfl
      rw [Nat.ofDigitChars_nil] at above
      exact absurd above (Nat.not_lt_zero _)
    have hunsigned : ¬ BeginsWithSign (digits ++ rest) := by
      intro h
      rw [BeginsWithSign, List.head?_append_of_ne_nil _ hne] at h
      exact not_beginsWithSign digit h
    rw [readInteger_signed negative (List.append_ne_nil_of_left_ne_nil hne _) fun _ => hunsigned,
      readDigits_beyond _ (Nat.zero_le _) digit above]
    rfl

include nonneg

theorem within_iff {sign : Sign} {n : Nat} :
    n ≤ sign.limit low high ↔ low ≤ sign.apply n ∧ sign.apply n ≤ high := by
  cases sign <;> simp only [Sign.limit, Sign.apply] <;> omega

/-- A number is read from a text that spells it. -/
theorem readInteger_of_spells {cs : List Char} {n : Int} (h : Spells cs n) (hlow : low ≤ n)
    (hhigh : n ≤ high) : readInteger low high cs = .ok n := by
  obtain ⟨sign, digits, rfl, some, digit, rfl⟩ := h
  rw [readInteger_signed negative some fun _ => not_beginsWithSign digit,
    readDigits_of_isDigit digit ((within_iff negative nonneg).2 ⟨hlow, hhigh⟩)]
  rfl

/-- A text spells a number within the bounds, or it has a flaw. -/
theorem spells_or_flawed (cs : List Char) :
    (∃ n, Spells cs n ∧ low ≤ n ∧ n ≤ high) ∨ ∃ why, Flawed low high cs why := by
  obtain ⟨sign, rest, rfl, unsigned⟩ := exists_sign cs
  by_cases hrest : rest = []
  · subst hrest
    rw [List.append_nil]
    by_cases hsign : sign = .absent
    · subst hsign
      exact .inr ⟨_, .empty⟩
    · exact .inr ⟨_, .loneSign hsign⟩
  · rcases digits_cases (sign.limit low high) rest (Nat.zero_le _) with ⟨digit, within⟩ |
      ⟨digits, c, rest, rfl, digit, within, other⟩ | ⟨digits, rest, rfl, digit, above⟩
    · exact .inl ⟨_, ⟨sign, rest, rfl, hrest, digit, rfl⟩, (within_iff negative nonneg).1 within⟩
    · exact .inr ⟨_, .stray unsigned digit within other⟩
    · exact .inr ⟨_, .beyond digit above⟩

theorem readInteger_eq_ok_iff {cs : List Char} {n : Int} :
    readInteger low high cs = .ok n ↔ Spells cs n ∧ low ≤ n ∧ n ≤ high := by
  refine ⟨fun h => ?_, fun h => readInteger_of_spells negative nonneg h.1 h.2.1 h.2.2⟩
  rcases spells_or_flawed negative nonneg cs with ⟨k, hk, hlow, hhigh⟩ | ⟨why, hwhy⟩
  · rw [readInteger_of_spells negative nonneg hk hlow hhigh] at h
    obtain rfl := Except.ok.inj h
    exact ⟨hk, hlow, hhigh⟩
  · rw [readInteger_of_flawed negative hwhy] at h
    cases h

theorem readInteger_eq_error_iff {cs : List Char} {why : IntegerFault} :
    readInteger low high cs = .error why ↔ Flawed low high cs why := by
  refine ⟨fun h => ?_, readInteger_of_flawed negative⟩
  rcases spells_or_flawed negative nonneg cs with ⟨k, hk, hlow, hhigh⟩ | ⟨why', hwhy⟩
  · rw [readInteger_of_spells negative nonneg hk hlow hhigh] at h
    cases h
  · rw [readInteger_of_flawed negative hwhy] at h
    obtain rfl := Except.error.inj h
    exact hwhy

end Bounds

/-- A text reads as the number of 32 bits that it spells. -/
theorem readInt32_eq_ok_iff {cs : List Char} {n : Int32} :
    readInt32 (String.ofList cs) = .ok n ↔ Spells cs n.toInt := by
  have hlow : -0x80000000 ≤ n.toInt := n.le_toInt
  have hhigh : n.toInt ≤ 0x7fffffff := Int.le_of_lt_add_one n.toInt_lt
  rw [readInt32, String.toList_ofList]
  constructor
  · intro h
    cases hread : readInteger (-0x80000000) 0x7fffffff cs with
    | error why =>
      rw [hread] at h
      cases h
    | ok k =>
      rw [hread] at h
      obtain ⟨hk, hlow, hhigh⟩ := (readInteger_eq_ok_iff (by decide) (by decide)).1 hread
      have hn : n = Int32.ofInt k := (Except.ok.inj h).symm
      rwa [hn, Int32.toInt_ofInt_of_le hlow (Int.lt_add_one_of_le hhigh)]
  · intro h
    rw [readInteger_of_spells (by decide) (by decide) h hlow hhigh]
    exact congrArg Except.ok (Int32.ofInt_toInt n)

theorem readInt32_eq_error_iff {cs : List Char} {why : IntegerFault} :
    readInt32 (String.ofList cs) = .error why ↔ Flawed (-0x80000000) 0x7fffffff cs why := by
  rw [← readInteger_eq_error_iff (by decide) (by decide), readInt32, String.toList_ofList]
  cases readInteger (-0x80000000) 0x7fffffff cs with
  | ok n => exact ⟨fun h => (by cases h), fun h => (by cases h)⟩
  | error why' =>
    exact ⟨fun h => congrArg _ (Except.error.inj h), fun h => congrArg _ (Except.error.inj h)⟩

end Adventure
