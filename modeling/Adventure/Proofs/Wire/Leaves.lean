import Adventure.Proofs.Text.Numerals
import Adventure.Wire.Document

/-!
# Leaves of JSON documents come back

Quoted texts are read up to their closing quotes, and digits up to whatever follows them.  A key
that was written with escapes is told apart from one that was not.
-/

namespace Adventure.Wire.Json

/-- Characters, none of them damaged. -/
def pieces (cs : List Char) : List Piece := cs.map some

@[simp] theorem pieces_nil : pieces [] = [] := rfl

@[simp] theorem pieces_cons (c : Char) (cs : List Char) :
    pieces (c :: cs) = some c :: pieces cs := rfl

@[simp] theorem pieces_append (cs cs' : List Char) : pieces (cs ++ cs') = pieces cs ++ pieces cs' :=
  List.map_append

/-! ## Texts -/

/-- Whether a text is written with escapes. -/
def escapes (s : String) : Bool := s.toList.any fun c => escaped c != [c]

/-- A character stands for itself, or it is written with a backslash. -/
theorem escaped_cases (c : Char) :
    (escaped c = [c] ∧ c ≠ '"' ∧ c ≠ '\\' ∧ 32 ≤ c.toNat) ∨
      ∃ d cs, escaped c = '\\' :: d :: cs := by
  unfold escaped
  split_ifs with h1 h2 h3 h4 h5 h6 h7 h8
  · exact .inr ⟨_, _, rfl⟩
  · exact .inr ⟨_, _, rfl⟩
  · exact .inr ⟨_, _, rfl⟩
  · exact .inr ⟨_, _, rfl⟩
  · exact .inr ⟨_, _, rfl⟩
  · exact .inr ⟨_, _, rfl⟩
  · exact .inr ⟨_, _, rfl⟩
  · exact .inr ⟨_, _, rfl⟩
  · exact .inl ⟨rfl, h1, h2, Nat.not_lt.1 h8⟩

theorem readText_plain {acc : List Char} {c : Char} {rest : List Piece} (quote : c ≠ '"')
    (backslash : c ≠ '\\') (printable : 32 ≤ c.toNat) :
    readText (some acc) none (some c :: rest) = readText (some (c :: acc)) none rest := by
  rw [readText.eq_def]
  split
  · contradiction
  · simp_all
  · simp_all
  · simp_all
  · next c' rest' _ _ _ heq =>
    obtain ⟨rfl, rfl⟩ := List.cons.inj heq
    rw [if_neg (by simpa using printable)]
    rfl

theorem codeUnit?_hexPair : ∀ n : Fin 32,
    codeUnit? (some '0') (some '0') (hexPair n)[0]? (hexPair n)[1]? = some n.val := by
  decide

theorem readText_control {n : Nat} (h : n < 32) (acc : List Char) (rest : List Piece) :
    readText (some acc) none (pieces ('\\' :: 'u' :: '0' :: '0' :: hexPair n) ++ rest) =
      readText (some (Char.ofNat n :: acc)) none rest := by
  have hunit := codeUnit?_hexPair ⟨n, h⟩
  have hadd : addUnit (some acc) none n = (some (Char.ofNat n :: acc), none) := by
    have hhigh : ¬ 0xd800 ≤ n := by omega
    have hlow : ¬ 0xdc00 ≤ n := by omega
    simp [addUnit, hhigh, hlow]
  simp only [hexPair, pieces_cons, pieces_nil, List.cons_append, List.nil_append] at hunit ⊢
  simp only [List.getElem?_cons_zero, List.getElem?_cons_succ] at hunit
  rw [readText, hunit]
  simp only [hadd]

/-- A character is read from the way it is written. -/
theorem readText_escaped (acc : List Char) (c : Char) (rest : List Piece) :
    readText (some acc) none (pieces (escaped c) ++ rest) =
      readText (some (c :: acc)) none rest := by
  have hback : ∀ {n : Nat}, c.toNat = n → c = Char.ofNat n := fun h => h ▸ (Char.ofNat_toNat c).symm
  unfold escaped
  split_ifs with h1 h2 h3 h4 h5 h6 h7 h8
  · subst h1
    rfl
  · subst h2
    rfl
  · subst h3
    rfl
  · subst h4
    rfl
  · subst h5
    rfl
  · rw [hback h6]
    rfl
  · rw [hback h7]
    rfl
  · rw [readText_control h8, Char.ofNat_toNat]
  · exact readText_plain h1 h2 (Nat.not_lt.1 h8)

/-- A text is read up to its closing quote. -/
theorem readText_quoted (cs : List Char) (rest : List Piece) : ∀ acc : List Char,
    readText (some acc) none (pieces (cs.flatMap escaped) ++ some '"' :: rest) =
      some (some (String.ofList (acc.reverse ++ cs)), rest) := by
  induction cs with
  | nil =>
    intro acc
    simp [readText]
  | cons c cs ih =>
    intro acc
    rw [List.flatMap_cons, pieces_append, List.append_assoc, readText_escaped, ih]
    simp

theorem readString_quoted (s : String) (rest : List Piece) :
    readString (pieces (s.toList.flatMap escaped) ++ some '"' :: rest) = some (.text s, rest) := by
  rw [readString, readText_quoted]
  simp

/-! ## Keys -/

theorem hasEscape_quoted (cs : List Char) (rest : List Piece) :
    hasEscape (pieces (cs.flatMap escaped) ++ some '"' :: rest) =
      cs.any fun c => escaped c != [c] := by
  induction cs with
  | nil => rfl
  | cons c cs ih =>
    rcases escaped_cases c with ⟨hself, hquote, hbackslash, -⟩ | ⟨d, ds, hescaped⟩
    · rw [hasEscape] at ih ⊢
      simpa [hself, hquote, hbackslash.symm] using ih
    · simp [hescaped, hasEscape]

theorem readKey_quoted (s : String) (rest : List Piece) :
    readKey (pieces (s.toList.flatMap escaped) ++ some '"' :: rest) =
      some (if escapes s then .escaped s else .text s, rest) := by
  rw [readKey, readString_quoted]
  simp only [Option.map_some, Value.text?, hasEscape_quoted]
  rfl

/-! ## Whole numbers -/

/-- What may follow a value in a document without blanks. -/
inductive Follows : List Piece → Prop where
  | nothing : Follows []
  | comma (rest : List Piece) : Follows (some ',' :: rest)
  | bracket (rest : List Piece) : Follows (some ']' :: rest)
  | brace (rest : List Piece) : Follows (some '}' :: rest)

theorem isDigit_pieces {cs : List Char} (h : ∀ c ∈ cs, c.isDigit) : ∀ p ∈ pieces cs, isDigit p := by
  intro p hp
  obtain ⟨c, hc, rfl⟩ := List.mem_map.1 hp
  simp [isDigit, digitValue?_of_isDigit (h c hc)]

theorem takeWhile_digits {cs : List Char} {rest : List Piece} (h : ∀ c ∈ cs, c.isDigit)
    (hrest : Follows rest) : (pieces cs ++ rest).takeWhile isDigit = pieces cs := by
  rw [List.takeWhile_append_of_pos (isDigit_pieces h)]
  cases hrest <;> simp [isDigit, digitValue?]

theorem dropWhile_digits {cs : List Char} {rest : List Piece} (h : ∀ c ∈ cs, c.isDigit)
    (hrest : Follows rest) : (pieces cs ++ rest).dropWhile isDigit = rest := by
  rw [List.dropWhile_append_of_pos (isDigit_pieces h)]
  cases hrest <;> simp [isDigit, digitValue?]

/-- Digits are taken in up to the last one while the number has 64 bits. -/
theorem takeDigits_pieces {cs : List Char} (h : ∀ c ∈ cs, c.isDigit) {n : Nat}
    (hsmall : Nat.ofDigitChars 10 cs n < 0x10000000000000000) :
    takeDigits n (pieces cs) = (Nat.ofDigitChars 10 cs n, 0) := by
  induction cs generalizing n with
  | nil => rfl
  | cons c rest ih =>
    obtain ⟨hc, hrest⟩ := List.forall_mem_cons.1 h
    rw [Nat.ofDigitChars_cons, Nat.mul_comm] at hsmall ⊢
    have hlt : n * 10 + (c.toNat - '0'.toNat) < 0x10000000000000000 := by
      rw [Nat.ofDigitChars_eq_ofDigitChars_zero] at hsmall
      have hpos : 0 < 10 ^ rest.length := Nat.pow_pos (by decide)
      exact Nat.lt_of_le_of_lt (Nat.le_mul_of_pos_left _ hpos)
        (Nat.lt_of_le_of_lt (Nat.le_add_right _ _) hsmall)
    have hdigit : digit (some c) = c.toNat - '0'.toNat := by
      simp [digit, digitValue?_of_isDigit hc]
    rw [pieces_cons, takeDigits, hdigit]
    simp only [hlt, if_true]
    exact ih hrest hsmall

theorem digitChar_ne_zero : ∀ d : Fin 10, d ≠ 0 → Nat.digitChar d ≠ '0' := by
  decide

/-- The digits of a number begin with a zero only where it is zero. -/
theorem head?_toDigits_ne {n : Nat} (h : 0 < n) : (Nat.toDigits 10 n).head? ≠ some '0' := by
  induction n using Nat.strongRecOn with
  | ind n ih =>
    by_cases hn : n < 10
    · rw [Nat.toDigits_of_lt_base hn, List.head?_cons]
      intro heq
      exact digitChar_ne_zero ⟨n, hn⟩ (Fin.ne_of_val_ne (Nat.ne_of_gt h)) (Option.some.inj heq)
    · rw [Nat.toDigits_of_base_le (by decide) (by omega), List.head?_append_of_ne_nil]
      · exact ih (n / 10) (by omega) (by omega)
      · exact Nat.toDigits_ne_nil

/-- Digits stand for a number that may be written so. -/
theorem begins_toDigits (n : Nat) : ((pieces (Nat.toDigits 10 n)).isEmpty ||
    ((pieces (Nat.toDigits 10 n)).head? == some (some '0') &&
      (pieces (Nat.toDigits 10 n)).length > 1)) = false := by
  rcases Nat.eq_zero_or_pos n with rfl | hpos
  · decide
  · have hnil : Nat.toDigits 10 n ≠ [] := Nat.toDigits_ne_nil
    have hhead := head?_toDigits_ne hpos
    cases hdigits : Nat.toDigits 10 n with
    | nil => exact absurd hdigits hnil
    | cons c rest =>
      rw [hdigits, List.head?_cons] at hhead
      have hc : c ≠ '0' := fun heq => hhead (congrArg some heq)
      simp [hc]

/-- A number is read from its digits. -/
theorem readNumber_toDigits {negative : Bool} {n : Nat} {rest : List Piece}
    (hsmall : n < 0x10000000000000000) (hrest : Follows rest) :
    readNumber negative (pieces (Nat.toDigits 10 n) ++ rest) = some (whole negative n, rest) := by
  have hdigits : ∀ c ∈ Nat.toDigits 10 n, c.isDigit := fun c hc =>
    Nat.isDigit_of_mem_toDigits (by decide) (Nat.le_refl 10) hc
  have hvalue : Nat.ofDigitChars 10 (Nat.toDigits 10 n) 0 = n := Nat.ofDigitChars_ten_toDigits
  have htake : takeDigits 0 (pieces (Nat.toDigits 10 n)) = (n, 0) := by
    rw [takeDigits_pieces hdigits (by rwa [hvalue]), hvalue]
  unfold readNumber
  simp only [takeWhile_digits hdigits hrest, dropWhile_digits hdigits hrest, begins_toDigits, htake]
  cases hrest <;> rfl

end Adventure.Wire.Json
