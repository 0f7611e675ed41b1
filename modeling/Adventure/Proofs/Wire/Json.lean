import Adventure.Proofs.Text.Utf8
import Adventure.Proofs.Wire.Leaves
import Adventure.Proofs.Wire.MessagePack

/-!
# Documents come back

A tree in plain form is read back from the text of its document, except that a key that needs
escapes comes back as one that is spelled with them.  Doubles are left out: a document has fewer
ways to say them than there are doubles to read.
-/

namespace Adventure.Wire

namespace Value

/-! ## Spelling -/

/-- A key as it comes back from a document. -/
def spelledKey : Value → Value
  | .text s => if Json.escapes s then .escaped s else .text s
  | k => k

mutual

/-- A tree as it comes back from a document. -/
def spelled : Value → Value
  | .list items => .list (spelledItems items)
  | .map entries => .map (spelledEntries entries)
  | v => v

def spelledItems : List Value → List Value
  | [] => []
  | x :: rest => x.spelled :: spelledItems rest

def spelledEntries : List (Value × Value) → List (Value × Value)
  | [] => []
  | (k, x) :: rest => (k.spelledKey, x.spelled) :: spelledEntries rest

end

mutual

/-- Whether no number of a tree is a double. -/
def isFloatless : Value → Bool
  | .float _ => false
  | .list items => floatlessItems items
  | .map entries => floatlessEntries entries
  | _ => true

def floatlessItems : List Value → Bool
  | [] => true
  | x :: rest => x.isFloatless && floatlessItems rest

def floatlessEntries : List (Value × Value) → Bool
  | [] => true
  | (k, x) :: rest => k.isFloatless && x.isFloatless && floatlessEntries rest

end

end Value

namespace Json

open Value

variable {fuel depth : Nat} {rest : List Piece}

/-! ## First characters -/

/-- What a value may begin with: no blank, and no end of a list. -/
def Begins (c : Char) : Prop := isBlank (some c) = false ∧ c ≠ ']'

theorem begins_digit {c : Char} (h : c.isDigit) : Begins c := by
  have hne : ∀ {d : Char}, d.isDigit = false → c ≠ d := by
    rintro d hd rfl
    rw [h] at hd
    cases hd
  refine ⟨?_, hne rfl⟩
  simp [isBlank, hne (d := ' ') rfl, hne (d := '\n') rfl, hne (d := '\t') rfl, hne (d := '\r') rfl]

theorem skipBlank_cons {c : Char} (h : isBlank (some c) = false) (rest : List Piece) :
    skipBlank (some c :: rest) = some c :: rest := by
  rw [skipBlank, List.dropWhile_cons_of_neg (by simp [h])]

/-! ## Numbers -/

theorem wholeNumber_natCast (n : Nat) : wholeNumber n = Nat.toDigits 10 n := by
  show (Nat.repr n).toList = _
  exact Nat.toList_repr

theorem wholeNumber_neg {n : Nat} (h : 0 < n) :
    wholeNumber (-(n : Int)) = '-' :: Nat.toDigits 10 n := by
  obtain ⟨k, rfl⟩ : ∃ k, n = k + 1 := ⟨n - 1, by omega⟩
  show ("-" ++ Nat.repr (k + 1)).toList = _
  rw [String.toList_append, Nat.toList_repr]
  rfl

theorem readValue_digit {c : Char} (h : c.isDigit) :
    readValue (fuel + 1) depth (some c :: rest) = readNumber false (some c :: rest) := by
  rw [readValue, skipBlank_cons (begins_digit h).1]
  split
  all_goals first
    | rfl
    | contradiction
    | (obtain ⟨heq, -⟩ := List.cons.inj ‹some c :: rest = _›
       obtain rfl := Option.some.inj heq
       exact absurd h (by decide))

theorem readValue_wholeNumber {n : Int} (hlow : -0x8000000000000000 ≤ n)
    (hhigh : n < 0x10000000000000000) (hrest : Follows rest) :
    readValue (fuel + 1) depth (pieces (wholeNumber n) ++ rest) = some (.int n, rest) := by
  by_cases hneg : n < 0
  · obtain ⟨k, rfl⟩ : ∃ k : Nat, n = -(k : Int) := ⟨n.natAbs, by omega⟩
    have hvalue : whole true k = .int (-(k : Int)) := by
      have hsmall : (k = 0 || k > 0x8000000000000000) = false := by
        simp
        omega
      simp only [whole, hsmall]
      rfl
    rw [wholeNumber_neg (by omega), ← hvalue]
    exact readNumber_toDigits (by omega) hrest
  · obtain ⟨k, rfl⟩ : ∃ k : Nat, n = k := ⟨n.natAbs, by omega⟩
    obtain ⟨c, cs, hdigits, hc⟩ := toDigits_eq_cons k
    have hread :
        readNumber false (pieces (Nat.toDigits 10 k) ++ rest) = some (whole false k, rest) :=
      readNumber_toDigits (by omega) hrest
    rw [wholeNumber_natCast]
    rw [hdigits, pieces_cons, List.cons_append] at hread ⊢
    rw [readValue_digit hc, hread]
    rfl

/-! ## Trees -/

theorem begins_compactChars {v : Value} (h : v.Writable true depth) (hv : v.isFloatless = true) :
    ∃ c cs, compactChars v = c :: cs ∧ Begins c := by
  cases v with
  | null => exact ⟨'n', _, rfl, by decide, by decide⟩
  | bool b => cases b <;> exact ⟨_, _, rfl, by decide, by decide⟩
  | int n =>
    show ∃ c cs, wholeNumber n = c :: cs ∧ Begins c
    by_cases hneg : n < 0
    · obtain ⟨k, rfl⟩ : ∃ k : Nat, n = -(k : Int) := ⟨n.natAbs, by omega⟩
      exact ⟨'-', _, wholeNumber_neg (by omega), by decide, by decide⟩
    · obtain ⟨k, rfl⟩ : ∃ k : Nat, n = k := ⟨n.natAbs, by omega⟩
      obtain ⟨c, cs, hdigits, hc⟩ := toDigits_eq_cons k
      exact ⟨c, cs, (wholeNumber_natCast k).trans hdigits, begins_digit hc⟩
  | float x => cases hv
  | text s => exact ⟨'"', _, rfl, by decide, by decide⟩
  | list items => exact ⟨'[', _, by rw [compactChars]; rfl, by decide, by decide⟩
  | map entries => exact ⟨'{', _, by rw [compactChars]; rfl, by decide, by decide⟩
  | _ => exact h.elim

theorem length_compactChars_pos {v : Value} (h : v.Writable true depth)
    (hv : v.isFloatless = true) : 0 < (compactChars v).length := by
  obtain ⟨c, cs, heq, -⟩ := begins_compactChars h hv
  rw [heq]
  exact Nat.succ_pos _

/-- A list with an item is read item by item. -/
theorem readValue_items {c : Char} (h : Begins c) :
    readValue (fuel + 1) depth (some '[' :: some c :: rest) =
      (readItems fuel (depth - 1) [] (some c :: rest)).map fun r => (contained depth r.1, r.2) := by
  rw [readValue, skipBlank_cons (by decide)]
  simp only [skipBlank_cons h.1]
  split
  · next heq => exact absurd (Option.some.inj (List.cons.inj heq).1) h.2
  · rfl

/-- A map with an entry is read entry by entry. -/
theorem readValue_entries :
    readValue (fuel + 1) depth (some '{' :: some '"' :: rest) =
      (readEntries fuel (depth - 1) [] (some '"' :: rest)).map
        fun r => (contained depth r.1, r.2) := by
  rw [readValue, skipBlank_cons (by decide)]
  rfl

theorem contained_of_pos (h : 0 < depth) (v : Value) : contained depth v = v :=
  if_neg (Nat.ne_of_gt h)

theorem compactItems_cons (x y : Value) (xs : List Value) :
    compactItems (x :: y :: xs) = compactChars x ++ ',' :: compactItems (y :: xs) := by
  rw [compactItems]
  exact List.cons_ne_nil _ _

theorem compactEntries_cons (k x : Value) (e : Value × Value) (es : List (Value × Value)) :
    compactEntries ((k, x) :: e :: es) =
      keyText k ++ ':' :: compactChars x ++ ',' :: compactEntries (e :: es) := by
  rw [compactEntries]
  exact List.cons_ne_nil _ _

/-- The key of an entry comes back, and its value is read next. -/
theorem readEntries_key (name : String) (acc : List (Value × Value)) :
    readEntries (fuel + 1) depth acc
        (pieces (keyText (.text name)) ++ some ':' :: rest) =
      match readValue fuel depth rest with
      | none => none
      | some (v, rest) =>
        match skipBlank rest with
        | some ',' :: rest => readEntries fuel depth ((spelledKey (.text name), v) :: acc) rest
        | some '}' :: rest => some (.map ((spelledKey (.text name), v) :: acc).reverse, rest)
        | _ => none := by
  show readEntries (fuel + 1) depth acc (pieces (quoted name) ++ some ':' :: rest) = _
  simp only [quoted, pieces_append, pieces_cons, pieces_nil, List.cons_append, List.append_assoc,
    List.nil_append]
  rw [readEntries, skipBlank_cons (by decide)]
  simp only [readKey_quoted, skipBlank_cons (c := ':') (by decide)]
  rfl

theorem begins_compactItems {x : Value} {xs : List Value} (h : WritableItems true depth (x :: xs))
    (hv : floatlessItems (x :: xs) = true) :
    ∃ c cs, compactItems (x :: xs) = c :: cs ∧ Begins c := by
  rw [floatlessItems, Bool.and_eq_true] at hv
  obtain ⟨c, cs, heq, hc⟩ := begins_compactChars h.1 hv.1
  cases xs with
  | nil => exact ⟨c, cs, by rw [compactItems, heq], hc⟩
  | cons y xs => exact ⟨c, _, by rw [compactItems_cons, heq, List.cons_append], hc⟩

theorem begins_compactEntries {e : Value × Value} {es : List (Value × Value)}
    {fields : List (String × Value)} (h : e :: es = texts fields) :
    ∃ cs, compactEntries (e :: es) = '"' :: cs := by
  cases fields with
  | nil => cases h
  | cons field fields =>
    obtain ⟨rfl, -⟩ := List.cons.inj h
    cases es with
    | nil => exact ⟨_, by rw [compactEntries]; rfl⟩
    | cons e' es => exact ⟨_, by rw [compactEntries_cons]; rfl⟩

mutual

/-- A value comes back from the front of a document.  A unit of fuel for each character is
enough. -/
theorem readValue_compact : ∀ {v : Value} {depth : Nat} (fuel : Nat) (rest : List Piece),
    v.Writable true depth → v.isFloatless = true → (compactChars v).length ≤ fuel → Follows rest →
      readValue fuel depth (pieces (compactChars v) ++ rest) = some (v.spelled, rest)
  | .null, _, fuel, rest, h, hv, hfuel, _ => by
    have hpos := length_compactChars_pos h hv
    obtain ⟨fuel, rfl⟩ : ∃ n, fuel = n + 1 := ⟨fuel - 1, by omega⟩
    rfl
  | .bool true, _, fuel, rest, h, hv, hfuel, _ => by
    have hpos := length_compactChars_pos h hv
    obtain ⟨fuel, rfl⟩ : ∃ n, fuel = n + 1 := ⟨fuel - 1, by omega⟩
    rfl
  | .bool false, _, fuel, rest, h, hv, hfuel, _ => by
    have hpos := length_compactChars_pos h hv
    obtain ⟨fuel, rfl⟩ : ∃ n, fuel = n + 1 := ⟨fuel - 1, by omega⟩
    rfl
  | .int n, _, fuel, rest, h, hv, hfuel, hrest => by
    have hpos := length_compactChars_pos h hv
    obtain ⟨fuel, rfl⟩ : ∃ n, fuel = n + 1 := ⟨fuel - 1, by omega⟩
    exact readValue_wholeNumber h.1 h.2 hrest
  | .text s, _, fuel, rest, h, hv, hfuel, hrest => by
    have hpos := length_compactChars_pos h hv
    obtain ⟨fuel, rfl⟩ : ∃ n, fuel = n + 1 := ⟨fuel - 1, by omega⟩
    show readValue (fuel + 1) _ (pieces (quoted s) ++ rest) = _
    simp only [quoted, pieces_append, pieces_cons, pieces_nil, List.cons_append, List.append_assoc,
      List.nil_append]
    rw [readValue, skipBlank_cons (by decide)]
    exact readString_quoted s rest
  | .list [], depth, fuel, rest, h, hv, hfuel, hrest => by
    have hpos := length_compactChars_pos h hv
    obtain ⟨fuel, rfl⟩ : ∃ n, fuel = n + 1 := ⟨fuel - 1, by omega⟩
    show some (contained depth (.list []), rest) = _
    rw [contained_of_pos h.1]
    rfl
  | .list (x :: xs), depth, fuel, rest, h, hv, hfuel, hrest => by
    rw [Writable] at h
    rw [isFloatless] at hv
    obtain ⟨c, cs, heq, hc⟩ := begins_compactItems h.2 hv
    rw [compactChars] at hfuel ⊢
    simp only [List.length_append, List.length_cons, List.length_nil] at hfuel
    obtain ⟨fuel, rfl⟩ : ∃ n, fuel = n + 1 := ⟨fuel - 1, by omega⟩
    have hread := readItems_compact fuel [] rest (List.cons_ne_nil x xs) h.2 hv (by omega)
    rw [heq, pieces_cons, List.cons_append] at hread
    rw [heq]
    simp only [pieces_append, pieces_cons, pieces_nil, List.cons_append, List.append_assoc,
      List.nil_append]
    rw [readValue_items hc, hread, Option.map_some, contained_of_pos h.1]
    rfl
  | .map [], depth, fuel, rest, h, hv, hfuel, hrest => by
    have hpos := length_compactChars_pos h hv
    obtain ⟨fuel, rfl⟩ : ∃ n, fuel = n + 1 := ⟨fuel - 1, by omega⟩
    show some (contained depth (.map []), rest) = _
    rw [contained_of_pos h.1]
    rfl
  | .map (e :: es), depth, fuel, rest, h, hv, hfuel, hrest => by
    rw [Writable] at h
    rw [isFloatless] at hv
    obtain ⟨fields, hes, -⟩ := h.2.1 rfl
    obtain ⟨cs, heq⟩ := begins_compactEntries hes
    rw [compactChars] at hfuel ⊢
    simp only [List.length_append, List.length_cons, List.length_nil] at hfuel
    obtain ⟨fuel, rfl⟩ : ∃ n, fuel = n + 1 := ⟨fuel - 1, by omega⟩
    have hread := readEntries_compact fields fuel [] rest hes (List.cons_ne_nil e es) h.2.2 hv
      (by omega)
    rw [heq, pieces_cons, List.cons_append] at hread
    rw [heq]
    simp only [pieces_append, pieces_cons, pieces_nil, List.cons_append, List.append_assoc,
      List.nil_append]
    rw [readValue_entries, hread, Option.map_some, contained_of_pos h.1]
    rfl
  | .float _, _, _, _, _, hv, _, _ => by cases hv
  | .formed _ _, _, _, _, h, _, _, _ | .escaped _, _, _, _, h, _, _, _
  | .bytes _, _, _, _, h, _, _, _ | .damaged, _, _, _, h, _, _, _
  | .unreadable, _, _, _, h, _, _, _ => h.elim

theorem readItems_compact : ∀ {xs : List Value} {depth : Nat} (fuel : Nat) (acc : List Value)
    (rest : List Piece), xs ≠ [] → WritableItems true depth xs → floatlessItems xs = true →
      (compactItems xs).length < fuel →
        readItems fuel depth acc (pieces (compactItems xs) ++ some ']' :: rest) =
          some (.list (acc.reverse ++ spelledItems xs), rest)
  | [], _, _, _, _, hne, _, _, _ => absurd rfl hne
  | [x], depth, fuel, acc, rest, _, h, hv, hfuel => by
    rw [floatlessItems, Bool.and_eq_true] at hv
    rw [compactItems] at hfuel ⊢
    obtain ⟨fuel, rfl⟩ : ∃ n, fuel = n + 1 := ⟨fuel - 1, by omega⟩
    rw [readItems, readValue_compact fuel (some ']' :: rest) h.1 hv.1 (by omega) (.bracket rest)]
    simp [skipBlank_cons (c := ']') (by decide), spelledItems]
  | x :: y :: more, depth, fuel, acc, rest, _, h, hv, hfuel => by
    rw [floatlessItems, Bool.and_eq_true] at hv
    rw [compactItems_cons] at hfuel ⊢
    simp only [List.length_append, List.length_cons] at hfuel
    obtain ⟨fuel, rfl⟩ : ∃ n, fuel = n + 1 := ⟨fuel - 1, by omega⟩
    have hreads := readItems_compact fuel (x.spelled :: acc) rest (List.cons_ne_nil y more) h.2 hv.2
      (by omega)
    rw [pieces_append, pieces_cons, List.append_assoc, List.cons_append, readItems,
      readValue_compact fuel _ h.1 hv.1 (by omega) (.comma _)]
    simp only [skipBlank_cons (c := ',') (by decide)]
    rw [hreads]
    simp [spelledItems]

theorem readEntries_compact : ∀ {es : List (Value × Value)} {depth : Nat}
    (fields : List (String × Value)) (fuel : Nat) (acc : List (Value × Value)) (rest : List Piece),
      es = texts fields → es ≠ [] → WritableEntries true depth es → floatlessEntries es = true →
        (compactEntries es).length < fuel →
          readEntries fuel depth acc (pieces (compactEntries es) ++ some '}' :: rest) =
            some (.map (acc.reverse ++ spelledEntries es), rest)
  | [], _, _, _, _, _, _, hne, _, _, _ => absurd rfl hne
  | (k, x) :: more, _, [], _, _, _, hes, _, _, _, _ => by cases hes
  | [(k, x)], depth, (name, v) :: fields, fuel, acc, rest, hes, _, h, hv, hfuel => by
    obtain ⟨hentry, hrest⟩ := List.cons.inj hes
    obtain ⟨rfl, rfl⟩ := Prod.mk.inj hentry
    simp only [floatlessEntries, Bool.and_eq_true] at hv
    rw [compactEntries] at hfuel ⊢
    simp only [List.length_append, List.length_cons] at hfuel
    obtain ⟨fuel, rfl⟩ : ∃ n, fuel = n + 1 := ⟨fuel - 1, by omega⟩
    rw [pieces_append, pieces_cons, List.append_assoc, List.cons_append, readEntries_key,
      readValue_compact fuel _ h.2.1 hv.1.2 (by omega) (.brace rest)]
    simp [skipBlank_cons (c := '}') (by decide), spelledEntries]
  | (k, x) :: e :: more, depth, (name, v) :: fields, fuel, acc, rest, hes, _, h, hv, hfuel => by
    obtain ⟨hentry, hrest⟩ := List.cons.inj hes
    obtain ⟨rfl, rfl⟩ := Prod.mk.inj hentry
    rw [floatlessEntries, Bool.and_eq_true, Bool.and_eq_true] at hv
    rw [compactEntries_cons] at hfuel ⊢
    simp only [List.length_append, List.length_cons] at hfuel
    obtain ⟨fuel, rfl⟩ : ∃ n, fuel = n + 1 := ⟨fuel - 1, by omega⟩
    have hreads :=
      readEntries_compact fields fuel ((spelledKey (.text name), x.spelled) :: acc) rest
      hrest (List.cons_ne_nil e more) h.2.2 hv.2 (by omega)
    simp only [pieces_append, pieces_cons, List.append_assoc, List.cons_append]
    rw [readEntries_key, readValue_compact fuel _ h.2.1 hv.1.2 (by omega) (.comma _)]
    simp only [skipBlank_cons (c := ',') (by decide)]
    rw [hreads]
    simp [spelledEntries]

end

/-! ## Documents -/

theorem bytesOfText_ofList (cs : List Char) :
    bytesOfText (String.ofList cs) = cs.flatMap String.utf8EncodeChar := by
  rw [bytesOfText, String.toUTF8_eq_toByteArray, String.toByteArray_ofList, ByteArray.toList,
    toList_loop_eq]
  simp [List.utf8Encode]

/-- A tree comes back from the bytes of its document. -/
theorem readBytes?_compact {v : Value} (h : v.Writable true maxDepth) (hv : v.isFloatless = true) :
    readBytes? (bytesOfText (compact v)) = some v.spelled := by
  have hchars : Utf8.characters (bytesOfText (compact v)) = pieces (compactChars v) := by
    rw [compact, bytesOfText_ofList, Utf8.characters_utf8EncodeChar]
    rfl
  have hfuel : (compactChars v).length ≤ 2 * (pieces (compactChars v)).length + 2 := by
    rw [pieces, List.length_map]
    omega
  have hread := readValue_compact _ [] h hv hfuel .nothing
  rw [List.append_nil] at hread
  rw [readBytes?, hchars, readPieces?, hread]
  rfl

end Json

end Adventure.Wire
