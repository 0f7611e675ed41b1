import Adventure.Proofs.Wire.Records
import Adventure.Proofs.Wire.Spelled
import Mathlib.Data.List.Nodup

/-!
# Maps in documents

A document has no keys but texts, so that whole-number keys are written as their digits.
`Value.documented` is the tree that a document says, and `Documentable` collects the types whose
values are read from it: every map with keys that are told apart by their texts is among them.
-/

namespace Adventure.Wire

namespace Value

/-- A key as it is written into a document. -/
def documentKey : Value → Value
  | .int n => .text (toString n)
  | k => k

mutual

/-- A tree as it is written into a document. -/
def documented : Value → Value
  | .list items => .list (documentedItems items)
  | .map entries => .map (documentedEntries entries)
  | v => v

def documentedItems : List Value → List Value
  | [] => []
  | x :: rest => x.documented :: documentedItems rest

def documentedEntries : List (Value × Value) → List (Value × Value)
  | [] => []
  | (k, x) :: rest => (k.documentKey, x.documented) :: documentedEntries rest

end

theorem documentedItems_eq (items : List Value) : documentedItems items = items.map documented := by
  induction items with
  | nil => rfl
  | cons x rest ih => rw [documentedItems, ih, List.map_cons]

theorem documentedEntries_eq (entries : List (Value × Value)) :
    documentedEntries entries = entries.map fun e => (e.1.documentKey, e.2.documented) := by
  induction entries with
  | nil => rfl
  | cons e rest ih => rw [documentedEntries, ih, List.map_cons]

theorem documented_record (fields : List (String × Value)) :
    (record fields).documented = record (fields.map fun e => (e.1, e.2.documented)) := by
  rw [record, documented, documentedEntries_eq, record, List.map_map, List.map_map]
  rfl

end Value

open Value

/-! ## Texts of documents -/

namespace Json

theorem escaped_eq_self {c : Char} (quote : c ≠ '"') (backslash : c ≠ '\\')
    (printable : 32 ≤ c.toNat) : escaped c = [c] := by
  have hne : ∀ {d : Char}, d.toNat < 32 → c ≠ d := by
    rintro d hd rfl
    omega
  rw [escaped, if_neg quote, if_neg backslash, if_neg (hne (by decide)), if_neg (hne (by decide)),
    if_neg (hne (by decide)), if_neg (by omega), if_neg (by omega), if_neg (by omega)]

theorem escaped_of_isDigit {c : Char} (h : c.isDigit) : escaped c = [c] := by
  have hne : ∀ {d : Char}, d.isDigit = false → c ≠ d := by
    rintro d hd rfl
    rw [h] at hd
    cases hd
  have hcode : 48 ≤ c.toNat := by
    simp only [Char.isDigit, Bool.and_eq_true, decide_eq_true_eq] at h
    exact h.1
  exact escaped_eq_self (hne rfl) (hne rfl) (by omega)

theorem escapes_eq_false_iff {s : String} :
    escapes s = false ↔ ∀ c ∈ s.toList, escaped c = [c] := by
  simp [escapes, List.any_eq_false]

/-- A number needs no escapes. -/
theorem escapes_toString (n : Int) : escapes (toString n) = false := by
  rw [escapes_eq_false_iff]
  intro c hc
  by_cases hdigit : c.isDigit
  · exact escaped_of_isDigit hdigit
  · by_cases hsign : c = '-'
    · subst hsign
      rfl
    · exact absurd hc (not_mem_toString n hdigit hsign)

theorem quoted_of_escapes {s : String} (h : escapes s = false) :
    quoted s = '"' :: s.toList ++ ['"'] := by
  have hself : s.toList.flatMap escaped = s.toList := by
    conv_rhs => rw [← List.flatMap_singleton' s.toList]
    exact List.flatMap_congr fun c hc => escapes_eq_false_iff.1 h c hc
  rw [quoted, hself]

/-- A whole-number key is written like the text of its digits. -/
theorem keyText_documentKey (k : Value) : keyText k.documentKey = keyText k := by
  cases k with
  | int n => exact quoted_of_escapes (escapes_toString n)
  | _ => rfl

mutual

theorem compactChars_documented : ∀ v : Value, compactChars v.documented = compactChars v
  | .list items => by rw [documented, compactChars, compactChars, compactItems_documented items]
  | .map entries => by
    rw [documented, compactChars, compactChars, compactEntries_documented entries]
  | .null | .bool _ | .int _ | .formed _ _ | .float _ | .text _ | .escaped _ | .bytes _
  | .damaged | .unreadable => rfl

theorem compactItems_documented : ∀ xs : List Value,
    compactItems (documentedItems xs) = compactItems xs
  | [] => rfl
  | [x] => by
    rw [documentedItems, documentedItems, compactItems, compactItems, compactChars_documented x]
  | x :: y :: rest => by
    have hrest := compactItems_documented (y :: rest)
    rw [documentedItems] at hrest
    rw [documentedItems, documentedItems, compactItems_cons, hrest, compactItems_cons,
      compactChars_documented x]

theorem compactEntries_documented : ∀ es : List (Value × Value),
    compactEntries (documentedEntries es) = compactEntries es
  | [] => rfl
  | [(k, x)] => by
    rw [documentedEntries, documentedEntries, compactEntries, compactEntries, keyText_documentKey,
      compactChars_documented x]
  | (k, x) :: (l, y) :: rest => by
    have hrest := compactEntries_documented ((l, y) :: rest)
    rw [documentedEntries] at hrest
    rw [documentedEntries, documentedEntries, compactEntries_cons, hrest, compactEntries_cons,
      keyText_documentKey, compactChars_documented x]

end

end Json

/-! ## Trees that come back as they are -/

namespace Value

/-- Whether a tree, nested at most `depth` deep, comes back from its document as it is. -/
structure Literal (depth : Nat) (v : Value) : Prop where
  writable : v.Writable true depth
  floatless : v.isFloatless = true
  spelled_eq : v.spelled = v

variable {depth : Nat}

theorem floatlessItems_iff {xs : List Value} :
    floatlessItems xs = true ↔ ∀ x ∈ xs, x.isFloatless = true := by
  induction xs with
  | nil => simp [floatlessItems]
  | cons x rest ih => simp [floatlessItems, ih]

theorem floatlessEntries_iff {es : List (Value × Value)} :
    floatlessEntries es = true ↔ ∀ e ∈ es, e.1.isFloatless = true ∧ e.2.isFloatless = true := by
  induction es with
  | nil => simp [floatlessEntries]
  | cons e rest ih => simp [floatlessEntries, ih]

theorem spelledEntries_eq (es : List (Value × Value)) :
    spelledEntries es = es.map fun e => (e.1.spelledKey, e.2.spelled) := by
  induction es with
  | nil => rfl
  | cons e rest ih => rw [spelledEntries, ih, List.map_cons]

theorem Literal.mono {depth' : Nat} {v : Value} (h : v.Literal depth) (hle : depth ≤ depth') :
    v.Literal depth' := ⟨h.writable.mono hle, h.floatless, h.spelled_eq⟩

theorem literal_list {xs : List Value} (h : ∀ x ∈ xs, x.Literal depth) :
    (Value.list xs).Literal (depth + 1) where
  writable := writable_list fun x hx => (h x hx).writable
  floatless := floatlessItems_iff.2 fun x hx => (h x hx).floatless
  spelled_eq := by
    rw [spelled, spelledItems_eq, List.map_congr_left fun x hx => (h x hx).spelled_eq, List.map_id']

/-- Entries under different keys that need no escapes. -/
theorem literal_texts {fields : List (String × Value)} (nodup : (fields.map (·.1)).Nodup)
    (plain : ∀ e ∈ fields, Json.escapes e.1 = false) (h : ∀ e ∈ fields, e.2.Literal depth) :
    (Value.map (texts fields)).Literal (depth + 1) where
  writable := writable_texts nodup fun e he => (h e he).writable
  floatless := floatlessEntries_iff.2 fun e he => by
    obtain ⟨field, hfield, rfl⟩ := List.mem_map.1 he
    exact ⟨rfl, (h field hfield).floatless⟩
  spelled_eq := by
    rw [spelled, spelledEntries_eq, texts, List.map_map]
    refine congrArg Value.map (List.map_congr_left fun e he => ?_)
    have hkey : (Value.text e.1).spelledKey = .text e.1 := by
      rw [spelledKey, plain e he]
      rfl
    exact Prod.ext hkey (h e he).spelled_eq

end Value

/-! ## Types of documents -/

/-- Types whose values, nested at most `depth` deep, are read from their documents. -/
class Documentable (α : Type) [Wire α] (depth : outParam Nat) : Prop where
  literal (a : α) : (encode a).documented.Literal depth
  read (a : α) : decode? .document (encode a).documented = some a

variable {α κ ν : Type} {depth : Nat}

/-- A value comes back from the bytes of its document. -/
theorem ofDocumentBytes?_toDocumentBytes [Wire α] [Documentable α depth] (a : α)
    (shallow : depth ≤ Json.maxDepth) : ofDocumentBytes? (toDocumentBytes a) = some a := by
  have hliteral := (Documentable.literal a).mono shallow
  have hcompact : Json.compact (encode a) = Json.compact (encode a).documented := by
    rw [Json.compact, Json.compact, Json.compactChars_documented]
  rw [ofDocumentBytes?, toDocumentBytes, toDocument, hcompact,
    Json.readBytes?_compact hliteral.writable hliteral.floatless, hliteral.spelled_eq,
    Option.bind_some, Documentable.read]

instance : Documentable Bool 0 where
  literal _ := ⟨trivial, rfl, rfl⟩
  read _ := rfl

instance : Documentable Int64 0 where
  literal n := ⟨Packable.writable n, rfl, rfl⟩
  read n := Faithful.told n _ (.inl rfl)

instance : Documentable String 0 where
  literal _ := ⟨trivial, rfl, rfl⟩
  read _ := rfl

instance [Wire α] [Documentable α depth] : Documentable (List α) (depth + 1) where
  literal xs := by
    show (Value.list (documentedItems (xs.map encode))).Literal _
    rw [documentedItems_eq, List.map_map]
    refine literal_list fun v hv => ?_
    obtain ⟨x, -, rfl⟩ := List.mem_map.1 hv
    exact Documentable.literal x
  read xs := by
    show decodeItems? (decode? .document) (documentedItems (xs.map encode)) = some xs
    rw [documentedItems_eq, List.map_map]
    induction xs with
    | nil => rfl
    | cons x rest ih =>
      rw [List.map_cons, decodeItems?, ih]
      show (match decode? .document (encode x).documented, some rest with
        | some x, some xs => some (x :: xs)
        | _, _ => none) = _
      rw [Documentable.read x]

/-- Types whose keys are texts in documents, which need no escapes. -/
class DocumentKey (κ : Type) [WireKey κ] where
  name : κ → String
  documentKey_encodeKey (k : κ) : (WireKey.encodeKey k).documentKey = .text (name k)
  escapes_name (k : κ) : Json.escapes (name k) = false
  decodeKey?_name (k : κ) : WireKey.decodeKey? .document (.text (name k)) = some k

theorem DocumentKey.name_injective [WireKey κ] [DocumentKey κ] :
    Function.Injective (DocumentKey.name (κ := κ)) := by
  intro k l h
  have hk := DocumentKey.decodeKey?_name k
  rw [h, DocumentKey.decodeKey?_name] at hk
  exact (Option.some.inj hk).symm

instance : DocumentKey Int32 where
  name n := toString n.toInt
  documentKey_encodeKey _ := rfl
  escapes_name n := Json.escapes_toString n.toInt
  decodeKey?_name n := by
    have hread : readInteger (-0x80000000) 0x7fffffff (toString n.toInt).toList = .ok n.toInt :=
      readInteger_toString n.le_toInt (Int.le_of_lt_add_one n.toInt_lt)
    show (shortestInt? (-0x80000000) 0x7fffffff (toString n.toInt)).map Int32.ofInt = some n
    rw [shortestInt?, hread]
    simp only [if_true, Option.map_some, Int32.ofInt_toInt]

section Maps

variable [Ord κ] [Std.TransOrd κ] [Std.LawfulEqOrd κ] [WireKey κ] [DocumentKey κ] [Wire ν]

theorem documented_map (m : SortedMap κ ν) : (encode m).documented =
    .map (texts (m.entries.map fun e => (DocumentKey.name e.1, (encode e.2).documented))) := by
  show Value.map
    (documentedEntries (m.entries.map fun e => (WireKey.encodeKey e.1, encode e.2))) = _
  rw [documentedEntries_eq, texts, List.map_map, List.map_map]
  refine congrArg Value.map (List.map_congr_left fun e _ => ?_)
  exact Prod.ext (DocumentKey.documentKey_encodeKey e.1) rfl

omit [Ord κ] [Std.TransOrd κ] [Std.LawfulEqOrd κ] in
theorem decodeEntries?_texts [Documentable ν depth] (l : List (κ × ν)) :
    decodeEntries? .document
      (texts (l.map fun e => (DocumentKey.name e.1, (encode e.2).documented))) = some l := by
  induction l with
  | nil => rfl
  | cons e rest ih =>
    show decodeEntries? .document ((.text (DocumentKey.name e.1), (encode e.2).documented) ::
      texts (rest.map fun e => (DocumentKey.name e.1, (encode e.2).documented))) = _
    rw [decodeEntries?, DocumentKey.decodeKey?_name, Documentable.read, ih]

/-- A map keeps its entries, since different keys have different texts. -/
instance [Documentable ν depth] : Documentable (SortedMap κ ν) (depth + 1) where
  literal m := by
    rw [documented_map]
    refine literal_texts ?_ (fun e he => ?_) fun e he => ?_
    · rw [List.map_map]
      show (m.entries.map (DocumentKey.name ∘ (·.1))).Nodup
      rw [← List.map_map]
      exact List.Nodup.map DocumentKey.name_injective m.nodup_keys
    · obtain ⟨entry, -, rfl⟩ := List.mem_map.1 he
      exact DocumentKey.escapes_name entry.1
    · obtain ⟨entry, -, rfl⟩ := List.mem_map.1 he
      exact Documentable.literal entry.2
  read m := by
    rw [documented_map]
    show (decodeEntries? .document _).map SortedMap.ofList = some m
    rw [decodeEntries?_texts, Option.map_some, SortedMap.ofList_eq (.refl _)]

end Maps

end Adventure.Wire
