import Adventure.Proofs.Save.Envelope
import Adventure.Proofs.Save.Parts
import Adventure.Proofs.Text.Decimals
import Adventure.Proofs.Wire.Keyed
import Mathlib.Data.List.Forall2

/-!
# Keys of self switches

The text of a key is four numbers with colons between them.  It is read by splitting it at its
colons, and four fields that spell numbers of 32 bits are a key whatever their spelling: a plus sign
or leading zeros do not matter.  So keys are told apart by their texts, and a map of self switches
has as many entries after it went through a document or a save as before.
-/

namespace Adventure

open Wire

/-! ## Reading one after another -/

section MapM

variable {α β ε : Type} {f : α → Except ε β} {xs : List α}

theorem mapM_eq_ok_iff {ys : List β} :
    xs.mapM f = .ok ys ↔ List.Forall₂ (fun x y => f x = .ok y) xs ys := by
  induction xs generalizing ys with
  | nil =>
    rw [List.mapM_nil, List.forall₂_nil_left_iff]
    exact ⟨fun h => (Except.ok.inj h).symm, fun h => congrArg Except.ok h.symm⟩
  | cons x rest ih =>
    rw [List.mapM_cons, List.forall₂_cons_left_iff]
    cases hx : f x with
    | error e => exact ⟨fun h => (by cases h), fun ⟨_, _, h, _⟩ => (by cases h)⟩
    | ok y =>
      cases hrest : rest.mapM f with
      | error e =>
        refine ⟨fun h => (by cases h), fun ⟨y', ys', _, htail, _⟩ => ?_⟩
        rw [← ih, hrest] at htail
        cases htail
      | ok ys' =>
        constructor
        · intro h
          obtain rfl := Except.ok.inj h
          exact ⟨y, ys', rfl, ih.1 hrest, rfl⟩
        · rintro ⟨y', ys'', hy, htail, rfl⟩
          obtain rfl := Except.ok.inj hy
          rw [← ih, hrest] at htail
          obtain rfl := Except.ok.inj htail
          rfl

theorem mapM_cons_eq_error_iff {x : α} {e : ε} : (x :: xs).mapM f = .error e ↔
    f x = .error e ∨ (∃ b, f x = .ok b) ∧ xs.mapM f = .error e := by
  rw [List.mapM_cons]
  cases f x with
  | error e' => simp [bind, Except.bind]
  | ok b => cases xs.mapM f <;> simp [bind, Except.bind, pure, Except.pure]

/-- The first that cannot be read is reported. -/
theorem mapM_eq_error_iff {e : ε} :
    xs.mapM f = .error e ↔ ∃ before x after, xs = before ++ x :: after ∧
      (∀ y ∈ before, ∃ b, f y = .ok b) ∧ f x = .error e := by
  induction xs with
  | nil =>
    refine ⟨fun h => (by cases h), fun ⟨before, x, after, h, _⟩ => ?_⟩
    exact absurd h.symm (List.append_ne_nil_of_right_ne_nil _ (List.cons_ne_nil _ _))
  | cons x rest ih =>
    rw [mapM_cons_eq_error_iff, ih]
    constructor
    · rintro (hx | ⟨hx, before, y, after, rfl, hbefore, hy⟩)
      · exact ⟨[], x, rest, rfl, fun _ hy => (by cases hy), hx⟩
      · exact ⟨x :: before, y, after, rfl, List.forall_mem_cons.2 ⟨hx, hbefore⟩, hy⟩
    · rintro ⟨before, y, after, heq, hbefore, hy⟩
      cases before with
      | nil =>
        obtain ⟨rfl, -⟩ := List.cons.inj heq
        exact .inl hy
      | cons z before =>
        obtain ⟨rfl, rfl⟩ := List.cons.inj heq
        obtain ⟨hx, hbefore⟩ := List.forall_mem_cons.1 hbefore
        exact .inr ⟨hx, before, y, after, rfl, hbefore, hy⟩

end MapM

/-! ## Texts of keys -/

namespace SelfSwitchKey

theorem readField_eq_ok_iff {field : List Char} {n : Int32} :
    readField field = .ok n ↔ Spells field n.toInt := by
  rw [← readInt32_eq_ok_iff, readField]
  cases readInt32 (String.ofList field) with
  | ok k => exact ⟨fun h => congrArg _ (Except.ok.inj h), fun h => congrArg _ (Except.ok.inj h)⟩
  | error why => exact ⟨fun h => (by cases h), fun h => (by cases h)⟩

theorem readField_eq_error_iff {field : List Char} {why : IntegerFault} :
    readField field = .error (.badField why) ↔ Flawed (-0x80000000) 0x7fffffff field why := by
  rw [← readInt32_eq_error_iff, readField]
  cases readInt32 (String.ofList field) with
  | ok k => exact ⟨fun h => (by cases h), fun h => (by cases h)⟩
  | error why' =>
    exact ⟨fun h => congrArg _ (Fault.badField.inj (Except.error.inj h)),
      fun h => congrArg _ (congrArg _ (Except.error.inj h))⟩

theorem readField_ne_fieldCount (field : List Char) : readField field ≠ .error .fieldCount := by
  rw [readField]
  split <;> exact fun h => by cases h

/-- A text without four fields is refused before any of them is read. -/
theorem ofText_of_length_ne {t : String} (h : (t.toList.splitOn ':').length ≠ 4) :
    ofText t = .error .fieldCount := by
  rw [ofText, splitFields_eq_splitOn]
  split
  · next heq => exact absurd (congrArg List.length heq) h
  · rfl

/-- Four fields are read one after another. -/
theorem map_parts_ofText {t : String} (h : (t.toList.splitOn ':').length = 4) :
    (ofText t).map parts = (t.toList.splitOn ':').mapM readField := by
  rw [ofText, splitFields_eq_splitOn]
  generalize t.toList.splitOn ':' = fields at h
  obtain ⟨a, b, c, d, rfl⟩ := List.length_eq_four.1 h
  simp only [List.mapM_cons, List.mapM_nil]
  cases readField a with
  | error _ => rfl
  | ok _ => cases readField b with
    | error _ => rfl
    | ok _ => cases readField c with
      | error _ => rfl
      | ok _ => cases readField d <;> rfl

theorem ofText_eq_ok_iff {t : String} {k : SelfSwitchKey} :
    ofText t = .ok k ↔
      List.Forall₂ (fun field n => Spells field n.toInt) (t.toList.splitOn ':') k.parts := by
  by_cases hlength : (t.toList.splitOn ':').length = 4
  · have hfields := map_parts_ofText hlength
    simp only [← readField_eq_ok_iff]
    rw [← mapM_eq_ok_iff, ← hfields]
    cases ofText t with
    | error why => exact ⟨fun h => (by cases h), fun h => (by cases h)⟩
    | ok k' =>
      exact ⟨fun h => congrArg _ (congrArg _ (Except.ok.inj h)),
        fun h => congrArg _ (parts_injective (Except.ok.inj h))⟩
  · rw [ofText_of_length_ne hlength]
    exact ⟨fun h => (by cases h), fun h => absurd h.length_eq hlength⟩

theorem ofText_eq_fieldCount_iff {t : String} :
    ofText t = .error .fieldCount ↔ (t.toList.splitOn ':').length ≠ 4 := by
  refine ⟨fun h hlength => ?_, ofText_of_length_ne⟩
  have hfields := map_parts_ofText hlength
  rw [h] at hfields
  obtain ⟨_, field, _, -, -, hfield⟩ := mapM_eq_error_iff.1 hfields.symm
  exact readField_ne_fieldCount field hfield

theorem ofText_eq_badField_iff {t : String} {why : IntegerFault} :
    ofText t = .error (.badField why) ↔ (t.toList.splitOn ':').length = 4 ∧
      ∃ before field after, t.toList.splitOn ':' = before ++ field :: after ∧
        (∀ f ∈ before, ∃ n : Int32, Spells f n.toInt) ∧
        Flawed (-0x80000000) 0x7fffffff field why := by
  by_cases hlength : (t.toList.splitOn ':').length = 4
  · have hfields := map_parts_ofText hlength
    simp only [← readField_eq_ok_iff, ← readField_eq_error_iff]
    rw [← mapM_eq_error_iff, ← hfields, and_iff_right hlength]
    cases ofText t with
    | ok k => exact ⟨fun h => (by cases h), fun h => (by cases h)⟩
    | error why' => exact ⟨fun h => congrArg _ (Except.error.inj h),
        fun h => congrArg _ (Except.error.inj h)⟩
  · rw [ofText_of_length_ne hlength]
    exact ⟨fun h => (by cases h), fun h => absurd h.1 hlength⟩

theorem text_injective : Function.Injective text := by
  intro k l h
  have hk := ofText_text k
  rw [h, ofText_text] at hk
  exact (Except.ok.inj hk).symm

theorem escapes_text (k : SelfSwitchKey) : Json.escapes k.text = false := by
  have hnumber : ∀ n : Int32, ∀ c ∈ (toString n.toInt).toList, Json.escaped c = [c] := fun n =>
    Json.escapes_eq_false_iff.1 (Json.escapes_toString n.toInt)
  have hcolon : Json.escaped ':' = [':'] := rfl
  rw [Json.escapes_eq_false_iff, toList_text]
  simp only [List.forall_mem_append, List.forall_mem_cons]
  exact ⟨hnumber _, hcolon, hnumber _, hcolon, hnumber _, hcolon, hnumber _⟩

end SelfSwitchKey

instance : DocumentKey SelfSwitchKey where
  name := SelfSwitchKey.text
  documentKey_encodeKey _ := rfl
  escapes_name := SelfSwitchKey.escapes_text
  decodeKey?_name k := by
    show (some k.text).bind (fun s => (SelfSwitchKey.ofText s).toOption) = some k
    rw [Option.bind_some, SelfSwitchKey.ofText_text]
    rfl

/-! ## Variables -/

instance : Documentable Variables 2 where
  literal v := by
    show (Value.record _).documented.Literal _
    rw [Value.documented_record]
    refine Value.literal_texts (by simp) (by simp [Json.escapes, Json.escaped]) ?_
    simp [Documentable.literal]
  read v := by
    show decode? .document (Value.record _).documented = _
    rw [Value.documented_record]
    show (Fields.read? .document _ (.map (Value.texts _)) >>= _) = _
    simp only [Fields.read?]
    rw [collectFields?_texts (by simp) (by simp)]
    simp [Fields.withDefault, Fields.orElse, Fields.find?, Documentable.read]

/-- Variables come back from their blob; a save that would be too long for one is refused. -/
theorem Variables.ofBlob_or_refused (v : Variables) (kind : Save.PayloadKind) :
    (∃ blob, Save.toBlob kind v = .ok blob ∧ Save.ofBlob kind blob = .ok v) ∨
      (0x100000000 ≤ (Save.pack v).length ∧
        Save.toBlob kind v = .error (.lengthMismatch 0xffffffff (Save.pack v).length)) := by
  by_cases fits : (Save.pack v).length < 0x100000000
  · have hwritable : (encode v).Writable false MessagePack.maxDepth :=
      writable_encode v (by decide)
    exact .inl (Save.ofBlob_toBlob (Faithful.told v) hwritable fits)
  · exact .inr ⟨Nat.not_lt.1 fits, if_neg fits⟩

/-- Keys of self switches are told apart by their texts, and a text is the key whose numbers its
four fields spell: a wrong number of fields is reported first, and then the flaw of the first field
that spells none.  Variables keep every self switch through a document, and through every save that
is made. -/
theorem SelfSwitchKey.reads_spelled :
    (∀ k, SelfSwitchKey.ofText k.text = .ok k) ∧ Function.Injective SelfSwitchKey.text ∧
    (∀ t k, SelfSwitchKey.ofText t = .ok k ↔
      List.Forall₂ (fun field n => Spells field n.toInt) (t.toList.splitOn ':') k.parts) ∧
    (∀ t, SelfSwitchKey.ofText t = .error .fieldCount ↔ (t.toList.splitOn ':').length ≠ 4) ∧
    (∀ t why, SelfSwitchKey.ofText t = .error (.badField why) ↔
      (t.toList.splitOn ':').length = 4 ∧
        ∃ before field after, t.toList.splitOn ':' = before ++ field :: after ∧
          (∀ f ∈ before, ∃ n : Int32, Spells f n.toInt) ∧
          Flawed (-0x80000000) 0x7fffffff field why) ∧
    ∀ v : Variables, ofDocumentBytes? (toDocumentBytes v) = some v ∧
      ∀ kind, (∃ blob, Save.toBlob kind v = .ok blob ∧ Save.ofBlob kind blob = .ok v) ∨
        (0x100000000 ≤ (Save.pack v).length ∧
          Save.toBlob kind v = .error (.lengthMismatch 0xffffffff (Save.pack v).length)) := by
  refine ⟨SelfSwitchKey.ofText_text, SelfSwitchKey.text_injective,
    fun t k => SelfSwitchKey.ofText_eq_ok_iff, fun t => SelfSwitchKey.ofText_eq_fieldCount_iff,
    fun t why => SelfSwitchKey.ofText_eq_badField_iff, fun v => ⟨?_, v.ofBlob_or_refused⟩⟩
  exact ofDocumentBytes?_toDocumentBytes v (by decide)

end Adventure
