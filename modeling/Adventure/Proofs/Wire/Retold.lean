import Adventure.Proofs.Wire.Entries
import Adventure.Wire.Codec

/-!
# Trees told again

A tree that is written does not always come back as it was.  A whole number may take another form,
and a record may have its fields in another order.  `Value.Retold` says what comes back, and `Told`
that a value of a type is read from all of it.
-/

namespace Adventure.Wire

namespace Value

/-- The same entries, which may change places if their keys are different texts. -/
def Reordered (es es' : List (Value × Value)) : Prop :=
  es' = es ∨ ∃ fields, es = texts fields ∧ (fields.map (·.1)).Nodup ∧ es'.Perm es

mutual

/-- What may come back of a tree.  Nothing does of trees that no value is written as. -/
def Retold : Value → Value → Prop
  | .null, v => v = .null
  | .bool b, v => v = .bool b
  | .int n, v => v = .int n ∨ ∃ form, form ≠ .octet ∧ v = .formed form n
  | .float x, v => v = .float x
  | .text s, v => v = .text s
  | .list items, v => ∃ items', RetoldItems items items' ∧ v = .list items'
  | .map entries, v =>
    ∃ entries' told, RetoldEntries entries entries' ∧ Reordered entries' told ∧ v = .map told
  | .formed _ _, _ => False
  | .escaped _, _ => False
  | .bytes _, _ => False
  | .damaged, _ => False
  | .unreadable, _ => False

def RetoldItems : List Value → List Value → Prop
  | [], items => items = []
  | x :: rest, items => ∃ x' rest', x.Retold x' ∧ RetoldItems rest rest' ∧ items = x' :: rest'

def RetoldEntries : List (Value × Value) → List (Value × Value) → Prop
  | [], entries => entries = []
  | (k, x) :: rest, entries => ∃ k' x' rest', k.Retold k' ∧ x.Retold x' ∧
      RetoldEntries rest rest' ∧ entries = (k', x') :: rest'

end

/-! ## What stays -/

theorem Reordered.perm {es es' : List (Value × Value)} (h : Reordered es es') : es'.Perm es := by
  rcases h with rfl | ⟨_, _, _, hperm⟩
  · exact .refl _
  · exact hperm

theorem depthOfEntries_perm {es es' : List (Value × Value)} (h : es.Perm es') :
    depthOfEntries es = depthOfEntries es' := by
  induction h with
  | nil => rfl
  | cons e _ ih => simp only [depthOfEntries, ih]
  | swap e e' rest =>
    simp only [depthOfEntries]
    omega
  | trans _ _ ih ih' => rw [ih, ih']

theorem readableEntries_perm {es es' : List (Value × Value)} (h : es.Perm es') :
    readableEntries es = readableEntries es' := by
  induction h with
  | nil => rfl
  | cons e _ ih => simp only [readableEntries, ih]
  | swap e e' rest =>
    simp only [readableEntries]
    ac_rfl
  | trans _ _ ih ih' => rw [ih, ih']

mutual

/-- What comes back is nested as deeply. -/
theorem Retold.depth_eq : ∀ {v v' : Value}, v.Retold v' → v'.depth = v.depth
  | .null, _, h | .bool _, _, h | .float _, _, h | .text _, _, h => by
    rw [Retold] at h
    rw [h]
  | .int _, _, h => by
    rw [Retold] at h
    rcases h with rfl | ⟨form, _, rfl⟩ <;> rfl
  | .list items, _, h => by
    rw [Retold] at h
    obtain ⟨items', hitems, rfl⟩ := h
    simp only [depth, RetoldItems.depth_eq hitems]
  | .map entries, _, h => by
    rw [Retold] at h
    obtain ⟨entries', told, hentries, hperm, rfl⟩ := h
    simp only [depth, depthOfEntries_perm hperm.perm, RetoldEntries.depth_eq hentries]
  | .formed _ _, _, h | .escaped _, _, h | .bytes _, _, h | .damaged, _, h
  | .unreadable, _, h => by
    rw [Retold] at h
    exact h.elim

theorem RetoldItems.depth_eq : ∀ {xs xs' : List Value}, RetoldItems xs xs' →
    depthOfItems xs' = depthOfItems xs
  | [], _, h => by
    rw [RetoldItems] at h
    rw [h]
  | x :: rest, _, h => by
    rw [RetoldItems] at h
    obtain ⟨x', rest', hx, hrest, rfl⟩ := h
    simp only [depthOfItems, Retold.depth_eq hx, RetoldItems.depth_eq hrest]

theorem RetoldEntries.depth_eq : ∀ {es es' : List (Value × Value)}, RetoldEntries es es' →
    depthOfEntries es' = depthOfEntries es
  | [], _, h => by
    rw [RetoldEntries] at h
    rw [h]
  | (k, x) :: rest, _, h => by
    rw [RetoldEntries] at h
    obtain ⟨k', x', rest', hk, hx, hrest, rfl⟩ := h
    simp only [depthOfEntries, Retold.depth_eq hk, Retold.depth_eq hx,
      RetoldEntries.depth_eq hrest]

end

mutual

/-- Every part of what comes back has a value. -/
theorem Retold.isReadable : ∀ {v v' : Value}, v.Retold v' → v'.isReadable = true
  | .null, _, h | .bool _, _, h | .float _, _, h | .text _, _, h => by
    rw [Retold] at h
    rw [h]
    rfl
  | .int _, _, h => by
    rw [Retold] at h
    rcases h with rfl | ⟨form, _, rfl⟩ <;> rfl
  | .list items, _, h => by
    rw [Retold] at h
    obtain ⟨items', hitems, rfl⟩ := h
    simp only [Value.isReadable, RetoldItems.readable hitems]
  | .map entries, _, h => by
    rw [Retold] at h
    obtain ⟨entries', told, hentries, hperm, rfl⟩ := h
    simp only [Value.isReadable, readableEntries_perm hperm.perm, RetoldEntries.readable hentries]
  | .formed _ _, _, h | .escaped _, _, h | .bytes _, _, h | .damaged, _, h
  | .unreadable, _, h => by
    rw [Retold] at h
    exact h.elim

theorem RetoldItems.readable : ∀ {xs xs' : List Value}, RetoldItems xs xs' →
    readableItems xs' = true
  | [], _, h => by
    rw [RetoldItems] at h
    rw [h]
    rfl
  | x :: rest, _, h => by
    rw [RetoldItems] at h
    obtain ⟨x', rest', hx, hrest, rfl⟩ := h
    simp only [readableItems, hx.isReadable, RetoldItems.readable hrest, Bool.and_self]

theorem RetoldEntries.readable : ∀ {es es' : List (Value × Value)}, RetoldEntries es es' →
    readableEntries es' = true
  | [], _, h => by
    rw [RetoldEntries] at h
    rw [h]
    rfl
  | (k, x) :: rest, _, h => by
    rw [RetoldEntries] at h
    obtain ⟨k', x', rest', hk, hx, hrest, rfl⟩ := h
    simp only [readableEntries, hk.isReadable, hx.isReadable, RetoldEntries.readable hrest,
      Bool.and_self]

end

/-! ## Leaves -/

theorem Retold.whole? {n : Int} {v : Value} (h : (Value.int n).Retold v) :
    v.whole? = some n := by
  rw [Retold] at h
  rcases h with rfl | ⟨form, _, rfl⟩ <;> rfl

/-- Only nothing comes back as null. -/
theorem Retold.ne_null {v v' : Value} (h : v.Retold v') (hv : v ≠ .null) : v' ≠ .null := by
  rintro rfl
  cases v with
  | null => exact hv rfl
  | int n =>
    rw [Retold] at h
    rcases h with h | ⟨_, _, h⟩ <;> cases h
  | list items =>
    rw [Retold] at h
    obtain ⟨_, _, h⟩ := h
    cases h
  | map entries =>
    rw [Retold] at h
    obtain ⟨_, _, _, _, h⟩ := h
    cases h
  | _ =>
    rw [Retold] at h
    cases h

/-- Nothing comes back as an octet. -/
theorem Retold.ne_octet {v v' : Value} (h : v.Retold v') (n : Int) : v' ≠ .formed .octet n := by
  rintro rfl
  cases v with
  | int n =>
    rw [Retold] at h
    rcases h with h | ⟨_, hform, h⟩
    · cases h
    · cases h
      exact hform rfl
  | list items =>
    rw [Retold] at h
    obtain ⟨_, _, h⟩ := h
    cases h
  | map entries =>
    rw [Retold] at h
    obtain ⟨_, _, _, _, h⟩ := h
    cases h
  | _ =>
    rw [Retold] at h
    cases h

end Value

/-! ## Values of a type -/

/-- A value is read from everything that may come back of what it is written as. -/
def Told {α : Type} [Wire α] (m : Medium) (a : α) : Prop :=
  ∀ v, (encode a).Retold v → decode? m v = some a

/-- Types whose values come back from a medium. -/
class Faithful (m : Medium) (α : Type) [Wire α] : Prop where
  told (a : α) : Told m a

end Adventure.Wire
