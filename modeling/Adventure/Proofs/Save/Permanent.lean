import Adventure.Proofs.Save.Envelope
import Adventure.Proofs.Wire.Records
import Adventure.Save.Permanent
import Mathlib.Logic.Function.Basic

/-!
# Permanent variables

To set a permanent variable is to write one slot of a map, and the slots that are made on the way
read as before.  The packed form of a slot takes nine bytes at most, so that permanent variables
that are too long for a save are hundreds of millions.
-/

namespace Adventure

open Save Wire

variable {m : Medium}

/-! ## Slots -/

namespace Save.Permanent

variable (p : Permanent)

theorem length_set (id : Nat) (value : Int64) :
    (p.set id value).slots.length = max p.slots.length (id + 1) := by
  simp only [Permanent.set, List.length_set, List.length_append, List.length_replicate]
  omega

theorem get_set_self (id : Nat) (value : Int64) : (p.set id value).get id = value := by
  have hlength : id < (p.slots ++ List.replicate (id + 1 - p.slots.length) 0).length := by
    rw [List.length_append, List.length_replicate]
    omega
  rw [get, Permanent.set, List.getElem?_set_self hlength, Option.getD_some]

/-- Slots that are made on the way read as before, as 0. -/
theorem get_set_of_ne {id other : Nat} (h : other ≠ id) (value : Int64) :
    (p.set id value).get other = p.get other := by
  rw [get, get, Permanent.set, List.getElem?_set_ne h.symm]
  by_cases hlt : other < p.slots.length
  · rw [List.getElem?_append_left hlt]
  · rw [List.getElem?_append_right (Nat.not_lt.1 hlt), List.getElem?_replicate,
      List.getElem?_eq_none (Nat.not_lt.1 hlt)]
    split <;> rfl

/-- A write changes one slot of the map. -/
theorem get_set (id : Nat) (value : Int64) :
    (p.set id value).get = Function.update p.get id value := by
  funext other
  by_cases h : other = id
  · subst h
    rw [p.get_set_self, Function.update_self]
  · rw [p.get_set_of_ne h, Function.update_of_ne h]

end Save.Permanent

/-! ## Saves -/

instance : Faithful m Permanent where
  told p v h := read_record h (.refl _) (by decide) fun f hf => by
    simp [hf.withDefault "variables" p.slots [] rfl]

instance : Packable false Permanent 2 where
  writable p := Value.writable_packed_record (by simp [writable_encode])

namespace Wire.MessagePack

theorem length_writeInt_le (n : Int) : (writeInt n).length ≤ 9 := by
  unfold writeInt writeNegative writeUnsigned
  repeat' split
  all_goals simp [tagged, length_bigEndian]

theorem length_listHeader_le (n : Nat) : (listHeader n).length ≤ 5 := by
  unfold listHeader
  repeat' split
  all_goals simp [tagged, length_bigEndian]

theorem length_writeItems_le (ns : List Int64) :
    (writeItems (ns.map encode)).length ≤ 9 * ns.length := by
  induction ns with
  | nil => simp [writeItems]
  | cons n ns ih =>
    have hfirst : (write (encode n)).length ≤ 9 := length_writeInt_le n.toInt
    simp only [List.map_cons, writeItems, List.length_append, List.length_cons]
    omega

end Wire.MessagePack

namespace Save.Permanent

open Wire.MessagePack

/-- Apart from the variables themselves there is their name, and how many there are. -/
theorem length_pack (p : Permanent) : (pack p).length =
    11 + (listHeader p.slots.length).length + (writeItems (p.slots.map Wire.encode)).length := by
  have hname : (write (.text "variables")).length = 10 := by decide +kernel
  have hmap : (mapHeader 1).length = 1 := rfl
  have hpack : pack p = mapHeader 1 ++ (write (.text "variables") ++
      (listHeader (p.slots.map Wire.encode).length ++
        writeItems (p.slots.map Wire.encode)) ++ []) := rfl
  simp only [hpack, List.length_append, List.length_nil, List.length_map, hname, hmap]
  omega

/-- Permanent variables take nine bytes each at most. -/
theorem length_pack_le (p : Permanent) : (pack p).length ≤ 9 * p.slots.length + 16 := by
  have hitems := length_writeItems_le p.slots
  have hheader := length_listHeader_le p.slots.length
  have hpack := p.length_pack
  omega

/-- Permanent variables that do not fit into a save are very many. -/
theorem many_of_toBlob {p : Permanent} {fault : SaveFault}
    (h : toBlob .permanent p = .error fault) : 477218587 ≤ p.slots.length := by
  have hlength := p.length_pack_le
  unfold toBlob wrap at h
  split at h
  · cases h
  · omega

end Save.Permanent

end Adventure
