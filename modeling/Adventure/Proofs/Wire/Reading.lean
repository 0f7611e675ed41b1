import Adventure.Proofs.Wire.MessagePack
import Mathlib.Data.List.Forall2

/-!
# Bytes that spell a value

A reader takes a value from the front of the bytes, and it would read the same whatever followed and
with more fuel (`readsWithin`).  So bytes that are read as one value can stand in a longer text, and
a map can be put together from the bytes of its keys and values.
-/

namespace Adventure.Wire.MessagePack

variable {α β : Type}

/-! ## Readers of the front -/

/-- Whether a reader takes what it reads from the front of the bytes, and would read the same if
they went on in another way. -/
def ReadsFront (read : List UInt8 → Option (α × List UInt8)) : Prop :=
  ∀ bytes a rest, read bytes = some (a, rest) →
    ∃ front, bytes = front ++ rest ∧ ∀ rest', read (front ++ rest') = some (a, rest')

namespace ReadsFront

variable {read : List UInt8 → Option (α × List UInt8)}

theorem here (a : α) : ReadsFront fun bytes => some (a, bytes) := by
  intro bytes b rest h
  obtain ⟨rfl, rfl⟩ := Prod.mk.inj (Option.some.inj h)
  exact ⟨[], rfl, fun _ => rfl⟩

theorem nothing : ReadsFront fun _ => (none : Option (α × List UInt8)) :=
  fun _ _ _ h => by cases h

theorem map (h : ReadsFront read) (f : α → β) :
    ReadsFront fun bytes => (read bytes).map fun r => (f r.1, r.2) := by
  intro bytes b rest hread
  obtain ⟨⟨a, rest⟩, ha, heq⟩ := Option.map_eq_some_iff.1 hread
  obtain ⟨rfl, rfl⟩ := Prod.mk.inj heq
  obtain ⟨front, rfl, hfront⟩ := h _ _ _ ha
  exact ⟨front, rfl, fun rest' => congrArg (Option.map _) (hfront rest')⟩

theorem take? (n : Nat) : ReadsFront (take? n) := by
  intro bytes front rest h
  unfold MessagePack.take? at h
  dsimp only at h
  split at h
  · next hlength =>
    obtain ⟨rfl, rfl⟩ := Prod.mk.inj (Option.some.inj h)
    refine ⟨bytes.take n, (List.take_append_drop n bytes).symm, fun rest' => ?_⟩
    simpa only [hlength] using take?_append (bytes.take n) rest'
  · cases h

theorem readUnsigned (count : Nat) : ReadsFront (readUnsigned count) :=
  (take? count).map ofBigEndian

theorem readSigned (count : Nat) : ReadsFront (readSigned count) :=
  (readUnsigned count).map fun n =>
    if 2 * n < Nat.pow 256 count then (n : Int) else (n : Int) - (Nat.pow 256 count : Nat)

theorem sized {count : Nat} {next : Nat → List UInt8 → Option (α × List UInt8)}
    (h : ∀ n, ReadsFront (next n)) : ReadsFront fun bytes => sized count bytes next := by
  intro bytes a rest hread
  simp only [MessagePack.sized] at hread
  split at hread
  · next n bytes' hlength =>
    obtain ⟨front, rfl, hfront⟩ := readUnsigned count _ _ _ hlength
    obtain ⟨front', rfl, hfront'⟩ := h n _ _ _ hread
    refine ⟨front ++ front', (List.append_assoc ..).symm, fun rest' => ?_⟩
    simp only [List.append_assoc, MessagePack.sized, hfront, hfront']
  · cases hread

theorem readHead (tag : UInt8) : ReadsFront fun rest => readHead (tag :: rest) := by
  have htext : ∀ n, ReadsFront (readText n) := fun n => (take? n).map textOf
  have hbytes : ∀ n, ReadsFront (readBytes n) := fun n => (take? n).map Value.bytes
  have hextension : ∀ n, ReadsFront (readExtension n) := fun n =>
    (take? (n + 1)).map fun _ => Head.extension
  have hunsigned : ∀ form count, ReadsFront (unsignedLeaf form count) := fun form count =>
    (readUnsigned count).map fun n => Head.leaf (form n)
  have hsigned : ∀ count, ReadsFront (signedLeaf count) := fun count =>
    (readSigned count).map fun n => Head.leaf (.formed .signed n)
  simp only [MessagePack.readHead]
  generalize tag.toNat = t
  split
  · exact here _
  split
  · exact here _
  split
  · exact here _
  split
  · exact (htext _).map Head.leaf
  split
  · exact here _
  -- the kinds with a tag of their own
  split
  all_goals first
    | exact here _
    | exact nothing
    | exact (sized htext).map Head.leaf
    | exact (sized hbytes).map Head.leaf
    | exact sized hextension
    | exact hextension _
    | exact hunsigned _ _
    | exact hsigned _
    | exact (readUnsigned _).map Head.list
    | exact (readUnsigned _).map Head.map
    | exact (readUnsigned 4).map fun n =>
      Head.leaf (.float (Binary64.ofSingleBits (UInt32.ofNat n)))
    | exact (readUnsigned 8).map fun n => Head.leaf (.float ⟨UInt64.ofNat n⟩)

end ReadsFront

/-- The head of a value has a byte at least. -/
theorem exists_front_of_readHead {bytes rest : List UInt8} {head : Head}
    (h : readHead bytes = some (head, rest)) :
    ∃ front, bytes = front ++ rest ∧ 0 < front.length ∧
      ∀ rest', readHead (front ++ rest') = some (head, rest') := by
  cases bytes with
  | nil => cases h
  | cons tag bytes =>
    obtain ⟨front, rfl, hfront⟩ := ReadsFront.readHead tag _ _ _ h
    exact ⟨tag :: front, rfl, Nat.succ_pos _, hfront⟩

/-! ## Values -/

/-- Whether what a reader reads with some fuel is read from the front of the bytes with two units
for each byte of it, and `extra` units more, whatever follows. -/
def ReadsWithin (extra : Nat) (read : (fuel : Nat) → List UInt8 → Option (α × List UInt8))
    (fuel : Nat) : Prop :=
  ∀ bytes a rest, read fuel bytes = some (a, rest) →
    ∃ front, bytes = front ++ rest ∧ ∀ fuel' rest', 2 * front.length + extra ≤ fuel' →
      read fuel' (front ++ rest') = some (a, rest')

variable {fuel depth : Nat}

/-- A container is read from the front if what comes behind its head is. -/
theorem ReadsWithin.behind {head : Head} {bytes bytes' rest : List UInt8} {v : Value}
    {read : Nat → List UInt8 → Option (Value × List UInt8)} (h : ReadsWithin 1 read fuel)
    (hopen : ∀ {fuel bytes rest}, readHead bytes = some (head, rest) →
      readValue (fuel + 1) depth bytes = read fuel rest)
    (hhead : readHead bytes = some (head, bytes')) (hread : read fuel bytes' = some (v, rest)) :
    ∃ front, bytes = front ++ rest ∧ ∀ fuel' rest', 2 * front.length ≤ fuel' →
      readValue fuel' depth (front ++ rest') = some (v, rest') := by
  obtain ⟨front, rfl, hpos, hfront⟩ := exists_front_of_readHead hhead
  obtain ⟨front', rfl, hfront'⟩ := h _ _ _ hread
  refine ⟨front ++ front', (List.append_assoc ..).symm, fun fuel' rest' hfuel => ?_⟩
  rw [List.length_append] at hfuel
  obtain ⟨fuel', rfl⟩ : ∃ n, fuel' = n + 1 := ⟨fuel' - 1, by omega⟩
  rw [List.append_assoc, hopen (hfront _)]
  exact hfront' fuel' rest' (by omega)

theorem readsWithin_readValue
    (hitems : ∀ depth n acc, ReadsWithin 1 (fun fuel => readItems fuel depth n acc) fuel)
    (hentries : ∀ depth n acc, ReadsWithin 1 (fun fuel => readEntries fuel depth n acc) fuel) :
    ReadsWithin 0 (fun fuel => readValue fuel depth) (fuel + 1) := by
  intro bytes v rest h
  simp only [readValue] at h
  split at h
  · cases h
  · next hhead =>
    cases h
    obtain ⟨front, rfl, hpos, hfront⟩ := exists_front_of_readHead hhead
    refine ⟨front, rfl, fun fuel' rest' hfuel => ?_⟩
    exact readValue_leaf (by omega) (hfront rest')
  · next hhead =>
    obtain ⟨hdepth, heq⟩ := Option.ite_none_left_eq_some.1 h
    cases heq
    obtain ⟨front, rfl, hpos, hfront⟩ := exists_front_of_readHead hhead
    refine ⟨front, rfl, fun fuel' rest' hfuel => ?_⟩
    obtain ⟨fuel', rfl⟩ : ∃ n, fuel' = n + 1 := ⟨fuel' - 1, by omega⟩
    simp only [readValue, hfront, hdepth, if_false]
  · next n bytes' hhead =>
    obtain ⟨hdepth, hread⟩ := Option.ite_none_left_eq_some.1 h
    refine (hitems (depth - 1) n []).behind (fun hhead => ?_) hhead hread
    simp only [readValue, hhead, hdepth, if_false]
  · next n bytes' hhead =>
    obtain ⟨hdepth, hread⟩ := Option.ite_none_left_eq_some.1 h
    refine (hentries (depth - 1) n []).behind (fun hhead => ?_) hhead hread
    simp only [readValue, hhead, hdepth, if_false]

/-- Nothing is read without fuel, so that every value has a byte. -/
theorem length_front_pos {front : List UInt8} {v : Value}
    (h : ∀ fuel' rest', 2 * front.length + 0 ≤ fuel' →
      readValue fuel' depth (front ++ rest') = some (v, rest')) : 0 < front.length := by
  refine Nat.pos_of_ne_zero fun hzero => ?_
  have hread := h 0 [] (by omega)
  rw [readValue] at hread
  cases hread

theorem readsWithin_readItems {n : Nat} {acc : List Value}
    (hvalue : ReadsWithin 0 (fun fuel => readValue fuel depth) fuel)
    (hitems : ∀ n acc, ReadsWithin 1 (fun fuel => readItems fuel depth n acc) fuel) :
    ReadsWithin 1 (fun fuel => readItems fuel depth n acc) (fuel + 1) := by
  intro bytes v rest h
  simp only [readItems] at h
  split at h
  · next hn =>
    cases h
    refine ⟨[], rfl, fun fuel' rest' hfuel => ?_⟩
    obtain ⟨fuel', rfl⟩ : ∃ n, fuel' = n + 1 := ⟨fuel' - 1, by omega⟩
    simp only [readItems, hn, if_true, List.nil_append]
  · next hn =>
    split at h
    · cases h
    · next hread =>
      obtain ⟨front, rfl, hfront⟩ := hvalue _ _ _ hread
      obtain ⟨front', rfl, hfront'⟩ := hitems _ _ _ _ _ h
      have hpos := length_front_pos hfront
      refine ⟨front ++ front', (List.append_assoc ..).symm, fun fuel' rest' hfuel => ?_⟩
      rw [List.length_append] at hfuel
      obtain ⟨fuel', rfl⟩ : ∃ n, fuel' = n + 1 := ⟨fuel' - 1, by omega⟩
      simp only [readItems, hn, if_false, List.append_assoc, hfront fuel' _ (by omega)]
      exact hfront' fuel' rest' (by omega)

theorem readsWithin_readEntries {n : Nat} {acc : List (Value × Value)}
    (hvalue : ReadsWithin 0 (fun fuel => readValue fuel depth) fuel)
    (hentries : ∀ n acc, ReadsWithin 1 (fun fuel => readEntries fuel depth n acc) fuel) :
    ReadsWithin 1 (fun fuel => readEntries fuel depth n acc) (fuel + 1) := by
  intro bytes v rest h
  simp only [readEntries] at h
  split at h
  · next hn =>
    cases h
    refine ⟨[], rfl, fun fuel' rest' hfuel => ?_⟩
    obtain ⟨fuel', rfl⟩ : ∃ n, fuel' = n + 1 := ⟨fuel' - 1, by omega⟩
    simp only [readEntries, hn, if_true, List.nil_append]
  · next hn =>
    split at h
    · cases h
    · next hkey =>
      split at h
      · cases h
      · next hread =>
        obtain ⟨front, rfl, hfront⟩ := hvalue _ _ _ hkey
        obtain ⟨front', rfl, hfront'⟩ := hvalue _ _ _ hread
        obtain ⟨front'', rfl, hfront''⟩ := hentries _ _ _ _ _ h
        have hpos := length_front_pos hfront
        refine ⟨front ++ (front' ++ front''), by simp only [List.append_assoc],
          fun fuel' rest' hfuel => ?_⟩
        rw [List.length_append, List.length_append] at hfuel
        obtain ⟨fuel', rfl⟩ : ∃ n, fuel' = n + 1 := ⟨fuel' - 1, by omega⟩
        simp only [readEntries, hn, if_false, List.append_assoc, hfront fuel' _ (by omega),
          hfront' fuel' _ (by omega)]
        exact hfront'' fuel' rest' (by omega)

/-- Values, items and entries are read from the front of the bytes. -/
theorem readsWithin (fuel : Nat) :
    (∀ depth, ReadsWithin 0 (fun fuel => readValue fuel depth) fuel) ∧
      (∀ depth n acc, ReadsWithin 1 (fun fuel => readItems fuel depth n acc) fuel) ∧
      (∀ depth n acc, ReadsWithin 1 (fun fuel => readEntries fuel depth n acc) fuel) := by
  induction fuel with
  | zero =>
    refine ⟨fun _ _ _ _ h => ?_, fun _ _ _ _ _ _ h => ?_, fun _ _ _ _ _ _ h => ?_⟩
    · simp only [readValue, reduceCtorEq] at h
    · simp only [readItems, reduceCtorEq] at h
    · simp only [readEntries, reduceCtorEq] at h
  | succ fuel ih =>
    obtain ⟨hvalue, hitems, hentries⟩ := ih
    exact ⟨fun depth => readsWithin_readValue hitems hentries,
      fun depth n acc => readsWithin_readItems (hvalue depth) (hitems depth),
      fun depth n acc => readsWithin_readEntries (hvalue depth) (hentries depth)⟩

/-- Whether bytes are read to their end as one value in which `depth` containers may be opened. -/
def Spells (depth : Nat) (bytes : List UInt8) (v : Value) : Prop :=
  readValue (2 * bytes.length + 2) depth bytes = some (v, [])

/-- Bytes that spell a value are read as it, whatever follows. -/
theorem Spells.readValue_append {bytes : List UInt8} {v : Value} (h : Spells depth bytes v)
    (hfuel : 2 * bytes.length ≤ fuel) (rest : List UInt8) :
    readValue fuel depth (bytes ++ rest) = some (v, rest) := by
  obtain ⟨front, hbytes, hfront⟩ := (readsWithin _).1 depth _ _ _ h
  rw [List.append_nil] at hbytes
  subst hbytes
  exact hfront fuel rest hfuel

theorem Spells.length_pos {bytes : List UInt8} {v : Value} (h : Spells depth bytes v) :
    0 < bytes.length := length_front_pos fun _ rest hfuel => h.readValue_append hfuel rest

/-! ## Maps -/

/-- The bytes of a map, from the bytes of its keys and values. -/
def joinEntries (entries : List (List UInt8 × List UInt8)) : List UInt8 :=
  mapHeader entries.length ++ entries.flatMap fun e => e.1 ++ e.2

/-- Whether the bytes of a key and a value spell an entry. -/
def SpellsEntry (depth : Nat) (bytes : List UInt8 × List UInt8) (e : Value × Value) : Prop :=
  Spells depth bytes.1 e.1 ∧ Spells depth bytes.2 e.2

theorem readEntries_of_spells {entries : List (List UInt8 × List UInt8)}
    {es : List (Value × Value)} (h : List.Forall₂ (SpellsEntry depth) entries es)
    (acc : List (Value × Value)) (rest : List UInt8)
    (hfuel : 2 * (entries.flatMap fun e => e.1 ++ e.2).length < fuel) :
    readEntries fuel depth entries.length acc ((entries.flatMap fun e => e.1 ++ e.2) ++ rest) =
      some (.map (acc.reverse ++ es), rest) := by
  induction h generalizing fuel acc with
  | nil =>
    obtain ⟨fuel, rfl⟩ : ∃ n, fuel = n + 1 := ⟨fuel - 1, by omega⟩
    simp [readEntries]
  | @cons bytes e entries es hentry _ ih =>
    rw [List.flatMap_cons, List.length_append, List.length_append] at hfuel
    obtain ⟨fuel, rfl⟩ : ∃ n, fuel = n + 1 := ⟨fuel - 1, by omega⟩
    have hpos := hentry.1.length_pos
    have hmore := @ih fuel (e :: acc) (by omega)
    simp only [List.flatMap_cons, List.append_assoc, List.length_cons, readEntries,
      Nat.succ_ne_zero, if_false, Nat.add_sub_cancel,
      hentry.1.readValue_append (show 2 * bytes.1.length ≤ fuel by omega),
      hentry.2.readValue_append (show 2 * bytes.2.length ≤ fuel by omega)]
    simpa using hmore

theorem length_le_of_spells {entries : List (List UInt8 × List UInt8)} {es : List (Value × Value)}
    (h : List.Forall₂ (SpellsEntry depth) entries es) :
    entries.length ≤ (entries.flatMap fun e => e.1 ++ e.2).length := by
  induction h with
  | nil => exact Nat.le_refl _
  | cons hentry _ ih =>
    have hpos := hentry.1.length_pos
    simp only [List.flatMap_cons, List.length_append, List.length_cons]
    omega

/-- A map is read from the bytes of its entries. -/
theorem read?_joinEntries {entries : List (List UInt8 × List UInt8)} {es : List (Value × Value)}
    (h : List.Forall₂ (SpellsEntry (maxDepth - 1)) entries es)
    (short : (joinEntries entries).length < 2 ^ 32) :
    read? (joinEntries entries) = some (.map es) := by
  have hcount := length_le_of_spells h
  have hlength : (joinEntries entries).length =
      (mapHeader entries.length).length + (entries.flatMap fun e => e.1 ++ e.2).length :=
    List.length_append
  have hhead := readHead_mapHeader (n := entries.length) (by omega)
    (entries.flatMap fun e => e.1 ++ e.2)
  have hheader := length_mapHeader_pos entries.length
  have hread := readEntries_of_spells h [] []
    (show _ < 2 * (joinEntries entries).length + 1 by omega)
  rw [List.append_nil] at hread
  have hvalue : readValue (2 * (joinEntries entries).length + 2) maxDepth (joinEntries entries) =
      some (.map es, []) := by
    generalize (joinEntries entries).length = length at hread ⊢
    rw [readValue, joinEntries, hhead]
    exact hread
  rw [read?, hvalue]
  rfl

end Adventure.Wire.MessagePack
