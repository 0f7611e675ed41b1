import Adventure.Proofs.Wire.Packed
import Adventure.Proofs.Wire.Reading
import Adventure.Proofs.Wire.Records
import Mathlib.Data.List.Perm.Basic

/-!
# Records of other versions

A packed record may have its entries in another order, lack some of them, and have entries that this
version knows nothing of.  What is read from it are the fields that were kept.
-/

namespace Adventure.Wire

open Value

variable {m : Medium} {α : Type}

/-! ## Entries to step over -/

/-- Whether a key is the name of a field. -/
def isKnownKey (m : Medium) (names : List String) (k : Value) : Bool :=
  match fieldKey? m names k with
  | some (.known _) => true
  | _ => false

theorem isKnownKey_text {names : List String} (s : String) :
    isKnownKey m names (.text s) = names.contains s := by
  by_cases h : s ∈ names <;> simp [isKnownKey, fieldKey?, naming?, h]

/-- Entries that are stepped over do not count. -/
theorem collectFields?_filter {names : List String} {entries : List (Value × Value)}
    (h : ∀ e ∈ entries, isKnownKey m names e.1 = false → fieldKey? m names e.1 = some .unknown) :
    collectFields? m names entries =
      collectFields? m names (entries.filter fun e => isKnownKey m names e.1) := by
  induction entries with
  | nil => rfl
  | cons e rest ih =>
    obtain ⟨k, x⟩ := e
    obtain ⟨hkey, hrest⟩ := List.forall_mem_cons.1 h
    cases hknown : isKnownKey m names k with
    | true =>
      have hfilter : ((k, x) :: rest).filter (fun e => isKnownKey m names e.1) =
          (k, x) :: rest.filter fun e => isKnownKey m names e.1 := List.filter_cons_of_pos hknown
      rw [hfilter, collectFields?, collectFields?, ih hrest]
    | false =>
      rw [List.filter_cons_of_neg (by simp [hknown]), collectFields?, hkey hknown, ih hrest]
      cases collectFields? m names (rest.filter fun e => isKnownKey m names e.1) <;> rfl

/-- The known fields are collected among entries under other texts. -/
theorem exists_collectFields? {names : List String} {entries others : List (Value × Value)}
    {fields : List (String × Value)} (h : entries.Perm (texts fields ++ others))
    (nodup : (fields.map (·.1)).Nodup) (known : ∀ name ∈ fields.map (·.1), name ∈ names)
    (unknown : ∀ e ∈ others, ∃ s, e.1 = .text s ∧ s ∉ names) :
    ∃ fields', collectFields? m names entries = some fields' ∧ fields'.Perm fields := by
  have hfields : (texts fields).filter (fun e => isKnownKey m names e.1) = texts fields := by
    refine List.filter_eq_self.2 fun e he => ?_
    obtain ⟨field, hfield, rfl⟩ := List.mem_map.1 he
    rw [isKnownKey_text, List.contains_iff_mem]
    exact known _ (List.mem_map_of_mem hfield)
  have hunknown : ∀ e ∈ others, isKnownKey m names e.1 = false ∧
      fieldKey? m names e.1 = some .unknown := by
    rintro ⟨_, x⟩ he
    obtain ⟨s, rfl, hs⟩ := unknown _ he
    simp [isKnownKey_text, fieldKey?, naming?, hs]
  have hothers : others.filter (fun e => isKnownKey m names e.1) = [] :=
    List.filter_eq_nil_iff.2 fun e he => by simp [(hunknown e he).1]
  have hperm := h.filter fun e => isKnownKey m names e.1
  rw [List.filter_append, hfields, hothers, List.append_nil] at hperm
  obtain ⟨fields', hentries, hperm'⟩ := texts_of_perm hperm
  refine ⟨fields', ?_, hperm'⟩
  rw [collectFields?_filter, hentries]
  · have hkeys := hperm'.map (·.1)
    exact collectFields?_texts (hkeys.nodup_iff.2 nodup) fun name hname =>
      known name (hkeys.mem_iff.1 hname)
  · intro e he hnot
    rcases List.mem_append.1 (h.mem_iff.1 he) with hmem | hmem
    · have hkept : e ∈ (texts fields).filter fun e => isKnownKey m names e.1 := by rwa [hfields]
      rw [(List.mem_filter.1 hkept).2] at hnot
      cases hnot
    · exact (hunknown e hmem).2

/-! ## Reworked records -/

namespace MessagePack

/-- The bytes of the entries of a record. -/
def packFields (fields : List (String × Value)) : List (List UInt8 × List UInt8) :=
  fields.map fun f => (writeText f.1, write f.2)

/-- Whether a packed record was reworked into bytes: the entries of some fields were dropped,
entries were added under texts that name no field, and all of them may have changed places. -/
def Reworks (fields : List (String × Value)) (dropped : List String) (bytes : List UInt8) : Prop :=
  ∃ added entries, bytes = joinEntries entries ∧
    entries.Perm (packFields (fields.filter fun f => f.1 ∉ dropped) ++ added) ∧
    ∀ e ∈ added, ∃ s x, SpellsEntry (maxDepth - 1) e (.text s, x) ∧ s ∉ fields.map (·.1)

variable {plain : Bool} {depth : Nat} {fields : List (String × Value)}

/-- A record as it is written is one that nothing was done to. -/
theorem reworks_write (fields : List (String × Value)) :
    Reworks fields [] (write (.record fields)) := by
  have hjoin : ∀ fields : List (String × Value),
      (packFields fields).flatMap (fun e => e.1 ++ e.2) = writeEntries (texts fields) := by
    intro fields
    induction fields with
    | nil => rfl
    | cons f rest ih => exact congrArg ((writeText f.1 ++ write f.2) ++ ·) ih
  refine ⟨[], packFields fields, ?_, ?_, fun _ he => by cases he⟩
  · rw [joinEntries, hjoin]
    simp [Value.record, write, packFields, texts]
  · simp

theorem spells_write {v : Value} (h : v.Writable plain depth) (short : (write v).length < 2 ^ 32) :
    ∃ v', v.Retold v' ∧ Spells depth (write v) v' := by
  obtain ⟨v', htold, hread⟩ := readValue_write (2 * (write v).length + 2) [] h
    (sized_of_length h short) (Nat.le_add_right _ _)
  rw [List.append_nil] at hread
  exact ⟨v', htold, hread⟩

theorem spells_writeText {s : String} (short : (writeText s).length < 2 ^ 32) :
    Spells depth (writeText s) (.text s) := by
  have hwritable : (Value.text s).Writable false depth := trivial
  obtain ⟨_, rfl, hspells⟩ := spells_write hwritable short
  exact hspells

/-- The entries of a record come back. -/
theorem exists_spells_packFields (writable : WritableEntries plain depth (texts fields))
    (short : ∀ e ∈ packFields fields, e.1.length < 2 ^ 32 ∧ e.2.length < 2 ^ 32) :
    ∃ es, List.Forall₂ (SpellsEntry depth) (packFields fields) es ∧
      RetoldEntries (texts fields) es := by
  induction fields with
  | nil => exact ⟨[], .nil, rfl⟩
  | cons f rest ih =>
    obtain ⟨hfirst, hothers⟩ := List.forall_mem_cons.1 short
    obtain ⟨es, hspells, htold⟩ := ih writable.2.2 hothers
    obtain ⟨x', hx, hvalue⟩ := spells_write writable.2.1 hfirst.2
    exact ⟨(.text f.1, x') :: es, .cons ⟨spells_writeText hfirst.1, hvalue⟩ hspells,
      .text f.1, x', es, rfl, hx, htold, rfl⟩

/-- Entries under other texts spell some. -/
theorem exists_spells_added {added : List (List UInt8 × List UInt8)} {names : List String}
    (h : ∀ e ∈ added, ∃ s x, SpellsEntry depth e (.text s, x) ∧ s ∉ names) :
    ∃ es, List.Forall₂ (SpellsEntry depth) added es ∧ ∀ e ∈ es, ∃ s, e.1 = .text s ∧ s ∉ names := by
  induction added with
  | nil => exact ⟨[], .nil, fun _ he => by cases he⟩
  | cons e rest ih =>
    obtain ⟨⟨s, x, hfirst, hs⟩, hothers⟩ := List.forall_mem_cons.1 h
    obtain ⟨es, hspells, hunknown⟩ := ih hothers
    exact ⟨(.text s, x) :: es, .cons hfirst hspells,
      List.forall_mem_cons.2 ⟨⟨s, rfl, hs⟩, hunknown⟩⟩

theorem length_le_joinEntries {entries : List (List UInt8 × List UInt8)}
    {e : List UInt8 × List UInt8} (h : e ∈ entries) :
    (e.1 ++ e.2).length ≤ (joinEntries entries).length := by
  have hsub : (e.1 ++ e.2).Sublist (entries.map fun e => e.1 ++ e.2).flatten :=
    List.sublist_flatten_of_mem (List.mem_map_of_mem h)
  have hlength : (joinEntries entries).length = (mapHeader entries.length).length +
      (entries.flatMap fun e => e.1 ++ e.2).length := List.length_append
  rw [hlength]
  exact Nat.le_trans hsub.length_le (Nat.le_add_left _ _)

/-- What is read from a reworked record are the fields that were kept. -/
theorem Reworks.exists_read {dropped : List String} {bytes : List UInt8}
    (h : Reworks fields dropped bytes) (writable : (Value.record fields).Writable plain maxDepth)
    (nodup : (fields.map (·.1)).Nodup) (short : bytes.length < 2 ^ 32) :
    ∃ v f, read? bytes = some v ∧ Fields.read? m (fields.map (·.1)) v = some f ∧
      f.Tells (fields.filter fun f => f.1 ∉ dropped) := by
  obtain ⟨added, entries, rfl, hperm, hadded⟩ := h
  have hsub : (fields.filter fun f => f.1 ∉ dropped).Sublist fields := List.filter_sublist
  generalize fields.filter (fun f => f.1 ∉ dropped) = kept at hperm hsub ⊢
  have hwritable : WritableEntries plain (maxDepth - 1) (texts kept) :=
    writableEntries_iff.2 fun e he =>
      writableEntries_iff.1 writable.2.2 e ((hsub.map _).subset he)
  have hshort : ∀ e ∈ packFields kept, e.1.length < 2 ^ 32 ∧ e.2.length < 2 ^ 32 := by
    intro e he
    have hle := length_le_joinEntries (hperm.mem_iff.2 (List.mem_append_left _ he))
    rw [List.length_append] at hle
    omega
  obtain ⟨es, hes, htold⟩ := exists_spells_packFields hwritable hshort
  obtain ⟨others, hothers, hunknown⟩ := exists_spells_added hadded
  obtain ⟨all, hall, hreordered⟩ := List.perm_comp_forall₂ hperm (List.rel_append hes hothers)
  obtain ⟨fields', rfl, hkeys, hvalues⟩ := exists_texts htold
  have hnames : (fields'.map (·.1)).Sublist (fields.map (·.1)) := hkeys ▸ hsub.map _
  obtain ⟨fields'', hcollect, hsame⟩ := exists_collectFields? (m := m) hreordered
    (nodup.sublist hnames) (fun name hname => hnames.subset hname) hunknown
  refine ⟨.map all, ⟨false, fields''⟩, read?_joinEntries hall short, ?_, ?_⟩
  · show (collectFields? m _ all).map _ = _
    rw [hcollect]
    rfl
  · have hsameKeys := hsame.map (·.1)
    refine Fields.tells_of_retold (hsameKeys.nodup_iff.2 (nodup.sublist hnames))
      (hkeys ▸ hsameKeys) fun name x hmem => ?_
    obtain ⟨x', hx', hxtold⟩ := hvalues name x hmem
    exact ⟨x', hsame.mem_iff.2 hx', hxtold⟩

end MessagePack

/-! ## Fields that were kept -/

theorem bind_of_eq {β : Type} {x : Option α} {next : α → Option β} {a : α} {b : β} (h : x = some a)
    (hnext : next a = some b) : (x >>= next) = some b := by
  rw [h]
  exact hnext

theorem lookup_kept {fields : List (String × Value)} {dropped : List String} {name : String}
    {v : Value} (hname : name ∉ dropped) (h : fields.lookup name = some v) :
    (fields.filter fun f => f.1 ∉ dropped).lookup name = some v := by
  induction fields with
  | nil => cases h
  | cons f rest ih =>
    obtain ⟨k, x⟩ := f
    by_cases hk : name = k
    · subst hk
      rw [List.filter_cons_of_pos (by simpa using hname)]
      simpa using h
    · have hne : (name == k) = false := beq_eq_false_iff_ne.2 hk
      have hrest := ih (by simpa [List.lookup_cons, hne] using h)
      by_cases hkept : k ∈ dropped
      · rwa [List.filter_cons_of_neg (by simpa using hkept)]
      · rw [List.filter_cons_of_pos (by simpa using hkept), List.lookup_cons, hne]
        exact hrest

namespace Fields.Tells

variable {f : Fields} {fields : List (String × Value)} {dropped : List String}
  (h : f.Tells (fields.filter fun f => f.1 ∉ dropped))

include h

/-- A field that was dropped is not found. -/
theorem find?_of_dropped {name : String} (hname : name ∈ dropped) : f.find? name = none := by
  refine h.absent fun hmem => ?_
  obtain ⟨e, he, rfl⟩ := List.mem_map.1 hmem
  exact absurd hname (by simpa using (List.mem_filter.1 he).2)

theorem requiredOf_kept [Wire α] {a : α} (name : String) (ha : Told m a)
    (hl : fields.lookup name = some (encode a)) (hname : name ∉ dropped) :
    f.required m name = some a := h.requiredOf name ha (lookup_kept hname hl)

/-- A field that was kept is read, and one that was dropped has its default. -/
theorem orElse_kept {read : Value → Option α} {v : Value} {a d : α} (name : String)
    (hl : fields.lookup name = some v) (hread : ∀ v', v.Retold v' → read v' = some a) :
    f.orElse read name d = some (if name ∈ dropped then d else a) := by
  by_cases hname : name ∈ dropped
  · rw [Fields.orElse, h.find?_of_dropped hname, if_pos hname]
  · rw [if_neg hname]
    exact h.orElse name (lookup_kept hname hl) hread

theorem withDefaultOf_kept [Wire α] {a d : α} (name : String) (ha : Told m a)
    (hl : fields.lookup name = some (encode a)) :
    f.withDefault m name d = some (if name ∈ dropped then d else a) := h.orElse_kept name hl ha

theorem withDefault_kept [Wire α] [Faithful m α] (name : String) (a d : α)
    (hl : fields.lookup name = some (encode a)) :
    f.withDefault m name d = some (if name ∈ dropped then d else a) :=
  h.withDefaultOf_kept name (Faithful.told a) hl

end Fields.Tells

end Adventure.Wire
