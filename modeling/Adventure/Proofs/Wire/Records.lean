import Adventure.Proofs.Wire.Faithful

/-!
# Records that come back

The fields of a record are found again under their names, in whatever order they come back, and a
tagged record gives its tag and its fields.
-/

namespace Adventure.Wire

open Value

variable {m : Medium} {α : Type}

/-! ## Entries under text keys -/

theorem mem_of_lookup {fields : List (String × Value)} {name : String} {v : Value}
    (h : fields.lookup name = some v) : (name, v) ∈ fields := by
  induction fields with
  | nil => cases h
  | cons e rest ih =>
    obtain ⟨k, x⟩ := e
    rw [List.lookup_cons] at h
    split at h
    · next heq =>
      obtain rfl := Option.some.inj h
      rw [beq_iff_eq.1 heq]
      exact List.mem_cons_self
    · exact List.mem_cons_of_mem _ (ih h)

theorem find?_of_mem {fields : List (String × Value)} {name : String} {v : Value}
    (nodup : (fields.map (·.1)).Nodup) (h : (name, v) ∈ fields) :
    (fields.find? fun e => e.1 == name) = some (name, v) := by
  induction fields with
  | nil => cases h
  | cons e rest ih =>
    obtain ⟨hk, hrest⟩ := List.nodup_cons.1 nodup
    rcases List.mem_cons.1 h with rfl | h
    · exact List.find?_cons_of_pos (beq_self_eq_true name)
    · have hne : e.1 ≠ name := by
        rintro rfl
        exact hk (List.mem_map.2 ⟨_, h, rfl⟩)
      rw [List.find?_cons_of_neg (by simpa using hne), ih hrest h]

/-- Entries under text keys come back under the same keys. -/
theorem exists_texts {fields : List (String × Value)} {entries : List (Value × Value)}
    (h : RetoldEntries (texts fields) entries) :
    ∃ fields', entries = texts fields' ∧ fields'.map (·.1) = fields.map (·.1) ∧
      ∀ name v, (name, v) ∈ fields → ∃ v', (name, v') ∈ fields' ∧ v.Retold v' := by
  induction fields generalizing entries with
  | nil =>
    change RetoldEntries [] entries at h
    rw [RetoldEntries] at h
    exact ⟨[], h, rfl, fun _ _ hmem => by cases hmem⟩
  | cons e rest ih =>
    obtain ⟨k, x⟩ := e
    change RetoldEntries ((.text k, x) :: texts rest) entries at h
    rw [RetoldEntries] at h
    obtain ⟨k', x', rest', hk, hx, hrest, rfl⟩ := h
    obtain rfl : k' = .text k := hk
    obtain ⟨fields', rfl, hkeys, hall⟩ := ih hrest
    refine ⟨(k, x') :: fields', rfl, by simp only [List.map_cons, hkeys], fun name v hmem => ?_⟩
    rcases List.mem_cons.1 hmem with heq | hmem
    · obtain ⟨rfl, rfl⟩ := Prod.mk.inj heq
      exact ⟨x', List.mem_cons_self, hx⟩
    · obtain ⟨v', hv', htold⟩ := hall name v hmem
      exact ⟨v', List.mem_cons_of_mem _ hv', htold⟩

theorem texts_of_perm {fields : List (String × Value)} {entries : List (Value × Value)}
    (h : entries.Perm (texts fields)) :
    ∃ fields', entries = texts fields' ∧ fields'.Perm fields := by
  have hp : ∀ es es' : List (Value × Value), es.Perm es' → ∀ fields, es = texts fields →
      ∃ fields', es' = texts fields' ∧ fields'.Perm fields := by
    intro es es' h
    induction h with
    | nil => exact fun fields hf => ⟨fields, hf, .refl _⟩
    | cons e _ ih =>
      intro fields hf
      cases fields with
      | nil => cases hf
      | cons first rest =>
        obtain ⟨rfl, hrest⟩ := List.cons.inj hf
        obtain ⟨fields', rfl, hperm⟩ := ih rest hrest
        exact ⟨first :: fields', rfl, hperm.cons _⟩
    | swap e e' rest =>
      intro fields hf
      cases fields with
      | nil => cases hf
      | cons first more =>
        obtain ⟨rfl, hmore⟩ := List.cons.inj hf
        cases more with
        | nil => cases hmore
        | cons second others =>
          obtain ⟨rfl, rfl⟩ := List.cons.inj hmore
          exact ⟨second :: first :: others, rfl, .swap ..⟩
    | trans _ _ ih ih' =>
      intro fields hf
      obtain ⟨fields', hf', hperm⟩ := ih fields hf
      obtain ⟨fields'', hf'', hperm'⟩ := ih' fields' hf'
      exact ⟨fields'', hf'', hperm'.trans hperm⟩
  exact hp _ _ h.symm fields rfl

/-- A record comes back as a record with the same fields. -/
theorem exists_record {fields : List (String × Value)} {v : Value}
    (h : (Value.record fields).Retold v) :
    ∃ fields', v = .map (texts fields') ∧ (fields'.map (·.1)).Perm (fields.map (·.1)) ∧
      ∀ name x, (name, x) ∈ fields → ∃ x', (name, x') ∈ fields' ∧ x.Retold x' := by
  change (Value.map (texts fields)).Retold v at h
  rw [Retold] at h
  obtain ⟨_, told, hentries, hreordered, rfl⟩ := h
  obtain ⟨fields', rfl, hkeys, hall⟩ := exists_texts hentries
  obtain ⟨fields'', rfl, hperm⟩ := texts_of_perm hreordered.perm
  refine ⟨fields'', rfl, hkeys ▸ hperm.map _, fun name x hmem => ?_⟩
  obtain ⟨x', hx', htold⟩ := hall name x hmem
  exact ⟨x', hperm.mem_iff.2 hx', htold⟩

/-! ## Fields -/

/-- Fields that were found tell those that were written. -/
structure Fields.Tells (f : Fields) (fields : List (String × Value)) : Prop where
  present : ∀ {name v}, fields.lookup name = some v → ∃ v', f.find? name = some v' ∧ v.Retold v'
  absent : ∀ {name}, name ∉ fields.map (·.1) → f.find? name = none

theorem collectFields?_texts {names : List String} {fields : List (String × Value)}
    (nodup : (fields.map (·.1)).Nodup) (known : ∀ name ∈ fields.map (·.1), name ∈ names) :
    collectFields? m names (texts fields) = some fields := by
  induction fields with
  | nil => rfl
  | cons e rest ih =>
    obtain ⟨k, x⟩ := e
    obtain ⟨hk, hrest⟩ := List.nodup_cons.1 nodup
    obtain ⟨hknown, hothers⟩ := List.forall_mem_cons.1 known
    have hkey : fieldKey? m names (.text k) = some (.known k) := by
      simp [fieldKey?, naming?, hknown]
    have hnew : (rest.any fun f => f.1 == k) = false := by
      simp only [List.any_eq_false, beq_iff_eq]
      rintro f hf rfl
      exact hk (List.mem_map.2 ⟨_, hf, rfl⟩)
    show collectFields? m names ((.text k, x) :: texts rest) = _
    rw [collectFields?, hkey, ih hrest hothers]
    simp [hnew]

/-- Fields under the same names tell those written if what stands under a name comes back. -/
theorem Fields.tells_of_retold {fields fields' : List (String × Value)}
    (nodup : (fields'.map (·.1)).Nodup) (names : (fields'.map (·.1)).Perm (fields.map (·.1)))
    (told : ∀ name x, (name, x) ∈ fields → ∃ x', (name, x') ∈ fields' ∧ x.Retold x') :
    (⟨false, fields'⟩ : Fields).Tells fields := by
  refine ⟨fun {name v} hv => ?_, fun {name} hname => ?_⟩
  · obtain ⟨v', hv', htold⟩ := told name v (mem_of_lookup hv)
    refine ⟨v', ?_, htold⟩
    show (fields'.find? fun e => e.1 == name).map _ = _
    rw [find?_of_mem nodup hv']
    rfl
  · show (fields'.find? fun e => e.1 == name).map _ = _
    rw [List.find?_eq_none.2 fun e he heq => ?_]
    · rfl
    · refine hname (names.mem_iff.1 ?_)
      rw [← beq_iff_eq.1 heq]
      exact List.mem_map_of_mem he

/-- The fields of a record are read from whatever comes back of it. -/
theorem Fields.exists_read {names : List String} {fields : List (String × Value)} {v : Value}
    (h : (Value.record fields).Retold v) (known : (fields.map (·.1)).Sublist names)
    (nodup : names.Nodup) :
    ∃ f, Fields.read? m names v = some f ∧ f.Tells fields := by
  obtain ⟨fields', rfl, hkeys, hall⟩ := exists_record h
  have nodup' : (fields'.map (·.1)).Nodup := hkeys.nodup_iff.2 (nodup.sublist known)
  refine ⟨⟨false, fields'⟩, ?_, Fields.tells_of_retold nodup' hkeys hall⟩
  show (collectFields? m names (texts fields')).map _ = _
  rw [collectFields?_texts nodup' fun name hname => known.subset (hkeys.mem_iff.1 hname)]
  rfl

/-- A record comes back if reading gives it from any fields that tell those written. -/
theorem read_record {names : List String} {fields : List (String × Value)} {v : Value}
    {next : Fields → Option α} {a : α} (h : (Value.record fields).Retold v)
    (known : (fields.map (·.1)).Sublist names) (nodup : names.Nodup)
    (hnext : ∀ f : Fields, f.Tells fields → next f = some a) :
    (Fields.read? m names v >>= next) = some a := by
  obtain ⟨f, hf, htells⟩ := Fields.exists_read (m := m) h known nodup
  rw [hf]
  exact hnext f htells

namespace Fields.Tells

variable {f : Fields} {fields : List (String × Value)} (h : f.Tells fields)

include h

/-- A field with a reading rule of its own. -/
theorem requiredBy {read : Value → Option α} {v : Value} {a : α} (name : String)
    (hl : fields.lookup name = some v) (hread : ∀ v', v.Retold v' → read v' = some a) :
    f.requiredBy read name = some a := by
  obtain ⟨v', hfind, htold⟩ := h.present hl
  rw [Fields.requiredBy, hfind, Option.bind_some, hread v' htold]

theorem orElse {read : Value → Option α} {v : Value} {a d : α} (name : String)
    (hl : fields.lookup name = some v) (hread : ∀ v', v.Retold v' → read v' = some a) :
    f.orElse read name d = some a := by
  obtain ⟨v', hfind, htold⟩ := h.present hl
  rw [Fields.orElse, hfind]
  exact hread v' htold

variable [Wire α]

theorem requiredOf {a : α} (name : String) (ha : Told m a)
    (hl : fields.lookup name = some (encode a)) : f.required m name = some a :=
  h.requiredBy name hl ha

theorem withDefaultOf {a d : α} (name : String) (ha : Told m a)
    (hl : fields.lookup name = some (encode a)) : f.withDefault m name d = some a :=
  h.orElse name hl ha

theorem required [Faithful m α] (name : String) (a : α)
    (hl : fields.lookup name = some (encode a)) :
    f.required m name = some a := h.requiredOf name (Faithful.told a) hl

theorem withDefault [Faithful m α] (name : String) (a d : α)
    (hl : fields.lookup name = some (encode a)) : f.withDefault m name d = some a :=
  h.withDefaultOf name (Faithful.told a) hl

/-- A field that was left out. -/
theorem leftOut (name : String) (d : α) (hname : name ∉ fields.map (·.1)) :
    f.withDefault m name d = some d := by
  rw [Fields.withDefault, Fields.orElse, h.absent hname]

end Fields.Tells

/-- A field that may be left out stands there if there is something to write. -/
theorem unlessNull_option [Wire α] (name : String) (o : Option α)
    (h : ∀ a : α, encode a ≠ .null) :
    unlessNull name (encode o) = o.toList.map fun a => (name, encode a) := by
  cases o with
  | none => rfl
  | some a =>
    have hne := h a
    show unlessNull name (encode a) = [(name, encode a)]
    generalize encode a = v at hne
    cases v with
    | null => exact absurd rfl hne
    | _ => rfl

/-! ## Tagged records -/

theorem isTagKey_text (s : String) : isTagKey (.text s) = (s == "type") := by
  simp [isTagKey, text?]

/-- The fields of a record that has none under the tag's key are not the tag. -/
theorem filter_isTagKey {fields : List (String × Value)} (h : "type" ∉ fields.map (·.1)) :
    (texts fields).filter (fun e => isTagKey e.1) = [] ∧
      (texts fields).filter (fun e => !isTagKey e.1) = texts fields := by
  have hkey : ∀ e ∈ texts fields, isTagKey e.1 = false := by
    intro e he
    obtain ⟨field, hfield, rfl⟩ := List.mem_map.1 he
    rw [isTagKey_text, beq_eq_false_iff_ne]
    intro heq
    exact h (List.mem_map.2 ⟨field, hfield, heq⟩)
  refine ⟨List.filter_eq_nil_iff.2 fun e he => ?_, List.filter_eq_self.2 fun e he => ?_⟩
  · rw [hkey e he]
    exact Bool.false_ne_true
  · rw [hkey e he]
    rfl

/-- A tagged record gives its tag and its fields. -/
theorem untag?_of_retold {tags : List String} {tag : String} {fields : List (String × Value)}
    {v : Value} (h : (taggedRecord tag fields).Retold v) (htag : tag ∈ tags)
    (htype : "type" ∉ fields.map (·.1)) :
    ∃ v', untag? m tags v = some (tag, v') ∧ (Value.record fields).Retold v' := by
  have hreadable := h.isReadable
  change (Value.map ((.text "type", .text tag) :: texts fields)).Retold v at h
  rw [Retold] at h
  obtain ⟨_, told, hentries, hreordered, rfl⟩ := h
  rw [RetoldEntries] at hentries
  obtain ⟨k', x', rest', hk, hx, hrest, rfl⟩ := hentries
  obtain rfl : k' = .text "type" := hk
  obtain rfl : x' = .text tag := hx
  obtain ⟨fields', rfl, hkeys, _⟩ := exists_texts hrest
  obtain ⟨hnone, hall⟩ := @filter_isTagKey fields' (hkeys ▸ htype)
  have hperm := hreordered.perm
  have hfirst : told.filter (fun e => isTagKey e.1) = [(.text "type", .text tag)] := by
    refine List.perm_singleton.1 ((hperm.filter _).trans ?_)
    rw [List.filter_cons_of_pos (by rw [isTagKey_text]; rfl), hnone]
  have hothers : Reordered (texts fields') (told.filter fun e => !isTagKey e.1) := by
    have hcons : (((.text "type", .text tag) :: texts fields').filter fun e => !isTagKey e.1) =
        texts fields' := by
      rw [List.filter_cons_of_neg (by rw [isTagKey_text]; decide), hall]
    rcases hreordered with rfl | ⟨all, heq, nodup, _⟩
    · exact .inl hcons
    · refine .inr ⟨fields', rfl, ?_, ?_⟩
      · obtain rfl : all = ("type", .text tag) :: fields' := texts_injective heq.symm
        exact (List.nodup_cons.1 nodup).2
      · rw [← hcons]
        exact hperm.filter _
  refine ⟨.map (told.filter fun e => !isTagKey e.1), ?_, ⟨_, _, hrest, hothers, rfl⟩⟩
  have hnamed : tagNamed? m tags (.text tag) = some tag := by
    simp [tagNamed?, naming?, htag]
  simp only [untag?, List.partition_eq_filter_filter, hreadable, Bool.not_true, Bool.and_false,
    hfirst]
  rw [hnamed]
  rfl

/-- A tagged record comes back if reading gives it from its tag and whatever comes back of its
fields. -/
theorem read_tagged {tags : List String} {tag : String} {fields : List (String × Value)}
    {v : Value} {next : String × Value → Option α} {a : α} (h : (taggedRecord tag fields).Retold v)
    (htag : tag ∈ tags) (htype : "type" ∉ fields.map (·.1))
    (hnext : ∀ v', (Value.record fields).Retold v' → next (tag, v') = some a) :
    (untag? m tags v >>= next) = some a := by
  obtain ⟨v', hv', hfields⟩ := untag?_of_retold (m := m) h htag htype
  rw [hv']
  exact hnext v' hfields

end Adventure.Wire
