import Adventure.Wire.Value
import Adventure.SortedMap

/-!
# Maps and the order of their entries

Entries with different keys make the same map in whatever order they come, and a map lists them in
key order.  A tree in plain form keeps its entries the way a map from texts does.
-/

namespace Adventure

/-- A list that is read item by item gives the same in another order. -/
theorem mapM_perm {α β : Type} {f : α → Option β} {l l' : List α} (h : l.Perm l') :
    ∀ {r : List β}, l.mapM f = some r → ∃ r', l'.mapM f = some r' ∧ r.Perm r' := by
  induction h with
  | nil => exact fun hr => ⟨_, hr, .refl _⟩
  | cons a _ ih =>
    intro r hr
    simp only [List.mapM_cons, Option.bind_eq_bind, Option.bind_eq_some_iff] at hr ⊢
    obtain ⟨b, hb, rest, hrest, hr⟩ := hr
    obtain rfl := Option.some.inj hr
    obtain ⟨rest', hrest', hperm⟩ := ih hrest
    exact ⟨b :: rest', ⟨b, hb, rest', hrest', rfl⟩, hperm.cons _⟩
  | swap a a' rest =>
    intro r hr
    simp only [List.mapM_cons, Option.bind_eq_bind, Option.bind_eq_some_iff] at hr ⊢
    obtain ⟨b', hb', _, ⟨b, hb, others, hothers, heq⟩, hr⟩ := hr
    obtain rfl := Option.some.inj heq
    obtain rfl := Option.some.inj hr
    exact ⟨b :: b' :: others, ⟨b, hb, b' :: others, ⟨b', hb', others, hothers, rfl⟩, rfl⟩, .swap ..⟩
  | trans _ _ ih ih' =>
    intro r hr
    obtain ⟨r', hr', hperm⟩ := ih hr
    obtain ⟨r'', hr'', hperm'⟩ := ih' hr'
    exact ⟨r'', hr'', hperm.trans hperm'⟩

namespace SortedMap

variable {κ ν : Type} [Ord κ] [Std.TransOrd κ] [Std.LawfulEqOrd κ]

omit [Std.TransOrd κ] in
/-- No key of a map stands in it twice. -/
theorem nodup_keys (m : SortedMap κ ν) : (m.entries.map (·.1)).Nodup := by
  refine List.pairwise_map.2 (m.ordered.imp fun {a b} hlt heq => ?_)
  have hself : compare b.1 b.1 = .eq := Std.ReflCmp.compare_self
  rw [heq, hself] at hlt
  cases hlt

omit [Std.TransOrd κ] in
theorem place_perm {k : κ} (v : ν) {l : List (κ × ν)} (h : k ∉ l.map (·.1)) :
    (place k v l).Perm ((k, v) :: l) := by
  induction l with
  | nil => exact .refl _
  | cons hd rest ih =>
    obtain ⟨k', v'⟩ := hd
    simp only [List.map_cons, List.mem_cons, not_or] at h
    rw [place]
    split
    · exact .refl _
    · next heq => exact absurd (Std.LawfulEqCmp.eq_of_compare heq) h.1
    · exact ((ih h.2).cons _).trans (.swap ..)

/-- Entries go into a map as they are, if their keys are new. -/
theorem foldl_insert_perm (l : List (κ × ν)) (m : SortedMap κ ν) (nodup : (l.map (·.1)).Nodup)
    (new : ∀ k ∈ l.map (·.1), k ∉ m.keys) :
    (l.foldl (fun m e => m.insert e.1 e.2) m).entries.Perm (l ++ m.entries) := by
  induction l generalizing m with
  | nil => exact .refl _
  | cons e rest ih =>
    obtain ⟨k, v⟩ := e
    obtain ⟨hk, hrest⟩ := List.nodup_cons.1 nodup
    obtain ⟨hnew, hnews⟩ := List.forall_mem_cons.1 new
    have hplace : (m.insert k v).entries.Perm ((k, v) :: m.entries) := place_perm v hnew
    refine (ih (m.insert k v) hrest fun k' hk' hmem => ?_).trans ?_
    · have hmem' := (hplace.map (·.1)).mem_iff.1 hmem
      rcases List.mem_cons.1 hmem' with rfl | hmem'
      · exact hk hk'
      · exact hnews k' hk' hmem'
    · exact (hplace.append_left rest).trans List.perm_middle

theorem ofList_perm {l : List (κ × ν)} (nodup : (l.map (·.1)).Nodup) :
    (ofList l).entries.Perm l := by
  have h := foldl_insert_perm l (empty : SortedMap κ ν) nodup fun k _ hk => by cases hk
  rwa [show (empty : SortedMap κ ν).entries = [] from rfl, List.append_nil] at h

/-- A map is made of its entries, in whatever order they come. -/
theorem ofList_eq {m : SortedMap κ ν} {l : List (κ × ν)} (h : l.Perm m.entries) :
    ofList l = m := by
  have hl : (ofList l).entries.Perm m.entries :=
    (ofList_perm ((h.map (·.1)).nodup_iff.2 m.nodup_keys)).trans h
  refine ext (hl.eq_of_pairwise (fun a b _ _ hab hba => ?_) (ofList l).ordered m.ordered)
  rw [Std.OrientedCmp.gt_of_lt hab] at hba
  cases hba

theorem ofList_eq_of_perm {l l' : List (κ × ν)} (nodup : (l'.map (·.1)).Nodup)
    (h : l.Perm l') : ofList l = ofList l' := ofList_eq (h.trans (ofList_perm nodup).symm)

/-- A map has no entries but those that it is made of. -/
theorem mem_of_mem_ofList {l : List (κ × ν)} {e : κ × ν} (h : e ∈ (ofList l).entries) : e ∈ l := by
  refine List.foldlRecOn (motive := fun m : SortedMap κ ν => ∀ e ∈ m.entries, e ∈ l) l
    (fun m e => m.insert e.1 e.2) (fun _ he => by cases he) ?_ e h
  intro m hm first hfirst e he
  rcases mem_place he with rfl | he
  · exact hfirst
  · exact hm e he

/-- A set is made of its members, in whatever order they come. -/
theorem ofList_keys (s : SortedSet κ) : ofList (s.keys.map fun k => (k, ())) = s := by
  refine ofList_eq (List.Perm.of_eq ?_)
  rw [keys, List.map_map]
  exact List.map_id _

end SortedMap

namespace Wire.Value

/-- Entries with texts for keys. -/
def texts (entries : List (String × Value)) : List (Value × Value) :=
  entries.map fun e => (.text e.1, e.2)

theorem texts_injective {l l' : List (String × Value)} (h : texts l = texts l') : l = l' := by
  refine (List.map_inj_right fun e e' he => ?_).1 h
  obtain ⟨hkey, hvalue⟩ := Prod.mk.inj he
  exact Prod.ext (Value.text.inj hkey) hvalue

/-- Entries of plain data are put in order like those of a map. -/
theorem placeEntry_texts (k : String) (v : Value) (l : List (String × Value)) :
    placeEntry k v (texts l) = texts (SortedMap.place k v l) := by
  induction l with
  | nil => rfl
  | cons e rest ih =>
    obtain ⟨k', v'⟩ := e
    have hcompare : compare k k' = if k < k' then .lt else if k = k' then .eq else .gt := rfl
    show placeEntry k v ((.text k', v') :: texts rest) = _
    rw [placeEntry, SortedMap.place, hcompare, ih]
    by_cases hlt : k < k'
    · simp only [if_pos hlt]
      rfl
    · by_cases heq : k = k'
      · simp only [if_neg hlt, if_pos heq]
        rfl
      · simp only [if_neg hlt, if_neg heq]
        rfl

end Wire.Value

end Adventure
