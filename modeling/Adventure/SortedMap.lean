/-!
# Maps in key order

A finite map kept as its list of entries in strictly increasing key order.  The order is part of
the type, so two maps with the same entries are equal, and writing a map out in order loses
nothing.  `find?` is the view of a map; each operation comes with what it does to that view.
-/

namespace Adventure

/-- The entries of a finite map, in strictly increasing key order. -/
structure SortedMap (κ : Type) (ν : Type) [Ord κ] where
  entries : List (κ × ν)
  ordered : entries.Pairwise (fun a b => compare a.1 b.1 = .lt)

namespace SortedMap

variable {κ ν : Type} [Ord κ]

theorem ext {m n : SortedMap κ ν} (h : m.entries = n.entries) : m = n := by
  cases m; cases n; cases h; rfl

instance [DecidableEq κ] [DecidableEq ν] : DecidableEq (SortedMap κ ν) := fun m n =>
  if h : m.entries = n.entries then isTrue (ext h)
  else isFalse (fun e => h (e ▸ rfl))

/-- The map without entries. -/
def empty : SortedMap κ ν := ⟨[], .nil⟩

instance : Inhabited (SortedMap κ ν) := ⟨empty⟩

/-! ## Entry lists -/

/-- The value at a key in an entry list. -/
def lookup (k : κ) : List (κ × ν) → Option ν
  | [] => none
  | (k', v) :: rest => if compare k k' = .eq then some v else lookup k rest

/-- Puts an entry in its place, over an entry with the same key. -/
def place (k : κ) (v : ν) : List (κ × ν) → List (κ × ν)
  | [] => [(k, v)]
  | (k', v') :: rest =>
    match compare k k' with
    | .lt => (k, v) :: (k', v') :: rest
    | .eq => (k, v) :: rest
    | .gt => (k', v') :: place k v rest

theorem mem_place {k : κ} {v : ν} {e : κ × ν} {l : List (κ × ν)} (h : e ∈ place k v l) :
    e = (k, v) ∨ e ∈ l := by
  induction l with
  | nil => simpa [place] using h
  | cons hd rest ih =>
    obtain ⟨k', v'⟩ := hd
    rw [place] at h
    split at h
    · simpa using h
    · rcases List.mem_cons.1 h with h | h
      · exact .inl h
      · exact .inr (List.mem_cons_of_mem _ h)
    · rcases List.mem_cons.1 h with h | h
      · exact .inr (h ▸ List.mem_cons_self)
      · rcases ih h with h | h
        · exact .inl h
        · exact .inr (List.mem_cons_of_mem _ h)

variable [Std.TransOrd κ] [Std.LawfulEqOrd κ]

theorem place_pairwise (k : κ) (v : ν) {l : List (κ × ν)}
    (h : l.Pairwise (fun a b => compare a.1 b.1 = .lt)) :
    (place k v l).Pairwise (fun a b => compare a.1 b.1 = .lt) := by
  induction l with
  | nil => simp [place]
  | cons hd rest ih =>
    obtain ⟨k', v'⟩ := hd
    obtain ⟨hfirst, hrest⟩ := List.pairwise_cons.1 h
    rw [place]
    split
    · next hlt =>
      refine List.pairwise_cons.2 ⟨fun e he => ?_, h⟩
      rcases List.mem_cons.1 he with rfl | he
      · exact hlt
      · exact Std.TransCmp.lt_trans hlt (hfirst e he)
    · next heq =>
      have : k = k' := Std.LawfulEqCmp.eq_of_compare heq
      subst this
      exact List.pairwise_cons.2 ⟨hfirst, hrest⟩
    · next hgt =>
      refine List.pairwise_cons.2 ⟨fun e he => ?_, ih hrest⟩
      rcases mem_place he with rfl | he
      · exact Std.OrientedCmp.lt_of_gt hgt
      · exact hfirst e he

/-! ## Operations -/

/-- The value at a key. -/
def find? (m : SortedMap κ ν) (k : κ) : Option ν := lookup k m.entries

/-- Sets the value at a key. -/
def insert (m : SortedMap κ ν) (k : κ) (v : ν) : SortedMap κ ν :=
  ⟨place k v m.entries, place_pairwise k v m.ordered⟩

/-- Removes a key. -/
def erase (m : SortedMap κ ν) (k : κ) : SortedMap κ ν :=
  ⟨m.entries.filter (fun e => compare k e.1 ≠ .eq), m.ordered.filter _⟩

/-- Collects entries; of two entries with one key the later one stays. -/
def ofList (entries : List (κ × ν)) : SortedMap κ ν :=
  entries.foldl (fun m e => m.insert e.1 e.2) empty

/-- Whether a key is present. -/
def contains (m : SortedMap κ ν) (k : κ) : Bool := (m.find? k).isSome

def size (m : SortedMap κ ν) : Nat := m.entries.length

/-- The keys in increasing order. -/
def keys (m : SortedMap κ ν) : List κ := m.entries.map (·.1)

/-- Drops the entries with the smallest keys until at most `limit` are left. -/
def keepLargest (m : SortedMap κ ν) (limit : Nat) : SortedMap κ ν :=
  ⟨m.entries.drop (m.size - limit), m.ordered.sublist (List.drop_sublist _ _)⟩

/-! ## What the operations do to the view -/

omit [Std.TransOrd κ] in
theorem lookup_place_self (k : κ) (v : ν) (l : List (κ × ν)) : lookup k (place k v l) = some v := by
  induction l with
  | nil => simp [place, lookup]
  | cons hd rest ih =>
    rw [place]
    split
    · simp [lookup]
    · simp [lookup]
    · next hgt => simp [lookup, hgt, ih]

omit [Std.TransOrd κ] in
theorem lookup_place_of_ne {k k' : κ} (h : k' ≠ k) (v : ν) (l : List (κ × ν)) :
    lookup k' (place k v l) = lookup k' l := by
  have hc : compare k' k ≠ .eq := fun e => h (Std.LawfulEqCmp.eq_of_compare e)
  induction l with
  | nil => simp [place, lookup, hc]
  | cons hd rest ih =>
    rw [place]
    split
    · simp [lookup, hc]
    · next heq =>
      have := Std.LawfulEqCmp.eq_of_compare heq
      subst this
      simp [lookup, hc]
    · simp [lookup, ih]

@[simp] theorem find?_insert_self (m : SortedMap κ ν) (k : κ) (v : ν) :
    (m.insert k v).find? k = some v := lookup_place_self k v _

theorem find?_insert_of_ne (m : SortedMap κ ν) {k k' : κ} (h : k' ≠ k) (v : ν) :
    (m.insert k v).find? k' = m.find? k' := lookup_place_of_ne h v _

omit [Std.TransOrd κ] [Std.LawfulEqOrd κ] in
theorem lookup_filter_self (k : κ) (l : List (κ × ν)) :
    lookup k (l.filter (fun e => compare k e.1 ≠ .eq)) = none := by
  induction l with
  | nil => rfl
  | cons hd rest ih =>
    by_cases hj : compare k hd.1 = .eq
    · rw [List.filter_cons_of_neg (by simp [hj]), ih]
    · rw [List.filter_cons_of_pos (by simp [hj])]
      simpa [lookup, hj] using ih

omit [Std.TransOrd κ] in
theorem lookup_filter_of_ne {k k' : κ} (h : k' ≠ k) (l : List (κ × ν)) :
    lookup k' (l.filter (fun e => compare k e.1 ≠ .eq)) = lookup k' l := by
  induction l with
  | nil => rfl
  | cons hd rest ih =>
    by_cases hj : compare k hd.1 = .eq
    · have := Std.LawfulEqCmp.eq_of_compare hj
      subst this
      have hc : compare k' hd.1 ≠ .eq := fun e => h (Std.LawfulEqCmp.eq_of_compare e)
      rw [List.filter_cons_of_neg (by simp), ih]
      simp [lookup, hc]
    · rw [List.filter_cons_of_pos (by simp [hj])]
      simp only [lookup, ih]

omit [Std.TransOrd κ] [Std.LawfulEqOrd κ] in
@[simp] theorem find?_erase_self (m : SortedMap κ ν) (k : κ) : (m.erase k).find? k = none :=
  lookup_filter_self k _

omit [Std.TransOrd κ] in
theorem find?_erase_of_ne (m : SortedMap κ ν) {k k' : κ} (h : k' ≠ k) :
    (m.erase k).find? k' = m.find? k' := lookup_filter_of_ne h _

theorem contains_insert_iff (m : SortedMap κ ν) (k : κ) (v : ν) {k' : κ} :
    (m.insert k v).contains k' ↔ k' = k ∨ m.contains k' := by
  by_cases h : k' = k
  · simp [contains, h]
  · simp [contains, h, find?_insert_of_ne m h]

omit [Std.TransOrd κ] in
theorem contains_erase_iff (m : SortedMap κ ν) (k : κ) {k' : κ} :
    (m.erase k).contains k' ↔ k' ≠ k ∧ m.contains k' := by
  by_cases h : k' = k
  · simp [contains, h]
  · simp [contains, h, find?_erase_of_ne m h]

omit [Std.TransOrd κ] [Std.LawfulEqOrd κ] in
theorem erase_comm (m : SortedMap κ ν) (k k' : κ) :
    (m.erase k).erase k' = (m.erase k').erase k := by
  refine SortedMap.ext ?_
  simp only [erase, List.filter_filter, Bool.and_comm]

omit [Std.TransOrd κ] in
theorem erase_of_absent (m : SortedMap κ ν) {k : κ} (h : m.contains k = false) : m.erase k = m := by
  refine SortedMap.ext (List.filter_eq_self.2 ?_)
  have hlookup : lookup k m.entries = none := by simpa [contains, find?] using h
  revert hlookup
  induction m.entries with
  | nil => simp
  | cons e l ih =>
    intro hlookup
    rw [lookup] at hlookup
    split at hlookup
    · cases hlookup
    · next hne =>
      intro e' he'
      rcases List.mem_cons.1 he' with rfl | he'
      · simpa using hne
      · exact ih hlookup e' he'

end SortedMap

/-- A finite set in increasing order. -/
abbrev SortedSet (κ : Type) [Ord κ] := SortedMap κ Unit

end Adventure
