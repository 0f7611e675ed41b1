import Mathlib.Data.List.Nodup
import Adventure.World.Inventory

/-!
# Putting an item in the place of others

`Inventory.replace` looks for the place first, takes the replaced items away one after the
other, and then puts in the new one.  The items before the place are all kept, so it is still
right when the others have gone.  `Inventory.Replaces` says what comes out, without the order in
which it is done.
-/

namespace Adventure.Inventory

variable {inv : Inventory} {id : Int32} {replaced : List Int32}

theorem owns_iff : inv.owns id = true ↔ id ∈ inv.items := List.contains_iff_mem

/-! ## Selections -/

/-- The three selections. -/
def selections : List (Inventory → Int32) := [activeItem, eventItem, combineItem]

/-- A selection stays what it is whatever becomes of the items, but that it is undone with
its item. -/
structure IsSelection (selected : Inventory → Int32) : Prop where
  of_items (inv : Inventory) (items : List Int32) : selected { inv with items } = selected inv
  deselect (inv : Inventory) (id : Int32) :
    selected (inv.deselect id) = if selected inv = id then 0 else selected inv

theorem isSelection_of_mem {selected : Inventory → Int32} (h : selected ∈ selections) :
    IsSelection selected := by
  simp only [selections, List.mem_cons, List.not_mem_nil, or_false] at h
  rcases h with rfl | rfl | rfl <;> exact ⟨fun _ _ => rfl, fun _ _ => rfl⟩

/-! ## Taking items away -/

/-- Whether an item stays when others are replaced by `id`. -/
def Stays (id : Int32) (replaced : List Int32) (item : Int32) : Prop := item = id ∨ item ∉ replaced

instance : DecidablePred (Stays id replaced) := fun _ => inferInstanceAs (Decidable (_ ∨ _))

theorem stays_cons (id old : Int32) (rest : List Int32) (item : Int32) :
    Stays id (old :: rest) item ↔ Stays id [old] item ∧ Stays id rest item := by
  simp only [Stays, List.mem_cons, List.not_mem_nil, or_false, not_or]
  tauto

/-- An item is discarded if it is owned and does not stay. -/
theorem discard_cases (id old : Int32) (inv : Inventory) :
    ((old ∈ inv.items ∧ ¬ Stays id [old] old) ∧
      discard id inv old = { inv with items := inv.items.filter (· ≠ old) }.deselect old) ∨
    ¬ (old ∈ inv.items ∧ ¬ Stays id [old] old) ∧ discard id inv old = inv := by
  have hgoes : (decide (old ≠ id) && inv.owns old) = true ↔
      old ∈ inv.items ∧ ¬ Stays id [old] old := by
    simp [Stays, owns_iff, and_comm]
  unfold discard
  split
  · next h => exact .inl ⟨hgoes.1 h, rfl⟩
  · next h => exact .inr ⟨fun hgone => h (hgoes.2 hgone), rfl⟩

theorem items_discard (id old : Int32) (inv : Inventory) :
    (discard id inv old).items = inv.items.filter (Stays id [old]) := by
  have hother : ∀ item, item ≠ old → Stays id [old] item :=
    fun item hne => .inr (by simpa using hne)
  rcases discard_cases id old inv with ⟨⟨_, hgoes⟩, heq⟩ | ⟨hstays, heq⟩
  · rw [heq]
    refine List.filter_congr fun item _ => ?_
    rw [decide_eq_decide]
    exact ⟨hother item, fun h hitem => hgoes (hitem ▸ h)⟩
  · rw [heq]
    refine (List.filter_eq_self.2 fun item hitem => ?_).symm
    rw [decide_eq_true_eq]
    by_cases hold : item = old
    · subst hold
      exact not_not.1 fun hgoes => hstays ⟨hitem, hgoes⟩
    · exact hother item hold

theorem selected_discard {selected : Inventory → Int32} (h : IsSelection selected)
    (id old : Int32) (inv : Inventory) :
    selected (discard id inv old) =
      if selected inv ∈ inv.items ∧ ¬ Stays id [old] (selected inv) then 0 else selected inv := by
  rcases discard_cases id old inv with ⟨hgoes, heq⟩ | ⟨hstays, heq⟩
  · rw [heq, h.deselect, h.of_items]
    refine if_congr ⟨fun hold => hold ▸ hgoes, fun hgone => ?_⟩ rfl rfl
    by_contra hne
    exact hgone.2 (.inr (by simpa using hne))
  · rw [heq, if_neg]
    intro hgone
    by_cases hold : selected inv = old
    · exact hstays (hold ▸ hgone)
    · exact hgone.2 (.inr (by simpa using hold))

/-- The replaced items go, one after the other. -/
theorem items_discardAll (id : Int32) (replaced : List Int32) (inv : Inventory) :
    (replaced.foldl (discard id) inv).items = inv.items.filter (Stays id replaced) := by
  induction replaced generalizing inv with
  | nil => exact (List.filter_eq_self.2 fun item _ => by simp [Stays]).symm
  | cons old rest ih =>
    rw [List.foldl_cons, ih, items_discard, List.filter_filter]
    refine List.filter_congr fun item _ => ?_
    simp only [stays_cons id old rest item, Bool.decide_and, Bool.and_comm]

/-- A selection is undone exactly if its item goes. -/
theorem selected_discardAll {selected : Inventory → Int32} (h : IsSelection selected)
    (id : Int32) (replaced : List Int32) (inv : Inventory) :
    selected (replaced.foldl (discard id) inv) =
      if selected inv ∈ inv.items ∧ ¬ Stays id replaced (selected inv) then 0
      else selected inv := by
  induction replaced generalizing inv with
  | nil => simp [Stays]
  | cons old rest ih =>
    simp only [List.foldl_cons, ih, items_discard, selected_discard h, List.mem_filter,
      decide_eq_true_eq, stays_cons id old rest]
    by_cases hgoes : selected inv ∈ inv.items ∧ ¬ Stays id [old] (selected inv)
    · rw [if_pos hgoes, ite_self, if_pos ⟨hgoes.1, fun hstays => hgoes.2 hstays.1⟩]
    · simp only [if_neg hgoes]
      refine if_congr ?_ rfl rfl
      tauto

/-! ## The new item -/

/-- What an inventory becomes when an item is put in the place of others. -/
structure Replaces (inv : Inventory) (id : Int32) (replaced : List Int32) (inv' : Inventory) :
    Prop where
  owned (item : Int32) : item ∈ inv'.items ↔ item ∈ inv.items ∧ item ∉ replaced ∨ item = id
  nodup : inv'.items.Nodup
  /-- All others that are left stand in the order in which they stood. -/
  order : inv'.items.filter (· ≠ id) = inv.items.filter fun item => item ≠ id ∧ item ∉ replaced
  selected (selected : Inventory → Int32) : selected ∈ selections →
    selected inv' =
      if selected inv ∈ inv.items ∧ selected inv ∉ inv'.items then 0 else selected inv
  /-- A new item stands where the first replaced one stood. -/
  inPlace : id ∉ inv.items → (∃ item ∈ replaced, item ∈ inv.items) →
    ∃ before first later, inv.items = before ++ first :: later ∧ first ∈ replaced ∧
      (∀ item ∈ before, item ∉ replaced) ∧
      inv'.items = before ++ id :: later.filter (· ∉ replaced)
  /-- Where none of the replaced ones was owned a new item comes last. -/
  atEnd : id ∉ inv.items → (∀ item ∈ replaced, item ∉ inv.items) →
    inv'.items = inv.items ++ [id]
  /-- An item that was owned keeps its place. -/
  stays : id ∈ inv.items → ∃ before later, inv.items = before ++ id :: later ∧
    inv'.items = before.filter (· ∉ replaced) ++ id :: later.filter (· ∉ replaced)

/-- The first of the replaced items that are owned. -/
theorem exists_first (h : ∃ item ∈ replaced, item ∈ inv.items) :
    ∃ before first later, inv.items = before ++ first :: later ∧ first ∈ replaced ∧
      ∀ item ∈ before, item ∉ replaced := by
  obtain ⟨item, hreplaced, hitem⟩ := h
  have hsome : (inv.items.find? (replaced.contains ·)).isSome :=
    List.find?_isSome.2 ⟨item, hitem, List.contains_iff_mem.2 hreplaced⟩
  obtain ⟨first, hfirst⟩ := Option.isSome_iff_exists.1 hsome
  obtain ⟨hlisted, before, later, hitems, hbefore⟩ := List.find?_eq_some_iff_append.1 hfirst
  refine ⟨before, first, later, hitems, List.contains_iff_mem.1 hlisted, fun item hitem => ?_⟩
  simpa using hbefore item hitem

/-- Where no item is called `id`, those stay that are not replaced. -/
theorem filter_stays {items : List Int32} (new : id ∉ items) :
    items.filter (Stays id replaced) = items.filter (· ∉ replaced) := by
  refine List.filter_congr fun item hitem => ?_
  rw [decide_eq_decide]
  exact ⟨fun h => h.resolve_left fun heq => new (heq ▸ hitem), .inr⟩

theorem items_replace_of_owned (h : id ∈ inv.items) :
    (inv.replace id replaced).items = inv.items.filter (Stays id replaced) := by
  have howned : (replaced.foldl (discard id) inv).owns id = true := by
    rw [owns_iff, items_discardAll]
    exact List.mem_filter.2 ⟨h, decide_eq_true (.inl rfl)⟩
  unfold replace
  dsimp only
  rw [if_pos howned, items_discardAll]

theorem not_owns_discardAll (new : id ∉ inv.items) :
    ¬ (replaced.foldl (discard id) inv).owns id = true := by
  rw [owns_iff, items_discardAll, List.mem_filter]
  exact fun h => new h.1

/-- The place of the first replaced item is still right when all of them have gone, since nothing
before it goes. -/
theorem items_replace_of_first {before later : List Int32} {first : Int32} (new : id ∉ inv.items)
    (items : inv.items = before ++ first :: later) (hfirst : first ∈ replaced)
    (hbefore : ∀ item ∈ before, item ∉ replaced) :
    (inv.replace id replaced).items = before ++ id :: later.filter (· ∉ replaced) := by
  have hslot : inv.items.findIdx? (replaced.contains ·) = some before.length := by
    have hnone : before.findIdx? (replaced.contains ·) = none :=
      List.findIdx?_eq_none_iff.2 fun item hitem => by simpa using hbefore item hitem
    rw [items, List.findIdx?_append, hnone, List.findIdx?_cons,
      if_pos (List.contains_iff_mem.2 hfirst)]
    simp
  have hkept : (replaced.foldl (discard id) inv).items =
      before ++ later.filter (· ∉ replaced) := by
    rw [items_discardAll, filter_stays new, items, List.filter_append, List.filter_cons_of_neg
      (by simpa using hfirst)]
    congr 1
    exact List.filter_eq_self.2 fun item hitem => decide_eq_true (hbefore item hitem)
  have hlength :
      min before.length (before ++ later.filter (· ∉ replaced)).length = before.length := by
    simp
  unfold replace
  dsimp only
  rw [if_neg (not_owns_discardAll new), hslot]
  dsimp only
  rw [hkept, hlength]
  exact List.modifyTailIdx_add (List.cons id) 0 before _

theorem items_replace_of_none (new : id ∉ inv.items) (none : ∀ item ∈ replaced, item ∉ inv.items) :
    (inv.replace id replaced).items = inv.items ++ [id] := by
  have hother : ∀ item ∈ inv.items, item ∉ replaced := fun item hitem h => none item h hitem
  have hslot : inv.items.findIdx? (replaced.contains ·) = .none :=
    List.findIdx?_eq_none_iff.2 fun item hitem => by simpa using hother item hitem
  have hkept : (replaced.foldl (discard id) inv).items = inv.items := by
    rw [items_discardAll, filter_stays new]
    exact List.filter_eq_self.2 fun item hitem => decide_eq_true (hother item hitem)
  unfold replace
  dsimp only
  rw [if_neg (not_owns_discardAll new), hslot]
  simp [hkept]

/-- Owned afterwards are the items that were not replaced, and the new one. -/
theorem mem_items_replace (id : Int32) (replaced : List Int32) (item : Int32) :
    item ∈ (inv.replace id replaced).items ↔ item ∈ inv.items ∧ item ∉ replaced ∨ item = id := by
  by_cases howned : id ∈ inv.items
  · rw [items_replace_of_owned howned, List.mem_filter, decide_eq_true_eq, Stays]
    refine ⟨fun h => h.2.symm.imp_left fun hstays => ⟨h.1, hstays⟩, ?_⟩
    rintro (⟨hitem, hstays⟩ | rfl)
    · exact ⟨hitem, .inr hstays⟩
    · exact ⟨howned, .inl rfl⟩
  · by_cases hsome : ∃ item ∈ replaced, item ∈ inv.items
    · obtain ⟨before, first, later, hitems, hfirst, hbefore⟩ := exists_first hsome
      rw [items_replace_of_first howned hitems hfirst hbefore, hitems]
      have hstays : item ∈ before → item ∉ replaced := hbefore item
      have hgoes : item = first → item ∈ replaced := fun heq => heq ▸ hfirst
      simp only [List.mem_append, List.mem_cons, List.mem_filter, decide_eq_true_eq]
      tauto
    · have hnone : ∀ item ∈ replaced, item ∉ inv.items := by simpa using hsome
      rw [items_replace_of_none howned hnone, List.mem_append, List.mem_singleton]
      exact or_congr_left (iff_self_and.2 fun hitem h => hnone item h hitem)

theorem selected_replace {selected : Inventory → Int32} (h : IsSelection selected) :
    selected (inv.replace id replaced) = selected (replaced.foldl (discard id) inv) := by
  unfold replace
  dsimp only
  split
  · rfl
  · split <;> exact h.of_items _ _

/-- The items other than `id` that are not replaced. -/
def others (id : Int32) (replaced items : List Int32) : List Int32 :=
  items.filter fun item => item ≠ id ∧ item ∉ replaced

theorem others_of_new {items : List Int32} (new : id ∉ items) :
    others id replaced items = items.filter (· ∉ replaced) := by
  refine List.filter_congr fun item hitem => ?_
  rw [decide_eq_decide, and_iff_right]
  exact fun heq => new (heq ▸ hitem)

/-- An item that was owned keeps its place. -/
theorem items_replace_of_append {before later : List Int32} (nodup : inv.items.Nodup)
    (items : inv.items = before ++ id :: later) :
    (inv.replace id replaced).items =
        before.filter (· ∉ replaced) ++ id :: later.filter (· ∉ replaced) ∧
      others id replaced inv.items =
        before.filter (· ∉ replaced) ++ later.filter (· ∉ replaced) := by
  have hother : id ∉ before ∧ id ∉ later := by
    have hmiddle := (List.nodup_cons.1 (List.nodup_middle.1 (items ▸ nodup))).1
    simpa using hmiddle
  have howned : id ∈ inv.items := items ▸ List.mem_append_right _ List.mem_cons_self
  constructor
  · rw [items_replace_of_owned howned, items, List.filter_append,
      List.filter_cons_of_pos (by simp [Stays]), filter_stays hother.1, filter_stays hother.2]
  · rw [items, others, List.filter_append, List.filter_cons_of_neg (by simp)]
    exact congrArg₂ _ (others_of_new hother.1) (others_of_new hother.2)

/-- The new item stands somewhere among the others, which have not moved. -/
theorem exists_items_replace (nodup : inv.items.Nodup) (id : Int32) (replaced : List Int32) :
    ∃ before later, (inv.replace id replaced).items = before ++ id :: later ∧
      others id replaced inv.items = before ++ later := by
  by_cases howned : id ∈ inv.items
  · obtain ⟨before, later, hitems⟩ := List.append_of_mem howned
    exact ⟨_, _, items_replace_of_append nodup hitems⟩
  · rw [others_of_new howned]
    by_cases hsome : ∃ item ∈ replaced, item ∈ inv.items
    · obtain ⟨before, first, later, hitems, hfirst, hbefore⟩ := exists_first hsome
      refine ⟨before, _, items_replace_of_first howned hitems hfirst hbefore, ?_⟩
      rw [hitems, List.filter_append, List.filter_cons_of_neg (by simpa using hfirst)]
      congr 1
      exact List.filter_eq_self.2 fun item hitem => decide_eq_true (hbefore item hitem)
    · have hnone : ∀ item ∈ replaced, item ∉ inv.items := by simpa using hsome
      refine ⟨inv.items, [], items_replace_of_none howned hnone, ?_⟩
      rw [List.append_nil, List.filter_eq_self]
      exact fun item hitem => decide_eq_true fun h => hnone item h hitem

/-- An item takes the place of others as it should, wherever no item is owned twice. -/
theorem replaces_replace (nodup : inv.items.Nodup) (id : Int32) (replaced : List Int32) :
    inv.Replaces id replaced (inv.replace id replaced) := by
  obtain ⟨before, later, hitems, hothers⟩ := exists_items_replace nodup id replaced
  have hnew : id ∉ before ++ later := by
    rw [← hothers, others, List.mem_filter, decide_eq_true_eq]
    exact fun h => h.2.1 rfl
  refine ⟨mem_items_replace id replaced, ?_, ?_, fun selected hmem => ?_, fun new some => ?_,
    items_replace_of_none, ?_⟩
  · rw [hitems, List.nodup_middle, List.nodup_cons]
    exact ⟨hnew, hothers ▸ nodup.filter _⟩
  · rw [hitems, List.filter_append, List.filter_cons_of_neg (by simp), ← List.filter_append]
    refine (List.filter_eq_self.2 fun item hitem => ?_).trans hothers.symm
    exact decide_eq_true fun heq => hnew (heq ▸ hitem)
  · have hselection := isSelection_of_mem hmem
    rw [selected_replace hselection, selected_discardAll hselection]
    refine if_congr (and_congr_right fun hitem => not_congr ?_) rfl rfl
    rw [mem_items_replace, Stays, or_comm, and_iff_right hitem]
  · obtain ⟨before, first, later, hitems, hfirst, hbefore⟩ := exists_first some
    exact ⟨before, first, later, hitems, hfirst, hbefore,
      items_replace_of_first new hitems hfirst hbefore⟩
  · intro hmem
    obtain ⟨before, later, hitems⟩ := List.append_of_mem hmem
    exact ⟨before, later, hitems, (items_replace_of_append nodup hitems).1⟩

/-- Items 2 and 4 make room for 9, which is to replace itself as well, and an item that is
not owned. -/
theorem replaces_two_of_four :
    let inv : Inventory := ⟨[1, 2, 3, 4], 4, 3, 7⟩
    inv.items.Nodup ∧ inv.replace 9 [7, 4, 9, 2, 4] = ⟨[1, 9, 3], 0, 3, 7⟩ ∧
      inv.Replaces 9 [7, 4, 9, 2, 4] ⟨[1, 9, 3], 0, 3, 7⟩ := by
  intro inv
  have hnodup : inv.items.Nodup := by decide
  have hreplace : inv.replace 9 [7, 4, 9, 2, 4] = ⟨[1, 9, 3], 0, 3, 7⟩ := by decide
  exact ⟨hnodup, hreplace, hreplace ▸ replaces_replace hnodup 9 [7, 4, 9, 2, 4]⟩

end Adventure.Inventory
