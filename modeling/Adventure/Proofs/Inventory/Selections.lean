import Adventure.Proofs.Inventory.Replacing
import Adventure.World.Events

/-!
# Selections of owned items

No item is owned twice, and what is active or being used is owned.  `Inventory.Sound` says so.  Each
operation keeps it: an item that goes takes its selections with it, and nothing is selected that is
not owned.  The second item of a combination is left out, since it may be picked before it is owned.
-/

namespace Adventure

namespace Inventory

variable {inv : Inventory} {selected : Inventory → Int32}

/-- What is selected is owned. -/
def IsHeld (inv : Inventory) (selected : Inventory → Int32) : Prop :=
  selected inv = 0 ∨ selected inv ∈ inv.items

instance : Decidable (inv.IsHeld selected) := inferInstanceAs (Decidable (_ ∨ _))

/-- What is meant to hold of every inventory. -/
structure Sound (inv : Inventory) : Prop where
  nodup : inv.items.Nodup
  active : inv.IsHeld activeItem
  event : inv.IsHeld eventItem

theorem isSelection_activeItem : IsSelection activeItem := isSelection_of_mem (by simp [selections])

theorem isSelection_eventItem : IsSelection eventItem := isSelection_of_mem (by simp [selections])

/-! ## Operations -/

theorem add_cases (inv : Inventory) (id : Int32) :
    (inv.add id).2 = inv ∨
      id ≠ 0 ∧ id ∉ inv.items ∧ (inv.add id).2 = { inv with items := inv.items ++ [id] } := by
  unfold add
  split
  · exact .inl rfl
  · next h =>
    obtain ⟨hid, hnew⟩ : id ≠ 0 ∧ ¬ inv.owns id = true := by simpa using h
    exact .inr ⟨hid, owns_iff.not.1 hnew, rfl⟩

theorem remove_cases (inv : Inventory) (id : Int32) :
    (inv.remove id).2 = inv ∨
      id ∈ inv.items ∧
        (inv.remove id).2 = { inv with items := inv.items.erase id }.deselect id := by
  unfold remove
  split
  · next h => exact .inr ⟨owns_iff.1 h, rfl⟩
  · exact .inl rfl

theorem items_remove (inv : Inventory) (id : Int32) :
    (inv.remove id).2.items = inv.items.erase id := by
  unfold remove
  split
  · rfl
  · next h => exact (List.erase_of_not_mem (owns_iff.not.1 h)).symm

namespace IsHeld

variable (selection : IsSelection selected)

include selection

theorem add (h : inv.IsHeld selected) (id : Int32) : (inv.add id).2.IsHeld selected := by
  rcases inv.add_cases id with heq | ⟨_, _, heq⟩
  · rwa [heq]
  · rw [heq, IsHeld, selection.of_items]
    exact h.imp_right (List.mem_append_left _)

/-- The item that goes is no longer selected, and all others are still owned. -/
theorem remove (h : inv.IsHeld selected) (id : Int32) : (inv.remove id).2.IsHeld selected := by
  rcases inv.remove_cases id with heq | ⟨_, heq⟩
  · rwa [heq]
  · rw [heq, IsHeld, selection.deselect, selection.of_items]
    split
    · exact .inl rfl
    · next hother => exact h.imp_right (List.mem_erase_of_ne hother).2

omit selection in
theorem replace {id : Int32} {replaced : List Int32} {inv' : Inventory}
    (h : inv.IsHeld selected) (mem : selected ∈ selections)
    (replaces : inv.Replaces id replaced inv') : inv'.IsHeld selected := by
  rw [IsHeld, replaces.selected selected mem]
  split
  · exact .inl rfl
  · next hstays =>
    refine h.imp_right fun howned => ?_
    by_contra hgone
    exact hstays ⟨howned, hgone⟩

end IsHeld

namespace Sound

variable (h : inv.Sound)

theorem empty : Sound .empty := ⟨.nil, .inl rfl, .inl rfl⟩

include h

theorem add (id : Int32) : (inv.add id).2.Sound := by
  refine ⟨?_, h.active.add isSelection_activeItem id, h.event.add isSelection_eventItem id⟩
  rcases inv.add_cases id with heq | ⟨_, hnew, heq⟩
  · rw [heq]
    exact h.nodup
  · rw [heq]
    exact List.nodup_append_comm.1 (List.nodup_cons.2 ⟨hnew, h.nodup⟩)

theorem remove (id : Int32) : (inv.remove id).2.Sound := by
  refine ⟨?_, h.active.remove isSelection_activeItem id, h.event.remove isSelection_eventItem id⟩
  rw [items_remove]
  exact h.nodup.erase id

theorem replace (id : Int32) (replaced : List Int32) : (inv.replace id replaced).Sound := by
  have hreplaces := replaces_replace h.nodup id replaced
  refine ⟨hreplaces.nodup, h.active.replace ?_ hreplaces, h.event.replace ?_ hreplaces⟩
  all_goals simp [selections]

theorem activate (id : Int32) : (inv.activate id).2.Sound := by
  unfold Inventory.activate
  split
  · next howned => exact ⟨h.nodup, .inr (owns_iff.1 howned), h.event⟩
  · exact h

theorem deactivate : inv.deactivate.Sound := ⟨h.nodup, .inl rfl, h.event⟩

theorem setEventItem {id : Int32} (owned : id ∈ inv.items) : (inv.setEventItem id).Sound :=
  ⟨h.nodup, h.active, .inr owned⟩

theorem setCombineItem (id : Int32) : (inv.setCombineItem id).Sound := ⟨h.nodup, h.active, h.event⟩

end Sound

end Inventory

namespace World

variable (w : World) (project : Project)

/-- The script of an item is only started where the item is owned. -/
theorem inventory_startItem (id : Int32) :
    (w.startItem project id).2.inventory = w.inventory ∨
      id ∈ w.inventory.items ∧
        (w.startItem project id).2.inventory = w.inventory.setEventItem id := by
  unfold startItem
  split
  · exact .inl rfl
  · split
    · exact .inl rfl
    · split
      · exact .inl rfl
      · next howned =>
        exact .inr ⟨Inventory.owns_iff.1 (by simpa using howned), rfl⟩

theorem inventory_startCombine (first second : Int32) :
    (w.startCombine project first second).2.inventory = w.inventory ∨
      (w.startCombine project first second).2.inventory = w.inventory.setCombineItem second := by
  unfold startCombine
  split
  · exact .inl rfl
  · split
    · exact .inl rfl
    · exact .inr rfl

theorem sound_startItem (h : w.inventory.Sound) (id : Int32) :
    (w.startItem project id).2.inventory.Sound := by
  rcases w.inventory_startItem project id with heq | ⟨howned, heq⟩
  · rwa [heq]
  · rw [heq]
    exact h.setEventItem howned

theorem sound_startCombine (h : w.inventory.Sound) (first second : Int32) :
    (w.startCombine project first second).2.inventory.Sound := by
  rcases w.inventory_startCombine project first second with heq | heq
  · rwa [heq]
  · rw [heq]
    exact h.setCombineItem second

end World

/-! ## Inventories that come about -/

/-- What can become of the empty inventory.  Scripts of items and combinations are started in any
world with such an inventory. -/
inductive Inventory.Attained : Inventory → Prop where
  | empty : Attained .empty
  | add {inv : Inventory} (attained : Attained inv) (id : Int32) : Attained (inv.add id).2
  | remove {inv : Inventory} (attained : Attained inv) (id : Int32) : Attained (inv.remove id).2
  | replace {inv : Inventory} (attained : Attained inv) (id : Int32) (replaced : List Int32) :
      Attained (inv.replace id replaced)
  | activate {inv : Inventory} (attained : Attained inv) (id : Int32) : Attained (inv.activate id).2
  | deactivate {inv : Inventory} (attained : Attained inv) : Attained inv.deactivate
  | startItem {w : World} (attained : Attained w.inventory) (project : Project) (id : Int32) :
      Attained (w.startItem project id).2.inventory
  | startCombine {w : World} (attained : Attained w.inventory) (project : Project)
      (first second : Int32) : Attained (w.startCombine project first second).2.inventory

/-- Whatever is done, no item is owned twice, and what is active or being used is owned. -/
theorem Inventory.Attained.sound {inv : Inventory} (h : Attained inv) : inv.Sound := by
  induction h with
  | empty => exact .empty
  | add _ id ih => exact ih.add id
  | remove _ id ih => exact ih.remove id
  | replace _ id replaced ih => exact ih.replace id replaced
  | activate _ id ih => exact ih.activate id
  | deactivate _ ih => exact ih.deactivate
  | @startItem w _ project id ih => exact w.sound_startItem project ih id
  | @startCombine w _ project first second ih => exact w.sound_startCombine project ih first second

/-- Of three items the second is active and the third is being used.  Then the second one takes the
place of itself and of the third one, which is no longer used. -/
theorem Inventory.sound_in_use :
    let project : Project := { (default : Project) with items := [⟨4, "", "", 0, []⟩] }
    let stage : Stage :=
      ⟨1, 1, .player 0 0 "" Speed.playerDefault, [], .empty, [], [], none, false⟩
    let owned := (((Inventory.empty.add 1).2.add 2).2.add 4).2
    let w : World := { World.ofProgress (.fresh stage) 1 with inventory := (owned.activate 2).2 }
    let used := (w.startItem project 4).2.inventory
    used = ⟨[1, 2, 4], 2, 4, 0⟩ ∧ Attained (used.replace 2 [9, 4, 2, 4]) ∧
      used.replace 2 [9, 4, 2, 4] = ⟨[1, 2], 2, 0, 0⟩ ∧ Sound ⟨[1, 2], 2, 0, 0⟩ := by
  intro project stage owned w used
  have howned : Attained owned := ((Attained.empty.add 1).add 2).add 4
  have hactive : Attained w.inventory := howned.activate 2
  have hattained : Attained (used.replace 2 [9, 4, 2, 4]) :=
    (hactive.startItem project 4).replace 2 [9, 4, 2, 4]
  have hreplace : used.replace 2 [9, 4, 2, 4] = ⟨[1, 2], 2, 0, 0⟩ := by decide
  exact ⟨by decide, hattained, hreplace, hreplace ▸ Attained.sound hattained⟩

end Adventure
