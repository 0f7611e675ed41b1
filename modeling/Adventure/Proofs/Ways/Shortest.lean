import Mathlib.Data.List.Induction
import Adventure.Proofs.Ways.Search
import Adventure.World.Stage

/-!
# Shortest ways

A search ends, and the way that it finds is a shortest one to the goal.  Where the goal cannot be
reached, the way is a shortest one to a tile closest to the goal.
-/

namespace Adventure

/-- What a way toward a goal should be. -/
structure IsBestWay (passable : Tile → Bool) (start goal : Tile) (way : List Direction) : Prop where
  /-- Every tile entered before the last step is passable, and is not the goal. -/
  clear : ∀ t ∈ (entered start way).dropLast, passable t = true ∧ t ≠ goal
  /-- If some way comes to the goal then this one does, and it is no longer. -/
  arrives : ∀ other, ComesTo passable start goal other →
    walk start way = goal ∧ way.length ≤ other.length
  /-- If none does then this one leads over passable tiles to the closest tile that can be reached
  over such tiles, and no way to a tile as close is shorter. -/
  closest : (∀ other, ¬ ComesTo passable start goal other) → IsClear passable start way ∧
    ∀ other, IsClear passable start other →
      (walk start way).distance goal ≤ (walk start other).distance goal ∧
        ((walk start other).distance goal = (walk start way).distance goal →
          way.length ≤ other.length)
  /-- There is nowhere to go from the goal itself, and from a tile than which no other that can be
  reached is closer. -/
  empty : way = [] ↔ start = goal ∨ ((∀ other, ¬ ComesTo passable start goal other) ∧
    ∀ other, IsClear passable start other → start.distance goal ≤ (walk start other).distance goal)

/-- A best way that comes to its goal does not go in circles: it never returns to its start. -/
theorem IsBestWay.eq_nil_of_walk_eq {passable : Tile → Bool} {start goal : Tile}
    {before more : List Direction} (h : IsBestWay passable start goal (before ++ more))
    (comes : walk start (before ++ more) = goal) (back : walk start before = start) :
    before = [] := by
  cases more using List.reverseRecOn with
  | nil =>
    rw [List.append_nil] at h comes
    exact h.empty.2 (.inl (back.symm.trans comes))
  | append_singleton middle d =>
    -- without the circle the way would be shorter
    have hclear : IsClear passable start middle := by
      intro t ht
      refine (h.clear t ?_).1
      rw [← List.append_assoc, dropLast_entered_concat, entered_append, back]
      exact List.mem_append_right _ ht
    have hcomes : walk start (middle ++ [d]) = goal := by
      rw [← comes, walk_append start before, back]
    have hlength := (h.arrives _ ⟨middle, d, rfl, hclear, hcomes⟩).2
    rw [List.length_append] at hlength
    exact List.length_eq_zero_iff.1 (by omega)

namespace Search

variable {start goal : Tile} {passable : Tile → Bool} {s : Search}

namespace Settled

variable (h : Settled start goal passable s)

include h in
theorem best_eq_of_mem (hgoal : goal ∈ s.found start) : s.best = goal := by
  have hle := h.closest goal hgoal
  rw [Tile.distance_self] at hle
  exact Tile.distance_eq_zero.1 (Nat.le_zero.1 hle)

include h in
theorem walk_best : walk start (wayTo s.arrivals s.best) = s.best := h.grown.walk_wayTo h.best_mem

include h in
/-- Along any way over tiles that can be entered, the search has come at least as far in as many
steps, unless it came to the goal. -/
theorem keeps_up (other : List Direction)
    (henters : ∀ t ∈ entered start other, t = goal ∨ passable t = true) :
    (walk start other ∈ s.found start ∧ s.depth (walk start other) ≤ other.length) ∨
      (goal ∈ s.found start ∧ s.depth goal ≤ other.length) := by
  induction other using List.reverseRecOn with
  | nil =>
    have hdepth : s.depth start = 0 := congrArg List.length h.grown.wayTo_start
    exact .inl ⟨start_mem_reached .., hdepth.le⟩
  | append_singleton other d ih =>
    rw [entered_concat, walk_concat] at henters
    rw [walk_concat, List.length_append, List.length_singleton]
    rcases ih fun t ht =>
      henters t (List.mem_append_left _ ht) with ⟨hmem, hdepth⟩ | ⟨hgoal, hdepth⟩
    · rcases h.looked _ hmem with hlooked | ⟨hgoal, hle⟩
      · obtain ⟨hnext, hle⟩ := hlooked d (henters _ (by simp))
        exact .inl ⟨hnext, hle.trans (Nat.succ_le_succ hdepth)⟩
      · exact .inr ⟨hgoal, (hle.trans hdepth).trans (Nat.le_succ _)⟩
    · exact .inr ⟨hgoal, hdepth.trans (Nat.le_succ _)⟩

include h in
/-- If a way comes to the goal then the search reached it, in no more steps. -/
theorem goal_mem_of_comesTo {other : List Direction} (hother : ComesTo passable start goal other) :
    goal ∈ s.found start ∧ s.depth goal ≤ other.length := by
  obtain ⟨before, d, rfl, hclear, hend⟩ := hother
  have henters : ∀ t ∈ entered start (before ++ [d]), t = goal ∨ passable t = true := by
    intro t ht
    rw [entered_concat, hend, List.mem_append, List.mem_singleton] at ht
    exact ht.elim (fun hbefore => .inr (hclear t hbefore)) .inl
  rcases h.keeps_up _ henters with hreached | hgoal
  · rwa [hend] at hreached
  · exact hgoal

include h in
/-- The search reaches no goal, other than the start, that no way comes to. -/
theorem goal_notMem (hne : start ≠ goal) (hnone : ∀ other, ¬ ComesTo passable start goal other) :
    goal ∉ s.found start := by
  intro hgoal
  obtain ⟨before, d, hway, hclear⟩ := h.grown.exists_last hgoal hne.symm
  refine hnone (before ++ [d]) ⟨before, d, rfl, fun t ht => (hclear t ht).1, ?_⟩
  rw [← hway, h.grown.walk_wayTo hgoal]

include h in
/-- Where no way comes to the goal, the closest tile is reached over passable tiles, and by no more
steps than any tile as close. -/
theorem closest_of_goal_notMem (hgoal : goal ∉ s.found start) :
    IsClear passable start (wayTo s.arrivals s.best) ∧
      ∀ other, IsClear passable start other →
        s.best.distance goal ≤ (walk start other).distance goal ∧
          ((walk start other).distance goal = s.best.distance goal →
            s.depth s.best ≤ other.length) := by
  have hne : s.best ≠ goal := fun heq => hgoal (heq ▸ h.best_mem)
  refine ⟨fun t ht => (h.grown.clear_of_ne h.best_mem hne t ht).1, fun other hother => ?_⟩
  obtain ⟨hmem, hdepth⟩ := (h.keeps_up other fun t ht => .inr (hother t ht)).resolve_right
    fun hreached => hgoal hreached.1
  exact ⟨h.closest _ hmem, fun heq => (h.nearest _ hmem heq).trans hdepth⟩

include h in
theorem wayTo_best_eq_nil : wayTo s.arrivals s.best = [] ↔ s.best = start :=
  h.grown.wayTo_eq_nil h.best_mem

include h in
theorem best_eq_of_eq (hstart : start = goal) : s.best = start := by
  subst hstart
  exact h.best_eq_of_mem (start_mem_reached ..)

include h in
/-- The search stays where it is at the goal, and where no tile that it can reach is closer. -/
theorem best_eq_start_iff : s.best = start ↔
    start = goal ∨ ((∀ other, ¬ ComesTo passable start goal other) ∧
      ∀ other, IsClear passable start other →
        start.distance goal ≤ (walk start other).distance goal) := by
  refine ⟨fun hbest => or_iff_not_imp_left.2 fun hne => ?_, fun hcases => ?_⟩
  · have hnone : ∀ other, ¬ ComesTo passable start goal other := fun other hother =>
      hne (hbest.symm.trans (h.best_eq_of_mem (h.goal_mem_of_comesTo hother).1))
    have hclosest := (h.closest_of_goal_notMem (h.goal_notMem hne hnone)).2
    exact ⟨hnone, fun other hother => hbest ▸ (hclosest other hother).1⟩
  · by_cases hne : start = goal
    · exact h.best_eq_of_eq hne
    · -- the start is as close as the tile found, and no tile is reached in fewer steps
      obtain ⟨hnone, hleast⟩ := hcases.resolve_left hne
      have hle := hleast _ (h.closest_of_goal_notMem (h.goal_notMem hne hnone)).1
      rw [h.walk_best] at hle
      have hstart := start_mem_reached start s.arrivals
      have hdepth := h.nearest start hstart (hle.antisymm (h.closest start hstart))
      have hzero : s.depth start = 0 := congrArg List.length h.grown.wayTo_start
      rw [hzero] at hdepth
      exact h.wayTo_best_eq_nil.1 (List.length_eq_zero_iff.1 (Nat.le_zero.1 hdepth))

include h in
theorem isBestWay : IsBestWay passable start goal (wayTo s.arrivals s.best) := by
  refine ⟨?_, fun other hother => ?_, fun hnone => ?_, ?_⟩
  · by_cases hstart : s.best = start
    · simp [h.wayTo_best_eq_nil.2 hstart, entered]
    · obtain ⟨before, d, hway, hclear⟩ := h.grown.exists_last h.best_mem hstart
      rwa [hway, dropLast_entered_concat]
  · obtain ⟨hgoal, hdepth⟩ := h.goal_mem_of_comesTo hother
    rw [h.walk_best, h.best_eq_of_mem hgoal]
    exact ⟨rfl, h.best_eq_of_mem hgoal ▸ hdepth⟩
  · rw [h.walk_best]
    by_cases hstart : start = goal
    · have hbest := h.best_eq_of_eq hstart
      rw [h.wayTo_best_eq_nil.2 hbest, hbest, hstart, Tile.distance_self]
      refine ⟨fun t ht => absurd ht List.not_mem_nil, fun _ _ => ⟨Nat.zero_le _, fun _ => ?_⟩⟩
      exact Nat.zero_le _
    · exact h.closest_of_goal_notMem (h.goal_notMem hstart hnone)
  · rw [h.wayTo_best_eq_nil, h.best_eq_start_iff]

include h in
/-- The way back from the tile found comes to its end. -/
theorem trace_best {fuel : Nat} (hfuel : s.arrivals.length ≤ fuel) :
    s.trace fuel s.best [] = wayTo s.arrivals s.best := by
  rw [h.grown.trace_eq h.best_mem [] hfuel, List.append_nil]

end Settled

variable {tiles : Nat} {area : List Tile}

/-- The search for a way comes to its end. -/
theorem exists_settled (start goal : Tile) (few : area.length ≤ tiles)
    (inside : ∀ t, passable t = true → t ∈ area) :
    ∃ last, Settled start goal passable last ∧ ∀ fuel, tiles + 3 ≤ fuel →
      run start goal passable fuel ⟨[], [start], start⟩ = last := by
  obtain ⟨last, hlast, hrun⟩ := (Waiting.initial start goal passable).exists_last inside
    (n := area.length + 3) (by simp)
  exact ⟨last, hlast, fun fuel hfuel => hrun fuel (by simp; omega)⟩

end Search

open Search

variable {tiles : Nat} {area : List Tile} {passable : Tile → Bool} {start goal : Tile}

theorem findPath_eq_wayTo {last : Search} (h : Settled start goal passable last)
    (hrun : run start goal passable (tiles + 3) ⟨[], [start], start⟩ = last) :
    findPath tiles start goal passable = wayTo last.arrivals last.best := by
  unfold findPath
  split
  · next heq => exact (h.wayTo_best_eq_nil.2 (h.best_eq_of_eq heq)).symm
  · simp only [hrun, h.trace_best (Nat.le_refl _)]

theorem isBestWay_findPath (start goal : Tile) (few : area.length ≤ tiles)
    (inside : ∀ t, passable t = true → t ∈ area) :
    IsBestWay passable start goal (findPath tiles start goal passable) := by
  obtain ⟨last, hlast, hrun⟩ := exists_settled start goal few inside
  exact findPath_eq_wayTo hlast (hrun _ (Nat.le_refl _)) ▸ hlast.isBestWay

/-- Where finitely many tiles are passable, the search for a way ends, and so does the way back from
the tile that it found; the way is the best one.  The tiles may lie anywhere: a step over the edge
of the coordinates comes out on the other side, and distances are exact. -/
theorem findPath_terminates_isBestWay (start goal : Tile) (few : area.length ≤ tiles)
    (inside : ∀ t, passable t = true → t ∈ area) :
    (∃ last, IsOver goal last ∧
      (∀ fuel, tiles + 3 ≤ fuel → run start goal passable fuel ⟨[], [start], start⟩ = last) ∧
      ∀ fuel, last.arrivals.length ≤ fuel →
        last.trace fuel last.best [] = findPath tiles start goal passable) ∧
      IsBestWay passable start goal (findPath tiles start goal passable) := by
  refine ⟨?_, isBestWay_findPath start goal few inside⟩
  obtain ⟨last, hlast, hrun⟩ := exists_settled start goal few inside
  refine ⟨last, hlast.isOver, hrun, fun fuel hfuel => ?_⟩
  rw [hlast.trace_best hfuel, findPath_eq_wayTo hlast (hrun _ (Nat.le_refl _))]

/-- Somebody stands on the goal, behind a wall. -/
theorem findPath_around_wall :
    let area : List Tile := [⟨0, 0⟩, ⟨0, 1⟩, ⟨1, 1⟩, ⟨2, 1⟩]
    let way : List Direction := [.down, .right, .right, .up]
    findPath 4 ⟨0, 0⟩ ⟨2, 0⟩ (fun t => area.contains t) = way ∧
      IsBestWay (fun t => area.contains t) ⟨0, 0⟩ ⟨2, 0⟩ way := by
  intro area way
  have hfind : findPath 4 ⟨0, 0⟩ ⟨2, 0⟩ (fun t => area.contains t) = way := by decide +kernel
  have few : area.length ≤ 4 := Nat.le_refl _
  have inside : ∀ t, area.contains t = true → t ∈ area := fun t => List.contains_iff_mem.1
  exact ⟨hfind, hfind ▸ (findPath_terminates_isBestWay ⟨0, 0⟩ ⟨2, 0⟩ few inside).2⟩

/-! ## Ways through a room -/

/-- All tiles of a room. -/
def Room.allTiles (room : Room) : List Tile :=
  (List.range room.width.toInt.toNat).flatMap fun (x : Nat) =>
    (List.range room.height.toInt.toNat).map fun (y : Nat) => ⟨Int32.ofInt x, Int32.ofInt y⟩

theorem Room.length_allTiles (room : Room) :
    room.allTiles.length = room.width.toInt.toNat * room.height.toInt.toNat := by
  simp [allTiles, List.length_flatMap]

theorem Room.mem_allTiles {room : Room} {t : Tile} (h : room.contains t = true) :
    t ∈ room.allTiles := by
  simp only [contains, ge_iff_le, Bool.and_eq_true, decide_eq_true_eq, Int32.le_iff_toInt_le,
    Int32.lt_iff_toInt_lt, Int32.toInt_zero] at h
  obtain ⟨⟨⟨hx, hy⟩, hwidth⟩, hheight⟩ := h
  refine List.mem_flatMap.2 ⟨t.x.toInt.toNat, List.mem_range.2 (by omega), ?_⟩
  refine List.mem_map.2 ⟨t.y.toInt.toNat, List.mem_range.2 (by omega), ?_⟩
  rw [Int.toNat_of_nonneg hx, Int.toNat_of_nonneg hy, Int32.ofInt_toInt, Int32.ofInt_toInt]

namespace Stage

/-- A stage counts enough tiles for its searches: it finds best ways. -/
theorem isBestWay_findPath (s : Stage) (project : Project) (moverId : Int32) (ignoreOthers : Bool)
    (start goal : Tile) : IsBestWay (s.canEnter project moverId ignoreOthers) start goal
      (s.findPath project moverId ignoreOthers start goal) := by
  unfold findPath tileCount
  split
  · next hroom =>
    have hnone : ∀ t, s.canEnter project moverId ignoreOthers t = true → t ∈ ([] : List Tile) := by
      intro t ht
      simp [canEnter, hroom] at ht
    exact Adventure.isBestWay_findPath start goal (by simp) hnone
  · next room hroom =>
    refine Adventure.isBestWay_findPath start goal room.length_allTiles.le fun t ht => ?_
    simp only [canEnter, hroom, Bool.and_eq_true] at ht
    exact room.mem_allTiles ht.1

end Stage

end Adventure
