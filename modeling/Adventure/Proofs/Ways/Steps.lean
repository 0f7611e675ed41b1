import Adventure.World.Path

/-!
# Ways over the tiles

A way is a list of steps.  What it means for a search is told by the tiles that it enters, one after
the other, and by the tile on which it ends.
-/

namespace Adventure

/-! ## Tiles -/

namespace Tile

/-- A step leads to another tile. -/
theorem step_ne (t : Tile) (d : Direction) : t.step d ≠ t := by
  intro h
  have hx : t.x + d.delta.1 = t.x := congrArg Tile.x h
  have hy : t.y + d.delta.2 = t.y := congrArg Tile.y h
  cases d <;> simp only [Direction.delta] at hx hy <;> grind

theorem step_inj {t t' : Tile} {d : Direction} : t.step d = t'.step d ↔ t = t' := by
  cases t
  cases t'
  simp [step]

theorem distance_self (t : Tile) : t.distance t = 0 := by simp [distance]

theorem distance_eq_zero {t t' : Tile} : t.distance t' = 0 ↔ t = t' := by
  refine ⟨fun h => ?_, fun h => h ▸ distance_self t⟩
  have hx : t.x.toInt = t'.x.toInt := by unfold distance at h; omega
  have hy : t.y.toInt = t'.y.toInt := by unfold distance at h; omega
  cases t
  cases t'
  exact Tile.mk.injEq .. ▸ ⟨Int32.toInt_inj.1 hx, Int32.toInt_inj.1 hy⟩

end Tile

/-! ## Where a way leads -/

variable {start : Tile} {way more : List Direction}

theorem walk_append (start : Tile) (way more : List Direction) :
    walk start (way ++ more) = walk (walk start way) more := List.foldl_append

theorem walk_concat (start : Tile) (way : List Direction) (d : Direction) :
    walk start (way ++ [d]) = (walk start way).step d := walk_append start way [d]

/-- The same steps from different tiles lead to different tiles. -/
theorem walk_inj {t t' : Tile} (way : List Direction) : walk t way = walk t' way ↔ t = t' := by
  induction way generalizing t t' with
  | nil => rfl
  | cons d way ih => exact ih.trans Tile.step_inj

/-! ## The tiles on a way -/

/-- The tiles that a way enters, in order. -/
def entered : Tile → List Direction → List Tile
  | _, [] => []
  | t, d :: way => t.step d :: entered (t.step d) way

theorem entered_append (start : Tile) (way more : List Direction) :
    entered start (way ++ more) = entered start way ++ entered (walk start way) more := by
  induction way generalizing start with
  | nil => rfl
  | cons d way ih => exact congrArg (start.step d :: ·) (ih _)

theorem entered_concat (start : Tile) (way : List Direction) (d : Direction) :
    entered start (way ++ [d]) = entered start way ++ [walk start (way ++ [d])] := by
  rw [entered_append, walk_concat]
  rfl

theorem dropLast_entered_concat (start : Tile) (way : List Direction) (d : Direction) :
    (entered start (way ++ [d])).dropLast = entered start way := by
  rw [entered_concat, List.dropLast_concat]

/-- A way that enters passable tiles only. -/
def IsClear (passable : Tile → Bool) (start : Tile) (way : List Direction) : Prop :=
  ∀ t ∈ entered start way, passable t = true

/-- A way that comes to a neighbour of the goal over passable tiles and then steps onto the goal,
which itself need not be passable. -/
def ComesTo (passable : Tile → Bool) (start goal : Tile) (way : List Direction) : Prop :=
  ∃ before d, way = before ++ [d] ∧ IsClear passable start before ∧ walk start way = goal

end Adventure
