import Adventure.Proofs.Session.Reachable

/-!
# The course of a game

A course is a game told change by change, along with the events that have shown a page since the
player entered the room.  Every reachable session has a course.
-/

namespace Adventure

/-- The events that have shown a page, after one more change. -/
def Mark.shown : Mark → List Int32 → List Int32
  | still, ids => ids
  | page eventId (some _), ids => eventId :: ids
  | page _ none, ids => ids
  | room, _ => []

/-- The changes from a new game to a world, and the events that have shown a page in its room. -/
inductive World.Course (project : Project) : World → List Int32 → Prop where
  | enter {stage : Stage} {mapId roomId x y : Int32} {image : String} (seed : UInt64)
      (entered : Stage.enter project mapId roomId (.player x y image Speed.playerDefault) =
        .ok stage) : Course project (.ofProgress (.fresh stage) seed) []
  | change {mark : Mark} {w w' : World} {shown : List Int32} (earlier : Course project w shown)
      (change : Change project mark w w') : Course project w' (mark.shown shown)

namespace World

variable {project : Project} {w w' : World}

theorem Course.changes {shown : List Int32} (h : Course project w shown)
    (more : Changes project w w') : ∃ shown, Course project w' shown := by
  induction more with
  | refl => exact ⟨shown, h⟩
  | tail _ last ih =>
    obtain ⟨shown, hcourse⟩ := ih
    obtain ⟨mark, hlast⟩ := last
    exact ⟨mark.shown shown, .change hcourse hlast⟩

/-- A new game has a course. -/
theorem exists_course_start {seed : UInt64} (h : start project seed = .ok w) :
    ∃ shown, Course project w shown := by
  obtain ⟨stage, hstage, rfl⟩ := exists_enter h
  have hpages : Passes project (fun _ => True) (.ofProgress (.fresh stage) seed) _ :=
    passes_refreshPages _
  obtain ⟨hchanges, _⟩ := hpages (Stage.holds_enter hstage)
  exact (Course.enter seed hstage).changes hchanges

end World

/-- Every reachable session has a course. -/
theorem Session.Reachable.exists_course {project : Project} {s : Session}
    (h : Reachable project s) : ∃ shown, World.Course project s.world shown := by
  obtain ⟨seed, w, hstart, hchanges, _⟩ := h.passes project.inherits_true
  obtain ⟨shown, hcourse⟩ := World.exists_course_start hstart
  exact hcourse.changes hchanges

end Adventure
