import Adventure.Proofs.Session.Course

/-!
# The player's speed

The speed that the world remembers for the player is the one that the player walks with, as long as
no event of the project has the player's id.
-/

namespace Adventure

/-- Whether no event of a project has the player's id. -/
def Project.SparesPlayer (project : Project) : Prop :=
  ∀ d ∈ project.maps, ∀ r ∈ d.rooms, ∀ e ∈ r.events, e.id ≠ playerId

instance (project : Project) : Decidable project.SparesPlayer :=
  inferInstanceAs (Decidable (∀ d ∈ project.maps, ∀ r ∈ d.rooms, ∀ e ∈ r.events, e.id ≠ playerId))

/-- Whether the world remembers the player's speed, and no event on the stage has the player's
id. -/
structure World.Paced (w : World) : Prop where
  speed : w.stage.player.speed = w.playerSpeed
  spared : playerId ∉ w.stage.eventIds

variable {project : Project}

theorem Project.SparesPlayer.eventsOf (h : project.SparesPlayer) {mapId roomId : Int32} {r : Room}
    (hr : project.room? mapId roomId = some r) :
    playerId ∉ (Stage.eventsOf r).map (·.eventId) := by
  obtain ⟨d, hd, hr⟩ := Option.bind_eq_some_iff.1 hr
  have hevents := h d (List.mem_of_find?_eq_some hd) r (List.mem_of_find?_eq_some hr)
  intro hmem
  simp only [Stage.eventsOf, List.map_map, List.mem_map, Function.comp] at hmem
  obtain ⟨e, he, hid⟩ := hmem
  exact hevents e he hid

/-- A change of one character other than an event with the player's id. -/
theorem Stage.player_modifyCharacter (s : Stage) (id : Int32) (change : Character → Character) :
    (s.modifyCharacter id change).player = if id = playerId then change s.player else s.player := by
  unfold modifyCharacter
  split <;> rfl

namespace World

variable {w w' : World}

theorem Paced.modifyCharacter (h : w.Paced) (id : Int32) {change : Character → Character}
    (hid : ∀ c, (change c).eventId = c.eventId)
    (hspeed : id = playerId → (change w.stage.player).speed = w.stage.player.speed) :
    (w.modifyCharacter id change).Paced := by
  refine ⟨?_, ?_⟩
  · show (w.stage.modifyCharacter id change).player.speed = w.playerSpeed
    rw [Stage.player_modifyCharacter]
    split
    · next heq => rw [hspeed heq, h.speed]
    · exact h.speed
  · show playerId ∉ (w.stage.modifyCharacter id change).eventIds
    rw [Stage.eventIds_modifyCharacter hid]
    exact h.spared

theorem Paced.changeSpeed (h : w.Paced) (id : Int32) (speed : Speed) :
    (w.changeSpeed id speed).Paced := by
  unfold World.changeSpeed
  by_cases hid : id = playerId
  · subst hid
    exact ⟨rfl, h.spared⟩
  · rw [if_neg hid]
    exact h.modifyCharacter id (fun _ => rfl) fun heq => absurd heq hid

theorem Paced.showPage (h : w.Paced) {eventId : Int32} (index : Option Nat)
    (hmem : eventId ∈ w.stage.eventIds) :
    (w.modifyStage fun s => s.showPage project eventId index).Paced := by
  have hne : eventId ≠ playerId := fun heq => h.spared (heq ▸ hmem)
  refine ⟨?_, ?_⟩
  · show (w.stage.showPage project eventId index).player.speed = w.playerSpeed
    unfold Stage.showPage
    split
    · exact h.speed
    · dsimp only
      rw [Stage.player_modifyCharacter, if_neg hne]
      exact h.speed
  · show playerId ∉ (w.stage.showPage project eventId index).eventIds
    rw [Stage.eventIds_showPage]
    exact h.spared

theorem Paced.updateCharacters (h : w.Paced) : (w.modifyStage Stage.updateCharacters).Paced := by
  refine ⟨(Character.Steady.update.speed _).trans h.speed, ?_⟩
  have hids : (w.stage.events.map Character.update).map (·.eventId) = w.stage.eventIds := by
    rw [List.map_map]
    exact List.map_congr_left fun c _ => Character.Steady.update.eventId c
  show playerId ∉ (w.stage.events.map Character.update).map (·.eventId)
  rw [hids]
  exact h.spared

theorem Paced.enter (hproject : project.SparesPlayer) (h : w.Paced) {stage : Stage}
    {roomId : Int32} {t : Tile} {dir : Option Direction}
    (entered : w.stage.transfer project roomId t dir = .ok stage) :
    ({ w with stage := stage } : World).Paced := by
  unfold Stage.transfer at entered
  split at entered
  · cases entered
  · next room hroom =>
    obtain rfl := Except.ok.inj entered
    refine ⟨?_, hproject.eventsOf hroom⟩
    cases dir with
    | none => exact h.speed
    | some d => exact ((Character.Steady.turn fun _ => d).speed _).trans h.speed

/-- A change keeps the player's pace. -/
theorem Paced.change (hproject : project.SparesPlayer) (h : w.Paced) {mark : Mark}
    (change : Change project mark w w') : w'.Paced := by
  cases change with
  | aside speed scene =>
    refine ⟨?_, ?_⟩
    · rw [scene.player, speed, h.speed]
    · rw [Stage.eventIds, scene.events]
      exact h.spared
  | character _ id steady => exact h.modifyCharacter id steady.eventId fun _ => steady.speed _
  | speed _ id speed => exact h.changeSpeed id speed
  | frame _ => exact h.updateCharacters
  | page _ index mem => exact h.showPage index mem
  | enter _ entered => exact h.enter hproject entered

theorem Course.paced (hproject : project.SparesPlayer) {shown : List Int32}
    (h : Course project w shown) : w.Paced := by
  induction h with
  | enter seed entered =>
    unfold Stage.enter at entered
    split at entered
    · cases entered
    · next room hroom =>
      obtain rfl := Except.ok.inj entered
      exact ⟨rfl, hproject.eventsOf hroom⟩
  | change _ change ih => exact ih.change hproject change

end World

/-- In every reachable session the player walks with the remembered speed. -/
theorem Session.Reachable.paced (hproject : project.SparesPlayer) {s : Session}
    (h : Reachable project s) : s.world.Paced := by
  obtain ⟨shown, hcourse⟩ := h.exists_course
  exact hcourse.paced hproject

end Adventure
