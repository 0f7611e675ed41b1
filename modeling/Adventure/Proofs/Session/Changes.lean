import Mathlib.Logic.Relation
import Adventure.Session.Tick

/-!
# Changes of a room

Commands, ticks and the host do many things to a world, but only a few of them concern the room and
the looks of the characters in it.  The relation `World.Change` lists them.  Whatever holds at the
beginning and is kept by each of these changes holds in every state of a game.
-/

namespace Adventure

/-- A change that concerns neither who a character is nor its speed nor its level. -/
structure Character.Steady (change : Character → Character) : Prop where
  eventId : ∀ c, (change c).eventId = c.eventId
  speed : ∀ c, (change c).speed = c.speed
  priority : ∀ c, (change c).priority = c.priority

/-- Two stages that differ only in scripts and in the walk of the player. -/
structure Stage.SameScene (s s' : Stage) : Prop where
  mapId : s'.mapId = s.mapId
  roomId : s'.roomId = s.roomId
  player : s'.player = s.player
  events : s'.events = s.events
  pages : s'.pages = s.pages

/-- Changes the speed of a character.  The player's speed is remembered apart. -/
def World.changeSpeed (w : World) (id : Int32) (speed : Speed) : World :=
  (if id = playerId then w.setPlayerSpeed speed else w).modifyCharacter id
    fun c => c.change (.speed speed)

/-- What a change means for the pages that are shown. -/
inductive Mark where
  | still
  /-- It is the turn of a page of an event, or of none. -/
  | page (eventId : Int32) (index : Option Nat)
  /-- The player entered a room. -/
  | room

/-- What can happen to the scene of a world. -/
inductive World.Change (project : Project) : Mark → World → World → Prop where
  | aside {w w' : World} (speed : w'.playerSpeed = w.playerSpeed)
      (scene : w.stage.SameScene w'.stage) : Change project .still w w'
  | character (w : World) (id : Int32) {change : Character → Character}
      (steady : Character.Steady change) : Change project .still w (w.modifyCharacter id change)
  | speed (w : World) (id : Int32) (speed : Speed) :
      Change project .still w (w.changeSpeed id speed)
  | frame (w : World) : Change project .still w (w.modifyStage Stage.updateCharacters)
  | page (w : World) {eventId : Int32} (index : Option Nat) (mem : eventId ∈ w.stage.eventIds) :
      Change project (.page eventId index) w
        (w.modifyStage fun s => s.showPage project eventId index)
  | enter (w : World) {stage : Stage} {roomId : Int32} {t : Tile} {dir : Option Direction}
      (entered : w.stage.transfer project roomId t dir = .ok stage) :
      Change project .room w { w with stage := stage }

/-- Any number of changes. -/
def World.Changes (project : Project) : World → World → Prop :=
  Relation.ReflTransGen fun w w' => ∃ mark, World.Change project mark w w'

/-! ## Changes of characters -/

namespace Character.Steady

theorem erase : Steady Character.erase := ⟨fun _ => rfl, fun _ => rfl, fun _ => rfl⟩

theorem turn (dir : Character → Direction) : Steady fun c => c.turn (dir c) := by
  have hturn : ∀ c : Character, c.turn (dir c) = c ∨ c.turn (dir c) = { c with dir := dir c } := by
    intro c
    unfold Character.turn
    split
    · exact .inl rfl
    · exact .inr rfl
  refine ⟨fun c => ?_, fun c => ?_, fun c => ?_⟩ <;> rcases hturn c with h | h <;> rw [h]

theorem startMove (dir : Direction) : Steady fun c => c.startMove dir := by
  have hturn := turn fun _ => dir
  refine ⟨fun c => ?_, fun c => ?_, fun c => ?_⟩
  · refine Eq.trans ?_ (hturn.eventId c)
    simp only [Character.startMove]
    split <;> rfl
  · refine Eq.trans ?_ (hturn.speed c)
    simp only [Character.startMove]
    split <;> rfl
  · refine Eq.trans ?_ (hturn.priority c)
    simp only [Character.startMove]
    split <;> rfl

theorem setImage (image : CharacterImage) : Steady fun c => c.setImage image := by
  refine ⟨fun c => ?_, fun c => ?_, fun c => ?_⟩ <;>
    simp only [Character.setImage] <;> split <;> rfl

theorem setOpacity (opacity : Int32) (frames : UInt32) :
    Steady fun c => c.setOpacity opacity frames := ⟨fun _ => rfl, fun _ => rfl, fun _ => rfl⟩

/-- Apart from the speed, the properties that scripts change are steady. -/
theorem change {change : CharacterChange} (h : ∀ speed, change ≠ .speed speed) :
    Steady fun c => c.change change := by
  cases change with
  | speed speed => exact absurd rfl (h speed)
  | _ => exact ⟨fun _ => rfl, fun _ => rfl, fun _ => rfl⟩

theorem animateStepping : Steady Character.animateStepping := by
  refine ⟨fun c => ?_, fun c => ?_, fun c => ?_⟩ <;> simp only [Character.animateStepping] <;>
    split <;> rfl

theorem animateWalking : Steady Character.animateWalking := by
  refine ⟨fun c => ?_, fun c => ?_, fun c => ?_⟩ <;> simp only [Character.animateWalking] <;>
    split <;> (try split) <;> (try split) <;> rfl

theorem slide : Steady Character.slide := by
  refine ⟨fun c => ?_, fun c => ?_, fun c => ?_⟩ <;> simp only [Character.slide] <;>
    split <;> (try split) <;> rfl

theorem update : Steady Character.update := by
  refine ⟨fun c => ?_, fun c => ?_, fun c => ?_⟩
  · simp only [Character.update]
    split
    · rw [slide.eventId, animateWalking.eventId, animateStepping.eventId]
    · rw [animateStepping.eventId]
  · simp only [Character.update]
    split
    · rw [slide.speed, animateWalking.speed, animateStepping.speed]
    · rw [animateStepping.speed]
  · simp only [Character.update]
    split
    · rw [slide.priority, animateWalking.priority, animateStepping.priority]
    · rw [animateStepping.priority]

end Character.Steady

/-! ## The events of a stage -/

namespace Stage

/-- A change of the first event with an id, told by its position. -/
theorem modifyEvent_eq (id : Int32) (change : Character → Character) (events : List Character) :
    modifyEvent id change events =
      events.modify ((events.map (·.eventId)).idxOf id) change := by
  induction events with
  | nil => rfl
  | cons c rest ih =>
    unfold modifyEvent
    rw [List.map_cons, List.idxOf_cons]
    by_cases hid : c.eventId = id
    · simp [hid]
    · have hbeq : (c.eventId == id) = false := by simpa using hid
      rw [if_neg hid, ih, hbeq]
      rfl

theorem map_modifyEvent {α : Type} (f : Character → α) {change : Character → Character}
    (h : ∀ c, f (change c) = f c) (id : Int32) (events : List Character) :
    (modifyEvent id change events).map f = events.map f := by
  induction events with
  | nil => rfl
  | cons c rest ih =>
    unfold modifyEvent
    split
    · simp only [List.map_cons, h]
    · simp only [List.map_cons, ih]

theorem eventIds_modifyCharacter {change : Character → Character}
    (h : ∀ c, (change c).eventId = c.eventId) (s : Stage) (id : Int32) :
    (s.modifyCharacter id change).eventIds = s.eventIds := by
  unfold modifyCharacter
  split
  · rfl
  · exact map_modifyEvent _ h id s.events

theorem eventIds_showPage (s : Stage) (project : Project) (eventId : Int32)
    (index : Option Nat) : (s.showPage project eventId index).eventIds = s.eventIds := by
  unfold showPage
  split
  · rfl
  · refine eventIds_modifyCharacter (fun c => ?_) _ eventId
    unfold Character.updateWithPage
    split <;> rfl

end Stage

/-! ## Walks -/

/-- A frame of a walk changes nothing on the stage but its character. -/
theorem Walk.update_stage (walk : Walk) (project : Project) (s : Stage) (random : Random) :
    (walk.update project s random).2.1 = s ∨
      ∃ change, Character.Steady change ∧
        (walk.update project s random).2.1 = s.modifyCharacter walk.eventId change := by
  have hsettle : walk.settle.eventId = walk.eventId := by
    unfold Walk.settle
    split <;> rfl
  unfold Walk.update
  split
  · exact .inl rfl
  · split
    · exact .inl rfl
    · dsimp only
      split
      · exact .inl rfl
      · split
        · exact .inl rfl
        · refine .inr ?_
          simp only [Walk.takeStep, hsettle]
          split
          · exact ⟨_, .startMove _, rfl⟩
          · exact ⟨_, .turn fun _ => _, rfl⟩

namespace World

variable {project : Project} {w w' w'' : World}

/-! ## Changes of worlds -/

theorem Changes.refl (w : World) : Changes project w w := Relation.ReflTransGen.refl

theorem Changes.trans (first : Changes project w w') (more : Changes project w' w'') :
    Changes project w w'' := Relation.ReflTransGen.trans first more

theorem Change.changes {mark : Mark} (h : Change project mark w w') : Changes project w w' :=
  Relation.ReflTransGen.single ⟨mark, h⟩

/-- Nothing about the scene changes. -/
theorem Changes.aside (speed : w'.playerSpeed = w.playerSpeed)
    (scene : w.stage.SameScene w'.stage) : Changes project w w' :=
  (Change.aside speed scene).changes

/-- The stage stays as it is. -/
theorem Changes.of_stage_eq (speed : w'.playerSpeed = w.playerSpeed)
    (stage : w'.stage = w.stage) : Changes project w w' := by
  refine .aside speed ?_
  rw [stage]
  exact ⟨rfl, rfl, rfl, rfl, rfl⟩

theorem Changes.character (w : World) (id : Int32) {change : Character → Character}
    (steady : Character.Steady change) : Changes project w (w.modifyCharacter id change) :=
  (Change.character w id steady).changes

end World

/-- The world after a frame of a walk, whatever becomes of the walk itself. -/
theorem Walk.changes_update {project : Project} (walk : Walk) (w : World) (random : Random)
    (w' : World)
    (speed : w'.playerSpeed = w.playerSpeed)
    (scene : (walk.update project w.stage random).2.1.SameScene w'.stage) :
    World.Changes project w w' := by
  rcases walk.update_stage project w.stage random with hstage | ⟨change, hsteady, hstage⟩
  · exact .aside speed (hstage ▸ scene)
  · have hchanged : World.Changes project w (w.modifyCharacter walk.eventId change) :=
      .character w walk.eventId hsteady
    refine hchanged.trans (.aside speed ?_)
    rw [hstage] at scene
    exact scene

end Adventure
