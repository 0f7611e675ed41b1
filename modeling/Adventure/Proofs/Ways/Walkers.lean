import Adventure.Proofs.Session.Changes

/-!
# Characters that walk

How a character stands or slides is told by its tile, by the frames left of its slide and by the
direction of it.  A frame of a walk changes this for one character at most, and only by a step that
can be made; a frame of the room brings every slide a little further.
-/

namespace Adventure

/-! ## Standing and sliding -/

/-- How a character stands or slides. -/
structure Gait where
  position : Tile
  moveCount : UInt32
  moveDir : Direction
  deriving DecidableEq

namespace Gait

def isMoving (g : Gait) : Bool := g.moveCount > 0

def destination (g : Gait) : Tile := if g.isMoving then g.position.step g.moveDir else g.position

/-- A frame of a slide. -/
def slide (g : Gait) : Gait :=
  if g.moveCount - 1 = 0 then { g with position := g.position.step g.moveDir, moveCount := 0 }
  else { g with moveCount := g.moveCount - 1 }

/-- A slide leads to the same tile after each of its frames. -/
theorem destination_slide {g : Gait} (h : g.isMoving = true) :
    g.slide.destination = g.destination := by
  have hdestination : g.destination = g.position.step g.moveDir := if_pos h
  rw [hdestination, slide]
  split
  · rfl
  · next hmore =>
    have hcount : g.moveCount - 1 > 0 := UInt32.pos_iff_ne_zero.2 hmore
    simp [destination, isMoving, hcount]

/-- A character that slides is on the tile that it leaves or on that it comes to. -/
theorem position_slide (g : Gait) :
    g.slide.position = g.position ∨ g.slide.position = g.position.step g.moveDir := by
  unfold slide
  split
  · exact .inr rfl
  · exact .inl rfl

end Gait

theorem Speed.frames_pos (v : Speed) : v.frames > 0 := by cases v <;> decide

namespace Character

def gait (c : Character) : Gait := ⟨c.position, c.moveCount, c.moveDir⟩

variable {c c' : Character}

theorem position_eq_of_gait (h : c'.gait = c.gait) : c'.position = c.position :=
  congrArg Gait.position h

theorem isMoving_eq_of_gait (h : c'.gait = c.gait) : c'.isMoving = c.isMoving :=
  congrArg Gait.isMoving h

theorem destination_eq_of_gait (h : c'.gait = c.gait) : c'.destination = c.destination :=
  congrArg Gait.destination h

theorem occupies_eq_of_gait (h : c'.gait = c.gait) (t : Tile) : c'.occupies t = c.occupies t := by
  unfold occupies
  rw [position_eq_of_gait h, destination_eq_of_gait h]

theorem destination_of_standing (h : c.isMoving = false) : c.destination = c.position := by
  simp [destination, h]

theorem destination_of_moving (h : c.isMoving = true) :
    c.destination = c.position.step c.moveDir := by
  simp [destination, h]

theorem occupies_iff {t : Tile} : c.occupies t = true ↔ c.position = t ∨ c.destination = t := by
  simp [occupies]

theorem blocks_eq (through : c'.through = c.through) (priority : c'.priority = c.priority) :
    c'.blocks = c.blocks := by
  simp only [blocks, through, priority]

/-! ### Turning and setting out -/

@[simp]
theorem gait_turn (c : Character) (dir : Direction) : (c.turn dir).gait = c.gait := by
  unfold turn
  split <;> rfl

@[simp]
theorem through_turn (c : Character) (dir : Direction) : (c.turn dir).through = c.through := by
  unfold turn
  split <;> rfl

@[simp]
theorem gait_startMove (c : Character) (dir : Direction) :
    (c.startMove dir).gait = ⟨c.position, c.speed.frames, dir⟩ := by
  have hspeed : (c.turn dir).speed = c.speed := (Steady.turn fun _ => dir).speed c
  have hposition : (c.turn dir).position = c.position := position_eq_of_gait (gait_turn c dir)
  simp only [startMove, hspeed]
  rw [← hposition]
  split <;> rfl

@[simp]
theorem through_startMove (c : Character) (dir : Direction) :
    (c.startMove dir).through = c.through := by
  rw [← through_turn c dir]
  unfold startMove
  dsimp only
  split <;> rfl

theorem isMoving_startMove (c : Character) (dir : Direction) :
    (c.startMove dir).isMoving = true := by
  have hcount : (c.startMove dir).moveCount = c.speed.frames :=
    congrArg Gait.moveCount (gait_startMove c dir)
  exact decide_eq_true (hcount ▸ c.speed.frames_pos)

theorem position_startMove (c : Character) (dir : Direction) :
    (c.startMove dir).position = c.position := congrArg Gait.position (gait_startMove c dir)

theorem destination_startMove (c : Character) (dir : Direction) :
    (c.startMove dir).destination = c.position.step dir := by
  have hgait := gait_startMove c dir
  rw [destination_of_moving (isMoving_startMove c dir)]
  exact congrArg (fun g : Gait => g.position.step g.moveDir) hgait

/-! ### A frame of a character -/

theorem gait_animateStepping (c : Character) : c.animateStepping.gait = c.gait := by
  unfold animateStepping
  split <;> rfl

theorem through_animateStepping (c : Character) : c.animateStepping.through = c.through := by
  unfold animateStepping
  split <;> rfl

theorem gait_animateWalking (c : Character) : c.animateWalking.gait = c.gait := by
  unfold animateWalking
  split
  · dsimp only
    split
    · rfl
    · split <;> rfl
  · rfl

theorem through_animateWalking (c : Character) : c.animateWalking.through = c.through := by
  unfold animateWalking
  split
  · dsimp only
    split
    · rfl
    · split <;> rfl
  · rfl

theorem gait_slide (c : Character) : c.slide.gait = c.gait.slide := by
  unfold slide
  dsimp only
  split
  · next hlast =>
    have hgait : c.gait.slide = ⟨c.position.step c.moveDir, 0, c.moveDir⟩ := if_pos hlast
    rw [hgait]
    split <;> simp [gait, position, hlast]
  · next hmore => exact (if_neg hmore).symm

theorem through_slide (c : Character) : c.slide.through = c.through := by
  unfold slide
  dsimp only
  split
  · split <;> rfl
  · rfl

/-- Before a character slides on, it steps on the spot. -/
theorem update_eq (c : Character) : ∃ first : Character, first.gait = c.gait ∧
    first.through = c.through ∧
      c.update = if first.isMoving then first.animateWalking.slide else first :=
  ⟨animateStepping { c with opacity := c.opacity.update }, gait_animateStepping _,
    through_animateStepping _, rfl⟩

theorem gait_update (c : Character) :
    c.update.gait = if c.isMoving then c.gait.slide else c.gait := by
  obtain ⟨first, hgait, -, hupdate⟩ := c.update_eq
  rw [hupdate, ← isMoving_eq_of_gait hgait, ← hgait]
  split
  · rw [gait_slide, gait_animateWalking]
  · rfl

@[simp]
theorem through_update (c : Character) : c.update.through = c.through := by
  obtain ⟨first, -, hthrough, hupdate⟩ := c.update_eq
  rw [hupdate, ← hthrough]
  split
  · rw [through_slide, through_animateWalking]
  · rfl

theorem gait_update_of_standing (h : c.isMoving = false) : c.update.gait = c.gait := by
  rw [gait_update, h]
  rfl

theorem gait_update_of_moving (h : c.isMoving = true) : c.update.gait = c.gait.slide := by
  rw [gait_update, h]
  rfl

/-- A frame leaves the tile where a character comes to stand. -/
theorem destination_update (c : Character) : c.update.destination = c.destination := by
  cases h : c.isMoving with
  | false => exact destination_eq_of_gait (gait_update_of_standing h)
  | true =>
    have hgait := congrArg Gait.destination (gait_update_of_moving h)
    exact hgait.trans (Gait.destination_slide h)

theorem position_update (c : Character) :
    c.update.position = c.position ∨ c.update.position = c.destination := by
  cases h : c.isMoving with
  | false => exact .inl (position_eq_of_gait (gait_update_of_standing h))
  | true =>
    have hgait : c.update.position = c.gait.slide.position :=
      congrArg Gait.position (gait_update_of_moving h)
    rw [hgait, destination_of_moving h]
    exact c.gait.position_slide

end Character

/-! ## Characters by their ids -/

namespace Stage

variable {s : Stage} {id : Int32} {c : Character} {change : Character → Character}

theorem exists_place_of_find? {events : List Character}
    (h : (events.find? fun c => c.eventId == id) = some c) :
    ∃ k : Nat, events[k]? = some c ∧
      ∀ change, modifyEvent id change events = events.modify k change := by
  induction events with
  | nil => cases h
  | cons e rest ih =>
    rw [List.find?_cons] at h
    by_cases he : e.eventId = id
    · have hbeq : (e.eventId == id) = true := by simpa using he
      rw [hbeq] at h
      exact ⟨0, h, fun change => by simp [modifyEvent, he]⟩
    · have hbeq : (e.eventId == id) = false := by simpa using he
      rw [hbeq] at h
      obtain ⟨k, hk, hmodify⟩ := ih h
      exact ⟨k + 1, hk, fun change => by simp [modifyEvent, he, hmodify]⟩

theorem character?_of_characterIn? {mapId roomId : Int32}
    (h : s.characterIn? mapId roomId id = some c) : s.character? id = some c := by
  unfold characterIn? at h
  split at h
  · cases h
  · exact h

/-- The character with an id is at the place of the list where a change of it takes effect. -/
theorem exists_place (h : s.character? id = some c) :
    ∃ i : Nat, s.characters[i]? = some c ∧
      (∀ change, (s.modifyCharacter id change).characters = s.characters.modify i change) ∧
      ((id = playerId ∧ i = 0) ∨ c.eventId = id) := by
  unfold character? at h
  split at h
  · next hid =>
    refine ⟨0, h, fun change => ?_, .inl ⟨hid, rfl⟩⟩
    simp [modifyCharacter, hid, characters]
  · next hid =>
    obtain ⟨k, hk, hmodify⟩ := exists_place_of_find? h
    refine ⟨k + 1, hk, fun change => ?_, .inr (by simpa using List.find?_some h)⟩
    simp [modifyCharacter, hid, characters, hmodify]

theorem character?_modifyCharacter (hid : ∀ c, (change c).eventId = c.eventId) :
    (s.modifyCharacter id change).character? id = (s.character? id).map change := by
  unfold modifyCharacter character?
  by_cases hplayer : id = playerId
  · simp only [if_pos hplayer, Option.map_some]
  · simp only [if_neg hplayer]
    induction s.events with
    | nil => rfl
    | cons c rest ih =>
      unfold modifyEvent
      by_cases hc : c.eventId = id
      · simp [hc, hid]
      · have hbeq : (c.eventId == id) = false := by simpa using hc
        rw [if_neg hc, List.find?_cons, List.find?_cons, hbeq, ih]

theorem characterIn?_modifyCharacter (hid : ∀ c, (change c).eventId = c.eventId)
    (mapId roomId : Int32) : (s.modifyCharacter id change).characterIn? mapId roomId id =
      (s.characterIn? mapId roomId id).map change := by
  have hplace : (s.modifyCharacter id change).mapId = s.mapId ∧
      (s.modifyCharacter id change).roomId = s.roomId := by
    unfold modifyCharacter
    split <;> exact ⟨rfl, rfl⟩
  unfold characterIn?
  rw [hplace.1, hplace.2, character?_modifyCharacter hid]
  split <;> rfl

theorem character?_updateCharacters (s : Stage) (id : Int32) :
    s.updateCharacters.character? id = (s.character? id).map Character.update := by
  unfold character? updateCharacters
  split
  · rfl
  · rw [List.find?_map]
    simp only [Function.comp_def, Character.Steady.update.eventId]

theorem characterIn?_updateCharacters (s : Stage) (mapId roomId id : Int32) :
    s.updateCharacters.characterIn? mapId roomId id =
      (s.characterIn? mapId roomId id).map Character.update := by
  have hmap : s.updateCharacters.mapId = s.mapId := rfl
  have hroom : s.updateCharacters.roomId = s.roomId := rfl
  unfold characterIn?
  rw [hmap, hroom, character?_updateCharacters]
  split <;> rfl

end Stage

/-! ## Frames of a walk -/

namespace Walk

variable {w w' : Walk} {project : Project} {s s' : Stage} {random : Random}

/-- Whether the next step of a walk is due, for the character that is to make it. -/
structure IsDue (w : Walk) (s : Stage) (c : Character) : Prop where
  present : s.characterIn? w.mapId w.roomId w.eventId = some c
  standing : c.isMoving = false
  unfinished : w.finished = false

/-- Whether a walk tries to make a step in a direction. -/
structure Tries (w : Walk) (s : Stage) (random : Random) (c : Character) (dir : Direction) : Prop
    extends IsDue w s c where
  left : w.settle.stepsLeft ≠ 0
  next : (w.settle.nextStep? s c random).1 = some dir

/-- All that a frame of a walk can do: nothing, coming to an end, a step, or a turn toward what is
in the way. -/
inductive Frame (project : Project) (w : Walk) (s : Stage) (random : Random) : Walk → Stage → Prop
  | waits (idle : ∀ c, ¬ w.IsDue s c) : Frame project w s random w s
  | ends {c : Character} (due : w.IsDue s c)
      (last : w.settle.stepsLeft = 0 ∨ (w.settle.nextStep? s c random).1 = none) :
      Frame project w s random w.settle.finish s
  | steps {c : Character} {dir : Direction} (tries : w.Tries s random c dir)
      (enters : s.canEnter project w.eventId false (c.position.step dir) = true) :
      Frame project w s random { w.settle with stepping := true }
        (s.modifyCharacter w.eventId fun c => c.startMove dir)
  | bumps {c : Character} {dir : Direction} (tries : w.Tries s random c dir)
      (enters : s.canEnter project w.eventId false (c.position.step dir) = false) :
      Frame project w s random
        (if w.skip then { w.settle with finished := true, stepsLeft := 0 } else w.settle)
        (s.modifyCharacter w.eventId fun c => c.turn dir)

theorem settle_eventId (w : Walk) : w.settle.eventId = w.eventId := by
  unfold settle
  split <;> rfl

theorem settle_skip (w : Walk) : w.settle.skip = w.skip := by
  unfold settle
  split <;> rfl

theorem frame_update (project : Project) (w : Walk) (s : Stage) (random : Random) :
    Frame project w s random (w.update project s random).1 (w.update project s random).2.1 := by
  unfold update
  split
  · next habsent =>
    refine .waits fun c hdue => ?_
    have hpresent := hdue.present
    rw [habsent] at hpresent
    cases hpresent
  · next c hpresent =>
    split
    · next hidle =>
      refine .waits fun c' hdue => ?_
      obtain rfl : c = c' := Option.some.inj (hpresent.symm.trans hdue.present)
      simp [hdue.standing, hdue.unfinished] at hidle
    · next hdue =>
      have hdue : w.IsDue s c := by
        simp only [Bool.or_eq_true, not_or, Bool.not_eq_true] at hdue
        exact ⟨hpresent, hdue.1, hdue.2⟩
      dsimp only
      split
      · next hleft => exact .ends hdue (.inl hleft)
      · next hleft =>
        split
        · next hnone => exact .ends hdue (.inr (congrArg Prod.fst hnone))
        · next dir random' hnext =>
          have htries : w.Tries s random c dir := ⟨hdue, hleft, congrArg Prod.fst hnext⟩
          simp only [takeStep, settle_eventId, settle_skip]
          split
          · next henters =>
            simpa only [settle_eventId, settle_skip] using Frame.steps htries henters
          · next henters =>
            simpa only [settle_eventId, settle_skip] using
              Frame.bumps htries (Bool.eq_false_iff.2 henters)

end Walk

/-- A corridor of four tiles. -/
def Project.corridor : Project :=
  let room : Room :=
    { id := 1, width := 4, height := 1, tileSetId := 0, tiles := [], events := [], background := "",
      foreground := "" }
  { (default : Project) with maps := [⟨1, "", [room]⟩] }

end Adventure
