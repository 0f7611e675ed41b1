import Mathlib.Logic.Function.Iterate
import Adventure.Proofs.Ways.Spacing
import Adventure.Proofs.Ways.Targets

/-!
# The player's walk, tick by tick

A walk along a path first lets the player arrive from the slide under way.  From then on every step
takes as many ticks as the player's speed says, and the player is on the next tile with the last of
them.  The tick after the last step ends the walk, and so does the one that finds something in the
way of the next step: it turns the player toward it.
-/

namespace Adventure

/-! ## The clear part of a way -/

theorem isClear_cons {passable : Tile → Bool} {start : Tile} {dir : Direction}
    {way : List Direction} : IsClear passable start (dir :: way) ↔
      passable (start.step dir) = true ∧ IsClear passable (start.step dir) way :=
  List.forall_mem_cons

/-- A way is clear up to its end, or up to the first step that cannot be made. -/
theorem exists_clear (passable : Tile → Bool) (start : Tile) (way : List Direction) :
    ∃ clear blocked, way = clear ++ blocked ∧ IsClear passable start clear ∧
      ∀ dir ∈ blocked.head?, passable ((walk start clear).step dir) = false := by
  induction way generalizing start with
  | nil => exact ⟨[], [], rfl, by simp [IsClear, entered], by simp⟩
  | cons dir way ih =>
    cases hdir : passable (start.step dir) with
    | true =>
      obtain ⟨clear, blocked, rfl, hclear, hblocked⟩ := ih (start.step dir)
      exact ⟨dir :: clear, blocked, rfl, isClear_cons.2 ⟨hdir, hclear⟩, hblocked⟩
    | false => exact ⟨[], dir :: way, rfl, by simp [IsClear, entered], by simpa [walk] using hdir⟩

/-! ## Where a character looks -/

namespace Character

/-- The direction a character looks in, and whether it is fixed. -/
def facing (c : Character) : Direction × Bool := (c.dir, c.dirFix)

theorem facing_animateStepping (c : Character) : c.animateStepping.facing = c.facing := by
  unfold animateStepping
  split <;> rfl

theorem facing_animateWalking (c : Character) : c.animateWalking.facing = c.facing := by
  unfold animateWalking
  dsimp only
  repeat' split
  all_goals rfl

theorem facing_slide (c : Character) : c.slide.facing = c.facing := by
  unfold slide
  dsimp only
  repeat' split
  all_goals rfl

/-- A frame turns nobody. -/
theorem facing_update (c : Character) : c.update.facing = c.facing := by
  unfold update
  dsimp only
  split
  · rw [facing_slide, facing_animateWalking, facing_animateStepping]
    rfl
  · rw [facing_animateStepping]
    rfl

theorem facing_turn (c : Character) (dir : Direction) :
    (c.turn dir).facing = (if c.dirFix then c.dir else dir, c.dirFix) := by
  unfold turn
  split
  · next hfix => simp [facing, hfix]
  · next hfix => simp [facing, hfix]

theorem facing_startMove (c : Character) (dir : Direction) :
    (c.startMove dir).facing = (if c.dirFix then c.dir else dir, c.dirFix) := by
  rw [← facing_turn]
  unfold startMove
  dsimp only
  split <;> rfl

end Character

/-! ## Frames of a slide -/

/-- A slide that goes on has not left its tile yet. -/
theorem Gait.position_slide_of_moving {g : Gait} (h : g.slide.isMoving = true) :
    g.slide.position = g.position := by
  unfold slide at h ⊢
  split
  · next hlast =>
    rw [if_pos hlast] at h
    cases h
  · rfl

namespace Character

theorem isMoving_iff {c : Character} : c.isMoving = true ↔ 0 < c.moveCount.toNat := by
  simp [isMoving, UInt32.lt_iff_toNat_lt]

theorem moveCount_of_standing {c : Character} (h : c.isMoving = false) : c.moveCount.toNat = 0 :=
  Nat.eq_zero_of_not_pos fun hpos => Bool.eq_false_iff.1 h (isMoving_iff.2 hpos)

/-- A slide gets on by one frame. -/
theorem moveCount_update {c : Character} (h : c.isMoving = true) :
    c.update.moveCount.toNat + 1 = c.moveCount.toNat := by
  have hpos := isMoving_iff.1 h
  have hone : (1 : UInt32) ≤ c.moveCount := UInt32.le_iff_toNat_le.2 hpos
  have hcount : c.update.moveCount = c.moveCount - 1 := by
    have hgait := congrArg Gait.moveCount (gait_update_of_moving h)
    refine hgait.trans ?_
    unfold Gait.slide
    split
    · next hzero => exact hzero.symm
    · rfl
  rw [hcount, UInt32.toNat_sub_of_le _ _ hone]
  exact Nat.sub_add_cancel hpos

theorem moveCount_startMove (c : Character) (dir : Direction) :
    (c.startMove dir).moveCount = c.speed.frames :=
  congrArg Gait.moveCount (gait_startMove c dir)

/-- Only with the last frame of its slide a character is on another tile. -/
theorem position_of_update (c : Character) :
    c.update.position = if c.update.isMoving then c.position else c.destination := by
  cases hafter : c.update.isMoving with
  | false => rw [← destination_of_standing hafter, destination_update, if_neg Bool.false_ne_true]
  | true =>
    cases hbefore : c.isMoving with
    | false => exact position_eq_of_gait (gait_update_of_standing hbefore)
    | true =>
      have hgait := gait_update_of_moving hbefore
      have hposition := congrArg Gait.position hgait
      exact hposition.trans (Gait.position_slide_of_moving (hgait ▸ hafter))

end Character

/-! ## Ticks -/

namespace Walk

/-- One tick: a frame of the walk, and then a frame of everybody in the room. -/
def tick (project : Project) : Walk × Stage × Random → Walk × Stage × Random
  | (w, s, random) =>
    let (w, s, random) := w.update project s random
    (w, s.updateCharacters, random)

/-- The walk of the player along a path, and the room, after some ticks. -/
def tour (project : Project) (s : Stage) (target : Tile) (path : List Direction) (random : Random)
    (ticks : Nat) : Walk × Stage × Random :=
  (tick project)^[ticks] (along s playerId target path, s, random)

/-- What is found some ticks after the player set out with steps ahead of which so many are clear.
The position changes with the last tick of each step only. -/
structure OnCourse (setOut : Character) (clear blocked : List Direction) (ticks : Nat) (w : Walk)
    (s : Stage) : Prop where
  position : s.player.position =
    if ticks < setOut.moveCount.toNat then setOut.position
    else walk setOut.destination
      (clear.take ((ticks - setOut.moveCount.toNat) / setOut.speed.frames.toNat))
  moving : s.player.isMoving = true ↔ ticks < setOut.moveCount.toNat ∨
    ticks < setOut.moveCount.toNat + clear.length * setOut.speed.frames.toNat ∧
      (ticks - setOut.moveCount.toNat) % setOut.speed.frames.toNat ≠ 0
  ended : w.isOver s = true ↔
    setOut.moveCount.toNat + clear.length * setOut.speed.frames.toNat < ticks
  turned : w.isOver s = true → ∀ dir ∈ blocked.head?,
    s.player.dir = if setOut.dirFix then setOut.dir else dir

/-- Until the walk is over, the player can enter the same tiles. -/
def PassageStays (project : Project) (passable : Tile → Bool) (ws : Walk × Stage × Random) : Prop :=
  ∀ ticks, ((tick project)^[ticks] ws).1.isOver ((tick project)^[ticks] ws).2.1 = false →
    ∀ t, ((tick project)^[ticks] ws).2.1.canEnter project playerId false t = passable t

variable {w w' : Walk} {project : Project} {s s' : Stage} {random : Random} {dir : Direction}
  {ahead clear blocked : List Direction} {passable : Tile → Bool} {ticks : Nat}

/-! ## What a tick does -/

/-- A walk of the player along a path that is not over, with the steps that have not been begun. -/
structure Underway (w : Walk) (ahead : List Direction) : Prop where
  eventId : w.eventId = playerId
  kind : w.order.kind = .target
  skip : w.skip = true
  unfinished : w.finished = false
  fits : w.stepsLeft.toNat ≤ w.path.length
  ahead_eq : w.ahead = ahead

theorem underway_along (s : Stage) (target : Tile) (path : List Direction) :
    (along s playerId target path).Underway
      (path.drop (path.length - path.length % UInt32.size)) :=
  ⟨rfl, rfl, rfl, rfl, by simpa [along, begin] using Nat.mod_le .., ahead_begin ..⟩

theorem characterIn?_playerId (s : Stage) (mapId roomId : Int32) :
    s.characterIn? mapId roomId playerId = some s.player := by
  simp [Stage.characterIn?, Stage.character?]

/-- What a frame of a walk does for a player who stands: it ends the walk, makes the next step, or
turns toward what is in the way of it and gives up. -/
inductive Acts (project : Project) (s : Stage) (w' : Walk) : List Direction → Stage → Prop
  | ends (finished : w'.finished = true) : Acts project s w' [] s
  | steps {dir : Direction} {ahead : List Direction}
      (enters : s.canEnter project playerId false (s.player.position.step dir) = true)
      (underway : w'.Underway ahead) :
      Acts project s w' (dir :: ahead) { s with player := s.player.startMove dir }
  | bumps {dir : Direction} {ahead : List Direction}
      (enters : s.canEnter project playerId false (s.player.position.step dir) = false)
      (finished : w'.finished = true) :
      Acts project s w' (dir :: ahead) { s with player := s.player.turn dir }

/-- A step that is begun is no longer ahead. -/
theorem Underway.step {c : Character} (h : w.Underway ahead) (tries : w.Tries s random c dir) :
    ∃ more, ahead = dir :: more ∧ { w.settle with stepping := true }.Underway more := by
  obtain ⟨hleft, hahead⟩ := tries.ahead_eq h.kind
  obtain ⟨n, hn⟩ := w.settle_eq
  refine ⟨_, h.ahead_eq.symm.trans hahead, ?_⟩
  constructor
  · rw [settle_eventId, h.eventId]
  · rw [settle_order, h.kind]
  · rw [settle_skip, h.skip]
  · rw [hn]
    exact h.unfinished
  · rw [settle_path, settle_stepsLeft]
    exact w.stepsAhead_le.trans h.fits
  · rw [Walk.ahead, stepsAhead, settle_path, settle_stepsLeft]
    rfl

theorem Underway.acts (h : w.Underway ahead) (project : Project) (random : Random)
    (standing : s.player.isMoving = false) :
    Acts project s (w.update project s random).1 ahead (w.update project s random).2.1 := by
  have hplayer : s.characterIn? w.mapId w.roomId w.eventId = some s.player := by
    rw [h.eventId, characterIn?_playerId]
  have hdue : w.IsDue s s.player := ⟨hplayer, standing, h.unfinished⟩
  have hframe := w.frame_update project s random
  generalize (w.update project s random).1 = w', (w.update project s random).2.1 = s' at hframe ⊢
  cases hframe with
  | waits idle => exact absurd hdue (idle _)
  | ends _ last =>
    rw [← h.ahead_eq, ahead_eq_nil_of_ends h.kind h.fits last]
    exact .ends rfl
  | steps tries enters =>
    obtain rfl := Option.some.inj (hplayer.symm.trans tries.present)
    obtain ⟨more, rfl, hmore⟩ := h.step tries
    rw [h.eventId] at enters ⊢
    exact .steps enters hmore
  | bumps tries enters =>
    obtain rfl := Option.some.inj (hplayer.symm.trans tries.present)
    obtain ⟨more, rfl, -⟩ := h.step tries
    rw [h.eventId] at enters ⊢
    refine .bumps enters ?_
    rw [if_pos h.skip]

/-! ## The course, one tick later -/

theorem isOver_eq (h : w.eventId = playerId) (s : Stage) :
    w.isOver s = (!s.player.isMoving && w.finished) := by
  rw [isOver, h, characterIn?_playerId]

theorem onCourse_zero (h : w.Underway (clear ++ blocked)) (s : Stage) :
    OnCourse s.player clear blocked 0 w s := by
  have hover : w.isOver s = false := by rw [isOver_eq h.eventId, h.unfinished, Bool.and_false]
  refine ⟨?_, ?_, by simp [hover], by simp [hover]⟩
  · split
    · rfl
    · next hzero =>
      have hstanding := Bool.eq_false_iff.2 (mt Character.isMoving_iff.1 hzero)
      rw [Nat.zero_sub, Nat.zero_div, List.take_zero, Character.destination_of_standing hstanding]
      rfl
  · rw [Character.isMoving_iff, Nat.zero_sub, Nat.zero_mod]
    simp

theorem onCourse_slide {c : Character} (hc : c.isMoving = true)
    (h : OnCourse c.update clear blocked ticks w s) : OnCourse c clear blocked (ticks + 1) w s := by
  have hspeed := Character.Steady.update.speed c
  have hdir : c.update.dir = c.dir := congrArg Prod.fst c.facing_update
  have hfix : c.update.dirFix = c.dirFix := congrArg Prod.snd c.facing_update
  have hcount := Character.moveCount_update hc
  obtain ⟨hposition, hmoving, hover, hturned⟩ := h
  rw [hspeed] at hposition hmoving hover
  refine ⟨?_, ?_, ?_, ?_⟩
  · rw [hposition, c.position_of_update, c.destination_update, ← hcount, Nat.add_sub_add_right]
    simp only [Nat.add_lt_add_iff_right]
    split
    · next hlt => rw [if_pos (Character.isMoving_iff.2 (Nat.zero_lt_of_lt hlt))]
    · rfl
  · rw [hmoving, ← hcount, Nat.add_sub_add_right]
    omega
  · rw [hover, ← hcount]
    omega
  · rw [hdir, hfix] at hturned
    exact hturned

theorem onCourse_step {c : Character} (hc : c.isMoving = false)
    (h : OnCourse (c.startMove dir).update clear blocked ticks w s) :
    OnCourse c (dir :: clear) blocked (ticks + 1) w s := by
  have hspeed : (c.startMove dir).update.speed = c.speed :=
    (Character.Steady.update.speed _).trans ((Character.Steady.startMove dir).speed c)
  have hdir : (c.startMove dir).update.dir = if c.dirFix then c.dir else dir :=
    congrArg Prod.fst ((c.startMove dir).facing_update.trans (c.facing_startMove dir))
  have hfix : (c.startMove dir).update.dirFix = c.dirFix :=
    congrArg Prod.snd ((c.startMove dir).facing_update.trans (c.facing_startMove dir))
  have hcount : (c.startMove dir).update.moveCount.toNat + 1 = c.speed.frames.toNat := by
    rw [Character.moveCount_update (c.isMoving_startMove dir), c.moveCount_startMove]
  have hdestination : (c.startMove dir).update.destination = c.destination.step dir := by
    rw [Character.destination_update, c.destination_startMove, Character.destination_of_standing hc]
  have hstays : 0 < (c.startMove dir).update.moveCount.toNat →
      (c.startMove dir).update.position = c.destination := by
    intro hpos
    rw [Character.position_of_update, if_pos (Character.isMoving_iff.2 hpos),
      c.position_startMove, Character.destination_of_standing hc]
  have hzero := Character.moveCount_of_standing hc
  obtain ⟨hposition, hmoving, hover, hturned⟩ := h
  rw [hspeed] at hposition hmoving hover
  generalize (c.startMove dir).update.moveCount.toNat = first
    at hcount hstays hposition hmoving hover
  refine ⟨?_, ?_, ?_, ?_⟩
  · rw [hposition, hdestination, hzero, ← hcount, if_neg (Nat.not_lt_zero _), Nat.sub_zero]
    split
    · next hlt =>
      rw [hstays (Nat.zero_lt_of_lt hlt), Nat.div_eq_of_lt (Nat.succ_lt_succ hlt)]
      rfl
    · next hge =>
      have hle : first + 1 ≤ ticks + 1 := by omega
      rw [Nat.div_eq_sub_div first.succ_pos hle, Nat.add_sub_add_right, List.take_succ_cons]
      rfl
  · rw [hmoving, hzero, ← hcount, List.length_cons, Nat.succ_mul, Nat.sub_zero]
    by_cases hlt : ticks < first
    · have hmod : (ticks + 1) % (first + 1) = ticks + 1 := Nat.mod_eq_of_lt (by omega)
      omega
    · have hle : first + 1 ≤ ticks + 1 := by omega
      have hmod : (ticks + 1) % (first + 1) = (ticks - first) % (first + 1) := by
        rw [Nat.mod_eq_sub_mod hle, Nat.add_sub_add_right]
      omega
  · rw [hover, hzero, ← hcount, List.length_cons, Nat.succ_mul]
    omega
  · rw [hdir, hfix] at hturned
    intro hdone d hd
    rw [hturned hdone d hd]
    split <;> rfl

/-- A walk that has ended leaves the player where it stands. -/
theorem onCourse_end {c : Character} (hc : c.isMoving = false)
    (hid : w.eventId = playerId) (hfinished : w.finished = true)
    (hgait : s.player.gait = c.gait)
    (hturned : ∀ dir ∈ blocked.head?, s.player.dir = if c.dirFix then c.dir else dir) :
    OnCourse c [] blocked (ticks + 1) w s := by
  have hstanding : s.player.isMoving = false := (Character.isMoving_eq_of_gait hgait).trans hc
  have hover : w.isOver s = true := by rw [isOver_eq hid, hstanding, hfinished]; rfl
  have hzero := Character.moveCount_of_standing hc
  refine ⟨?_, ?_, ?_, fun _ => hturned⟩
  · rw [hzero, if_neg (Nat.not_lt_zero _), List.take_nil, Character.position_eq_of_gait hgait,
      Character.destination_of_standing hc]
    rfl
  · rw [hstanding, hzero]
    simp
  · rw [hover, hzero]
    simp

theorem tick_of_finished (hid : w.eventId = playerId) (hfinished : w.finished = true) :
    tick project (w, s, random) = (w, s.updateCharacters, random) := by
  unfold tick
  dsimp only
  rw [update, hid, characterIn?_playerId]
  simp [hfinished]

theorem iterate_tick_of_finished (project : Project) (random : Random)
    (hid : w.eventId = playerId) (hfinished : w.finished = true)
    (hstanding : s.player.isMoving = false) (n : Nat) :
    ∃ s', (tick project)^[n] (w, s, random) = (w, s', random) ∧ s'.player.gait = s.player.gait ∧
      s'.player.facing = s.player.facing := by
  induction n with
  | zero => exact ⟨s, rfl, rfl, rfl⟩
  | succ n ih =>
    obtain ⟨s', htick, hgait, hfacing⟩ := ih
    refine ⟨s'.updateCharacters, ?_, ?_, ?_⟩
    · rw [Function.iterate_succ_apply', htick, tick_of_finished hid hfinished]
    · have hstill : s'.player.isMoving = false :=
        (Character.isMoving_eq_of_gait hgait).trans hstanding
      exact (Character.gait_update_of_standing hstill).trans hgait
    · exact s'.player.facing_update.trans hfacing

theorem onCourse_of_finished {c : Character} (hc : c.isMoving = false)
    (hid : w.eventId = playerId) (hfinished : w.finished = true)
    (hgait : s.player.gait = c.gait)
    (hturned : ∀ dir ∈ blocked.head?, s.player.dir = if c.dirFix then c.dir else dir) (n : Nat) :
    OnCourse c [] blocked (n + 1) ((tick project)^[n] (w, s, random)).1
      ((tick project)^[n] (w, s, random)).2.1 := by
  have hstanding : s.player.isMoving = false := (Character.isMoving_eq_of_gait hgait).trans hc
  obtain ⟨s', htick, hgait', hfacing⟩ :=
    iterate_tick_of_finished project random hid hfinished hstanding n
  have hdir : s'.player.dir = s.player.dir := congrArg Prod.fst hfacing
  rw [htick]
  exact onCourse_end hc hid hfinished (hgait'.trans hgait) (hdir ▸ hturned)

/-! ## The whole course -/

theorem tick_of_moving (h : w.Underway ahead) (hmoving : s.player.isMoving = true) :
    tick project (w, s, random) = (w, s.updateCharacters, random) := by
  unfold tick
  dsimp only
  rw [update, h.eventId, characterIn?_playerId]
  simp [hmoving]

theorem PassageStays.tick {ws : Walk × Stage × Random} (h : PassageStays project passable ws) :
    PassageStays project passable (tick project ws) := fun n => h (n + 1)

/-- The steps ahead of a walk, the clear ones and then those from the first that cannot be made,
tell its whole course.  By induction on the ticks: after one of them a walk is over, or has fewer
frames of a slide or fewer steps ahead. -/
theorem Underway.onCourse (h : w.Underway (clear ++ blocked))
    (hclear : IsClear passable s.player.destination clear)
    (hblocked : ∀ dir ∈ blocked.head?,
      passable ((walk s.player.destination clear).step dir) = false)
    (hstays : PassageStays project passable (w, s, random)) (ticks : Nat) :
    OnCourse s.player clear blocked ticks ((tick project)^[ticks] (w, s, random)).1
      ((tick project)^[ticks] (w, s, random)).2.1 := by
  induction ticks generalizing w s random clear with
  | zero => exact onCourse_zero h s
  | succ n ih =>
    have hlater := hstays.tick
    rw [Function.iterate_succ_apply]
    cases hmoving : s.player.isMoving with
    | true =>
      rw [tick_of_moving h hmoving] at hlater ⊢
      have hdestination : s.updateCharacters.player.destination = s.player.destination :=
        s.player.destination_update
      rw [← hdestination] at hclear hblocked
      exact onCourse_slide hmoving (ih h hclear hblocked hlater)
    | false =>
      have hopen : w.isOver s = false := by
        rw [isOver_eq h.eventId, h.unfinished, Bool.and_false]
      have hnow : ∀ t, s.canEnter project playerId false t = passable t := hstays 0 hopen
      have hacts := h.acts project random hmoving
      have hid := (w.update_eventId project s random).trans h.eventId
      have htick : Walk.tick project (w, s, random) = ((w.update project s random).1,
        (w.update project s random).2.1.updateCharacters, (w.update project s random).2.2) := rfl
      rw [htick] at hlater ⊢
      generalize hahead : clear ++ blocked = ahead, (w.update project s random).1 = w',
        (w.update project s random).2.1 = s', (w.update project s random).2.2 = random'
        at hacts hid hlater ⊢
      rw [Character.destination_of_standing hmoving] at hclear hblocked
      cases hacts with
      | ends finished =>
        obtain ⟨rfl, rfl⟩ := List.append_eq_nil_iff.1 hahead
        exact onCourse_of_finished hmoving hid finished
          (Character.gait_update_of_standing hmoving) (by simp) n
      | @bumps dir ahead enters finished =>
        cases clear with
        | nil =>
          obtain rfl : blocked = dir :: ahead := hahead
          have hturn := Character.isMoving_eq_of_gait (s.player.gait_turn dir)
          have hgait := Character.gait_update_of_standing (hturn.trans hmoving)
          have hfacing := (s.player.turn dir).facing_update.trans (s.player.facing_turn dir)
          refine onCourse_of_finished hmoving hid finished
            (hgait.trans (s.player.gait_turn dir)) (fun d hd => ?_) n
          obtain rfl : dir = d := Option.some.inj hd
          exact congrArg Prod.fst hfacing
        | cons d clear =>
          obtain ⟨rfl, -⟩ := List.cons_eq_cons.1 hahead
          rw [hnow, (isClear_cons.1 hclear).1] at enters
          cases enters
      | @steps dir ahead enters underway =>
        cases clear with
        | nil =>
          obtain rfl : blocked = dir :: ahead := hahead
          rw [hnow] at enters
          exact absurd enters (Bool.eq_false_iff.1 (hblocked dir rfl))
        | cons d clear =>
          obtain ⟨rfl, rfl⟩ := List.cons_eq_cons.1 hahead
          have hdestination :
              (s.player.startMove d).update.destination = s.player.position.step d := by
            rw [Character.destination_update, s.player.destination_startMove]
          refine onCourse_step hmoving (ih underway ?_ ?_ hlater)
          · exact hdestination ▸ (isClear_cons.1 hclear).2
          · exact hdestination ▸ hblocked

theorem OnCourse.position_of_isOver {c : Character} (h : OnCourse c clear blocked ticks w s)
    (hover : w.isOver s = true) : s.player.position = walk c.destination clear := by
  have hlate := h.ended.1 hover
  have hframes : 0 < c.speed.frames.toNat := UInt32.lt_iff_toNat_lt.1 c.speed.frames_pos
  have hlength : clear.length ≤ (ticks - c.moveCount.toNat) / c.speed.frames.toNat := by
    rw [Nat.le_div_iff_mul_le hframes]
    omega
  have hpast : ¬ ticks < c.moveCount.toNat := by omega
  rw [h.position, if_neg hpast, List.take_of_length_le hlength]

/-- As long as the player can enter the same tiles, a walk along a path goes over its steps exactly,
up to the first that cannot be made: from the tile where the player comes to stand, each of them in
as many ticks as the player's speed says, and with nothing left to do it is over a tick later.  The
steps are those of the whole path, as long as there are not too many to count. -/
theorem tour_goes_along_path (project : Project) (s : Stage) (target : Tile)
    (path : List Direction) (random : Random)
    (stays : PassageStays project (s.canEnter project playerId false)
      (along s playerId target path, s, random)) :
    ∃ clear blocked, clear ++ blocked = path.drop (path.length - path.length % UInt32.size) ∧
      (path.length < UInt32.size → clear ++ blocked = path) ∧
      IsClear (s.canEnter project playerId false) s.player.destination clear ∧
      (∀ dir ∈ blocked.head?,
        s.canEnter project playerId false ((walk s.player.destination clear).step dir) = false) ∧
      ∀ ticks, ∃ w' s' random', tour project s target path random ticks = (w', s', random') ∧
        OnCourse s.player clear blocked ticks w' s' ∧
        (w'.isOver s' = true → s'.player.position = walk s.player.destination clear) := by
  obtain ⟨clear, blocked, hsteps, hclear, hblocked⟩ :=
    exists_clear (s.canEnter project playerId false) s.player.destination
      (path.drop (path.length - path.length % UInt32.size))
  refine ⟨clear, blocked, hsteps.symm, fun hfew => ?_, hclear, hblocked, fun ticks => ?_⟩
  · rw [← hsteps, Nat.mod_eq_of_lt hfew, Nat.sub_self, List.drop_zero]
  · have hcourse := (hsteps ▸ underway_along s target path).onCourse hclear hblocked stays ticks
    exact ⟨_, _, _, rfl, hcourse, hcourse.position_of_isOver⟩

/-! ## Rooms where nobody else moves -/

/-- What decides where the player can go, as nobody is in the way of oneself. -/
def obstacles (s : Stage) : Int32 × Int32 × Bool × List (Int32 × Bool × Gait) :=
  (s.mapId, s.roomId, s.player.through, s.events.map fun c => (c.eventId, c.blocks, c.gait))

/-- The player is nobody else, and all the others stand. -/
structure Alone (s : Stage) : Prop where
  eventId : s.player.eventId = playerId
  standing : ∀ c ∈ s.events, c.isMoving = false

theorem Alone.isOccupied_eq (h : Alone s) (t : Tile) :
    s.isOccupied playerId t = (obstacles s).2.2.2.any fun (id, blocks, gait) =>
      id != playerId && blocks && (gait.position == t || gait.destination == t) := by
  simp only [Stage.isOccupied, Stage.characters, List.any_cons, h.eventId, bne_self_eq_false,
    Bool.false_and, Bool.false_or, obstacles, List.any_map]
  rfl

theorem canEnter_eq_of_obstacles (h : Alone s) (h' : Alone s') (heq : obstacles s' = obstacles s)
    (t : Tile) : s'.canEnter project playerId false t = s.canEnter project playerId false t := by
  have hroom : s'.room? project = s.room? project := by
    unfold Stage.room?
    rw [show s'.mapId = s.mapId from congrArg (·.1) heq,
      show s'.roomId = s.roomId from congrArg (·.2.1) heq]
  have hthrough : s'.player.through = s.player.through := congrArg (·.2.2.1) heq
  unfold Stage.canEnter
  rw [hroom, h.isOccupied_eq, h'.isOccupied_eq, heq]
  simp only [Stage.character?, if_pos, Option.any_some, hthrough]

theorem Alone.updateCharacters (h : Alone s) :
    Alone s.updateCharacters ∧ obstacles s.updateCharacters = obstacles s := by
  have hothers : ∀ c ∈ s.events, (c.update.eventId, c.update.blocks, c.update.gait) =
      (c.eventId, c.blocks, c.gait) := fun c hc => by
    rw [Character.Steady.update.eventId, Character.gait_update_of_standing (h.standing c hc),
      Character.blocks_eq c.through_update (Character.Steady.update.priority c)]
  refine ⟨⟨(Character.Steady.update.eventId _).trans h.eventId, ?_⟩, ?_⟩
  · refine List.forall_mem_map.2 fun c hc => ?_
    rw [Character.isMoving_eq_of_gait (Character.gait_update_of_standing (h.standing c hc))]
    exact h.standing c hc
  · have hsame : s.events.map ((fun c => (c.eventId, c.blocks, c.gait)) ∘ Character.update) =
        s.events.map fun c => (c.eventId, c.blocks, c.gait) := List.map_congr_left hothers
    simp only [obstacles, Stage.updateCharacters, Character.through_update, List.map_map, hsame]

/-- The player's walk moves nobody else. -/
theorem Alone.update (h : Alone s) (project : Project) (hid : w.eventId = playerId)
    (random : Random) :
    Alone (w.update project s random).2.1 ∧
      obstacles (w.update project s random).2.1 = obstacles s := by
  have hframe := w.frame_update project s random
  generalize (w.update project s random).1 = w', (w.update project s random).2.1 = s' at hframe ⊢
  have hplayer : ∀ c : Character, c.eventId = s.player.eventId → c.through = s.player.through →
      Alone { s with player := c } ∧ obstacles { s with player := c } = obstacles s :=
    fun c hsame hthrough => ⟨⟨hsame.trans h.eventId, h.standing⟩, by simp [obstacles, hthrough]⟩
  cases hframe with
  | waits => exact ⟨h, rfl⟩
  | ends => exact ⟨h, rfl⟩
  | @steps _ dir =>
    rw [hid]
    exact hplayer _ ((Character.Steady.startMove dir).eventId _) (s.player.through_startMove dir)
  | @bumps _ dir =>
    rw [hid]
    exact hplayer _ ((Character.Steady.turn fun _ => dir).eventId _) (s.player.through_turn dir)

theorem passageStays_of_alone (project : Project) (h : Alone s) (hid : w.eventId = playerId)
    (random : Random) :
    PassageStays project (s.canEnter project playerId false) (w, s, random) := by
  have hrun : ∀ ticks, ((tick project)^[ticks] (w, s, random)).1.eventId = playerId ∧
      Alone ((tick project)^[ticks] (w, s, random)).2.1 ∧
      obstacles ((tick project)^[ticks] (w, s, random)).2.1 = obstacles s := by
    intro ticks
    induction ticks with
    | zero => exact ⟨hid, h, rfl⟩
    | succ n ih =>
      rw [Function.iterate_succ_apply']
      obtain ⟨hid', halone, hsame⟩ := ih
      generalize (tick project)^[n] (w, s, random) = ws at hid' halone hsame ⊢
      obtain ⟨w', s', random'⟩ := ws
      have hupdate := halone.update project hid' random'
      have hframe := hupdate.1.updateCharacters
      exact ⟨(w'.update_eventId project s' random').trans hid', hframe.1,
        hframe.2.trans (hupdate.2.trans hsame)⟩
  intro ticks _ t
  exact canEnter_eq_of_obstacles h (hrun ticks).2.1 (hrun ticks).2.2 t

/-- The player, who still slides on to the second tile of the corridor, sets out for its last one
and comes next to whom stands there. -/
theorem corridorEnds_tour :
    let s := corridorEnds.modifyCharacter playerId fun c => c.startMove .right
    PassageStays .corridor (s.canEnter .corridor playerId false)
        (along s playerId ⟨3, 0⟩ [.right, .right], s, ⟨0, 0⟩) ∧
      ∃ w' s' random', tour .corridor s ⟨3, 0⟩ [.right, .right] ⟨0, 0⟩ 9 = (w', s', random') ∧
        w'.isOver s' = true ∧ s'.player.position = ⟨2, 0⟩ ∧ s'.player.dir = .right := by
  intro s
  have halone : Alone s := ⟨by decide, by decide⟩
  have hstays := passageStays_of_alone .corridor
    (w := along s playerId ⟨3, 0⟩ [.right, .right]) halone rfl ⟨0, 0⟩
  obtain ⟨clear, blocked, -, hall, hclear, hblocked, hticks⟩ :=
    tour_goes_along_path .corridor s ⟨3, 0⟩ [.right, .right] ⟨0, 0⟩ hstays
  have hsteps := hall (by decide)
  obtain ⟨w', s', random', htour, hcourse, hend⟩ := hticks 9
  have hfirst : s.canEnter .corridor playerId false ⟨2, 0⟩ = true := by decide +kernel
  have hsecond : s.canEnter .corridor playerId false ⟨3, 0⟩ = false := by decide +kernel
  have hone : clear = [.right] ∧ blocked = [.right] := by
    rcases clear with _ | ⟨d, _ | ⟨d', rest⟩⟩
    · obtain rfl : blocked = [.right, .right] := hsteps
      exact absurd hfirst (Bool.eq_false_iff.1 (hblocked _ rfl))
    · simpa using hsteps
    · obtain ⟨rfl, rfl, -⟩ : d = .right ∧ d' = .right ∧ rest ++ blocked = [] := by
        simpa using hsteps
      exact absurd (isClear_cons.1 (isClear_cons.1 hclear).2).1 (Bool.eq_false_iff.1 hsecond)
  obtain ⟨rfl, rfl⟩ := hone
  have hover : w'.isOver s' = true := hcourse.ended.2 (by decide)
  exact ⟨hstays, w', s', random', htour, hover, hend hover, hcourse.turned hover _ rfl⟩

end Walk

end Adventure
