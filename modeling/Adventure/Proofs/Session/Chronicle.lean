import Adventure.Proofs.Session.Continuity
import Adventure.Proofs.Ways.Slides

/-!
# The slides of a game

The chronicle of a game tells its moments from a new game on, through all that was saved and loaded.
From each of them to the next a character stays as it is, sets out, or slides on, unless the player
enters a room.  So every slide in a chronicle is one from its beginning, and where it is drawn
depends on what becomes of the speed meanwhile.
-/

namespace Adventure

open Moment (Line)
open Session (Act)

variable {project : Project}

/-! ## Lingering -/

theorem Character.admits_lingers : Character.Admits Character.Lingers where
  refl := .refl
  trans _ _ _ := .trans
  turn := lingers_turn
  setImage := lingers_setImage
  setOpacity _ _ _ := ⟨rfl, rfl⟩
  change c change := by cases change <;> exact ⟨rfl, rfl⟩
  updateWithPage := lingers_updateWithPage

namespace Stage

theorem admits_lingers : Admits Character.Lingers Character.Lingers :=
  ⟨Character.admits_lingers, Character.admits_lingers, fun _ => ⟨rfl, rfl⟩, fun _ _ => ⟨rfl, rfl⟩⟩

/-- Whatever changes the cast in the admitted ways lets all linger. -/
theorem Becomes.lingers {s s' : Stage} (h : s.Becomes Character.Lingers Character.Lingers s') :
    s.Lingers s' := by
  intro k
  cases k with
  | zero => exact .some h.player
  | succ k => exact rel_getElem?_of_forall₂ h.events k

end Stage

open Stage (admits_lingers)

/-! ## Worlds -/

namespace World

variable (w : World)

theorem isEntered_refreshPages (h : w.stage.IsEntered project) :
    (w.refreshPages project).stage.IsEntered project := by
  have hsame := (calm_refreshPages w project).stage
  refine h.lingers (becomes_refreshPages admits_lingers w project).lingers ?_
  rw [Stage.room?, Stage.room?, hsame.mapId, hsame.roomId]

theorem isEntered_transfer {w w' : World} {roomId : Int32} {t : Tile} {dir : Option Direction}
    (h : w.transfer project roomId t dir = .ok w') : w'.stage.IsEntered project := by
  unfold transfer at h
  split at h
  · cases h
  · next stage hstage =>
    obtain rfl := Except.ok.inj h
    exact isEntered_refreshPages { w with stage := stage } (Stage.isEntered_transfer hstage)

theorem isEntered_start {w : World} {seed : UInt64} (h : start project seed = .ok w) :
    w.stage.IsEntered project := by
  obtain ⟨stage, hstage, rfl⟩ := exists_enter h
  refine isEntered_refreshPages _ ?_
  unfold Stage.enter at hstage
  split at hstage
  · cases hstage
  · next room hroom =>
    obtain rfl := Except.ok.inj hstage
    exact ⟨rfl, room, hroom, rfl⟩

/-- The player sets out at most, and does so only where the walk goes on. -/
theorem goes_updatePlayerWalk : w.stage.Goes project (w.updatePlayerWalk project).stage := by
  unfold updatePlayerWalk
  split
  · exact (Stage.Lingers.refl _).goes
  · next walk _ =>
    have hidle : w.stage.Lingers { w.stage with playerWalk := none } := .of_characters_eq rfl
    have hgoes := walk.goes_update project { w.stage with playerWalk := none } w.random
    have hlingers := walk.lingers_of_isOver project { w.stage with playerWalk := none } w.random
    refine hidle.then_goes ?_
    dsimp only
    split
    · cases hgoes with
      | on each => exact .on each
      | enters entered => exact .enters ⟨entered.player, entered.events⟩
    · next hover =>
      replace hlingers := hlingers (by simpa using hover)
      refine Stage.Lingers.goes ?_
      split
      · refine Stage.Lingers.trans ?_ (becomes_runPlayerEvent admits_lingers _ _).lingers
        exact hlingers.trans (.of_characters_eq rfl)
      · exact hlingers

end World

/-! ## Commands -/

namespace Interpreter

variable {i : Interpreter} {s : Session}

theorem goes_transfer (order : TransferOrder) :
    s.world.stage.Goes project (i.transfer s project order).session.world.stage := by
  unfold transfer
  dsimp only
  split
  · exact (Stage.Lingers.of_characters_eq rfl).goes
  · split
    · exact (Stage.Lingers.refl _).goes
    · next w hw =>
      have hentered : w.stage.IsEntered project := World.isEntered_transfer hw
      split
      · exact .enters ⟨hentered.player, hentered.events⟩
      · exact .enters hentered

theorem goes_execute (command : Command) :
    s.world.stage.Goes project (i.execute s project command).session.world.stage := by
  unfold execute
  split
  · exact (Stage.Lingers.refl _).goes
  · split
    · next action branches _ =>
      by_cases htransfer : ∃ order, action = .transfer order
      · obtain ⟨order, rfl⟩ := htransfer
        exact goes_transfer order
      · exact (becomes_act admits_lingers branches (not_exists.1 htransfer)).lingers.goes
    · exact (becomes_setRoute admits_lingers _ _).lingers.goes

/-! ## Steps -/

theorem goes_updateWalk (i : Interpreter) (s : Session) (project : Project) :
    s.world.stage.Goes project (i.updateWalk s project).2.2.world.stage := by
  unfold updateWalk
  split
  · exact (Stage.Lingers.refl _).goes
  · next walk _ =>
    have hgoes := walk.goes_update project s.world.stage s.world.random
    dsimp only
    split <;> exact hgoes

/-- A script that goes on after a frame of its walk has not set out anybody. -/
theorem lingers_updateWalk (i : Interpreter) (s : Session) (project : Project)
    (h : (i.updateWalk s project).1 = true) :
    s.world.stage.Lingers (i.updateWalk s project).2.2.world.stage := by
  unfold updateWalk at h ⊢
  split
  · exact .refl _
  · next walk hwalk =>
    have hlingers := walk.lingers_of_isOver project s.world.stage s.world.random
    simp only [hwalk] at h
    dsimp only
    split
    · next hover => exact hlingers hover
    · next hgoesOn =>
      rw [if_neg hgoesOn] at h
      cases h

theorem goes_step (i : Interpreter) (s : Session) :
    s.world.stage.Goes project (i.step s project).2.2.world.stage := by
  cases hrunning : i.running? s project with
  | none =>
    rcases step_of_idle hrunning with hsame | hframe
    · rw [hsame]
      exact (Stage.Lingers.refl _).goes
    · rw [hframe]
      exact goes_updateWalk _ s project
  | some r =>
    obtain ⟨j, t, c⟩ := r
    obtain ⟨_, _, hwalk, _⟩ := running?_eq_some hrunning
    have hlingers := lingers_updateWalk { i with wait := .none } s project (by rw [hwalk])
    rw [hwalk] at hlingers
    rw [step_of_running hrunning, stage_follow]
    exact hlingers.then_goes (goes_execute c)

end Interpreter

/-! ## Moments -/

/-- What can become of the cast from one moment to the next. -/
def Moment.Goes (project : Project) (m m' : Moment) : Prop :=
  m.session.world.stage.Goes project m'.session.world.stage

theorem Session.goes_startScripts (s : Session) (input : Input) :
    s.world.stage.Goes project (s.startScripts project input).world.stage :=
  (((World.becomes_refreshPages admits_lingers s.world project).lingers.trans
    (World.becomes_startAutomaticEvents admits_lingers _).lingers).trans
    (World.becomes_handleTap admits_lingers _ input).lingers).then_goes
      (World.goes_updatePlayerWalk _)

theorem Stage.spans_goes : Spans project (fun _ => True) (Goes project) where
  aside s s' player events := by
    have hsame : s'.characters = s.characters := by rw [characters, characters, player, events]
    exact (Lingers.of_characters_eq hsame).goes
  starts s input := s.goes_startScripts input
  step i s _ := i.goes_step s
  frame s := by
    have hdrop : s.Lingers s.dropStale := .of_characters_eq rfl
    exact hdrop.then_goes (goes_updateCharacters _)

namespace Session

variable (s : Session)

theorem goes_perform {act : Act} (noTick : ∀ input, act ≠ .tick input) :
    s.world.stage.Goes project (s.perform project act).world.stage := by
  by_cases htransfer : ∃ roomId t dir, act = .transfer roomId t dir
  · obtain ⟨roomId, t, dir, rfl⟩ := htransfer
    unfold perform
    dsimp only
    split
    · next hw => exact .enters (World.isEntered_transfer hw)
    · exact (Stage.Lingers.refl _).goes
  · refine (s.becomes_perform admits_lingers noTick fun roomId t dir heq => ?_).lingers.goes
    exact htransfer ⟨roomId, t, dir, heq⟩

theorem line_goes_moments (act : Act) :
    Line (Moment.Goes project) (.still s) (s.moments project act)
      (.still (s.perform project act)) :=
  Stage.spans_goes.line_moments s act (fun _ _ _ _ => trivial) s.goes_perform

theorem line_goes_story (acts : List Act) :
    Line (Moment.Goes project) (.still s) (story project s acts)
      (.still (s.after project acts)) := by
  induction acts generalizing s with
  | nil => exact .nil _
  | cons act acts ih => exact (s.line_goes_moments act).append (ih _)

end Session

/-! ## Chronicles -/

/-- The moments of a game, from a new game to the beginning of a session that goes on with it. -/
inductive Session.Chronicle (project : Project) : List Moment → Session → Prop where
  | new {w : World} (seed : UInt64) (host : Host) (started : World.start project seed = .ok w) :
      Chronicle project [.still ⟨w, .start project host⟩] ⟨w, .start project host⟩
  | loaded {s : Session} {told : List Moment} (earlier : Chronicle project told s)
      (acts : List Act) (seed : UInt64) (host : Host) :
      Chronicle project
        (told ++ story project s acts ++
          [.still ⟨.resume (s.after project acts).world.toProgress seed, .start project host⟩])
        ⟨.resume (s.after project acts).world.toProgress seed, .start project host⟩

theorem Session.Begins.exists_chronicle {s : Session} (h : Begins project s) :
    ∃ told, Chronicle project told s := by
  induction h with
  | new seed host started => exact ⟨_, .new seed host started⟩
  | loaded _ acts seed host ih =>
    obtain ⟨told, htold⟩ := ih
    exact ⟨_, .loaded htold acts seed host⟩

/-- Saved progress is resumed with everybody where they stood or slid. -/
theorem World.lingers_resume (progress : Progress) (seed : UInt64) :
    progress.stage.Lingers (World.resume progress seed).stage := by
  have hplayer : (World.resume progress seed).stage.characters =
      progress.stage.characters.modify 0 fun c => { c with speed := progress.playerSpeed } := rfl
  exact Stage.Each.of_modify hplayer (fun _ _ => ⟨rfl, rfl⟩) Character.Lingers.refl

/-- A chronicle begins where the player has entered a room. -/
theorem Session.Chronicle.line {s : Session} {told : List Moment} (h : Chronicle project told s) :
    ∃ first rest, told = first :: rest ∧ first.session.world.stage.IsEntered project ∧
      Line (Moment.Goes project) first rest (.still s) := by
  induction h with
  | new seed host started =>
    exact ⟨_, [], rfl, World.isEntered_start started, .nil _⟩
  | @loaded s told _ acts seed host ih =>
    obtain ⟨first, rest, rfl, hentered, hline⟩ := ih
    refine ⟨first, _, rfl, hentered, ?_⟩
    refine (hline.append (s.line_goes_story acts)).append (.single ?_)
    exact (World.lingers_resume _ seed).goes

/-! ## Slides in a chronicle -/

/-- What is at a place of the cast, moment by moment. -/
def Moment.castAt (moments : List Moment) (k : Nat) : List (Option Character) :=
  moments.map fun m => m.session.world.stage.characters[k]?

/-- A part of a chain is a chain. -/
theorem isChain_of_part {α : Type} {R : α → α → Prop} {part all : List α} (h : all.IsChain R)
    (within : part <:+: all) : part.IsChain R := by
  obtain ⟨before, later, rfl⟩ := within
  exact h.left_of_append.right_of_append

namespace Character

/-- Whoever slides was there the moment before. -/
def Follows (c? c'? : Option Character) : Prop :=
  ∀ c', c'? = some c' → c'.isMoving = true → ∃ c, c? = some c ∧ c.Goes c'

variable {c c₀ : Character} {slide : List Character} {seen : List (Option Character)}

theorem isChain_goes_of_infix (chain : seen.IsChain Follows) (h : c₀.IsSlide slide)
    (part : (c₀ :: slide).map some <:+: seen) : (c₀ :: slide).IsChain Goes := by
  have hmap := (List.isChain_map some).1 (isChain_of_part chain part)
  refine List.isChain_iff_getElem.2 fun n hn => ?_
  have hmoving : (c₀ :: slide)[n + 1].isMoving = true := h.moving _ (List.getElem_mem _)
  obtain ⟨c, hc, hgoes⟩ := List.isChain_iff_getElem.1 hmap n hn _ rfl hmoving
  exact Option.some.inj hc ▸ hgoes

/-- Whoever slides has stood before. -/
theorem exists_isSlide (start : ∀ c, seen.head? = some (some c) → c.isMoving = false)
    {before later : List (Option Character)} (chain : seen.IsChain Follows)
    (here : seen = before ++ some c :: later) (moving : c.isMoving = true) :
    ∃ c₀ slide, IsSlide c₀ (slide ++ [c]) ∧
      (c₀ :: (slide ++ [c])).map some <:+ before ++ [some c] := by
  induction before using List.reverseRecOn generalizing c later with
  | nil =>
    rw [here] at start
    exact absurd moving (by simp [start c rfl])
  | append_singleton before c? ih =>
    have hpart : [c?, some c] <:+: seen := ⟨before, later, by simp [here]⟩
    obtain ⟨d, rfl, hgoes⟩ := List.isChain_pair.1 (isChain_of_part chain hpart) c rfl moving
    cases hd : d.isMoving with
    | false =>
      refine ⟨d, [], ⟨hd, by simpa using moving⟩, before, by simp⟩
    | true =>
      have hthere : seen = before ++ some d :: some c :: later := by simp [here]
      obtain ⟨c₀, slide, hslide, hsuffix⟩ := ih hthere hd
      refine ⟨c₀, slide ++ [d], ⟨hslide.standing, ?_⟩, ?_⟩
      · intro e he
        rcases List.mem_append.1 he with he | he
        · exact hslide.moving e he
        · exact List.mem_singleton.1 he ▸ moving
      · obtain ⟨pre, hpre⟩ := hsuffix
        exact ⟨pre, by simp [← hpre]⟩

end Character

namespace Session.Chronicle

variable {s : Session} {told : List Moment} (h : Chronicle project told s) (acts : List Act)

include h

theorem isChain : (told ++ story project s acts).IsChain (Moment.Goes project) := by
  obtain ⟨first, rest, rfl, _, hline⟩ := h.line
  exact (hline.append (s.line_goes_story acts)).isChain

theorem isChain_castAt (k : Nat) :
    (Moment.castAt (told ++ story project s acts) k).IsChain Character.Follows := by
  refine (List.isChain_map _).2 ((h.isChain acts).imp fun m m' hgoes c' here moving => ?_)
  exact Stage.Goes.exists_goes hgoes here moving

/-- At first nobody slides. -/
theorem standing_of_head {k : Nat} {c : Character}
    (first : (Moment.castAt (told ++ story project s acts) k).head? = some (some c)) :
    c.isMoving = false := by
  obtain ⟨m, rest, rfl, hentered, _⟩ := h.line
  exact hentered.standing (List.mem_of_getElem? (Option.some.inj first))

/-- Whoever stands is drawn on its tile.  Whoever slides has stood before; the slide keeps its tile
and its way, and it is drawn on this way, ever further, exactly if no raise of the speed has put it
back.  By itself a frame of it is drawn on the way exactly if not too many frames are left for the
speed.  At its end the character is drawn on the next tile, unless the player enters a room. -/
theorem drawn_on_the_way_iff (k : Nat) :
    let moments := told ++ story project s acts
    let seen := Moment.castAt moments k
    (∀ c, some c ∈ seen → c.isMoving = false → c.drawPosition = c.position.foot) ∧
      (∀ before c later, seen = before ++ some c :: later → c.isMoving = true →
        (c.IsDrawnBetween ↔ 16 * c.moveCount.toNat < 17 * c.speed.frames.toNat) ∧
          ∃ c₀ slide, Character.IsSlide c₀ (slide ++ [c]) ∧
            (c₀ :: (slide ++ [c])).map some <:+ before ++ [some c]) ∧
      (∀ c₀ slide, Character.IsSlide c₀ slide → (c₀ :: slide).map some <:+: seen →
        (∃ dir, ∀ c ∈ slide, c.eventId = c₀.eventId ∧ c.position = c₀.position ∧ c.moveDir = dir ∧
          c.drawPosition = c₀.position.footAhead dir (Int32.ofInt c.progress)) ∧
        (Character.IsDrawnOnward slide ↔ Character.IsNeverPutBack slide)) ∧
      ∀ before m m' later, moments = before ++ m :: m' :: later → ∀ c c',
        m.session.world.stage.characters[k]? = some c →
        m'.session.world.stage.characters[k]? = some c' → c.isMoving = true → c'.isMoving = false →
          c'.drawPosition = c.position.footAhead c.moveDir tileSize ∨
            m'.session.world.stage.IsEntered project := by
  intro moments seen
  have hchain : seen.IsChain Character.Follows := h.isChain_castAt acts k
  have hgoes : ∀ c₀ slide, Character.IsSlide c₀ slide → (c₀ :: slide).map some <:+: seen →
      (c₀ :: slide).IsChain Character.Goes :=
    fun c₀ slide hslide hpart => Character.isChain_goes_of_infix hchain hslide hpart
  refine ⟨fun c _ hstanding => Character.drawPosition_of_standing hstanding, ?_, ?_, ?_⟩
  · intro before c later here moving
    obtain ⟨c₀, slide, hslide, hsuffix⟩ :=
      Character.exists_isSlide (fun c first => h.standing_of_head acts first) hchain here moving
    have hpart : (c₀ :: (slide ++ [c])).map some <:+: seen := by
      obtain ⟨pre, hpre⟩ := hsuffix
      exact ⟨pre, later, by rw [hpre, here]; simp⟩
    obtain ⟨dir, hway⟩ := hslide.exists_onWay (hgoes _ _ hslide hpart)
    have hwithin := (hway c (by simp)).within
    refine ⟨?_, c₀, slide, hslide, hsuffix⟩
    rw [Character.isDrawnBetween_iff moving hwithin, Character.progress_nonneg_iff]
  · intro c₀ slide hslide hpart
    obtain ⟨dir, hway⟩ := hslide.exists_onWay (hgoes c₀ slide hslide hpart)
    refine ⟨⟨dir, fun c hc => ?_⟩, hslide.isDrawnOnward_iff (hgoes c₀ slide hslide hpart)⟩
    have hc := hway c hc
    refine ⟨hc.eventId, hc.position, hc.moveDir, ?_⟩
    rw [Character.drawPosition_of_moving hc.moving hc.within, hc.position, hc.moveDir]
  · intro before m m' later here c c' hc hc' moving ended
    have hpart : [m, m'] <:+: moments := ⟨before, later, by simp [here]⟩
    have hnext : m.Goes project m' := List.isChain_pair.1 (isChain_of_part (h.isChain acts) hpart)
    exact hnext.drawPosition_of_ends hc hc' moving ended

end Session.Chronicle

/-- A corridor where a common event lets the player set out at a speed and then changes it. -/
def trackRoom (speed later : Speed) : Project :=
  let goes (body : Script) : Command := .route ⟨playerId, false, false, false⟩ body []
  let right : MoveOrder := ⟨.direction, .right, 1, 0, 0, .constant, false⟩
  let room : Room :=
    { id := 1, width := 12, height := 1, tileSetId := 0, tiles := [], events := [],
      background := "", foreground := "" }
  { (default : Project) with
    maps := [⟨1, "", [room]⟩]
    commonEvents :=
      [⟨1, "",
        [goes [.act (.changeCharacter (.speed speed)) [], .act (.moveCharacter right) []],
          .act (.wait 1) [], goes [.act (.changeCharacter (.speed later)) []]]⟩]
    system := { (default : System) with initialPosition := ⟨1, 1, 10, 0⟩ } }

/-- The event runs for two ticks. -/
def trackActs : List Act := [.startCommonEvent 1, .tick .none, .tick .none]

/-- A lower speed puts the player on by nine pixels. -/
theorem trackRoom_drawn_onward :
    ∃ w, World.start (trackRoom .fastest .slow) 1 = .ok w ∧
      ∃ c₀ slide, Character.IsSlide c₀ slide ∧
        (c₀ :: slide).map some <:+: Moment.castAt
          ([.still ⟨w, .start (trackRoom .fastest .slow) .deferred⟩] ++
            Session.story (trackRoom .fastest .slow)
              ⟨w, .start (trackRoom .fastest .slow) .deferred⟩ trackActs) 0 ∧
        (slide.map Character.progress).dedup = [0, 4, 13, 14] ∧ Character.IsDrawnOnward slide := by
  obtain ⟨w, hstart, hsome, hseen, hstanding, hmoving, hprogress, hraised⟩ :
      ∃ w, World.start (trackRoom .fastest .slow) 1 = .ok w ∧
        let seen := (Moment.castAt
          ([.still ⟨w, .start (trackRoom .fastest .slow) .deferred⟩] ++
            Session.story (trackRoom .fastest .slow)
              ⟨w, .start (trackRoom .fastest .slow) .deferred⟩ trackActs) 0).drop 17
        let cast := seen.reduceOption
        cast ≠ [] ∧ cast.map some = seen ∧ (∀ c ∈ cast.head?, c.isMoving = false) ∧
          (∀ c ∈ cast.tail, c.isMoving = true) ∧
          (cast.tail.map Character.progress).dedup = [0, 4, 13, 14] ∧
          cast.tail.IsChain fun c c' =>
            c'.speed.frames < c.speed.frames → c.progress ≤ c'.progress := by
    refine ⟨_, rfl, ?_⟩
    decide +kernel
  obtain ⟨c₀, slide, hcast⟩ := List.exists_cons_of_ne_nil hsome
  rw [hcast] at hseen hstanding hmoving hprogress hraised
  have hslide : Character.IsSlide c₀ slide := ⟨hstanding c₀ rfl, hmoving⟩
  have hpart := hseen ▸ (List.drop_suffix 17 _).isInfix
  have hchronicle := Session.Chronicle.new 1 .deferred hstart
  obtain ⟨_, _, hslides, _⟩ := hchronicle.drawn_on_the_way_iff trackActs 0
  obtain ⟨_, hiff⟩ := hslides c₀ slide hslide hpart
  exact ⟨w, hstart, c₀, slide, hslide, hpart, hprogress, hiff.2 hraised⟩

/-- A higher speed puts the player back by fourteen tiles and a half. -/
theorem trackRoom_puts_back :
    ∃ w, World.start (trackRoom .slowest .fastest) 1 = .ok w ∧
      let s := Session.after (trackRoom .slowest .fastest)
        ⟨w, .start (trackRoom .slowest .fastest) .deferred⟩ trackActs
      let c := s.world.stage.player
      c.isMoving = true ∧ c.position = ⟨10, 0⟩ ∧ c.destination = ⟨11, 0⟩ ∧
        c.position.foot = (168, 16) ∧ c.destination.foot = (184, 16) ∧ c.drawPosition = (-64, 16) ∧
        ¬ c.IsDrawnBetween := by
  obtain ⟨w, hstart, hmoving, hposition, hdestination, hfoot, hnext, hdrawn, hwithin, hback⟩ :
      ∃ w, World.start (trackRoom .slowest .fastest) 1 = .ok w ∧
        let s := Session.after (trackRoom .slowest .fastest)
          ⟨w, .start (trackRoom .slowest .fastest) .deferred⟩ trackActs
        let c := s.world.stage.player
        c.isMoving = true ∧ c.position = ⟨10, 0⟩ ∧ c.destination = ⟨11, 0⟩ ∧
          c.position.foot = (168, 16) ∧ c.destination.foot = (184, 16) ∧
          c.drawPosition = (-64, 16) ∧ c.moveCount.toNat ≤ Speed.slowest.frames.toNat ∧
          c.progress < 0 := by
    refine ⟨_, rfl, ?_⟩
    decide +kernel
  refine ⟨w, hstart, hmoving, hposition, hdestination, hfoot, hnext, hdrawn, ?_⟩
  rw [Character.isDrawnBetween_iff hmoving hwithin]
  exact Int.not_le.2 hback

end Adventure
