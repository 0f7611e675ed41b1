import Adventure.Proofs.Session.Commands

/-!
# Reachable sessions

A session is reachable if a game that begins leads to it, by ticks with any input, by scripts that
the host starts and rooms that it opens, while the platform answers whatever it likes.  All of this
happens by the changes of `World.Change`, and whatever runs is a script of the project or a part of
one.
-/

namespace Adventure

open World (Changes)

variable {project : Project} {P : Script → Prop}

/-! ## Steps and runs -/

namespace Interpreter

variable {i : Interpreter} {s : Session}

/-- What an interpreter and its session keep together. -/
def Upheld (P : Script → Prop) (i : Interpreter) (s : Session) : Prop :=
  i.Holds P ∧ s.world.stage.Holds P

/-- What is left after an interpreter went on: the world has changed by changes, and the property
is kept. -/
def GoesBy (project : Project) (P : Script → Prop) (s : Session) (i' : Interpreter)
    (s' : Session) : Prop :=
  Changes project s.world s'.world ∧ i'.Upheld P s'

theorem GoesBy.trans {s₁ s₂ s₃ : Session} {i₂ i₃ : Interpreter}
    (first : GoesBy project P s₁ i₂ s₂) (more : GoesBy project P s₂ i₃ s₃) :
    GoesBy project P s₁ i₃ s₃ := ⟨first.1.trans more.1, more.2⟩

theorem Upheld.follow {e : Effect} (h : i.Upheld P s) (he : e.Passes project P i s) :
    GoesBy project P s (Interpreter.follow e).2.1 (Interpreter.follow e).2.2 := by
  have hi : e.interpreter.Holds P := h.1.of_frames he.frames
  obtain ⟨hchanges, hs⟩ := he.world h.2
  unfold Interpreter.follow
  dsimp only
  split
  · exact ⟨hchanges, hi.advance, hs⟩
  · exact ⟨hchanges, hi, hs⟩
  · exact ⟨hchanges, hi.advance.of_frames rfl, hs⟩
  · exact ⟨hchanges, hi.of_frames rfl, hs⟩
  · next frame hframe => exact ⟨hchanges, hi.advance.push (he.entered frame hframe), hs⟩
  · exact ⟨hchanges, hi.jump _, hs⟩
  · exact ⟨hchanges, hi.leave, hs⟩
  · exact ⟨hchanges.trans (.of_stage_eq rfl rfl), hi.of_frames rfl, hs⟩

theorem Upheld.runCommand (hP : project.Inherits P) (h : i.Upheld P s) :
    GoesBy project P s (i.runCommand s project).2.1 (i.runCommand s project).2.2 := by
  unfold Interpreter.runCommand
  split
  · exact ⟨.refl _, h.1.of_frames rfl, h.2⟩
  · next frame hframe =>
    split
    · next command hcommand =>
      have hscript : P frame.commands := h.1 frame (List.mem_of_head? hframe)
      exact h.follow (passes_execute i s hP hscript (List.mem_of_getElem? hcommand))
    · exact ⟨.refl _, h.1.finishFrame, h.2⟩

theorem Upheld.updateWalk (project : Project) (h : i.Upheld P s) :
    GoesBy project P s (i.updateWalk s project).2.1 (i.updateWalk s project).2.2 := by
  unfold Interpreter.updateWalk
  split
  · exact ⟨.refl _, h⟩
  · next walk hwalk =>
    have hstage := h.2.walk project walk s.world.random
    dsimp only
    split <;>
      exact ⟨walk.changes_update s.world _ _ rfl ⟨rfl, rfl, rfl, rfl, rfl⟩,
        h.1.of_frames rfl, hstage⟩

theorem Upheld.step (hP : project.Inherits P) (h : i.Upheld P s) :
    GoesBy project P s (i.step s project).2.1 (i.step s project).2.2 := by
  unfold Interpreter.step
  split
  · exact ⟨.refl _, h⟩
  · split
    · unfold keepWaiting
      split
      · exact ⟨.refl _, h.1.of_frames rfl, h.2⟩
      · exact ⟨.refl _, h⟩
    · have hidle : ({ i with wait := .none } : Interpreter).Upheld P s := ⟨h.1.of_frames rfl, h.2⟩
      have hwalk := hidle.updateWalk project
      split
      · next i' s' heq =>
        rw [heq] at hwalk
        exact hwalk
      · next i' s' heq =>
        rw [heq] at hwalk
        exact hwalk.trans (hwalk.2.runCommand hP)

theorem Upheld.run (hP : project.Inherits P) (steps : Nat) (h : i.Upheld P s) :
    GoesBy project P s (Interpreter.run project steps i s).1
      (Interpreter.run project steps i s).2 := by
  induction steps generalizing i s with
  | zero => exact ⟨.refl _, h⟩
  | succ steps ih =>
    have hstep := h.step hP
    unfold Interpreter.run
    split
    · next i' s' heq =>
      rw [heq] at hstep
      exact hstep
    · next i' s' heq =>
      rw [heq] at hstep
      exact hstep.trans (ih hstep.2)

/-- Interpreters that run one after the other, none of which is on the stage meanwhile. -/
theorem passes_updateAll (hP : project.Inherits P) {interpreters : List Interpreter}
    (h : ∀ i ∈ interpreters, i.Holds P) (hs : s.world.stage.Holds P) :
    Changes project s.world (updateAll project interpreters s).2.world ∧
      (∀ i ∈ (updateAll project interpreters s).1, i.Holds P) ∧
      (updateAll project interpreters s).2.world.stage.Holds P := by
  induction interpreters generalizing s with
  | nil => exact ⟨.refl _, fun _ hi => (by cases hi), hs⟩
  | cons i rest ih =>
    obtain ⟨hfirst, hrest⟩ := List.forall_mem_cons.1 h
    obtain ⟨hrun, hi, hstage⟩ :
        GoesBy project P s (i.update s project).1 (i.update s project).2 :=
      Upheld.run hP stepLimit ⟨hfirst, hs⟩
    obtain ⟨hchanges, hothers, hlast⟩ := ih hrest hstage
    exact ⟨hrun.trans hchanges, List.forall_mem_cons.2 ⟨hi, hothers⟩, hlast⟩

end Interpreter

/-! ## Events -/

namespace World

variable (w : World) (hP : project.Inherits P)

include hP

theorem passes_startEvent (eventId : Int32) :
    Passes project P w (w.startEvent project eventId).2 := by
  unfold startEvent
  split
  · exact .refl _
  · next page hpage =>
    split
    · exact .refl _
    · exact (passes_startScript w _ eventId (hP.shownPage hpage)).trans (passes_note _ _)

theorem passes_startItem (id : Int32) : Passes project P w (w.startItem project id).2 := by
  unfold startItem
  split
  · exact .refl _
  · split
    · exact .refl _
    · next item hitem =>
      split
      · exact .refl _
      · have hnamed : Passes project P w { w with inventory := w.inventory.setEventItem id } :=
          .of_stage_eq rfl rfl
        exact (hnamed.trans (passes_startScript _ _ _ (hP.item hitem))).trans (passes_note _ _)

theorem passes_startCombine (first second : Int32) :
    Passes project P w (w.startCombine project first second).2 := by
  unfold startCombine
  split
  · exact .refl _
  · split
    · exact .refl _
    · next combine hcombine =>
      have hnamed : Passes project P w { w with inventory := w.inventory.setCombineItem second } :=
        .of_stage_eq rfl rfl
      exact (hnamed.trans (passes_startScript _ _ _ (hP.combine hcombine))).trans (passes_note _ _)

theorem passes_startCommonEvent (id : Int32) :
    Passes project P w (w.startCommonEvent project id).2 := by
  unfold startCommonEvent
  split
  · exact .refl _
  · next e he => exact (passes_startScript w _ _ (hP.commonEvent he)).trans (passes_note _ _)

theorem passes_startHint : Passes project P w (w.startHint project).2 := by
  unfold startHint
  split
  · exact .refl _
  · next hint hhint =>
    obtain ⟨id, _, ht⟩ := Option.bind_eq_some_iff.1 hhint
    exact (passes_startScript w _ _ (hP.hint ht)).trans (passes_note _ _)

theorem passes_startIfAutomatic (eventId : Int32) :
    Passes project P w (startIfAutomatic project w eventId) := by
  unfold startIfAutomatic
  split
  · exact .refl _
  · split
    · exact .refl _
    · split
      · split
        · exact .refl _
        · exact passes_startEvent w hP eventId
      · exact passes_startEvent w hP eventId
      all_goals exact .refl _

theorem passes_startAutomaticEvents : Passes project P w (w.startAutomaticEvents project) := by
  unfold startAutomaticEvents
  refine List.foldlRecOn (motive := fun w' => Passes project P w w') _ _ (.refl w) ?_
  exact fun w' h id _ => h.trans (passes_startIfAutomatic w' hP id)

theorem passes_runPlayerEvent (target : Tile) :
    Passes project P w (w.runPlayerEvent project target) := by
  unfold runPlayerEvent
  split
  · exact .refl _
  · dsimp only
    split
    · exact .refl _
    · split
      · next dir hdir =>
        have hturn : Passes project P w (w.modifyCharacter playerId fun c => c.turn dir) :=
          passes_character w playerId (.turn fun _ => dir)
        exact hturn.trans (passes_startEvent _ hP _)
      · exact passes_startEvent w hP _

theorem passes_handleTap (input : Input) : Passes project P w (w.handleTap project input) := by
  unfold handleTap
  split
  · exact .refl _
  · split
    · exact .refl _
    · split
      · exact passes_startEvent w hP _
      · split
        · exact passes_runPlayerEvent w hP _
        · exact .aside rfl ⟨rfl, rfl, rfl, rfl, rfl⟩ fun h => h.congr rfl rfl

theorem passes_updatePlayerWalk : Passes project P w (w.updatePlayerWalk project) := by
  unfold updatePlayerWalk
  split
  · exact .refl _
  · next walk hwalk =>
    have hidle : Passes project P w { w with stage := { w.stage with playerWalk := none } } :=
      .aside rfl ⟨rfl, rfl, rfl, rfl, rfl⟩ fun h => h.congr rfl rfl
    have hmove : ∀ w' : World, w'.playerSpeed = w.playerSpeed →
        (walk.update project { w.stage with playerWalk := none } w.random).2.1.SameScene w'.stage →
        w'.stage.interpreters =
          (walk.update project { w.stage with playerWalk := none } w.random).2.1.interpreters →
        w'.stage.routes =
          (walk.update project { w.stage with playerWalk := none } w.random).2.1.routes →
        Passes project P w w' := by
      intro w' speed scene interpreters routes
      refine hidle.trans fun h => ⟨?_, (h.walk project walk w.random).congr interpreters routes⟩
      exact walk.changes_update { w with stage := { w.stage with playerWalk := none } }
        w.random w' speed scene
    dsimp only
    split
    · exact hmove _ rfl ⟨rfl, rfl, rfl, rfl, rfl⟩ rfl rfl
    · split
      · refine Passes.trans (hmove _ ?_ ?_ ?_ ?_) (passes_runPlayerEvent _ hP _)
        · rfl
        · exact ⟨rfl, rfl, rfl, rfl, rfl⟩
        · rfl
        · rfl
      · exact hmove _ rfl ⟨rfl, rfl, rfl, rfl, rfl⟩ rfl rfl

end World

/-! ## Saves -/

namespace Session

variable (s : Session)

theorem passes_requestSave : World.Passes project P s.world s.requestSave.2.world := by
  unfold requestSave
  split
  · exact .refl _
  · split
    · exact .refl _
    · exact .of_stage_eq rfl rfl

theorem passes_sendScheduledSave : World.Passes project P s.world s.sendScheduledSave.world := by
  unfold sendScheduledSave
  split
  · exact .refl _
  · split
    · exact .refl _
    · dsimp only
      split <;> exact .of_stage_eq rfl rfl

theorem passes_save (wasBlocked : Bool) :
    World.Passes project P s.world (s.save wasBlocked).world := by
  unfold save
  dsimp only
  split
  · exact (passes_sendScheduledSave s).trans (passes_requestSave _)
  · exact passes_sendScheduledSave s

theorem passes_collectSave : World.Passes project P s.world s.collectSave.world := by
  unfold collectSave
  split
  · exact .refl _
  · split
    · exact .refl _
    · exact .of_stage_eq rfl rfl

/-! ## Ticks -/

/-- Takes the interpreters that are no routes off the stage, runs them, and puts them back. -/
def runInterpreters (s : Session) (project : Project) : Session :=
  let taken := s.modifyWorld fun w => w.modifyStage fun stage => { stage with interpreters := [] }
  let (ran, s) := Interpreter.updateAll project s.world.stage.interpreters taken
  s.modifyWorld fun w => w.modifyStage fun stage => stage.mergeInterpreters ran

/-- Takes the routes off the stage, runs them, and puts them back. -/
def runRoutes (s : Session) (project : Project) : Session :=
  let taken := s.modifyWorld fun w => w.modifyStage fun stage => { stage with routes := [] }
  let (ran, s) := Interpreter.updateAll project s.world.stage.routes taken
  s.modifyWorld fun w => w.modifyStage fun stage => stage.mergeRoutes ran

theorem runScripts_eq : s.runScripts project = (s.runInterpreters project).runRoutes project := rfl

theorem passes_resumeMusic : World.Passes project P s.world s.resumeMusic.world := by
  unfold resumeMusic
  split
  · exact .refl _
  · exact .of_stage_eq rfl rfl

variable (hP : project.Inherits P)

include hP

theorem passes_startScripts (input : Input) :
    World.Passes project P s.world (s.startScripts project input).world :=
  (((World.passes_refreshPages s.world).trans (World.passes_startAutomaticEvents _ hP)).trans
    (World.passes_handleTap _ hP input)).trans (World.passes_updatePlayerWalk _ hP)

theorem passes_runInterpreters :
    World.Passes project P s.world (s.runInterpreters project).world := by
  intro h
  have htaken : ({ s.world.stage with interpreters := [] } : Stage).Holds P :=
    ⟨fun _ hi => (by cases hi), h.routes⟩
  obtain ⟨hchanges, hran, hstage⟩ := Interpreter.passes_updateAll
    (s := s.modifyWorld fun w => w.modifyStage fun stage => { stage with interpreters := [] })
    hP h.interpreters htaken
  have htake : Changes project s.world
      (s.world.modifyStage fun stage => { stage with interpreters := [] }) :=
    .aside rfl ⟨rfl, rfl, rfl, rfl, rfl⟩
  refine ⟨(htake.trans hchanges).trans (.aside rfl ⟨rfl, rfl, rfl, rfl, rfl⟩), ?_⟩
  exact hstage.mergeInterpreters hran

theorem passes_runRoutes : World.Passes project P s.world (s.runRoutes project).world := by
  intro h
  have htaken : ({ s.world.stage with routes := [] } : Stage).Holds P :=
    ⟨h.interpreters, fun _ hr => (by cases hr)⟩
  obtain ⟨hchanges, hran, hstage⟩ := Interpreter.passes_updateAll
    (s := s.modifyWorld fun w => w.modifyStage fun stage => { stage with routes := [] })
    hP h.routes htaken
  have htake : Changes project s.world
      (s.world.modifyStage fun stage => { stage with routes := [] }) :=
    .aside rfl ⟨rfl, rfl, rfl, rfl, rfl⟩
  refine ⟨(htake.trans hchanges).trans (.aside rfl ⟨rfl, rfl, rfl, rfl, rfl⟩), ?_⟩
  exact hstage.mergeRoutes hran

theorem passes_updateRoom (input : Input) :
    World.Passes project P s.world (s.updateRoom project input).world := by
  have hscripts : World.Passes project P s.world
      ((s.startScripts project input).runScripts project).world := by
    rw [runScripts_eq]
    exact ((passes_startScripts s hP input).trans (passes_runInterpreters _ hP)).trans
      (passes_runRoutes _ hP)
  have hframe : ∀ w : World, World.Passes project P w
      (w.modifyStage fun stage => stage.dropStale.updateCharacters) := by
    intro w h
    have hdrop : Changes project w (w.modifyStage Stage.dropStale) :=
      .aside rfl ⟨rfl, rfl, rfl, rfl, rfl⟩
    have hupdate : Changes project (w.modifyStage Stage.dropStale)
        ((w.modifyStage Stage.dropStale).modifyStage Stage.updateCharacters) :=
      (World.Change.frame _).changes
    exact ⟨hdrop.trans hupdate, h.dropStale.congr rfl rfl⟩
  unfold updateRoom
  dsimp only
  refine World.Passes.trans ?_ (passes_save _ _)
  exact hscripts.trans (hframe _)

theorem passes_update (input : Input) :
    World.Passes project P s.world (s.update project input).world := by
  have hroom : ∀ s : Session, ∀ input : Input, World.Passes project P s.world
      ((s.updateRoom project input).modifyWorld fun w => w.updateTouch input).world :=
    fun s input => (passes_updateRoom s hP input).trans (.of_stage_eq rfl rfl)
  refine World.Passes.trans ?_ (hroom _ _)
  exact ((passes_resumeMusic s).trans
    (passes_collectSave (s.resumeMusic.modifyPlatform fun p => p.collect project))).trans
      (.of_stage_eq rfl rfl)

end Session

/-! ## Reachable sessions -/

/-- The sessions that a new game can lead to. -/
inductive Session.Reachable (project : Project) : Session → Prop where
  | start {w : World} (seed : UInt64) (platform : Platform)
      (started : World.start project seed = .ok w) : Reachable project ⟨w, platform⟩
  | tick {s : Session} (reached : Reachable project s) (input : Input) :
      Reachable project (s.update project input)
  | event {s : Session} (reached : Reachable project s) (id : Int32) :
      Reachable project (s.modifyWorld fun w => (w.startEvent project id).2)
  | item {s : Session} (reached : Reachable project s) (id : Int32) :
      Reachable project (s.modifyWorld fun w => (w.startItem project id).2)
  | combine {s : Session} (reached : Reachable project s) (first second : Int32) :
      Reachable project (s.modifyWorld fun w => (w.startCombine project first second).2)
  | commonEvent {s : Session} (reached : Reachable project s) (id : Int32) :
      Reachable project (s.modifyWorld fun w => (w.startCommonEvent project id).2)
  | hint {s : Session} (reached : Reachable project s) :
      Reachable project (s.modifyWorld fun w => (w.startHint project).2)
  | transfer {s : Session} (reached : Reachable project s) {w : World} {roomId : Int32} {t : Tile}
      {dir : Option Direction} (entered : s.world.transfer project roomId t dir = .ok w) :
      Reachable project { s with world := w }
  | requestSave {s : Session} (reached : Reachable project s) :
      Reachable project s.requestSave.2
  /-- The platform is free to answer, to fail and to change. -/
  | platform {s : Session} (reached : Reachable project s) (platform : Platform) :
      Reachable project { s with platform := platform }

/-- A new game: the player enters the room of the project's start position, and its events show
their pages. -/
theorem World.exists_enter {seed : UInt64} {w : World} (h : start project seed = .ok w) :
    ∃ stage, Stage.enter project project.system.initialPosition.mapId
        project.system.initialPosition.roomId
        (.player project.system.initialPosition.x project.system.initialPosition.y
          project.system.initialPlayerImage Speed.playerDefault) = .ok stage ∧
      w = (ofProgress (.fresh stage) seed).refreshPages project := by
  unfold start at h
  dsimp only at h
  split at h
  · next stage hstage => exact ⟨stage, hstage, (Except.ok.inj h).symm⟩
  · cases h

/-- Nothing runs where the player has just entered a room. -/
theorem Stage.holds_enter {mapId roomId : Int32} {player : Character} {stage : Stage}
    (h : Stage.enter project mapId roomId player = .ok stage) : stage.Holds P := by
  unfold Stage.enter at h
  split at h
  · cases h
  · obtain rfl := Except.ok.inj h
    exact ⟨fun _ hi => (by cases hi), fun _ hr => (by cases hr)⟩

/-- Every reachable session comes from a new game by changes, and the lists that interpreters have
entered are scripts of the project or parts of such. -/
theorem Session.Reachable.passes (hP : project.Inherits P) {s : Session} (h : Reachable project s) :
    ∃ seed w, World.start project seed = .ok w ∧ Changes project w s.world ∧
      s.world.stage.Holds P := by
  have hmore : ∀ {s s' : Session}, World.Passes project P s.world s'.world →
      (∃ seed w, World.start project seed = .ok w ∧ Changes project w s.world ∧
        s.world.stage.Holds P) →
      ∃ seed w, World.start project seed = .ok w ∧ Changes project w s'.world ∧
        s'.world.stage.Holds P := by
    intro s s' hpasses ⟨seed, w, hstart, hchanges, hholds⟩
    obtain ⟨hlater, hholds'⟩ := hpasses hholds
    exact ⟨seed, w, hstart, hchanges.trans hlater, hholds'⟩
  induction h with
  | start seed platform started =>
    obtain ⟨stage, hstage, rfl⟩ := World.exists_enter started
    have hpages : World.Passes project P (.ofProgress (.fresh stage) seed) _ :=
      World.passes_refreshPages _
    exact ⟨seed, _, started, .refl _, (hpages (Stage.holds_enter hstage)).2⟩
  | tick _ input ih => exact hmore (passes_update _ hP input) ih
  | event _ id ih => exact hmore (World.passes_startEvent _ hP id) ih
  | item _ id ih => exact hmore (World.passes_startItem _ hP id) ih
  | combine _ first second ih => exact hmore (World.passes_startCombine _ hP first second) ih
  | commonEvent _ id ih => exact hmore (World.passes_startCommonEvent _ hP id) ih
  | hint _ ih => exact hmore (World.passes_startHint _ hP) ih
  | transfer _ entered ih => exact hmore (World.passes_transfer entered) ih
  | requestSave _ ih => exact hmore (passes_requestSave _) ih
  | platform _ _ ih => exact ih

/-- In every reachable session the lists that interpreters have entered are scripts of the project
or parts of such. -/
theorem Session.Reachable.holds (hP : project.Inherits P) {s : Session} (h : Reachable project s) :
    s.world.stage.Holds P := by
  obtain ⟨_, _, _, _, hholds⟩ := h.passes hP
  exact hholds

end Adventure
