import Adventure.Proofs.Session.Stirs

/-!
# How scripts are started

The player, the events of a room and the host start scripts, always at the end of the list,
with the next id and for the room that the player is in.  An event is only started where no
script of it runs.
-/

namespace Adventure

/-- A script is started, or nothing happens that concerns scripts, the room or the fade. -/
inductive World.Opens (w w' : World) : Prop where
  | aside (calm : w.Calm w')
  | starts (kind : InterpreterKind) (eventId : Int32) (script : Script) (isScript : kind ≠ .route)
      (alone : kind = .event ∨ kind = .parallel → w.stage.isRunning eventId = false)
      (last : w'.lastInterpreterId = w.lastInterpreterId + 1)
      (fade : w'.screen.fade = w.screen.fade)
      (stage : (w.stage.addInterpreter (.start (w.lastInterpreterId + 1) w.stage.mapId
        w.stage.roomId eventId kind script)).SameCast w'.stage)

/-- Any number of scripts is started. -/
def World.Opened : World → World → Prop := Relation.ReflTransGen World.Opens

variable {project : Project}

namespace World

variable {w w' w'' : World}

theorem Opens.of_calm (first : Calm w w') (more : Opens w' w'') : Opens w w'' := by
  cases more with
  | aside calm => exact .aside (first.trans calm)
  | starts kind eventId script isScript alone last fade stage =>
    have hstage : (w.stage.addInterpreter (.start (w.lastInterpreterId + 1) w.stage.mapId
        w.stage.roomId eventId kind script)).SameCast
          (w'.stage.addInterpreter (.start (w'.lastInterpreterId + 1) w'.stage.mapId
            w'.stage.roomId eventId kind script)) := by
      refine ⟨first.stage.mapId, first.stage.roomId, ?_, first.stage.routes⟩
      simp only [Stage.addInterpreter, first.last, first.stage.mapId, first.stage.roomId,
        first.stage.interpreters]
    refine .starts kind eventId script isScript (fun h => ?_) ?_ (fade.trans first.fade)
      (hstage.trans stage)
    · rw [← alone h]
      simp only [Stage.isRunning, first.stage.mapId, first.stage.roomId, first.stage.interpreters]
    · exact last.trans (congrArg (· + 1) first.last)

theorem Opens.then_calm (first : Opens w w') (more : Calm w' w'') : Opens w w'' := by
  cases first with
  | aside calm => exact .aside (calm.trans more)
  | starts kind eventId script isScript alone last fade stage =>
    exact .starts kind eventId script isScript alone (more.last.trans last) (more.fade.trans fade)
      (stage.trans more.stage)

theorem calm_note (w : World) (entry : String) : Calm w (w.note entry) := .of_eq rfl rfl rfl

theorem opens_startScript (w : World) {kind : InterpreterKind} (eventId : Int32) (script : Script)
    (isScript : kind ≠ .route)
    (alone : kind = .event ∨ kind = .parallel → w.stage.isRunning eventId = false) :
    Opens w (w.startScript kind eventId script) :=
  .starts kind eventId script isScript alone rfl rfl (.refl _)

/-! ## Ways to start a script -/

theorem opens_startEvent (w : World) (eventId : Int32) :
    Opens w (w.startEvent project eventId).2 := by
  unfold startEvent
  split
  · exact .aside (.refl w)
  · split
    · exact .aside (.refl w)
    · next hrunning =>
      refine (opens_startScript w eventId _ ?_ fun _ => Bool.eq_false_iff.2 hrunning).then_calm
        (calm_note _ _)
      split <;> simp

theorem opens_startItem (w : World) (id : Int32) : Opens w (w.startItem project id).2 := by
  unfold startItem
  split
  · exact .aside (.refl w)
  · split
    · exact .aside (.refl w)
    · split
      · exact .aside (.refl w)
      · refine Opens.of_calm ?_ ((opens_startScript _ selfId _ ?_ ?_).then_calm (calm_note _ _))
        · exact .of_eq rfl rfl rfl
        · simp
        · simp

theorem opens_startCombine (w : World) (first second : Int32) :
    Opens w (w.startCombine project first second).2 := by
  unfold startCombine
  split
  · exact .aside (.refl w)
  · split
    · exact .aside (.refl w)
    · refine Opens.of_calm ?_ ((opens_startScript _ selfId _ ?_ ?_).then_calm (calm_note _ _))
      · exact .of_eq rfl rfl rfl
      · simp
      · simp

theorem opens_startCommonEvent (w : World) (id : Int32) :
    Opens w (w.startCommonEvent project id).2 := by
  unfold startCommonEvent
  split
  · exact .aside (.refl w)
  · exact (opens_startScript w selfId _ (by simp) (by simp)).then_calm (calm_note _ _)

theorem opens_startHint (w : World) : Opens w (w.startHint project).2 := by
  unfold startHint
  split
  · exact .aside (.refl w)
  · exact (opens_startScript w selfId _ (by simp) (by simp)).then_calm (calm_note _ _)

theorem Opens.interpreters (opens : Opens w w') :
    w.stage.interpreters <+: w'.stage.interpreters := by
  cases opens with
  | aside calm => exact calm.stage.interpreters ▸ List.prefix_rfl
  | starts kind eventId script isScript alone last fade stage =>
    rw [stage.interpreters]
    exact List.prefix_append _ _

theorem Opens.routes (opens : Opens w w') : w'.stage.routes = w.stage.routes := by
  cases opens with
  | aside calm => exact calm.stage.routes
  | starts kind eventId script isScript alone last fade stage => exact stage.routes

theorem Opens.fade (opens : Opens w w') : w'.screen.fade = w.screen.fade := by
  cases opens with
  | aside calm => exact calm.fade
  | starts kind eventId script isScript alone last fade stage => exact fade

theorem Opened.fade (opened : Opened w w') : w'.screen.fade = w.screen.fade := by
  induction opened with
  | refl => rfl
  | tail _ opens ih => exact opens.fade.trans ih

/-- Scripts that are started come after those that are listed. -/
theorem Opened.interpreters (opened : Opened w w') :
    w.stage.interpreters <+: w'.stage.interpreters := by
  induction opened with
  | refl => exact List.prefix_rfl
  | tail _ opens ih => exact ih.trans opens.interpreters

theorem Opened.routes (opened : Opened w w') : w'.stage.routes = w.stage.routes := by
  induction opened with
  | refl => rfl
  | tail _ opens ih => exact opens.routes.trans ih

/-! ## What a tick starts -/

theorem opens_startIfAutomatic (w : World) (eventId : Int32) :
    Opens w (startIfAutomatic project w eventId) := by
  unfold startIfAutomatic
  split
  · exact .aside (.refl w)
  · split
    · exact .aside (.refl w)
    · split
      · split
        · exact .aside (.refl w)
        · exact opens_startEvent w eventId
      · exact opens_startEvent w eventId
      all_goals exact .aside (.refl w)

theorem opened_startAutomaticEvents (w : World) : Opened w (w.startAutomaticEvents project) := by
  unfold startAutomaticEvents
  refine List.foldlRecOn (motive := fun w' => Opened w w') _ _ .refl fun w' h id _ => ?_
  exact h.tail (opens_startIfAutomatic w' id)

theorem opens_runPlayerEvent (w : World) (target : Tile) :
    Opens w (w.runPlayerEvent project target) := by
  unfold runPlayerEvent
  split
  · exact .aside (.refl w)
  · dsimp only
    split
    · exact .aside (.refl w)
    · refine Opens.of_calm ?_ (opens_startEvent _ _)
      split <;> exact ⟨⟨⟨rfl, rfl, rfl, rfl⟩, rfl⟩, rfl⟩

theorem opens_handleTap (w : World) (input : Input) : Opens w (w.handleTap project input) := by
  unfold handleTap
  split
  · exact .aside (.refl w)
  · split
    · exact .aside (.refl w)
    · split
      · exact opens_startEvent w _
      · split
        · exact opens_runPlayerEvent w _
        · exact .aside ⟨⟨⟨rfl, rfl, rfl, rfl⟩, rfl⟩, rfl⟩

/-- A frame of the player's walk, before anything is started at its end. -/
theorem calm_walk (w w' : World) (project : Project) (walk : Walk)
    (stage : (walk.update project { w.stage with playerWalk := none } w.random).2.1.SameCast
      w'.stage)
    (last : w'.lastInterpreterId = w.lastInterpreterId) (fade : w'.screen.fade = w.screen.fade) :
    Calm w w' := by
  have hidle : w.stage.SameCast { w.stage with playerWalk := none } := ⟨rfl, rfl, rfl, rfl⟩
  have hwalk := Stage.sameCast_walk { w.stage with playerWalk := none } project walk w.random
  exact ⟨⟨(hidle.trans hwalk).trans stage, last⟩, fade⟩

theorem opens_updatePlayerWalk (w : World) : Opens w (w.updatePlayerWalk project) := by
  unfold updatePlayerWalk
  split
  · exact .aside (.refl w)
  · next walk _ =>
    dsimp only
    split
    · exact .aside (calm_walk w _ project walk ⟨rfl, rfl, rfl, rfl⟩ rfl rfl)
    · split
      · refine Opens.of_calm ?_ (opens_runPlayerEvent _ _)
        exact calm_walk w _ project walk ⟨rfl, rfl, rfl, rfl⟩ rfl rfl
      · exact .aside (calm_walk w _ project walk (.refl _) rfl rfl)

end World

/-- What happens before scripts run starts scripts. -/
theorem Session.opened_startScripts (s : Session) (input : Input) :
    s.world.Opened (s.startScripts project input).world := by
  have hpages : s.world.Opened (s.world.refreshPages project) :=
    .single (.aside (World.calm_refreshPages _ project))
  exact ((hpages.trans (World.opened_startAutomaticEvents _)).tail
    (World.opens_handleTap _ input)).tail (World.opens_updatePlayerWalk _)

end Adventure
