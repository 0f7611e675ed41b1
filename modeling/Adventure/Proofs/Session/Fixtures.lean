import Adventure.Proofs.Session.Presence
import Adventure.Proofs.Ways.Slides

/-!
# Fixtures

The items that are owned, the screen, the pictures and the opacity of characters are fixtures of a
world.  Scripts change them by commands and in no other way, and neither does the player change
them, nor an event that shows a page or moves.  So what every command of a script keeps is kept by
the whole script.
-/

namespace Adventure

variable {project : Project}

/-- How opaque the characters of a room are. -/
structure Fading where
  mapId : Int32
  roomId : Int32
  player : Interpolation
  events : List (Int32 × Interpolation)

/-- What only commands and frames change. -/
structure Fixtures where
  items : List Int32
  screen : Screen
  pictures : Pictures
  fading : Fading

/-- The opacity of a character, if it still is in the given room. -/
def Fading.opacity? (f : Fading) (mapId roomId id : Int32) : Option Interpolation :=
  if id ≠ playerId && (mapId ≠ f.mapId || roomId ≠ f.roomId) then none
  else if id = playerId then some f.player
  else (f.events.find? fun e => e.1 == id).map (·.2)

namespace Stage

variable (s : Stage)

def fading : Fading where
  mapId := s.mapId
  roomId := s.roomId
  player := s.player.opacity
  events := s.events.map fun c => (c.eventId, c.opacity)

theorem opacity?_fading (mapId roomId id : Int32) :
    s.fading.opacity? mapId roomId id = (s.characterIn? mapId roomId id).map (·.opacity) := by
  unfold Fading.opacity? fading characterIn? character?
  dsimp only
  split
  · rfl
  · split
    · rfl
    · rw [List.find?_map, Option.map_map]
      rfl

theorem fading_modifyCharacter {change : Character → Character}
    (eventId : ∀ c, (change c).eventId = c.eventId) (opacity : ∀ c, (change c).opacity = c.opacity)
    (id : Int32) : (s.modifyCharacter id change).fading = s.fading := by
  unfold modifyCharacter
  split
  · simp only [fading, opacity]
  · have hevents := map_modifyEvent (fun c => (c.eventId, c.opacity))
      (fun c => Prod.ext (eventId c) (opacity c)) id s.events
    simp only [fading, hevents]

theorem fading_showPage (eventId : Int32) (index : Option Nat) :
    (s.showPage project eventId index).fading = s.fading := by
  unfold showPage
  split
  · rfl
  · refine (fading_modifyCharacter _ (fun c => ?_) (fun c => ?_) eventId).trans rfl
    all_goals
      unfold Character.updateWithPage
      split <;> rfl

theorem fading_turn (id : Int32) (dir : Direction) :
    (s.modifyCharacter id fun c => c.turn dir).fading = s.fading := by
  refine s.fading_modifyCharacter (fun c => ?_) (fun c => ?_) id
  all_goals
    unfold Character.turn
    split <;> rfl

theorem fading_startMove (id : Int32) (dir : Direction) :
    (s.modifyCharacter id fun c => c.startMove dir).fading = s.fading := by
  refine s.fading_modifyCharacter (fun c => ?_) (fun c => ?_) id
  · exact (Character.Steady.startMove dir).eventId c
  · unfold Character.startMove Character.turn
    dsimp only
    split <;> split <;> rfl

end Stage

theorem Walk.fading_update (w : Walk) (project : Project) (s : Stage) (random : Random) :
    (w.update project s random).2.1.fading = s.fading := by
  have hframe := w.frame_update project s random
  generalize (w.update project s random).1 = w', (w.update project s random).2.1 = s' at hframe ⊢
  cases hframe with
  | waits => rfl
  | ends => rfl
  | steps => exact s.fading_startMove _ _
  | bumps => exact s.fading_turn _ _

/-! ## Worlds -/

namespace World

variable (w : World)

def fixtures : Fixtures where
  items := w.inventory.items
  screen := w.screen
  pictures := w.pictures
  fading := w.stage.fading

theorem fixtures_congr {w w' : World} (items : w'.inventory.items = w.inventory.items)
    (screen : w'.screen = w.screen) (pictures : w'.pictures = w.pictures)
    (fading : w'.stage.fading = w.stage.fading) : w'.fixtures = w.fixtures := by
  rw [fixtures, fixtures, items, screen, pictures, fading]

theorem fixtures_modifyStage {change : Stage → Stage}
    (h : (change w.stage).fading = w.stage.fading) :
    (w.modifyStage change).fixtures = w.fixtures := fixtures_congr rfl rfl rfl h

theorem fixtures_refreshPages (project : Project) :
    (w.refreshPages project).fixtures = w.fixtures := by
  unfold refreshPages
  refine List.foldlRecOn (motive := fun w' : World => w'.fixtures = w.fixtures) _ _ rfl ?_
  exact fun w' h id _ => (w'.fixtures_modifyStage (Stage.fading_showPage _ _ _)).trans h

theorem fixtures_startEvent (eventId : Int32) :
    (w.startEvent project eventId).2.fixtures = w.fixtures := by
  unfold startEvent
  split
  · rfl
  · split <;> rfl

theorem fixtures_startItem (id : Int32) : (w.startItem project id).2.fixtures = w.fixtures := by
  unfold startItem
  split
  · rfl
  · split
    · rfl
    · split <;> rfl

theorem fixtures_startCombine (first second : Int32) :
    (w.startCombine project first second).2.fixtures = w.fixtures := by
  unfold startCombine
  split
  · rfl
  · split <;> rfl

theorem fixtures_startCommonEvent (id : Int32) :
    (w.startCommonEvent project id).2.fixtures = w.fixtures := by
  unfold startCommonEvent
  split <;> rfl

theorem fixtures_startHint : (w.startHint project).2.fixtures = w.fixtures := by
  unfold startHint
  split <;> rfl

theorem fixtures_startIfAutomatic (eventId : Int32) :
    (startIfAutomatic project w eventId).fixtures = w.fixtures := by
  unfold startIfAutomatic
  split
  · rfl
  · split
    · rfl
    · split
      · split
        · rfl
        · exact w.fixtures_startEvent eventId
      · exact w.fixtures_startEvent eventId
      all_goals rfl

theorem fixtures_startAutomaticEvents :
    (w.startAutomaticEvents project).fixtures = w.fixtures := by
  unfold startAutomaticEvents
  refine List.foldlRecOn (motive := fun w' : World => w'.fixtures = w.fixtures) _ _ rfl ?_
  exact fun w' h id _ => (w'.fixtures_startIfAutomatic id).trans h

theorem fixtures_runPlayerEvent (target : Tile) :
    (w.runPlayerEvent project target).fixtures = w.fixtures := by
  unfold runPlayerEvent
  split
  · rfl
  · dsimp only
    split
    · rfl
    · refine (fixtures_startEvent _ _).trans ?_
      split
      · exact w.fixtures_modifyStage (w.stage.fading_turn playerId _)
      · rfl

theorem fixtures_handleTap (input : Input) :
    (w.handleTap project input).fixtures = w.fixtures := by
  unfold handleTap
  split
  · rfl
  · split
    · rfl
    · split
      · exact w.fixtures_startEvent _
      · split
        · exact w.fixtures_runPlayerEvent _
        · rfl

theorem fixtures_updatePlayerWalk : (w.updatePlayerWalk project).fixtures = w.fixtures := by
  unfold updatePlayerWalk
  split
  · rfl
  · next walk _ =>
    have hwalk := walk.fading_update project { w.stage with playerWalk := none } w.random
    dsimp only
    split
    · exact fixtures_congr rfl rfl rfl hwalk
    · split
      · exact (fixtures_runPlayerEvent _ _).trans (fixtures_congr rfl rfl rfl hwalk)
      · exact fixtures_congr rfl rfl rfl hwalk

end World

/-! ## Scripts apart from their commands -/

namespace Interpreter

variable {i j : Interpreter} {s t : Session} {c : Command}

theorem fixtures_updateWalk (i : Interpreter) (s : Session) (project : Project) :
    (i.updateWalk s project).2.2.world.fixtures = s.world.fixtures := by
  unfold updateWalk
  split
  · rfl
  · next walk _ =>
    have hwalk := walk.fading_update project s.world.stage s.world.random
    dsimp only
    split <;> exact World.fixtures_congr rfl rfl rfl hwalk

theorem fixtures_follow (e : Effect) :
    (follow e).2.2.world.fixtures = e.session.world.fixtures := by
  unfold follow
  dsimp only
  split <;> rfl

theorem fixtures_of_running (h : i.running? s project = some (j, t, c)) :
    t.world.fixtures = s.world.fixtures := by
  have hwalk := fixtures_updateWalk { i with wait := .none } s project
  obtain ⟨_, _, heq, _⟩ := running?_eq_some h
  rw [heq] at hwalk
  exact hwalk

/-- A step with a command leaves what the command leaves. -/
theorem fixtures_step_of_running (h : i.running? s project = some (j, t, c)) :
    (i.step s project).2.2.world.fixtures = (j.execute t project c).session.world.fixtures := by
  rw [step_of_running h]
  exact fixtures_follow _

/-- A step without a command changes nothing. -/
theorem fixtures_step_of_idle (h : i.running? s project = none) :
    (i.step s project).2.2.world.fixtures = s.world.fixtures := by
  rcases step_of_idle h with hsame | hwalk
  · rw [hsame]
  · rw [hwalk]
    exact fixtures_updateWalk _ s project

/-! ## What commands keep -/

/-- A command that is run keeps a property of the fixtures. -/
def Keeps (project : Project) (K : Fixtures → Prop) (r : Interpreter × Session × Command) : Prop :=
  K r.2.1.world.fixtures → K (r.1.execute r.2.1 project r.2.2).session.world.fixtures

variable {K : Fixtures → Prop}

theorem kept_step (keeps : ∀ r ∈ i.running? s project, Keeps project K r)
    (h : K s.world.fixtures) : K (i.step s project).2.2.world.fixtures := by
  cases hrunning : i.running? s project with
  | none => rwa [fixtures_step_of_idle hrunning]
  | some r =>
    obtain ⟨j, t, c⟩ := r
    rw [fixtures_step_of_running hrunning]
    exact keeps _ hrunning (by rwa [fixtures_of_running hrunning])

/-- What all commands of a script keep is kept by each of its steps. -/
theorem kept_steps {n : Nat} (keeps : ∀ r ∈ i.commands project n s, Keeps project K r)
    (h : K s.world.fixtures) : ∀ r ∈ i.steps project n s, K r.2.world.fixtures := by
  induction n generalizing i s with
  | zero => exact fun r hr => by cases hr
  | succ n ih =>
    unfold commands at keeps
    unfold steps
    have hstep : K (i.step s project).2.2.world.fixtures :=
      kept_step (fun r hr => keeps r (List.mem_append_left _ (Option.mem_toList.2 hr))) h
    rcases hresult : i.step s project with ⟨goesOn, i', s'⟩
    rw [hresult] at hstep keeps
    refine List.forall_mem_cons.2 ⟨hstep, ?_⟩
    cases goesOn with
    | false => exact fun r hr => by cases hr
    | true => exact ih (fun r hr => keeps r (List.mem_append_right _ hr)) hstep

theorem kept_run {n : Nat} (keeps : ∀ r ∈ i.commands project n s, Keeps project K r)
    (h : K s.world.fixtures) : K (run project n i s).2.world.fixtures := by
  induction n generalizing i s with
  | zero => exact h
  | succ n ih =>
    unfold commands at keeps
    unfold run
    have hstep : K (i.step s project).2.2.world.fixtures :=
      kept_step (fun r hr => keeps r (List.mem_append_left _ (Option.mem_toList.2 hr))) h
    rcases hresult : i.step s project with ⟨goesOn, i', s'⟩
    rw [hresult] at hstep keeps
    cases goesOn with
    | false => exact hstep
    | true => exact ih (fun r hr => keeps r (List.mem_append_right _ hr)) hstep

theorem kept_updateAll {turn : List Interpreter}
    (keeps : ∀ r ∈ commandsOfAll project turn s, Keeps project K r) (h : K s.world.fixtures) :
    K (updateAll project turn s).2.world.fixtures := by
  induction turn generalizing s with
  | nil => exact h
  | cons i rest ih =>
    unfold updateAll
    have hfirst : K (i.update s project).2.world.fixtures :=
      kept_run (fun r hr => keeps r (List.mem_append_left _ hr)) h
    exact ih (fun r hr => keeps r (List.mem_append_right _ hr)) hfirst

/-! ## What there is after commands -/

/-- What a property says of a session after a command that is run. -/
def Leaves (project : Project) (K : Fixtures → Prop) (r : Interpreter × Session × Command) : Prop :=
  K (r.1.execute r.2.1 project r.2.2).session.world.fixtures

/-- What is there after every step is there after every command. -/
theorem leaves_of_steps {n : Nat} (h : ∀ r ∈ i.steps project n s, K r.2.world.fixtures) :
    ∀ r ∈ i.commands project n s, Leaves project K r := by
  induction n generalizing i s with
  | zero => exact fun r hr => by cases hr
  | succ n ih =>
    unfold steps at h
    unfold commands
    have hstep := fun r (hr : i.running? s project = some r) => fixtures_step_of_running hr
    rcases hresult : i.step s project with ⟨goesOn, i', s'⟩
    rw [hresult] at h hstep
    obtain ⟨hfirst, hmore⟩ := List.forall_mem_cons.1 h
    intro r hr
    rcases List.mem_append.1 hr with hr | hr
    · rw [Leaves, ← hstep r (Option.mem_toList.1 hr)]
      exact hfirst
    · cases goesOn with
      | false => cases hr
      | true => exact ih hmore r hr

end Interpreter

/-! ## Ticks -/

namespace Moment

variable {K : Fixtures → Prop} {s : Session}

/-- What all commands keep is kept from moment to moment while scripts take turns. -/
theorem kept_turns (ran : List Interpreter) {turn : List Interpreter}
    (keeps : ∀ r ∈ Interpreter.commandsOfAll project turn s, Interpreter.Keeps project K r)
    (h : K s.world.fixtures) : ∀ m ∈ turns project ran turn s, K m.session.world.fixtures := by
  induction turn generalizing ran s with
  | nil => exact fun m hm => by cases hm
  | cons i rest ih =>
    have hfirst : ∀ r ∈ i.commands project stepLimit s, Interpreter.Keeps project K r :=
      fun r hr => keeps r (List.mem_append_left _ hr)
    have hran : K (i.update s project).2.world.fixtures := Interpreter.kept_run hfirst h
    intro m hm
    rcases List.mem_append.1 hm with hm | hm
    · obtain ⟨r, hr, rfl⟩ := List.mem_map.1 hm
      exact Interpreter.kept_steps hfirst h r hr
    · rcases List.mem_cons.1 hm with rfl | hm
      · exact hran
      · exact ih _ (fun r hr => keeps r (List.mem_append_right _ hr)) hran m hm

theorem leaves_of_turns (ran : List Interpreter) {turn : List Interpreter}
    (h : ∀ m ∈ turns project ran turn s, K m.session.world.fixtures) :
    ∀ r ∈ Interpreter.commandsOfAll project turn s, Interpreter.Leaves project K r := by
  induction turn generalizing ran s with
  | nil => exact fun r hr => by cases hr
  | cons i rest ih =>
    obtain ⟨hfirst, hmore⟩ := List.forall_mem_append.1 h
    intro r hr
    rcases List.mem_append.1 hr with hr | hr
    · refine Interpreter.leaves_of_steps (fun p hp => ?_) r hr
      exact hfirst _ (List.mem_map_of_mem hp)
    · exact ih _ (List.forall_mem_cons.1 hmore).2 r hr

end Moment

namespace Session

variable {K : Fixtures → Prop} (s : Session) (input : Input)

theorem kept_batch {s taken : Session} {turn : List Interpreter}
    (merge : Stage → List Interpreter → Stage) (take : taken.world.fixtures = s.world.fixtures)
    (back : ∀ stage ran, (merge stage ran).fading = stage.fading)
    (keeps : ∀ r ∈ Interpreter.commandsOfAll project turn taken, Interpreter.Keeps project K r)
    (h : K s.world.fixtures) :
    ∀ m ∈ batch project turn taken merge, K m.session.world.fixtures := by
  have htaken : K taken.world.fixtures := take ▸ h
  intro m hm
  simp only [batch, List.cons_append, List.mem_cons, List.mem_append, List.not_mem_nil,
    or_false] at hm
  rcases hm with rfl | hm | rfl
  · exact htaken
  · exact Moment.kept_turns [] keeps htaken m hm
  · have hran := Interpreter.kept_updateAll keeps htaken
    generalize Interpreter.updateAll project turn taken = ran at hran ⊢
    have hback : (ran.2.world.modifyStage fun stage => merge stage ran.1).fixtures =
        ran.2.world.fixtures := World.fixtures_modifyStage _ (back _ _)
    exact hback ▸ hran

theorem kept_runInterpreters {s : Session} (h : K s.world.fixtures)
    (keeps : ∀ r ∈ Interpreter.commandsOfAll project s.world.stage.interpreters
      s.withoutInterpreters, Interpreter.Keeps project K r) :
    K (s.runInterpreters project).world.fixtures :=
  Interpreter.kept_updateAll (s := s.withoutInterpreters) keeps h

theorem kept_scriptMoments
    (keeps : ∀ r ∈ s.commandsRun project input, Interpreter.Keeps project K r)
    (h : K (s.beforeScripts project input).world.fixtures) :
    ∀ m ∈ (s.beforeScripts project input).scriptMoments project, K m.session.world.fixtures := by
  unfold commandsRun at keeps
  generalize s.beforeScripts project input = b at keeps h
  obtain ⟨hscripts, hroutes⟩ := List.forall_mem_append.1 keeps
  intro m hm
  rcases List.mem_append.1 hm with hm | hm
  · exact kept_batch Stage.mergeInterpreters rfl (fun _ _ => rfl) hscripts h m hm
  · have hran := kept_runInterpreters h hscripts
    exact kept_batch Stage.mergeRoutes rfl (fun _ _ => rfl) hroutes hran m hm

theorem kept_runScripts (keeps : ∀ r ∈ s.commandsRun project input, Interpreter.Keeps project K r)
    (h : K (s.beforeScripts project input).world.fixtures) :
    K ((s.beforeScripts project input).runScripts project).world.fixtures := by
  unfold commandsRun at keeps
  generalize s.beforeScripts project input = b at keeps h
  obtain ⟨hscripts, hroutes⟩ := List.forall_mem_append.1 keeps
  have hran := kept_runInterpreters h hscripts
  rw [runScripts_eq]
  generalize b.runInterpreters project = b' at hroutes hran
  exact Interpreter.kept_updateAll (s := b'.withoutRoutes) hroutes hran

theorem leaves_of_scriptMoments
    (h : ∀ m ∈ (s.beforeScripts project input).scriptMoments project, K m.session.world.fixtures) :
    ∀ r ∈ s.commandsRun project input, Interpreter.Leaves project K r := by
  unfold commandsRun
  generalize s.beforeScripts project input = b at h
  obtain ⟨hscripts, hroutes⟩ := List.forall_mem_append.1 h
  refine List.forall_mem_append.2 ⟨Moment.leaves_of_turns [] fun m hm => hscripts m ?_,
    Moment.leaves_of_turns [] fun m hm => hroutes m ?_⟩
  all_goals exact List.mem_cons_of_mem _ (List.mem_append_left _ hm)

theorem fixtures_resumeMusic : s.resumeMusic.world.fixtures = s.world.fixtures := by
  unfold resumeMusic
  split <;> rfl

theorem fixtures_collectSave : s.collectSave.world.fixtures = s.world.fixtures := by
  obtain ⟨save, hworld⟩ := Moment.collectSave_world s
  rw [hworld]
  rfl

theorem fixtures_sendScheduledSave : s.sendScheduledSave.world.fixtures = s.world.fixtures := by
  obtain ⟨save, scheduled, hworld⟩ := Moment.sendScheduledSave_world s
  rw [hworld]
  rfl

theorem fixtures_requestSave : s.requestSave.2.world.fixtures = s.world.fixtures := by
  obtain ⟨save, hworld⟩ := Moment.requestSave_world s
  rw [hworld]
  rfl

theorem fixtures_startScripts :
    (s.startScripts project input).world.fixtures = s.world.fixtures :=
  ((World.fixtures_updatePlayerWalk _).trans (World.fixtures_handleTap _ _)).trans
    ((World.fixtures_startAutomaticEvents _).trans (World.fixtures_refreshPages _ project))

theorem fixtures_withAnswers (project : Project) :
    (s.withAnswers project).collectSave.world.fixtures = s.world.fixtures :=
  (fixtures_collectSave _).trans s.fixtures_resumeMusic

/-- Before scripts run there is a frame of the screen and of the pictures. -/
theorem fixtures_beforeScripts :
    (s.beforeScripts project input).world.fixtures =
      { s.world.fixtures with
        screen := s.world.screen.update, pictures := s.world.pictures.update } := by
  refine (fixtures_startScripts _ _).trans ?_
  have hsame := s.fixtures_withAnswers project
  simp only [World.fixtures, Fixtures.mk.injEq] at hsame ⊢
  refine ⟨hsame.1, ?_, ?_, hsame.2.2.2⟩
  · exact congrArg Screen.update hsame.2.1
  · exact congrArg Pictures.update hsame.2.2.1

theorem fixtures_afterSaves (project : Project) :
    (s.afterSaves project input).world.fixtures =
      (s.afterScripts project input).world.fixtures := by
  unfold afterSaves save
  dsimp only
  split
  · exact (fixtures_requestSave _).trans (fixtures_sendScheduledSave _)
  · exact fixtures_sendScheduledSave _

/-- After scripts have run there is a frame of the characters. -/
theorem fixtures_update (project : Project) :
    let ran := (s.beforeScripts project input).runScripts project
    (s.update project input).world.fixtures =
      { ran.world.fixtures with fading := ran.world.stage.updateCharacters.fading } := by
  have hsaves := s.fixtures_afterSaves input project
  unfold afterScripts at hsaves
  rw [update_eq]
  generalize s.afterSaves project input = saved at hsaves ⊢
  generalize (s.beforeScripts project input).runScripts project = ran at hsaves ⊢
  exact hsaves

end Session

end Adventure
