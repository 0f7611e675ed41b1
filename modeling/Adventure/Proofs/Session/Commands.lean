import Adventure.Proofs.Session.Scripts

/-!
# What commands do to a world

Every command changes the scene by the changes of `World.Change`, and whatever it starts or enters
is a script of the project or a part of the script that it stands in.
-/

namespace Adventure

open World (Changes)

/-- Whether one world becomes another by changes, and its scripts keep a property meanwhile. -/
def World.Passes (project : Project) (P : Script → Prop) (w w' : World) : Prop :=
  w.stage.Holds P → Changes project w w' ∧ w'.stage.Holds P

variable {project : Project} {P : Script → Prop}

/-! ## Worlds -/

namespace World

variable {w w' w'' : World}

theorem Passes.refl (w : World) : Passes project P w w := fun h => ⟨.refl w, h⟩

theorem Passes.trans (first : Passes project P w w') (more : Passes project P w' w'') :
    Passes project P w w'' := by
  intro h
  obtain ⟨hfirst, h'⟩ := first h
  obtain ⟨hmore, h''⟩ := more h'
  exact ⟨hfirst.trans hmore, h''⟩

/-- The stage stays as it is. -/
theorem Passes.of_stage_eq (speed : w'.playerSpeed = w.playerSpeed)
    (stage : w'.stage = w.stage) : Passes project P w w' :=
  fun h => ⟨.of_stage_eq speed stage, stage ▸ h⟩

/-- The scene stays as it is. -/
theorem Passes.aside (speed : w'.playerSpeed = w.playerSpeed)
    (scene : w.stage.SameScene w'.stage) (holds : w.stage.Holds P → w'.stage.Holds P) :
    Passes project P w w' := fun h => ⟨.aside speed scene, holds h⟩

theorem passes_note (w : World) (entry : String) : Passes project P w (w.note entry) :=
  .of_stage_eq rfl rfl

theorem passes_character (w : World) (id : Int32) {change : Character → Character}
    (steady : Character.Steady change) : Passes project P w (w.modifyCharacter id change) :=
  fun h => ⟨.character w id steady, h.modifyCharacter id change⟩

/-- Every event shows the page that is its turn. -/
theorem passes_refreshPages (w : World) : Passes project P w (w.refreshPages project) := by
  -- the events stay the same while they show their pages
  have hpages : Passes project P w (w.refreshPages project) ∧
      (w.refreshPages project).stage.eventIds = w.stage.eventIds := by
    unfold refreshPages
    refine List.foldlRecOn (motive := fun w' =>
      Passes project P w w' ∧ w'.stage.eventIds = w.stage.eventIds) _ _ ⟨.refl w, rfl⟩ ?_
    rintro w' ⟨hpasses, hids⟩ id hid
    have hpage : Passes project P w' (refreshPage project w' id) := fun h =>
      ⟨(Change.page w' (w'.choosePage? project id) (hids ▸ hid)).changes, h.showPage id _⟩
    refine ⟨hpasses.trans hpage, ?_⟩
    rw [← hids]
    exact Stage.eventIds_showPage w'.stage project id (w'.choosePage? project id)
  exact hpages.1

/-- The player comes to another room, and its events show their pages. -/
theorem passes_transfer {roomId : Int32} {t : Tile} {dir : Option Direction}
    (h : w.transfer project roomId t dir = .ok w') : Passes project P w w' := by
  unfold transfer at h
  split at h
  · cases h
  · next stage hstage =>
    obtain rfl := Except.ok.inj h
    have henter : Passes project P w { w with stage := stage } := fun hw =>
      ⟨(Change.enter w hstage).changes, hw.transfer hstage⟩
    exact (henter.trans (passes_refreshPages _)).trans (passes_note _ _)

/-- A script is started that has the property. -/
theorem passes_startScript (w : World) (kind : InterpreterKind) (eventId : Int32) {script : Script}
    (h : P script) : Passes project P w (w.startScript kind eventId script) := by
  refine .aside rfl ⟨rfl, rfl, rfl, rfl, rfl⟩ fun hw => Stage.Holds.addInterpreter hw fun f hf => ?_
  exact List.mem_singleton.1 hf ▸ h

end World

/-! ## Effects -/

/-- What a command leaves behind: the world has passed on, and the list that the command enters, if
any, has the property. -/
structure Effect.Passes (project : Project) (P : Script → Prop) (i : Interpreter) (s : Session)
    (e : Effect) : Prop where
  frames : e.interpreter.frames = i.frames
  world : World.Passes project P s.world e.session.world
  entered : ∀ frame, e.outcome = .enter frame → P frame.commands

/-- No list is entered, and the stage stays as it is. -/
theorem Effect.Passes.of_stage_eq {i : Interpreter} {s : Session} {e : Effect}
    (frames : e.interpreter.frames = i.frames)
    (speed : e.session.world.playerSpeed = s.world.playerSpeed)
    (stage : e.session.world.stage = s.world.stage) (outcome : ∀ frame, e.outcome ≠ .enter frame) :
    e.Passes project P i s :=
  ⟨frames, .of_stage_eq speed stage, fun frame h => absurd h (outcome frame)⟩

namespace Interpreter

variable (i : Interpreter) (s : Session)

theorem passes_go {outcome : Outcome} (h : ∀ frame, outcome ≠ .enter frame) :
    (i.go s outcome).Passes project P i s := .of_stage_eq rfl rfl rfl h

theorem passes_enter {frame : Frame} (h : P frame.commands) :
    (i.go s (.enter frame)).Passes project P i s :=
  ⟨rfl, .refl _, fun _ hframe => Outcome.enter.inj hframe ▸ h⟩

theorem passes_change {change : World → World}
    (h : World.Passes project P s.world (change s.world)) :
    (i.change s change).Passes project P i s := ⟨rfl, h, fun _ hframe => nomatch hframe⟩

theorem passes_changeThenWait (waits : Bool) (wait : Wait) {change : World → World}
    (h : World.Passes project P s.world (change s.world)) :
    (i.changeThenWait s waits wait change).Passes project P i s :=
  ⟨rfl, h, fun _ hframe => by cases waits <;> cases hframe⟩

theorem passes_withTarget {run : Character → Effect} (h : ∀ c, (run c).Passes project P i s) :
    (i.withTarget s run).Passes project P i s := by
  unfold withTarget
  split
  · exact h _
  · exact passes_go i s (by simp)

theorem passes_withAnswer {issue : Unit → Effect} (h : (issue ()).Passes project P i s) :
    (i.withAnswer s issue).Passes project P i s := by
  unfold withAnswer takeAnswer?
  cases i.pending with
  | none => exact h
  | some pending =>
    cases pending with
    | request id => exact .of_stage_eq rfl rfl rfl (by simp)
    | choices => exact h
    | transfer => exact h

/-! ## Flow -/

theorem passes_call (eventId : Int32) {script? : Option Script}
    (h : ∀ script, script? = some script → P script) :
    (i.call s eventId script?).Passes project P i s := by
  cases script? with
  | none => exact passes_go i s (by simp)
  | some script => exact passes_enter i s (h script rfl)

theorem passes_enterBranch (conditions : List Condition) {branches : List Script}
    (h : ∀ branch ∈ branches, P branch) :
    (i.enterBranch s project conditions branches).Passes project P i s := by
  unfold enterBranch
  dsimp only
  split
  · exact passes_go i s (by simp)
  · split
    · next branch hbranch => exact passes_enter i s (h branch (List.mem_of_getElem? hbranch))
    · exact passes_go i s (by simp)

theorem passes_goToLabel (name : String) : (i.goToLabel s name).Passes project P i s := by
  unfold goToLabel
  split <;> exact passes_go i s (by simp)

theorem passes_callEventHere (hP : project.Inherits P) :
    (i.callEventHere s project).Passes project P i s := by
  unfold callEventHere
  dsimp only
  split
  · exact passes_go i s (by simp)
  · refine passes_call i s _ fun script hscript => ?_
    obtain ⟨p, hp, rfl⟩ := Option.map_eq_some_iff.1 hscript
    exact hP.shownPage hp

theorem passes_callEvent (hP : project.Inherits P) (eventId : Int32) (page : UInt64) :
    (i.callEvent s project eventId page).Passes project P i s := by
  refine passes_call i s _ fun script hscript => ?_
  obtain ⟨p, hp, rfl⟩ := Option.map_eq_some_iff.1 hscript
  obtain ⟨e, he, hp⟩ := Option.bind_eq_some_iff.1 hp
  exact hP.page he (List.mem_of_getElem? hp)

theorem passes_callHint (hP : project.Inherits P) :
    (i.callHint s project).Passes project P i s := by
  refine passes_call i s _ fun script hscript => ?_
  obtain ⟨t, ht, rfl⟩ := Option.map_eq_some_iff.1 hscript
  obtain ⟨id, _, ht⟩ := Option.bind_eq_some_iff.1 ht
  exact hP.hint ht

theorem passes_callCommonEvent (hP : project.Inherits P) (id : Int32) :
    (i.call s i.actingEvent ((project.commonEvent? id).map (·.commands))).Passes project P i s := by
  refine passes_call i s _ fun script hscript => ?_
  obtain ⟨e, he, rfl⟩ := Option.map_eq_some_iff.1 hscript
  exact hP.commonEvent he

/-! ## Dialogue -/

theorem passes_showBalloon (order : BalloonOrder) :
    (i.showBalloon s project order).Passes project P i s := by
  unfold showBalloon
  dsimp only
  split
  · exact passes_go i s (by simp)
  · exact .of_stage_eq rfl rfl rfl (by simp)

theorem passes_showChoices (order : ChoicesOrder) {branches : List Script}
    (h : ∀ branch ∈ branches, P branch) :
    (i.showChoices s project order branches).Passes project P i s := by
  unfold showChoices
  split
  · unfold enterChoice
    split
    · exact passes_go i s (by simp)
    · dsimp only
      split
      · next branch hbranch =>
        have hentered := h branch (List.mem_of_getElem? hbranch)
        exact ⟨rfl, .of_stage_eq rfl rfl, fun _ hframe => Outcome.enter.inj hframe ▸ hentered⟩
      · exact .of_stage_eq rfl rfl rfl (by simp [go])
  · unfold openChoices
    split
    · exact passes_go i s (by simp)
    · exact .of_stage_eq rfl rfl rfl (by simp)

/-! ## State -/

theorem passes_setVariable (a : Assignment) : (i.setVariable s project a).Passes project P i s := by
  refine passes_change i s (.of_stage_eq ?_ ?_)
  · split
    · next w h => exact (congrArg (·.2.playerSpeed) h).symm
    · next w h => exact (congrArg (·.2.playerSpeed) h).symm
  · split
    · next w h => exact (congrArg (·.2.stage) h).symm
    · next w h => exact (congrArg (·.2.stage) h).symm

theorem passes_addItem (w : World) (id : Int32) :
    World.Passes project P w (addItem w project id) := by
  unfold addItem
  split
  · exact .refl _
  · split <;> exact .of_stage_eq rfl rfl

theorem passes_removeItem (w : World) (id : Int32) :
    World.Passes project P w (removeItem w id) := by
  unfold removeItem
  split <;> exact .of_stage_eq rfl rfl

/-! ## Rooms and routes -/

theorem passes_transfer (order : TransferOrder) :
    (i.transfer s project order).Passes project P i s := by
  unfold transfer
  dsimp only
  split
  · exact .of_stage_eq rfl rfl rfl (by simp)
  · split
    · exact passes_go i s (by simp)
    · next w hw =>
      have hroom : World.Passes project P s.world w := World.passes_transfer hw
      split
      · exact ⟨rfl, hroom.trans (.of_stage_eq rfl rfl), by simp⟩
      · exact ⟨rfl, hroom, by simp [go]⟩

theorem passes_setRoute (order : RouteOrder) {body : Script} (h : P body) :
    (i.setRoute s order body).Passes project P i s := by
  unfold setRoute
  dsimp only
  split
  · exact passes_go i s (by simp)
  · refine passes_changeThenWait i s _ _ (.aside rfl ⟨rfl, rfl, rfl, rfl, rfl⟩ fun hs => ?_)
    refine Stage.Holds.setRoute hs fun f hf => ?_
    exact List.mem_singleton.1 hf ▸ h

/-! ## Characters -/

theorem passes_moveTarget (order : MoveOrder) :
    (i.moveTarget s project order).Passes project P i s := by
  refine passes_withTarget i s fun c => ?_
  dsimp only
  split
  · exact .of_stage_eq rfl rfl rfl (by simp [go])
  · exact passes_go i s (by simp)

theorem passes_changeTarget {change : Character → Character} (h : Character.Steady change) :
    (i.changeTarget s change).Passes project P i s :=
  passes_withTarget i s fun _ => passes_change i s (World.passes_character _ _ h)

/-- Only a new speed is more than a steady change. -/
theorem passes_changeProperty (change : CharacterChange) :
    (i.changeProperty s change).Passes project P i s := by
  refine passes_withTarget i s fun c => passes_change i s ?_
  cases change with
  | speed speed =>
    refine fun h => ⟨(World.Change.speed s.world i.target speed).changes, ?_⟩
    refine Stage.Holds.modifyCharacter ?_ _ _
    dsimp only
    split <;> exact h
  | _ => exact World.passes_character s.world i.target (.change (by simp))

/-! ## Requests -/

theorem passes_request (request : Request) : (i.request s request).Passes project P i s :=
  passes_withAnswer i s (.of_stage_eq rfl rfl rfl (by simp [awaitAnswer]))

theorem passes_save : (i.save s).Passes project P i s :=
  passes_withAnswer i s (.of_stage_eq rfl rfl rfl (by simp [awaitAnswer]))

theorem passes_purchase (productId : Int32) :
    (i.purchase s project productId).Passes project P i s := by
  refine passes_withAnswer i s ?_
  dsimp only
  split
  · exact passes_go i s (by simp)
  · exact .of_stage_eq rfl rfl rfl (by simp [awaitAnswer])

theorem passes_savePermanentVariable (permanentId : UInt64) (variableId : Int32) :
    (i.savePermanentVariable s permanentId variableId).Passes project P i s := by
  refine passes_withAnswer i s ?_
  dsimp only
  split
  · exact .of_stage_eq rfl rfl rfl (by simp [awaitAnswer])
  · exact passes_go i s (by simp)
  · exact .of_stage_eq rfl rfl rfl (by simp [go])

/-! ## All commands -/

theorem passes_act (hP : project.Inherits P) {branches : List Script}
    (h : ∀ branch ∈ branches, P branch) (action : Action) :
    (i.act s project branches action).Passes project P i s := by
  cases action with
  | setVariable a => exact passes_setVariable i s a
  | transfer order => exact passes_transfer i s order
  | showChoices order => exact passes_showChoices i s order h
  | branch conditions => exact passes_enterBranch i s conditions h
  | jump name => exact passes_goToLabel i s name
  | callEvent eventId page => exact passes_callEvent i s hP eventId page
  | callCommonEvent id => exact passes_callCommonEvent i s hP id
  | showHint => exact passes_callHint i s hP
  | runEventHere => exact passes_callEventHere i s hP
  | showBalloon order => exact passes_showBalloon i s order
  | addItem id => exact passes_change i s (passes_addItem _ id)
  | removeItem id => exact passes_change i s (passes_removeItem _ id)
  | moveCharacter order => exact passes_moveTarget i s order
  | turnCharacter dir => exact passes_changeTarget i s (.turn fun _ => dir)
  | rotateCharacter angle => exact passes_changeTarget i s (.turn _)
  | setCharacterImage image => exact passes_changeTarget i s (.setImage image)
  | setCharacterOpacity change =>
    exact passes_withTarget i s fun _ =>
      passes_changeThenWait i s _ _ (World.passes_character _ _ (.setOpacity _ _))
  | changeCharacter change => exact passes_changeProperty i s change
  | eraseEvent => exact passes_change i s (World.passes_character _ _ .erase)
  | finishPlayerMove =>
    exact passes_change i s (.aside rfl ⟨rfl, rfl, rfl, rfl, rfl⟩ fun h => h.congr rfl rfl)
  | save => exact passes_save i s
  | syncPurchases => exact passes_request i s _
  | unlockAchievement id => exact passes_request i s _
  | showAds kind force => cases kind <;> exact passes_request i s _
  | openLink kind data => exact passes_request i s _
  | purchase productId => exact passes_purchase i s productId
  | savePermanentVariable permanentId variableId =>
    exact passes_savePermanentVariable i s permanentId variableId
  | tintScreen o => exact passes_changeThenWait i s _ _ (.of_stage_eq rfl rfl)
  | shakeScreen o => exact passes_changeThenWait i s _ _ (.of_stage_eq rfl rfl)
  | movePicture o => exact passes_changeThenWait i s _ _ (.of_stage_eq rfl rfl)
  | scalePicture o => exact passes_changeThenWait i s _ _ (.of_stage_eq rfl rfl)
  | rotatePicture o => exact passes_changeThenWait i s _ _ (.of_stage_eq rfl rfl)
  | fadePicture o => exact passes_changeThenWait i s _ _ (.of_stage_eq rfl rfl)
  | tintPicture o => exact passes_changeThenWait i s _ _ (.of_stage_eq rfl rfl)
  | _ => exact .of_stage_eq rfl rfl rfl fun _ hframe => nomatch hframe

/-- A command of a script that has the property. -/
theorem passes_execute (hP : project.Inherits P) {script : Script} (h : P script)
    {command : Command} (hc : command ∈ script) :
    (i.execute s project command).Passes project P i s := by
  unfold execute
  split
  · exact passes_go i s (by simp)
  · split
    · exact passes_act i s hP (fun branch hb => hP.branch h hc hb) _
    · exact passes_setRoute i s _ (hP.body h hc)

end Interpreter

end Adventure
