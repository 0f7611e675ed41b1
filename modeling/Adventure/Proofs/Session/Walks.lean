import Adventure.Proofs.Session.Changes

/-!
# Walks on a stage

The walks on a stage are those of its scripts and of its routes, and the player's.  A walk
begins in two ways: a command plans it for the character of its script, or a tap sends the
player along a path.  Whatever else happens, scripts begin without a walk, and those that are
dropped take theirs along.
-/

namespace Adventure

/-- The walks under way on a stage: those of scripts and of routes, and the player's. -/
def Stage.walks (s : Stage) : List Walk :=
  (s.interpreters ++ s.routes).filterMap (·.walk) ++ s.playerWalk.toList

/-- No walk begins from one world to the other. -/
def World.SetsOutNobody (w w' : World) : Prop := w'.stage.walks ⊆ w.stage.walks

/-- A property that walks have when they begin, and that their frames keep. -/
structure Walk.Lasting (project : Project) (P : Walk → Prop) : Prop where
  plan {s : Stage} {eventId : Int32} {order : MoveOrder} {skip : Bool} {w : Walk}
    (h : Walk.plan s project eventId order skip = some w) : P w
  along (s : Stage) (target : Tile) (path : List Direction) : P (.along s playerId target path)
  update {w : Walk} (h : P w) (s : Stage) (random : Random) : P (w.update project s random).1

variable {project : Project} {P : Walk → Prop}

/-! ## Stages -/

namespace Stage

variable {s s' : Stage} {i : Interpreter} {w : Walk}

theorem mem_walks_iff :
    w ∈ s.walks ↔ (∃ i ∈ s.interpreters ++ s.routes, i.walk = some w) ∨ s.playerWalk = some w := by
  simp only [walks, List.mem_append, List.mem_filterMap, Option.mem_toList]

/-- Scripts are dropped or begin, and the player goes on or stops. -/
theorem walks_subset (interpreters : ∀ i ∈ s'.interpreters, i ∈ s.interpreters ∨ i.walk = none)
    (routes : ∀ r ∈ s'.routes, r ∈ s.routes ∨ r.walk = none)
    (player : s'.playerWalk = s.playerWalk ∨ s'.playerWalk = none) : s'.walks ⊆ s.walks := by
  intro w hw
  rw [mem_walks_iff] at hw ⊢
  rcases hw with ⟨i, hi, hwalk⟩ | hplayer
  · refine .inl ⟨i, ?_, hwalk⟩
    rcases List.mem_append.1 hi with hi | hi
    · exact List.mem_append_left _ ((interpreters i hi).resolve_right (by simp [hwalk]))
    · exact List.mem_append_right _ ((routes i hi).resolve_right (by simp [hwalk]))
  · exact .inr ((player.resolve_right (by simp [hplayer])).symm.trans hplayer)

theorem walks_modifyCharacter (s : Stage) (id : Int32) (change : Character → Character) :
    (s.modifyCharacter id change).walks = s.walks := by
  unfold modifyCharacter
  split <;> rfl

theorem walks_showPage (s : Stage) (eventId : Int32) (index : Option Nat) :
    (s.showPage project eventId index).walks = s.walks := by
  unfold showPage
  split
  · rfl
  · exact walks_modifyCharacter _ eventId _

theorem walks_update (walk : Walk) (project : Project) (s : Stage) (random : Random) :
    (walk.update project s random).2.1.walks = s.walks := by
  rcases walk.update_stage project s random with hstage | ⟨change, _, hstage⟩
  · rw [hstage]
  · rw [hstage, walks_modifyCharacter]

theorem walks_dropStale (s : Stage) : s.dropStale.walks ⊆ s.walks :=
  walks_subset (fun _ hi => .inl (List.mem_filter.1 hi).1)
    (fun _ hr => .inl (List.mem_filter.1 hr).1)
    (.inl rfl)

theorem walks_addInterpreter (h : i.walk = none) (s : Stage) :
    (s.addInterpreter i).walks ⊆ s.walks := by
  refine walks_subset (fun j hj => ?_) (fun _ => .inl) (.inl rfl)
  rcases List.mem_append.1 hj with hj | hj
  · exact .inl hj
  · exact .inr (List.mem_singleton.1 hj ▸ h)

theorem walks_setRoute (h : i.walk = none) (s : Stage) : (s.setRoute i).walks ⊆ s.walks := by
  refine walks_subset (fun _ => .inl) (fun r hr => ?_) (.inl rfl)
  rcases List.mem_append.1 hr with hr | hr
  · exact .inl (List.mem_filter.1 hr).1
  · exact .inr (List.mem_singleton.1 hr ▸ h)

/-- Nobody walks when a game begins. -/
theorem walks_enter {mapId roomId : Int32} {player : Character}
    (entered : Stage.enter project mapId roomId player = .ok s) : s.walks = [] := by
  unfold Stage.enter at entered
  split at entered
  · cases entered
  · obtain rfl := Except.ok.inj entered
    rfl

/-- The player's walk ends in another room. -/
theorem walks_transfer {roomId : Int32} {t : Tile} {dir : Option Direction}
    (entered : s.transfer project roomId t dir = .ok s') : s'.walks ⊆ s.walks := by
  unfold transfer at entered
  split at entered
  · cases entered
  · obtain rfl := Except.ok.inj entered
    exact List.Subset.trans (walks_dropStale _)
      (walks_subset (fun _ => .inl) (fun _ => .inl) (.inr rfl))

/-- The walks of scripts that were off the stage come back with them. -/
theorem mem_walks_of_back {ran : List Interpreter} (h : w ∈ s'.walks)
    (player : s'.playerWalk = s.playerWalk)
    (scripts : ∀ i ∈ s'.interpreters ++ s'.routes, i ∈ ran ∨ i ∈ s.interpreters ++ s.routes) :
    (∃ i ∈ ran, i.walk = some w) ∨ w ∈ s.walks := by
  rw [mem_walks_iff] at h ⊢
  rcases h with ⟨i, hi, hwalk⟩ | hplayer
  · rcases scripts i hi with hran | hthere
    · exact .inl ⟨i, hran, hwalk⟩
    · exact .inr (.inl ⟨i, hthere, hwalk⟩)
  · exact .inr (.inr (player.symm.trans hplayer))

theorem mem_walks_mergeInterpreters {ran : List Interpreter}
    (h : w ∈ (s.mergeInterpreters ran).walks) : (∃ i ∈ ran, i.walk = some w) ∨ w ∈ s.walks := by
  refine mem_walks_of_back h rfl fun i hi => ?_
  simp only [mergeInterpreters, List.append_assoc, List.mem_append, List.mem_filter] at hi ⊢
  exact hi.imp_left And.left

theorem mem_walks_mergeRoutes {ran : List Interpreter}
    (h : w ∈ (s.mergeRoutes ran).walks) : (∃ i ∈ ran, i.walk = some w) ∨ w ∈ s.walks := by
  refine mem_walks_of_back h rfl fun i hi => ?_
  simp only [mergeRoutes, List.mem_append, List.mem_filter] at hi ⊢
  rcases hi with hi | ⟨hran, _⟩ | hi
  · exact .inr (.inl hi)
  · exact .inl hran
  · exact .inr (.inr hi)

/-- The player goes on another walk. -/
theorem mem_walks_of_playerWalk {walk : Walk} {toTap : Bool}
    (h : w ∈ ({ s with playerWalk := some walk, walkingToTap := toTap } : Stage).walks) :
    w ∈ s.walks ∨ w = walk := by
  rw [mem_walks_iff] at h ⊢
  rcases h with hscript | hplayer
  · exact .inl (.inl hscript)
  · exact .inr (Option.some.inj hplayer).symm

/-- The player stops. -/
theorem walks_idle (s : Stage) : ({ s with playerWalk := none } : Stage).walks ⊆ s.walks :=
  walks_subset (fun _ => .inl) (fun _ => .inl) (.inr rfl)

end Stage

/-! ## Worlds -/

namespace World

variable {w w' w'' : World}

namespace SetsOutNobody

theorem of_stage_eq (stage : w'.stage = w.stage) : w.SetsOutNobody w' := by
  rw [SetsOutNobody, stage]
  exact List.Subset.refl _

theorem refl (w : World) : w.SetsOutNobody w := of_stage_eq rfl

theorem trans (first : w.SetsOutNobody w') (more : w'.SetsOutNobody w'') : w.SetsOutNobody w'' :=
  List.Subset.trans more first

theorem note (h : w.SetsOutNobody w') (entry : String) : w.SetsOutNobody (w'.note entry) :=
  h.trans (.of_stage_eq rfl)

theorem character (w : World) (id : Int32) (change : Character → Character) :
    w.SetsOutNobody (w.modifyCharacter id change) := by
  rw [SetsOutNobody, modifyCharacter, modifyStage, Stage.walks_modifyCharacter]
  exact List.Subset.refl _

theorem refreshPages (w : World) : w.SetsOutNobody (w.refreshPages project) := by
  unfold World.refreshPages
  refine List.foldlRecOn (motive := w.SetsOutNobody) _ _ (.refl w) fun w' h id _ => h.trans ?_
  exact fun x hx => Stage.walks_showPage w'.stage id _ ▸ hx

theorem transfer {roomId : Int32} {t : Tile} {dir : Option Direction}
    (h : w.transfer project roomId t dir = .ok w') : w.SetsOutNobody w' := by
  unfold World.transfer at h
  split at h
  · cases h
  · next stage hstage =>
    obtain rfl := Except.ok.inj h
    have hroom : w.SetsOutNobody { w with stage := stage } := Stage.walks_transfer hstage
    exact (hroom.trans (refreshPages _)).note _

theorem startScript (w : World) (kind : InterpreterKind) (eventId : Int32) (script : Script) :
    w.SetsOutNobody (w.startScript kind eventId script) := Stage.walks_addInterpreter rfl w.stage

theorem startEvent (w : World) (eventId : Int32) :
    w.SetsOutNobody (w.startEvent project eventId).2 := by
  unfold World.startEvent
  split
  · exact .refl w
  · split
    · exact .refl w
    · exact (startScript w _ _ _).note _

theorem startItem (w : World) (id : Int32) : w.SetsOutNobody (w.startItem project id).2 := by
  unfold World.startItem
  split
  · exact .refl w
  · split
    · exact .refl w
    · split
      · exact .refl w
      · exact (startScript { w with inventory := w.inventory.setEventItem id } _ _ _).note _

theorem startCombine (w : World) (first second : Int32) :
    w.SetsOutNobody (w.startCombine project first second).2 := by
  unfold World.startCombine
  split
  · exact .refl w
  · split
    · exact .refl w
    · exact (startScript { w with inventory := w.inventory.setCombineItem second } _ _ _).note _

theorem startCommonEvent (w : World) (id : Int32) :
    w.SetsOutNobody (w.startCommonEvent project id).2 := by
  unfold World.startCommonEvent
  split
  · exact .refl w
  · exact (startScript w _ _ _).note _

theorem startHint (w : World) : w.SetsOutNobody (w.startHint project).2 := by
  unfold World.startHint
  split
  · exact .refl w
  · exact (startScript w _ _ _).note _

theorem startIfAutomatic (w : World) (eventId : Int32) :
    w.SetsOutNobody (World.startIfAutomatic project w eventId) := by
  unfold World.startIfAutomatic
  split
  · exact .refl w
  · split
    · exact .refl w
    · split
      · split
        · exact .refl w
        · exact startEvent w eventId
      · exact startEvent w eventId
      all_goals exact .refl w

theorem startAutomaticEvents (w : World) : w.SetsOutNobody (w.startAutomaticEvents project) := by
  unfold World.startAutomaticEvents
  refine List.foldlRecOn (motive := w.SetsOutNobody) _ _ (.refl w) ?_
  exact fun w' h id _ => h.trans (startIfAutomatic w' id)

theorem runPlayerEvent (w : World) (target : Tile) :
    w.SetsOutNobody (w.runPlayerEvent project target) := by
  unfold World.runPlayerEvent
  split
  · exact .refl w
  · dsimp only
    split
    · exact .refl w
    · refine SetsOutNobody.trans ?_ (startEvent _ _)
      split
      · exact List.Subset.refl _
      · exact .refl w

end SetsOutNobody

/-! ### The walk of the player -/

variable (lasting : Walk.Lasting project P)

include lasting

/-- A tap sends the player along a path, or no walk begins. -/
theorem walks_handleTap (h : ∀ walk ∈ w.stage.walks, P walk) (input : Input) :
    ∀ walk ∈ (w.handleTap project input).stage.walks, P walk := by
  have hkept : ∀ w', w.SetsOutNobody w' → ∀ walk ∈ w'.stage.walks, P walk :=
    fun w' hsubset walk hwalk => h walk (hsubset hwalk)
  unfold handleTap
  split
  · exact h
  · next target _ =>
    split
    · exact h
    · split
      · exact hkept _ (.startEvent w _)
      · split
        · exact hkept _ (.runPlayerEvent w target)
        · intro walk hwalk
          rcases Stage.mem_walks_of_playerWalk hwalk with hwalk | rfl
          · exact h walk hwalk
          · exact lasting.along _ target _

/-- The player's walk makes a frame, or it is over. -/
theorem walks_updatePlayerWalk (h : ∀ walk ∈ w.stage.walks, P walk) :
    ∀ walk ∈ (w.updatePlayerWalk project).stage.walks, P walk := by
  unfold updatePlayerWalk
  split
  · exact h
  · next walk hwalk =>
    have hown := lasting.update (h walk (Stage.mem_walks_iff.2 (.inr hwalk)))
      { w.stage with playerWalk := none } w.random
    have hothers :
        ∀ x ∈ (walk.update project { w.stage with playerWalk := none } w.random).2.1.walks,
        P x := by
      rw [Stage.walks_update]
      exact fun x hx => h x (Stage.walks_idle w.stage hx)
    generalize walk.update project { w.stage with playerWalk := none } w.random = moved at *
    obtain ⟨walk', stage, random⟩ := moved
    dsimp only at hown hothers ⊢
    split
    · intro x hx
      rcases Stage.mem_walks_of_playerWalk hx with hx | rfl
      · exact hothers x hx
      · exact hown
    · split
      · exact fun x hx => hothers x (SetsOutNobody.runPlayerEvent _ walk'.target hx)
      · exact hothers

end World

/-! ## Commands -/

/-- What a command does to walks: it may plan one for its script, and sets out nobody else. -/
structure Effect.Plans (project : Project) (i : Interpreter) (s : Session) (e : Effect) : Prop where
  own : e.interpreter.walk = i.walk ∨ ∃ order skip,
    e.interpreter.walk = Walk.plan s.world.stage project i.target order skip
  others : s.world.SetsOutNobody e.session.world

namespace Interpreter

variable (i : Interpreter) (s : Session)

theorem plans_go (outcome : Outcome) : (i.go s outcome).Plans project i s := ⟨.inl rfl, .refl _⟩

theorem plans_change {change : World → World} (h : s.world.SetsOutNobody (change s.world)) :
    (i.change s change).Plans project i s := ⟨.inl rfl, h⟩

theorem plans_changeThenWait (waits : Bool) (wait : Wait) {change : World → World}
    (h : s.world.SetsOutNobody (change s.world)) :
    (i.changeThenWait s waits wait change).Plans project i s := ⟨.inl rfl, h⟩

theorem plans_withTarget {run : Character → Effect} (h : ∀ c, (run c).Plans project i s) :
    (i.withTarget s run).Plans project i s := by
  unfold withTarget
  split
  · exact h _
  · exact plans_go i s _

theorem plans_withAnswer {issue : Unit → Effect} (h : (issue ()).Plans project i s) :
    (i.withAnswer s issue).Plans project i s := by
  unfold withAnswer takeAnswer?
  cases i.pending with
  | none => exact h
  | some pending =>
    cases pending with
    | request id => exact ⟨.inl rfl, .refl _⟩
    | choices => exact h
    | transfer => exact h

theorem plans_request (request : Request) : (i.request s request).Plans project i s :=
  plans_withAnswer i s ⟨.inl rfl, .refl _⟩

/-! ### Flow and dialogue -/

theorem plans_call (eventId : Int32) (script? : Option Script) :
    (i.call s eventId script?).Plans project i s := by
  cases script? <;> exact plans_go i s _

theorem plans_enterBranch (conditions : List Condition) (branches : List Script) :
    (i.enterBranch s project conditions branches).Plans project i s := by
  unfold enterBranch
  dsimp only
  split
  · exact plans_go i s _
  · split <;> exact plans_go i s _

theorem plans_goToLabel (name : String) : (i.goToLabel s name).Plans project i s := by
  unfold goToLabel
  split <;> exact plans_go i s _

theorem plans_callEventHere : (i.callEventHere s project).Plans project i s := by
  unfold callEventHere
  dsimp only
  split
  · exact plans_go i s _
  · exact plans_call i s _ _

theorem plans_showBalloon (order : BalloonOrder) :
    (i.showBalloon s project order).Plans project i s := by
  unfold showBalloon
  dsimp only
  split
  · exact plans_go i s _
  · exact ⟨.inl rfl, .of_stage_eq rfl⟩

theorem plans_showChoices (order : ChoicesOrder) (branches : List Script) :
    (i.showChoices s project order branches).Plans project i s := by
  unfold showChoices
  split
  · unfold enterChoice
    split
    · exact plans_go i s _
    · dsimp only
      split <;> exact ⟨.inl rfl, .of_stage_eq rfl⟩
  · unfold openChoices
    split
    · exact plans_go i s _
    · exact ⟨.inl rfl, .of_stage_eq rfl⟩

/-! ### State -/

theorem plans_setVariable (a : Assignment) : (i.setVariable s project a).Plans project i s := by
  refine plans_change i s (.of_stage_eq ?_)
  split
  · next w h => exact (congrArg (·.2.stage) h).symm
  · next w h => exact (congrArg (·.2.stage) h).symm

theorem plans_addItem (id : Int32) :
    (i.change s fun w => addItem w project id).Plans project i s := by
  refine plans_change i s ?_
  unfold addItem
  split
  · exact .refl _
  · split <;> exact .of_stage_eq rfl

theorem plans_removeItem (id : Int32) :
    (i.change s fun w => removeItem w id).Plans project i s := by
  refine plans_change i s ?_
  unfold removeItem
  split <;> exact .of_stage_eq rfl

theorem plans_save : (i.save s).Plans project i s := by
  refine plans_withAnswer i s ?_
  exact ⟨.inl rfl, .of_stage_eq rfl⟩

theorem plans_purchase (productId : Int32) :
    (i.purchase s project productId).Plans project i s := by
  refine plans_withAnswer i s ?_
  dsimp only
  split
  · exact plans_go i s _
  · exact ⟨.inl rfl, .refl _⟩

theorem plans_savePermanentVariable (permanentId : UInt64) (variableId : Int32) :
    (i.savePermanentVariable s permanentId variableId).Plans project i s := by
  refine plans_withAnswer i s ?_
  dsimp only
  split <;> exact ⟨.inl rfl, .refl _⟩

/-! ### Rooms, routes and characters -/

theorem plans_transfer (order : TransferOrder) :
    (i.transfer s project order).Plans project i s := by
  unfold transfer
  dsimp only
  split
  · exact ⟨.inl rfl, .of_stage_eq rfl⟩
  · split
    · exact plans_go i s _
    · next w hw =>
      have hroom : s.world.SetsOutNobody w := .transfer hw
      split
      · exact ⟨.inl rfl, hroom.trans (.of_stage_eq rfl)⟩
      · exact ⟨.inl rfl, hroom⟩

/-- A route begins without a walk. -/
theorem plans_setRoute (order : RouteOrder) (body : Script) :
    (i.setRoute s order body).Plans project i s := by
  unfold setRoute
  dsimp only
  split
  · exact plans_go i s _
  · exact plans_changeThenWait i s _ _ (Stage.walks_setRoute rfl s.world.stage)

theorem plans_moveTarget (order : MoveOrder) :
    (i.moveTarget s project order).Plans project i s := by
  refine plans_withTarget i s fun c => ?_
  dsimp only
  split
  · next walk hwalk => exact ⟨.inr ⟨_, _, hwalk.symm⟩, .refl _⟩
  · exact plans_go i s _

theorem plans_changeTarget (change : Character → Character) :
    (i.changeTarget s change).Plans project i s :=
  plans_withTarget i s fun _ => plans_change i s (.character _ _ _)

theorem plans_changeProperty (change : CharacterChange) :
    (i.changeProperty s change).Plans project i s := by
  refine plans_withTarget i s fun c => plans_change i s ?_
  refine World.SetsOutNobody.trans ?_ (.character _ _ _)
  split
  · split <;> exact .of_stage_eq rfl
  · exact .refl _

theorem plans_finishPlayerMove :
    (i.change s fun w => w.modifyStage Stage.finishPlayerWalk).Plans project i s :=
  plans_change i s (Stage.walks_subset (fun _ => .inl) (fun _ => .inl) (.inl rfl))

/-! ### All commands -/

theorem plans_act (branches : List Script) (action : Action) :
    (i.act s project branches action).Plans project i s := by
  cases action with
  | setVariable a => exact plans_setVariable i s a
  | transfer order => exact plans_transfer i s order
  | showChoices order => exact plans_showChoices i s order branches
  | showBalloon order => exact plans_showBalloon i s order
  | branch conditions => exact plans_enterBranch i s conditions branches
  | jump name => exact plans_goToLabel i s name
  | callEvent eventId page => exact plans_call i s _ _
  | callCommonEvent id => exact plans_call i s _ _
  | showHint => exact plans_call i s _ _
  | runEventHere => exact plans_callEventHere i s
  | addItem id => exact plans_addItem i s id
  | removeItem id => exact plans_removeItem i s id
  | moveCharacter order => exact plans_moveTarget i s order
  | turnCharacter dir => exact plans_changeTarget i s _
  | rotateCharacter angle => exact plans_changeTarget i s _
  | setCharacterImage image => exact plans_changeTarget i s _
  | setCharacterOpacity change =>
    exact plans_withTarget i s fun _ => plans_changeThenWait i s _ _ (.character _ _ _)
  | changeCharacter change => exact plans_changeProperty i s change
  | eraseEvent => exact plans_change i s (.character _ _ _)
  | finishPlayerMove => exact plans_finishPlayerMove i s
  | save => exact plans_save i s
  | syncPurchases => exact plans_request i s _
  | unlockAchievement id => exact plans_request i s _
  | showAds kind force => cases kind <;> exact plans_request i s _
  | openLink kind data => exact plans_request i s _
  | purchase productId => exact plans_purchase i s productId
  | savePermanentVariable permanentId variableId =>
    exact plans_savePermanentVariable i s permanentId variableId
  | _ => exact ⟨.inl rfl, .of_stage_eq rfl⟩

theorem plans_execute (command : Command) :
    (i.execute s project command).Plans project i s := by
  unfold execute
  split
  · exact plans_go i s _
  · split
    · exact plans_act i s _ _
    · exact plans_setRoute i s _ _

end Interpreter

end Adventure
