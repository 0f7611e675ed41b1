import Adventure.Proofs.Session.Openings
import Adventure.Proofs.Session.Stacks

/-!
# Where commands lead

A command for which nothing is pending leads its script on in one of a few ways: past itself, into a
list of commands, to a label, off with its character, or to a wait after which it runs again.  What
it changes on the stage is at most that routes are set and that scripts are dropped.
-/

namespace Adventure

/-! ## The scripts on a stage -/

/-- The scripts on the stage were there before, or they are routes at their beginning. -/
structure World.Recasts (w w' : World) : Prop where
  interpreters : ∀ i ∈ w'.stage.interpreters, i ∈ w.stage.interpreters
  routes : ∀ r ∈ w'.stage.routes, r ∈ w.stage.routes ∨
    ∃ id mapId roomId route body, r = .startRoute id mapId roomId route body

namespace World.Recasts

variable {w w' w'' : World}

theorem of_sameCast (same : w.SameCast w') : Recasts w w' :=
  ⟨fun _ hi => same.stage.interpreters ▸ hi, fun _ hr => .inl (same.stage.routes ▸ hr)⟩

theorem of_stage_eq (stage : w'.stage = w.stage) : Recasts w w' :=
  ⟨fun _ hi => stage ▸ hi, fun _ hr => .inl (stage ▸ hr)⟩

theorem refl (w : World) : Recasts w w := .of_stage_eq rfl

theorem trans (first : Recasts w w') (more : Recasts w' w'') : Recasts w w'' :=
  ⟨fun i hi => first.interpreters i (more.interpreters i hi),
    fun r hr => (more.routes r hr).elim (first.routes r) .inr⟩

theorem character (w : World) (id : Int32) (change : Character → Character) :
    Recasts w (w.modifyCharacter id change) := .of_sameCast (calm_character w id change).toSameCast

/-- Scripts of other rooms are dropped. -/
theorem transfer {project : Project} {roomId : Int32} {t : Tile} {dir : Option Direction}
    (h : w.transfer project roomId t dir = .ok w') : Recasts w w' := by
  unfold World.transfer at h
  split at h
  · cases h
  · next stage hstage =>
    obtain rfl := Except.ok.inj h
    have hmoved := Stage.sameCast_transfer hstage
    have hmove : Recasts w { w with stage := stage } := by
      refine ⟨fun i hi => ?_, fun r hr => .inl ?_⟩
      · have hi' : i ∈ (w.stage.movedTo roomId).interpreters := hmoved.interpreters ▸ hi
        exact (List.mem_filter.1 hi').1
      · have hr' : r ∈ (w.stage.movedTo roomId).routes := hmoved.routes ▸ hr
        exact (List.mem_filter.1 hr').1
    exact (hmove.trans (.of_sameCast (calm_refreshPages _ project).toSameCast)).trans
      (.of_stage_eq rfl)

end World.Recasts

/-! ## Ways to go on -/

/-- An outcome that needs no look at the stack or at what is pending. -/
def Outcome.IsSimple : Outcome → Prop
  | .waitHere _ | .enter _ | .jump _ => False
  | _ => True

/-- The ways in which a command for which nothing is pending leads its script on. -/
inductive Interpreter.Heads (i : Interpreter) (command : Command) :
    Interpreter → Outcome → Prop where
  | simply {outcome : Outcome} (simple : outcome.IsSimple) : Heads i command i outcome
  | walks (walk : Walk) : Heads i command { i with walk := some walk } .next
  | enters (script : Script) {kind : FrameKind} (eventId : Int32) (notRoot : kind ≠ .root)
      (notRoute : i.kind ≠ .route) : Heads i command i (.enter (.enter script kind eventId))
  | jumps {f : Frame} {index : Nat} (frame : i.frame? = some f)
      (inside : index < f.commands.length) : Heads i command i (.jump index)
  | opens {order : ChoicesOrder} {branches : List Script}
      (isCommand : command = .act (.showChoices order) branches) :
      Heads i command { i with pending := some .choices } (.waitHere .choices)
  | asks (id : Nat) (isCommand : command.asks = true) :
      Heads i command { i with pending := some (.request id) } (.waitHere (.request id))
  | covers {order : TransferOrder} {branches : List Script}
      (isCommand : command = .act (.transfer order) branches)
      (transition : order.transition ≠ .none) :
      Heads i command { i with pending := some .transfer } (.waitHere .fade)

/-- Where a command leads: how its script goes on, and what becomes of the scripts on the stage. -/
structure Effect.Directs (i : Interpreter) (s : Session) (command : Command) (e : Effect) :
    Prop where
  heads : i.Heads command e.interpreter e.outcome
  world : s.world.Recasts e.session.world

namespace Interpreter

variable {project : Project} {i : Interpreter} {s : Session} {command : Command}

theorem directs_go {outcome : Outcome} (simple : outcome.IsSimple) :
    Effect.Directs i s command (i.go s outcome) := ⟨.simply simple, .refl _⟩

theorem directs_change {change : World → World} (world : s.world.Recasts (change s.world)) :
    Effect.Directs i s command (i.change s change) := ⟨.simply trivial, world⟩

theorem directs_changeThenWait (waits : Bool) (wait : Wait) {change : World → World}
    (world : s.world.Recasts (change s.world)) :
    Effect.Directs i s command (i.changeThenWait s waits wait change) := by
  refine ⟨.simply ?_, world⟩
  cases waits <;> trivial

theorem directs_withTarget {run : Character → Effect}
    (hrun : ∀ c, Effect.Directs i s command (run c)) :
    Effect.Directs i s command (i.withTarget s run) := by
  unfold withTarget
  split
  · exact hrun _
  · exact directs_go trivial

theorem directs_changeTarget (change : Character → Character) :
    Effect.Directs i s command (i.changeTarget s change) :=
  directs_withTarget fun _ => directs_change (.character _ _ _)

theorem directs_changeProperty (change : CharacterChange) :
    Effect.Directs i s command (i.changeProperty s change) := by
  refine directs_withTarget fun _ => directs_change ?_
  refine World.Recasts.trans ?_ (.character _ _ _)
  split
  · split <;> exact .of_stage_eq rfl
  · exact .refl _

theorem directs_moveTarget (order : MoveOrder) :
    Effect.Directs i s command (i.moveTarget s project order) := by
  refine directs_withTarget fun _ => ?_
  dsimp only
  split
  · exact ⟨.walks _, .refl _⟩
  · exact directs_go trivial

/-! ## Flow -/

section Flow

variable (notRoute : i.kind ≠ .route)

include notRoute

theorem directs_enter (script : Script) {kind : FrameKind} (eventId : Int32)
    (notRoot : kind ≠ .root) :
    Effect.Directs i s command (i.go s (.enter (.enter script kind eventId))) :=
  ⟨.enters script eventId notRoot notRoute, .refl _⟩

theorem directs_enterBranch (conditions : List Condition) (branches : List Script) :
    Effect.Directs i s command (i.enterBranch s project conditions branches) := by
  unfold enterBranch
  dsimp only
  split
  · exact directs_go trivial
  · split
    · exact directs_enter notRoute _ _ (by simp)
    · exact directs_go trivial

theorem directs_call (eventId : Int32) (script? : Option Script) :
    Effect.Directs i s command (i.call s eventId script?) := by
  cases script? with
  | none => exact directs_go trivial
  | some script => exact directs_enter notRoute script eventId (by simp)

theorem directs_callEventHere : Effect.Directs i s command (i.callEventHere s project) := by
  unfold callEventHere
  dsimp only
  split
  · exact directs_go trivial
  · exact directs_call notRoute _ _

end Flow

theorem directs_goToLabel (name : String) :
    Effect.Directs i s command (i.goToLabel s name) := by
  unfold goToLabel
  split
  · next index hindex =>
    obtain ⟨f, hframe, hfind⟩ := Option.bind_eq_some_iff.1 hindex
    obtain ⟨hinside, _⟩ := List.findIdx?_eq_some_iff_getElem.1 hfind
    exact ⟨.jumps hframe hinside, .refl _⟩
  · exact directs_go trivial

/-! ## State -/

theorem directs_setVariable (a : Assignment) :
    Effect.Directs i s command (i.setVariable s project a) := by
  have hassign : s.world.Recasts (s.world.assign s.platform project a i.actingEvent).2 :=
    .of_stage_eq rfl
  refine directs_change ?_
  split
  · next heq =>
    rw [heq] at hassign
    exact hassign
  · next heq =>
    rw [heq] at hassign
    exact hassign.trans (.of_stage_eq rfl)

theorem directs_addItem (id : Int32) :
    Effect.Directs i s command (i.change s fun w => addItem w project id) := by
  refine directs_change ?_
  unfold addItem
  split
  · exact .refl _
  · split <;> exact .of_stage_eq rfl

theorem directs_removeItem (id : Int32) :
    Effect.Directs i s command (i.change s fun w => removeItem w id) := by
  refine directs_change ?_
  unfold removeItem
  split <;> exact .of_stage_eq rfl

/-- The route that a character followed is dropped, and the new one begins. -/
theorem directs_setRoute (order : RouteOrder) (body : Script) :
    Effect.Directs i s command (i.setRoute s order body) := by
  unfold setRoute
  dsimp only
  split
  · exact directs_go trivial
  · refine directs_changeThenWait _ _ ⟨fun _ hi => hi, fun r hr => ?_⟩
    rcases List.mem_append.1 hr with hr | hr
    · exact .inl (List.mem_filter.1 hr).1
    · exact .inr ⟨_, _, _, _, _, List.mem_singleton.1 hr⟩

theorem directs_showBalloon (order : BalloonOrder) :
    Effect.Directs i s command (i.showBalloon s project order) := by
  unfold showBalloon
  dsimp only
  split
  · exact directs_go trivial
  · exact ⟨.simply trivial, .of_stage_eq rfl⟩

/-! ## Commands with a second half -/

section FirstHalf

variable (pending : i.pending = none)

include pending

theorem directs_showChoices (order : ChoicesOrder) (branches : List Script) :
    Effect.Directs i s (.act (.showChoices order) branches)
      (i.showChoices s project order branches) := by
  rw [showChoices, if_neg (by simp [pending]), openChoices]
  split
  · exact directs_go trivial
  · exact ⟨.opens rfl, .of_stage_eq rfl⟩

theorem directs_request (isCommand : command.asks = true) (request : Request) :
    Effect.Directs i s command (i.request s request) := by
  rw [Interpreter.request, withAnswer_of_pending pending]
  exact ⟨.asks _ isCommand, .refl _⟩

theorem directs_save (isCommand : command.asks = true) :
    Effect.Directs i s command (i.save s) := by
  rw [save, withAnswer_of_pending pending]
  exact ⟨.asks _ isCommand, .of_stage_eq rfl⟩

theorem directs_purchase (isCommand : command.asks = true) (productId : Int32) :
    Effect.Directs i s command (i.purchase s project productId) := by
  rw [purchase, withAnswer_of_pending pending]
  split
  · exact directs_go trivial
  · exact ⟨.asks _ isCommand, .refl _⟩

theorem directs_savePermanentVariable (isCommand : command.asks = true) (permanentId : UInt64)
    (variableId : Int32) :
    Effect.Directs i s command (i.savePermanentVariable s permanentId variableId) := by
  rw [savePermanentVariable, withAnswer_of_pending pending]
  dsimp only
  split
  · exact ⟨.asks _ isCommand, .refl _⟩
  · exact directs_go trivial
  · exact ⟨.simply trivial, .refl _⟩

theorem directs_transfer (order : TransferOrder) (branches : List Script) :
    Effect.Directs i s (.act (.transfer order) branches) (i.transfer s project order) := by
  unfold transfer
  simp only [pending]
  split
  · next hcolor _ =>
    refine ⟨.covers rfl fun hnone => ?_, .of_stage_eq rfl⟩
    rw [hnone] at hcolor
    cases hcolor
  · split
    · exact directs_go trivial
    · next w hw => exact ⟨.simply trivial, .transfer hw⟩

/-! ## All commands -/

theorem directs_act (branches : List Script) {action : Action}
    (fits : action.fitsRoute = false → i.kind ≠ .route) :
    Effect.Directs i s (.act action branches) (i.act s project branches action) := by
  cases action with
  | setVariable a => exact directs_setVariable a
  | transfer order => exact directs_transfer pending order branches
  | showChoices order => exact directs_showChoices pending order branches
  | showMessage order => exact ⟨.simply trivial, .of_stage_eq rfl⟩
  | showBalloon order => exact directs_showBalloon order
  | branch conditions => exact directs_enterBranch (fits rfl) conditions branches
  | jump name => exact directs_goToLabel name
  | callEvent eventId page => exact directs_call (fits rfl) _ _
  | callCommonEvent id => exact directs_call (fits rfl) _ _
  | showHint => exact directs_call (fits rfl) _ _
  | runEventHere => exact directs_callEventHere (fits rfl)
  | addItem id => exact directs_addItem id
  | removeItem id => exact directs_removeItem id
  | moveCharacter order => exact directs_moveTarget order
  | turnCharacter dir => exact directs_changeTarget _
  | rotateCharacter angle => exact directs_changeTarget _
  | setCharacterImage image => exact directs_changeTarget _
  | setCharacterOpacity change =>
    exact directs_withTarget fun _ => directs_changeThenWait _ _ (.character _ _ _)
  | changeCharacter change => exact directs_changeProperty change
  | eraseEvent => exact directs_change (.character _ _ _)
  | finishPlayerMove => exact directs_change ⟨fun _ hi => hi, fun _ hr => .inl hr⟩
  | save => exact directs_save pending rfl
  | syncPurchases => exact directs_request pending rfl _
  | unlockAchievement id => exact directs_request pending rfl _
  | showAds kind force => cases kind <;> exact directs_request pending rfl _
  | openLink kind data => exact directs_request pending rfl _
  | purchase productId => exact directs_purchase pending rfl productId
  | savePermanentVariable permanentId variableId =>
    exact directs_savePermanentVariable pending rfl permanentId variableId
  | tintScreen o => exact directs_changeThenWait _ _ (.of_stage_eq rfl)
  | shakeScreen o => exact directs_changeThenWait _ _ (.of_stage_eq rfl)
  | movePicture o => exact directs_changeThenWait _ _ (.of_stage_eq rfl)
  | scalePicture o => exact directs_changeThenWait _ _ (.of_stage_eq rfl)
  | rotatePicture o => exact directs_changeThenWait _ _ (.of_stage_eq rfl)
  | fadePicture o => exact directs_changeThenWait _ _ (.of_stage_eq rfl)
  | tintPicture o => exact directs_changeThenWait _ _ (.of_stage_eq rfl)
  | _ => exact ⟨.simply trivial, .of_stage_eq rfl⟩

/-- A command for which nothing is pending.  In a route only commands run that stay in its list. -/
theorem directs_execute (command : Command) :
    Effect.Directs i s command (i.execute s project command) := by
  unfold execute
  split
  · exact directs_go trivial
  · next hfits =>
    split
    · exact directs_act pending _ fun hunfit hroute =>
        hfits (by simp [Command.fitsRoute, hunfit, hroute])
    · exact directs_setRoute _ _

end FirstHalf

end Interpreter

end Adventure
