import Adventure.Proofs.Session.Suspension

/-!
# What a step stirs

A script is started for an event, in a room, and this stays so while it runs.  A step of it leaves
the cast of the stage and the room alone, except that it may set a route or bring the player to
another room.  Besides, a transfer covers the screen and uncovers it again: `Interpreter.Covering`
says which script has yet to do so.
-/

namespace Adventure

theorem Interpolation.target_setTo (i : Interpolation) (target : Binary64) (frames : UInt32) :
    (i.setTo target frames).target = target := by
  unfold setTo
  split <;> rfl

/-! ## Scripts over time -/

/-- What stays of a script while it runs. -/
structure Origin where
  id : Nat
  mapId : Int32
  roomId : Int32
  eventId : Int32
  kind : InterpreterKind
  route : Option RouteState

namespace Interpreter

def origin (i : Interpreter) : Origin := ⟨i.id, i.mapId, i.roomId, i.eventId, i.kind, i.route⟩

/-- Whether the script runs and has to uncover the screen. -/
def uncovers (i : Interpreter) : Bool := !i.terminated && i.pending == some .transfer

section Origin

variable {i j : Interpreter} (h : j.origin = i.origin)

include h

theorem eventId_eq_of_origin : j.eventId = i.eventId := congrArg Origin.eventId h

theorem kind_eq_of_origin : j.kind = i.kind := congrArg Origin.kind h

theorem isBlocking_eq_of_origin : j.isBlocking = i.isBlocking := by
  rw [isBlocking, isBlocking, kind_eq_of_origin h]

theorem isIn_eq_of_origin (mapId roomId : Int32) : j.isIn mapId roomId = i.isIn mapId roomId := by
  have hmap : j.mapId = i.mapId := congrArg Origin.mapId h
  have hroom : j.roomId = i.roomId := congrArg Origin.roomId h
  rw [isIn, isIn, hmap, hroom]

end Origin

theorem origin_modifyFrame (i : Interpreter) (change : Frame → Frame) :
    (i.modifyFrame change).origin = i.origin := by
  obtain ⟨frames, h⟩ := i.modifyFrame_eq change
  rw [h]
  rfl

theorem origin_forgetRequest (i : Interpreter) : i.forgetRequest.origin = i.origin := by
  obtain ⟨frames, hpast⟩ := i.goPast_eq
  rcases i.forgetRequest_cases with h | ⟨h, _⟩ <;> rw [h]
  rw [hpast]
  rfl

theorem origin_keepWaiting (i : Interpreter) : i.keepWaiting.origin = i.origin := by
  unfold keepWaiting
  split <;> rfl

theorem uncovers_keepWaiting (i : Interpreter) : i.keepWaiting.uncovers = i.uncovers := by
  unfold keepWaiting
  split <;> rfl

theorem uncovers_of_pending {i : Interpreter} (h : i.pending ≠ some .transfer) :
    i.uncovers = false := by
  simp [uncovers, h]

theorem uncovers_forgetRequest (i : Interpreter) : i.forgetRequest.uncovers = i.uncovers := by
  unfold forgetRequest
  split
  · next id h =>
    obtain ⟨frames, hadvance⟩ :=
      ({ i with pending := none, wait := .none } : Interpreter).modifyFrame_eq Frame.advance
    rw [advance, hadvance, uncovers_of_pending (by simp), uncovers_of_pending (by simp [h])]
  · rfl

theorem uncovers_iff {i : Interpreter} :
    i.uncovers = true ↔ i.terminated = false ∧ i.pending = some .transfer := by
  simp [uncovers]

end Interpreter

/-! ## The cast -/

/-- The scripts on the stage are the same, and so is the room. -/
structure Stage.SameCast (s s' : Stage) : Prop where
  mapId : s'.mapId = s.mapId
  roomId : s'.roomId = s.roomId
  interpreters : s'.interpreters = s.interpreters
  routes : s'.routes = s.routes

namespace Stage

variable {s s' s'' : Stage}

theorem SameCast.refl (s : Stage) : SameCast s s := ⟨rfl, rfl, rfl, rfl⟩

theorem SameCast.trans (first : SameCast s s') (more : SameCast s' s'') : SameCast s s'' :=
  ⟨more.mapId.trans first.mapId, more.roomId.trans first.roomId,
    more.interpreters.trans first.interpreters, more.routes.trans first.routes⟩

theorem sameCast_modifyCharacter (s : Stage) (id : Int32) (change : Character → Character) :
    SameCast s (s.modifyCharacter id change) := by
  unfold modifyCharacter
  split <;> exact ⟨rfl, rfl, rfl, rfl⟩

theorem sameCast_showPage (s : Stage) (project : Project) (eventId : Int32) (index : Option Nat) :
    SameCast s (s.showPage project eventId index) := by
  unfold showPage
  split
  · exact .refl s
  · refine SameCast.trans ?_ (sameCast_modifyCharacter _ eventId _)
    exact ⟨rfl, rfl, rfl, rfl⟩

theorem sameCast_walk (s : Stage) (project : Project) (walk : Walk) (random : Random) :
    SameCast s (walk.update project s random).2.1 := by
  rcases walk.update_stage project s random with hstage | ⟨change, _, hstage⟩ <;> rw [hstage]
  · exact .refl s
  · exact sameCast_modifyCharacter s walk.eventId change

/-- The stage of another room, without the scripts that do not come along. -/
def movedTo (s : Stage) (roomId : Int32) : Stage := { s with roomId := roomId }.dropStale

/-- A transfer changes the room and drops the scripts that do not come along. -/
theorem sameCast_transfer {project : Project} {roomId : Int32} {t : Tile} {dir : Option Direction}
    (h : s.transfer project roomId t dir = .ok s') : SameCast (s.movedTo roomId) s' := by
  unfold transfer at h
  split at h
  · cases h
  · obtain rfl := Except.ok.inj h
    exact ⟨rfl, rfl, rfl, rfl⟩

namespace SameCast

theorem setRoute (h : SameCast s s') (r : Interpreter) :
    SameCast (s.setRoute r) (s'.setRoute r) := by
  refine ⟨h.mapId, h.roomId, h.interpreters, ?_⟩
  simp only [Stage.setRoute, h.routes]

theorem movedTo (h : SameCast s s') (roomId : Int32) :
    SameCast (s.movedTo roomId) (s'.movedTo roomId) := by
  refine ⟨h.mapId, rfl, ?_, ?_⟩
  · simp only [Stage.movedTo, dropStale, h.mapId, h.interpreters]
  · simp only [Stage.movedTo, dropStale, h.mapId, h.routes]

end SameCast

end Stage

/-- The scripts of the world are the same, none was started, and the room is the same. -/
structure World.SameCast (w w' : World) : Prop where
  stage : w.stage.SameCast w'.stage
  last : w'.lastInterpreterId = w.lastInterpreterId

/-- Besides, the screen fades to where it faded before. -/
structure World.Calm (w w' : World) : Prop extends World.SameCast w w' where
  fade : w'.screen.fade = w.screen.fade

/-- What a step can do to the scripts that are on the stage, and to the room. -/
inductive World.Stir (w w' : World) : Prop where
  | aside (same : w.SameCast w')
  | sets (r : Interpreter) (id : r.id = w.lastInterpreterId + 1) (kind : r.kind = .route)
      (route : r.route.isSome = true) (live : r.terminated = false) (fresh : r.IsFresh)
      (last : w'.lastInterpreterId = w.lastInterpreterId + 1)
      (stage : (w.stage.setRoute r).SameCast w'.stage)
  | enters (roomId : Int32) (last : w'.lastInterpreterId = w.lastInterpreterId)
      (stage : (w.stage.movedTo roomId).SameCast w'.stage)

namespace World

variable {w w' w'' : World}

theorem SameCast.refl (w : World) : SameCast w w := ⟨.refl _, rfl⟩

theorem SameCast.trans (first : SameCast w w') (more : SameCast w' w'') : SameCast w w'' :=
  ⟨first.stage.trans more.stage, more.last.trans first.last⟩

theorem SameCast.of_stage_eq (stage : w'.stage = w.stage)
    (last : w'.lastInterpreterId = w.lastInterpreterId) : SameCast w w' :=
  ⟨stage ▸ .refl _, last⟩

theorem Calm.of_eq (stage : w'.stage = w.stage) (last : w'.lastInterpreterId = w.lastInterpreterId)
    (fade : w'.screen.fade = w.screen.fade) : Calm w w' := ⟨.of_stage_eq stage last, fade⟩

theorem Calm.refl (w : World) : Calm w w := .of_eq rfl rfl rfl

theorem Calm.trans (first : Calm w w') (more : Calm w' w'') : Calm w w'' :=
  ⟨first.toSameCast.trans more.toSameCast, more.fade.trans first.fade⟩

theorem calm_character (w : World) (id : Int32) (change : Character → Character) :
    Calm w (w.modifyCharacter id change) := ⟨⟨Stage.sameCast_modifyCharacter _ id change, rfl⟩, rfl⟩

theorem calm_refreshPages (w : World) (project : Project) : Calm w (w.refreshPages project) := by
  unfold refreshPages
  refine List.foldlRecOn (motive := fun w' => Calm w w') _ _ (.refl w) fun w' h id _ => ?_
  exact h.trans ⟨⟨Stage.sameCast_showPage _ project id _, rfl⟩, rfl⟩

/-- The player comes to another room, and the screen fades to where it faded before. -/
theorem stir_transfer {project : Project} {roomId : Int32} {t : Tile} {dir : Option Direction}
    (h : w.transfer project roomId t dir = .ok w') :
    Stir w w' ∧ w'.screen.fade = w.screen.fade := by
  unfold transfer at h
  split at h
  · cases h
  · next stage hstage =>
    obtain rfl := Except.ok.inj h
    have hpages := calm_refreshPages { w with stage := stage } project
    refine ⟨.enters roomId hpages.last ?_, hpages.fade⟩
    exact (Stage.sameCast_transfer hstage).trans hpages.stage

theorem Stir.of_sameCast (first : SameCast w w') (more : Stir w' w'') : Stir w w'' := by
  cases more with
  | aside same => exact .aside (first.trans same)
  | sets r id kind route live fresh last stage =>
    have hlast : w'.lastInterpreterId + 1 = w.lastInterpreterId + 1 := congrArg (· + 1) first.last
    exact .sets r (id.trans hlast) kind route live fresh (last.trans hlast)
      ((first.stage.setRoute r).trans stage)
  | enters roomId last stage =>
    exact .enters roomId (last.trans first.last) ((first.stage.movedTo roomId).trans stage)

theorem Stir.then_sameCast (first : Stir w w') (more : SameCast w' w'') : Stir w w'' := by
  cases first with
  | aside same => exact .aside (same.trans more)
  | sets r id kind route live fresh last stage =>
    exact .sets r id kind route live fresh (more.last.trans last) (stage.trans more.stage)
  | enters roomId last stage => exact .enters roomId (more.last.trans last) (stage.trans more.stage)

end World

/-! ## Commands -/

/-- What a command stirs that does not uncover the screen. -/
structure Effect.Stirs (i : Interpreter) (s : Session) (e : Effect) : Prop where
  origin : e.interpreter.origin = i.origin
  terminated : e.interpreter.terminated = i.terminated
  world : s.world.Stir e.session.world
  route : i.kind = .route → s.world.SameCast e.session.world
  cover : e.interpreter.pending ≠ some .transfer ∧
      e.session.world.screen.fade = s.world.screen.fade ∨
    e.interpreter.pending = some .transfer ∧ e.session.world.screen.fade.target = .one ∧
      e.outcome = .waitHere .fade

namespace Interpreter

variable {project : Project} {i : Interpreter} {s : Session}

/-- A command that leaves the cast and the screen alone. -/
theorem stirs_aside {walk : Option Walk} {pending : Option Pending} {s' : Session}
    {outcome : Outcome} (uncovered : pending ≠ some .transfer) (calm : s.world.Calm s'.world) :
    Effect.Stirs i s ⟨{ i with walk := walk, pending := pending }, s', outcome⟩ :=
  ⟨rfl, rfl, .aside calm.toSameCast, fun _ => calm.toSameCast, .inl ⟨uncovered, calm.fade⟩⟩

theorem stirs_withAnswer {issue : Unit → Effect} (hissue : Effect.Stirs i s (issue ())) :
    Effect.Stirs i s (i.withAnswer s issue) := by
  unfold withAnswer takeAnswer?
  split
  · next heq =>
    split at heq
    · obtain rfl := Option.some.inj heq
      exact stirs_aside (by simp) (.refl _)
    · cases heq
  · exact hissue

theorem stirs_awaitAnswer {s' : Session} (id : Nat) (calm : s.world.Calm s'.world) :
    Effect.Stirs i s (i.awaitAnswer s' id) := stirs_aside (by simp) calm

theorem stirs_request (request : Request) : Effect.Stirs i s (i.request s request) :=
  stirs_withAnswer (stirs_awaitAnswer _ (.refl _))

theorem stirs_save : Effect.Stirs i s (i.save s) :=
  stirs_withAnswer (stirs_awaitAnswer _ (.of_eq rfl rfl rfl))

section

variable (h : i.pending ≠ some .transfer)

include h

theorem stirs_go {outcome : Outcome} : Effect.Stirs i s (i.go s outcome) :=
  stirs_aside h (.refl _)

theorem stirs_change {change : World → World} (calm : s.world.Calm (change s.world)) :
    Effect.Stirs i s (i.change s change) := stirs_aside h calm

theorem stirs_changeThenWait (waits : Bool) {wait : Wait} {change : World → World}
    (calm : s.world.Calm (change s.world)) :
    Effect.Stirs i s (i.changeThenWait s waits wait change) := stirs_aside h calm

theorem stirs_withTarget {run : Character → Effect} (hrun : ∀ c, Effect.Stirs i s (run c)) :
    Effect.Stirs i s (i.withTarget s run) := by
  unfold withTarget
  split
  · exact hrun _
  · exact stirs_go h

theorem stirs_changeTarget (change : Character → Character) :
    Effect.Stirs i s (i.changeTarget s change) :=
  stirs_withTarget h fun _ => stirs_change h (World.calm_character _ _ _)

theorem stirs_changeProperty (change : CharacterChange) :
    Effect.Stirs i s (i.changeProperty s change) := by
  refine stirs_withTarget h fun _ => stirs_change h ?_
  refine World.Calm.trans ?_ (World.calm_character _ _ _)
  split
  · split <;> exact .of_eq rfl rfl rfl
  · exact .refl _

theorem stirs_moveTarget (order : MoveOrder) : Effect.Stirs i s (i.moveTarget s project order) := by
  refine stirs_withTarget h fun _ => ?_
  dsimp only
  split
  · exact stirs_aside h (.refl _)
  · exact stirs_go h

theorem stirs_enterBranch (conditions : List Condition) (branches : List Script) :
    Effect.Stirs i s (i.enterBranch s project conditions branches) := by
  unfold enterBranch
  dsimp only
  split
  · exact stirs_go h
  · split <;> exact stirs_go h

theorem stirs_goToLabel (name : String) : Effect.Stirs i s (i.goToLabel s name) := by
  unfold goToLabel
  split <;> exact stirs_go h

theorem stirs_call (eventId : Int32) (script? : Option Script) :
    Effect.Stirs i s (i.call s eventId script?) := by
  cases script? <;> exact stirs_go h

theorem stirs_callEventHere : Effect.Stirs i s (i.callEventHere s project) := by
  unfold callEventHere
  dsimp only
  split
  · exact stirs_go h
  · exact stirs_call h _ _

theorem stirs_setVariable (a : Assignment) : Effect.Stirs i s (i.setVariable s project a) := by
  have hassign : s.world.Calm (s.world.assign s.platform project a i.actingEvent).2 :=
    .of_eq rfl rfl rfl
  refine stirs_change h ?_
  split
  · next heq =>
    rw [heq] at hassign
    exact hassign
  · next heq =>
    rw [heq] at hassign
    exact hassign.trans (.of_eq rfl rfl rfl)

theorem stirs_addItem (id : Int32) :
    Effect.Stirs i s (i.change s fun w => addItem w project id) := by
  refine stirs_change h ?_
  unfold addItem
  split
  · exact .refl _
  · split <;> exact .of_eq rfl rfl rfl

theorem stirs_removeItem (id : Int32) : Effect.Stirs i s (i.change s fun w => removeItem w id) := by
  refine stirs_change h ?_
  unfold removeItem
  split <;> exact .of_eq rfl rfl rfl

theorem stirs_showBalloon (order : BalloonOrder) :
    Effect.Stirs i s (i.showBalloon s project order) := by
  unfold showBalloon
  dsimp only
  split
  · exact stirs_go h
  · exact stirs_aside h (.of_eq rfl rfl rfl)

theorem stirs_showChoices (order : ChoicesOrder) (branches : List Script) :
    Effect.Stirs i s (i.showChoices s project order branches) := by
  unfold showChoices
  split
  · unfold enterChoice
    split
    · exact stirs_go h
    · dsimp only
      split <;> exact stirs_aside (by simp) (.of_eq rfl rfl rfl)
  · unfold openChoices
    split
    · exact stirs_go h
    · exact stirs_aside (by simp) (.of_eq rfl rfl rfl)

theorem stirs_purchase (productId : Int32) : Effect.Stirs i s (i.purchase s project productId) := by
  refine stirs_withAnswer ?_
  split
  · exact stirs_go h
  · exact stirs_awaitAnswer _ (.refl _)

theorem stirs_savePermanentVariable (permanentId : UInt64) (variableId : Int32) :
    Effect.Stirs i s (i.savePermanentVariable s permanentId variableId) := by
  refine stirs_withAnswer ?_
  dsimp only
  split
  · exact stirs_awaitAnswer _ (.refl _)
  · exact stirs_go h
  · exact stirs_aside h (.refl _)

theorem stirs_setRoute (order : RouteOrder) (body : Script) (kind : i.kind ≠ .route) :
    Effect.Stirs i s (i.setRoute s order body) := by
  unfold setRoute
  dsimp only
  split
  · exact stirs_go h
  · refine ⟨rfl, rfl, ?_, fun hroute => absurd hroute kind, .inl ⟨h, rfl⟩⟩
    exact .sets (.startRoute _ _ _ ⟨_, order.repeats, order.skip⟩ body) rfl rfl rfl rfl
      (isFresh_startRoute _ _ _ _ _) rfl (.refl _)

/-- A transfer with a color covers the screen first. -/
theorem stirs_transfer (order : TransferOrder) (kind : i.kind ≠ .route) :
    Effect.Stirs i s (i.transfer s project order) := by
  have huncovered : (i.pending == some .transfer) = false := by simpa using h
  unfold transfer
  simp only [huncovered]
  split
  · refine ⟨rfl, rfl, .aside (.of_stage_eq rfl rfl), fun _ => .of_stage_eq rfl rfl, .inr ?_⟩
    exact ⟨rfl, s.world.screen.fade.target_setTo .one transitionFrames, rfl⟩
  · split
    · exact stirs_go h
    · next w hw =>
      obtain ⟨hstir, hfade⟩ : s.world.Stir w ∧ w.screen.fade = s.world.screen.fade :=
        World.stir_transfer hw
      exact ⟨rfl, rfl, hstir, fun hroute => absurd hroute kind, .inl ⟨h, hfade⟩⟩

theorem stirs_act (branches : List Script) {action : Action}
    (fits : action.fitsRoute = false → i.kind ≠ .route) :
    Effect.Stirs i s (i.act s project branches action) := by
  cases action with
  | setVariable a => exact stirs_setVariable h a
  | transfer order => exact stirs_transfer h order (fits rfl)
  | showChoices order => exact stirs_showChoices h order branches
  | showBalloon order => exact stirs_showBalloon h order
  | branch conditions => exact stirs_enterBranch h conditions branches
  | jump name => exact stirs_goToLabel h name
  | callEvent eventId page => exact stirs_call h _ _
  | callCommonEvent id => exact stirs_call h _ _
  | showHint => exact stirs_call h _ _
  | runEventHere => exact stirs_callEventHere h
  | addItem id => exact stirs_addItem h id
  | removeItem id => exact stirs_removeItem h id
  | moveCharacter order => exact stirs_moveTarget h order
  | turnCharacter dir => exact stirs_changeTarget h _
  | rotateCharacter angle => exact stirs_changeTarget h _
  | setCharacterImage image => exact stirs_changeTarget h _
  | setCharacterOpacity change =>
    exact stirs_withTarget h fun _ => stirs_changeThenWait h _ (World.calm_character _ _ _)
  | changeCharacter change => exact stirs_changeProperty h change
  | eraseEvent => exact stirs_change h (World.calm_character _ _ _)
  | finishPlayerMove => exact stirs_change h ⟨⟨⟨rfl, rfl, rfl, rfl⟩, rfl⟩, rfl⟩
  | save => exact stirs_save
  | syncPurchases => exact stirs_request _
  | unlockAchievement id => exact stirs_request _
  | showAds kind force => cases kind <;> exact stirs_request _
  | openLink kind data => exact stirs_request _
  | purchase productId => exact stirs_purchase h productId
  | savePermanentVariable permanentId variableId =>
    exact stirs_savePermanentVariable h permanentId variableId
  | _ => exact stirs_aside h (.of_eq rfl rfl rfl)

/-- A command that does not uncover the screen. -/
theorem stirs_execute (command : Command) : Effect.Stirs i s (i.execute s project command) := by
  unfold execute
  split
  · exact stirs_go h
  · next hfits =>
    have hkind : command.fitsRoute = false → i.kind ≠ .route := fun hunfit hroute =>
      hfits (by simp [hunfit, hroute])
    split
    · exact stirs_act h _ hkind
    · exact stirs_setRoute h _ _ (hkind rfl)

end

/-! ## Steps -/

/-- What a step does to the cover of the screen. -/
inductive Covering (project : Project) (i : Interpreter) (s : Session) (i' : Interpreter)
    (s' : Session) : Prop where
  | keeps (same : i'.uncovers = i.uncovers) (fade : s'.world.screen.fade = s.world.screen.fade)
  | covers (uncovers : i'.uncovers = true) (target : s'.world.screen.fade.target = .one)
  | uncovers (uncovers : i.uncovers = true) (target : s'.world.screen.fade.target = .zero)
  /-- The room to enter behind the cover is missing, and the script ends with this report. -/
  | stumbles (uncovers : i.uncovers = true) (order : TransferOrder) (branches : List Script)
      (e : MissingRoom) (current : i.current? = some (.act (.transfer order) branches))
      (missing : enterRoom s project order = .error e) (ended : i'.terminated = true)
      (report : s'.world = s.world.recordError ⟨i.location, .missingRoom e⟩)

/-- All that a step stirs. -/
structure StirsTo (project : Project) (i : Interpreter) (s : Session) (r : Interpreter × Session) :
    Prop where
  origin : r.1.origin = i.origin
  world : s.world.Stir r.2.world
  route : i.kind = .route → s.world.SameCast r.2.world
  covering : i.Covering project s r.1 r.2

variable {i' : Interpreter} {s' : Session}

theorem StirsTo.calm (origin : i'.origin = i.origin) (same : i'.uncovers = i.uncovers)
    (calm : s.world.Calm s'.world) : i.StirsTo project s (i', s') :=
  ⟨origin, .aside calm.toSameCast, fun _ => calm.toSameCast, .keeps same calm.fade⟩

/-- How a script goes on concerns neither what it is nor what is pending. -/
theorem follow_keeps (e : Effect) :
    (follow e).2.1.origin = e.interpreter.origin ∧ (follow e).2.1.pending = e.interpreter.pending ∧
      e.session.world.Calm (follow e).2.2.world := by
  obtain ⟨i, s, outcome⟩ := e
  obtain ⟨frames, hadvance⟩ := i.modifyFrame_eq Frame.advance
  cases outcome with
  | jump index =>
    obtain ⟨frames, hjump⟩ := i.modifyFrame_eq fun f => { f with index := index }
    simp only [follow, jump, hjump, true_and]
    exact ⟨rfl, .refl _⟩
  | leave =>
    obtain ⟨frames, terminated, hleave⟩ := i.leave_eq
    simp only [follow, hleave, true_and]
    exact ⟨rfl, .refl _⟩
  | fail fault => exact ⟨rfl, rfl, .of_eq rfl rfl rfl⟩
  | retry | waitHere wait => exact ⟨rfl, rfl, .refl _⟩
  | next | wait wait | enter frame =>
    simp only [follow, advance, hadvance, push, true_and]
    exact ⟨rfl, .refl _⟩

/-- A script goes on after a command that did not uncover the screen. -/
theorem stirsTo_follow {e : Effect} (h : e.Stirs i s) (live : i.terminated = false)
    (pending : i.pending ≠ some .transfer) : i.StirsTo project s (follow e).2 := by
  obtain ⟨horigin, hpending, hcalm⟩ := follow_keeps e
  refine ⟨horigin.trans h.origin, h.world.then_sameCast hcalm.toSameCast,
    fun hroute => (h.route hroute).trans hcalm.toSameCast, ?_⟩
  rcases h.cover with ⟨huncovered, hfade⟩ | ⟨hcovered, htarget, houtcome⟩
  · refine .keeps ?_ (hcalm.fade.trans hfade)
    rw [uncovers_of_pending pending, uncovers_of_pending (hpending ▸ huncovered)]
  · refine .covers (uncovers_iff.2 ⟨?_, hpending.trans hcovered⟩) ?_
    · rw [follow, houtcome]
      exact h.terminated.trans live
    · rw [hcalm.fade]
      exact htarget

/-- A script that has to uncover the screen enters the room and does so, or finds the room
missing. -/
theorem stirsTo_of_covered (h : i.Coherent) (live : i.terminated = false)
    (elapsed : i.isWaitOver s = true) (pending : i.pending = some .transfer) :
    i.StirsTo project s (i.step s project).2 := by
  have hsome : i.pending ≠ none := by simp [pending]
  have hkind : i.kind ≠ .route := h.kind hsome
  have huncovers : i.uncovers = true := uncovers_iff.2 ⟨live, pending⟩
  obtain ⟨order, branches, hcurrent⟩ := h.covered pending
  have hexecute : ({ i with wait := .none } : Interpreter).execute s project
      (.act (.transfer order) branches) =
        ({ i with wait := .none } : Interpreter).transfer s project order := by
    rw [execute, if_neg (by simp [hkind])]
    rfl
  rw [step_of_running (running?_of_idle project live elapsed (h.walk hsome) hcurrent), hexecute]
  unfold transfer
  simp only [pending, beq_self_eq_true, ↓reduceIte]
  split
  · next heq => cases heq
  · split
    · next e he =>
      refine ⟨rfl, .aside (.of_stage_eq rfl rfl), fun _ => .of_stage_eq rfl rfl, ?_⟩
      exact .stumbles huncovers order branches e hcurrent he rfl rfl
    · next w hw =>
      obtain ⟨hstir, _⟩ : s.world.Stir w ∧ w.screen.fade = s.world.screen.fade :=
        World.stir_transfer hw
      obtain ⟨frames, hadvance⟩ := ({ i with wait := .none, pending := none } :
        Interpreter).modifyFrame_eq Frame.advance
      simp only [follow, change, Session.modifyWorld, advance, hadvance]
      refine ⟨rfl, hstir.then_sameCast (.of_stage_eq rfl rfl),
        fun hroute => absurd hroute hkind, ?_⟩
      exact .uncovers huncovers (w.screen.fade.target_setTo .zero transitionFrames)

theorem calm_updateWalk (i : Interpreter) (s : Session) (project : Project) :
    ∃ walk w, s.world.Calm w ∧
      (i.updateWalk s project).2 = ({ i with walk := walk }, { s with world := w }) := by
  unfold updateWalk
  split
  · exact ⟨i.walk, s.world, .refl _, rfl⟩
  · next walk _ =>
    have hwalk := Stage.sameCast_walk s.world.stage project walk s.world.random
    dsimp only
    split
    · refine ⟨none, _, ?_, rfl⟩
      exact ⟨⟨hwalk, rfl⟩, rfl⟩
    · refine ⟨some _, _, ?_, rfl⟩
      exact ⟨⟨hwalk, rfl⟩, rfl⟩

/-- The command of a script that does not have to uncover the screen. -/
theorem stirsTo_runCommand (live : i.terminated = false) (pending : i.pending ≠ some .transfer) :
    i.StirsTo project s (i.runCommand s project).2 := by
  have hcovers : i.uncovers = false := uncovers_of_pending pending
  unfold runCommand
  split
  · exact .calm rfl (hcovers ▸ by simp [Interpreter.uncovers]) (.refl _)
  · split
    · next command _ => exact stirsTo_follow (stirs_execute pending command) live pending
    · obtain ⟨frames, terminated, hfinish⟩ := i.finishFrame_eq
      have hplain : ({ i with frames := frames, terminated := terminated } : Interpreter).uncovers =
          false := uncovers_of_pending pending
      dsimp only
      rw [hfinish]
      exact .calm rfl (hplain.trans hcovers.symm) (.refl _)

/-- The step of a script that does not have to uncover the screen. -/
theorem stirsTo_of_uncovered (live : i.terminated = false) (elapsed : i.isWaitOver s = true)
    (pending : i.pending ≠ some .transfer) : i.StirsTo project s (i.step s project).2 := by
  have hcovers : i.uncovers = false := uncovers_of_pending pending
  obtain ⟨walk, w, hcalm, hwalk⟩ := calm_updateWalk { i with wait := .none } s project
  rw [step, if_neg (by simp [live]), if_neg (by simp [elapsed])]
  split
  · next i' s' heq =>
    obtain ⟨rfl, rfl⟩ := Prod.mk.inj ((congrArg (·.2) heq).symm.trans hwalk)
    exact .calm rfl rfl hcalm
  · next j t heq =>
    obtain ⟨hj, ht⟩ := Prod.mk.inj ((congrArg (·.2) heq).symm.trans hwalk)
    have hrun : j.StirsTo project t (j.runCommand t project).2 := by
      refine stirsTo_runCommand ?_ ?_ <;> rw [hj]
      · exact live
      · exact pending
    have horigin : j.origin = i.origin := by rw [hj]; rfl
    have hplain : j.uncovers = false := by rw [hj]; exact hcovers
    replace hcalm : s.world.Calm t.world := by rw [ht]; exact hcalm
    refine ⟨hrun.origin.trans horigin, hrun.world.of_sameCast hcalm.toSameCast,
      fun hroute => ?_, ?_⟩
    · exact hcalm.toSameCast.trans (hrun.route ((kind_eq_of_origin horigin).trans hroute))
    · cases hrun.covering with
      | keeps same fade =>
        exact .keeps ((same.trans hplain).trans hcovers.symm) (fade.trans hcalm.fade)
      | covers uncovers target => exact .covers uncovers target
      | uncovers uncovers => exact absurd (hplain.symm.trans uncovers) Bool.false_ne_true
      | stumbles uncovers => exact absurd (hplain.symm.trans uncovers) Bool.false_ne_true

/-- All that a step of a script stirs. -/
theorem stirsTo_step (h : i.terminated = false → i.Coherent) :
    i.StirsTo project s (i.step s project).2 := by
  by_cases hlive : i.terminated = true
  · have hstep : i.step s project = (false, i, s) := by rw [step, if_pos hlive]
    rw [hstep]
    exact .calm rfl rfl (.refl _)
  replace hlive := Bool.eq_false_iff.2 hlive
  cases hover : i.isWaitOver s with
  | false =>
    rw [step_of_waiting project hlive hover]
    exact .calm i.origin_keepWaiting i.uncovers_keepWaiting (.refl _)
  | true =>
    by_cases hpending : i.pending = some .transfer
    · exact stirsTo_of_covered (h hlive) hlive hover hpending
    · exact stirsTo_of_uncovered hlive hover hpending

end Interpreter

end Adventure
