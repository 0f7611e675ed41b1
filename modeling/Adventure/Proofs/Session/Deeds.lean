import Adventure.Proofs.Session.Quiet

/-!
# What commands do to what scripts share

A command that nothing is pending for either leaves dialogue and requests alone, or it does one of
five things, after each of which its script waits: it says something, opens choices, sends a
request, queues a save, or covers the screen for a transfer.  A command that something is pending
for does its second half.
-/

namespace Adventure

/-! ## Deeds -/

/-- An outcome with no second half to come, and no wait for choices or for an answer. -/
def Outcome.IsPlain : Outcome → Prop
  | .waitHere _ | .wait .choices | .wait (.request _) => False
  | _ => True

/-- Whether a command makes a request and takes the answer. -/
def Command.asks : Command → Bool
  | .act .save _ | .act .syncPurchases _ | .act (.unlockAchievement _) _ | .act (.purchase _) _
  | .act (.showAds _ _) _ | .act (.openLink _ _) _ | .act (.savePermanentVariable _ _) _ => true
  | _ => false

theorem Command.fitsRoute_of_asks {c : Command} (h : c.asks = true) : c.fitsRoute = false := by
  unfold asks at h
  split at h <;> first | rfl | cases h

/-- What a command does that nothing is pending for. -/
inductive Interpreter.Does (project : Project) (i : Interpreter) (s : Session) (command : Command) :
    Effect → Prop where
  | aside (walk : Option Walk) {s' : Session} {outcome : Outcome} (world : s.world.Quiet s'.world)
      (platform : s.platform.Silent s'.platform) (plain : outcome.IsPlain) :
      Does project i s command ⟨{ i with walk := walk }, s', outcome⟩
  | speaks (window : Window) :
      Does project i s command
        ⟨i, s.modifyWorld fun w => { w with windows := { w.windows with next := some window } },
          .wait .window⟩
  | opens {order : ChoicesOrder} {branches : List Script} {choice : String × Bool}
      {choices : List (String × Bool)} (isCommand : command = .act (.showChoices order) branches)
      (shown : s.world.shownChoices s.platform project i.actingEvent order = choice :: choices) :
      Does project i s command
        ⟨{ i with pending := some .choices },
          s.modifyWorld fun w =>
            { w with windows := w.windows.showChoices (choice :: choices) i.id },
          .waitHere .choices⟩
  | asks (request : Request) {p : Platform} (isCommand : command.asks = true)
      (kind : request.kind ≠ .saveProgress) (silent : s.platform.Silent p) :
      Does project i s command (i.awaitAnswer { s with platform := (p.ask request).2 }
        (p.ask request).1)
  | queues (isCommand : command.asks = true) :
      Does project i s command
        (i.awaitAnswer
          ⟨s.world.scheduleSave s.platform.nextRequestId.1, s.platform.nextRequestId.2⟩
          s.platform.nextRequestId.1)
  | covers {order : TransferOrder} {branches : List Script} {w : World}
      (isCommand : command = .act (.transfer order) branches) (world : s.world.Quiet w) :
      Does project i s command
        ⟨{ i with pending := some .transfer }, { s with world := w }, .waitHere .fade⟩

namespace Interpreter

variable {project : Project} {i : Interpreter} {s : Session} {command : Command}

/-! ## Commands that leave dialogue and requests alone -/

theorem does_go {outcome : Outcome} (h : outcome.IsPlain) :
    i.Does project s command (i.go s outcome) := .aside i.walk (.refl _) (.refl _) h

theorem does_change {change : World → World} (h : s.world.Quiet (change s.world)) :
    i.Does project s command (i.change s change) := .aside i.walk h (.refl _) trivial

theorem does_changeThenWait (waits : Bool) {wait : Wait} {change : World → World}
    (hwait : (Outcome.wait wait).IsPlain) (h : s.world.Quiet (change s.world)) :
    i.Does project s command (i.changeThenWait s waits wait change) := by
  refine .aside i.walk h (.refl _) ?_
  cases waits with
  | false => trivial
  | true => exact hwait

theorem does_withTarget {run : Character → Effect} (h : ∀ c, i.Does project s command (run c)) :
    i.Does project s command (i.withTarget s run) := by
  unfold withTarget
  split
  · exact h _
  · exact does_go trivial

theorem does_changeTarget (change : Character → Character) :
    i.Does project s command (i.changeTarget s change) :=
  does_withTarget fun _ => does_change (.modifyCharacter (.refl _) _ _)

theorem does_changeProperty (change : CharacterChange) :
    i.Does project s command (i.changeProperty s change) := by
  refine does_withTarget fun _ => does_change ?_
  refine World.Quiet.modifyCharacter ?_ _ _
  split
  · split <;> exact .of_eq rfl rfl rfl rfl rfl rfl
  · exact .refl _

theorem does_moveTarget (order : MoveOrder) :
    i.Does project s command (i.moveTarget s project order) := by
  refine does_withTarget fun _ => ?_
  dsimp only
  split
  · exact .aside _ (.refl _) (.refl _) trivial
  · exact does_go trivial

theorem does_enterBranch (conditions : List Condition) (branches : List Script) :
    i.Does project s command (i.enterBranch s project conditions branches) := by
  unfold enterBranch
  dsimp only
  split
  · exact does_go trivial
  · split <;> exact does_go trivial

theorem does_goToLabel (name : String) : i.Does project s command (i.goToLabel s name) := by
  unfold goToLabel
  split <;> exact does_go trivial

theorem does_call (eventId : Int32) (script? : Option Script) :
    i.Does project s command (i.call s eventId script?) := by
  cases script? <;> exact does_go trivial

theorem does_callEventHere : i.Does project s command (i.callEventHere s project) := by
  unfold callEventHere
  dsimp only
  split
  · exact does_go trivial
  · exact does_call _ _

theorem does_setVariable (a : Assignment) :
    i.Does project s command (i.setVariable s project a) := by
  have hassign : s.world.Quiet (s.world.assign s.platform project a i.actingEvent).2 :=
    .of_eq rfl rfl rfl rfl rfl rfl
  refine does_change ?_
  split
  · next h =>
    rw [h] at hassign
    exact hassign
  · next h =>
    rw [h] at hassign
    exact hassign.trans (.of_eq rfl rfl rfl rfl rfl rfl)

theorem does_addItem (id : Int32) :
    i.Does project s command (i.change s fun w => addItem w project id) := by
  refine does_change ?_
  unfold addItem
  split
  · exact .refl _
  · split
    · exact .refl _
    · refine World.Quiet.note ?_ _
      exact .of_eq rfl rfl rfl rfl rfl rfl

theorem does_removeItem (id : Int32) :
    i.Does project s command (i.change s fun w => removeItem w id) := by
  refine does_change ?_
  unfold removeItem
  split
  · exact .refl _
  · refine World.Quiet.note ?_ _
    exact .of_eq rfl rfl rfl rfl rfl rfl

/-- The route that a character followed is dropped, and the new one is a script that begins. -/
theorem does_setRoute (order : RouteOrder) (body : Script) :
    i.Does project s command (i.setRoute s order body) := by
  unfold setRoute
  dsimp only
  split
  · exact does_go trivial
  · refine does_changeThenWait _ trivial ⟨rfl, rfl, rfl, ?_⟩
    exact ⟨_, .single rfl (isFresh_startRoute _ _ _ _ _), Stage.scripts_setRoute _ _⟩

/-! ## Commands with a second half -/

theorem does_showBalloon (order : BalloonOrder) :
    i.Does project s command (i.showBalloon s project order) := by
  unfold showBalloon
  dsimp only
  split
  · exact does_go trivial
  · exact .speaks _

theorem does_showChoices (h : i.pending = none) (order : ChoicesOrder) (branches : List Script) :
    i.Does project s (.act (.showChoices order) branches)
      (i.showChoices s project order branches) := by
  rw [showChoices, if_neg (by simp [h]), openChoices]
  split
  · exact does_go trivial
  · next hshown => exact .opens rfl hshown

theorem withAnswer_of_pending (h : i.pending = none) (issue : Unit → Effect) :
    i.withAnswer s issue = issue () := by
  rw [withAnswer, takeAnswer?, h]

theorem does_request (h : i.pending = none) {request : Request} (isCommand : command.asks = true)
    (kind : request.kind ≠ .saveProgress) :
    i.Does project s command (i.request s request) := by
  rw [Interpreter.request, withAnswer_of_pending h]
  exact .asks request isCommand kind (.refl _)

theorem does_purchase (h : i.pending = none) (productId : Int32) (branches : List Script) :
    i.Does project s (.act (.purchase productId) branches) (i.purchase s project productId) := by
  rw [purchase, withAnswer_of_pending h]
  split
  · exact does_go trivial
  · exact .asks _ rfl (by simp [Request.kind]) (.refl _)

theorem does_savePermanentVariable (h : i.pending = none) (permanentId : UInt64)
    (variableId : Int32) (branches : List Script) :
    i.Does project s (.act (.savePermanentVariable permanentId variableId) branches)
      (i.savePermanentVariable s permanentId variableId) := by
  rw [savePermanentVariable, withAnswer_of_pending h]
  dsimp only
  split
  · next id platform hsaved =>
    unfold Platform.savePermanent at hsaved
    dsimp only at hsaved
    split at hsaved
    · split at hsaved
      · obtain ⟨rfl, rfl⟩ := Prod.mk.inj (Except.ok.inj hsaved)
        exact .asks _ rfl (by simp [Request.kind]) ⟨rfl, rfl, rfl, rfl⟩
      · cases hsaved
    · cases hsaved
  · exact does_go trivial
  · exact .aside i.walk (.refl _) ⟨rfl, rfl, rfl, rfl⟩ trivial

theorem does_save (h : i.pending = none) (isCommand : command.asks = true) :
    i.Does project s command (i.save s) := by
  rw [save, withAnswer_of_pending h]
  exact .queues isCommand

theorem does_transfer (h : i.pending = none) (order : TransferOrder) (branches : List Script) :
    i.Does project s (.act (.transfer order) branches) (i.transfer s project order) := by
  unfold transfer
  simp only [h]
  split
  · exact .covers rfl (.of_eq rfl rfl rfl rfl rfl rfl)
  · split
    · exact does_go trivial
    · next w hw => exact .aside i.walk (World.quiet_transfer hw) (.refl _) trivial

/-! ## All commands -/

theorem does_act (h : i.pending = none) (branches : List Script) (action : Action) :
    i.Does project s (.act action branches) (i.act s project branches action) := by
  cases action with
  | setVariable a => exact does_setVariable a
  | transfer order => exact does_transfer h order branches
  | showChoices order => exact does_showChoices h order branches
  | showMessage order => exact .speaks _
  | showBalloon order => exact does_showBalloon order
  | branch conditions => exact does_enterBranch conditions branches
  | jump name => exact does_goToLabel name
  | callEvent eventId page => exact does_call _ _
  | callCommonEvent id => exact does_call _ _
  | showHint => exact does_call _ _
  | runEventHere => exact does_callEventHere
  | addItem id => exact does_addItem id
  | removeItem id => exact does_removeItem id
  | moveCharacter order => exact does_moveTarget order
  | turnCharacter dir => exact does_changeTarget _
  | rotateCharacter angle => exact does_changeTarget _
  | setCharacterImage image => exact does_changeTarget _
  | setCharacterOpacity change =>
    exact does_withTarget fun _ =>
      does_changeThenWait _ trivial (.modifyCharacter (.refl _) _ _)
  | changeCharacter change => exact does_changeProperty change
  | eraseEvent => exact does_change (.modifyCharacter (.refl _) _ _)
  | gameClear =>
    refine does_change (World.Quiet.note ?_ _)
    exact .of_eq rfl rfl rfl rfl rfl rfl
  | save => exact does_save h rfl
  | syncPurchases => exact does_request h rfl (by simp [Request.kind])
  | unlockAchievement id => exact does_request h rfl (by simp [Request.kind])
  | showAds kind force => cases kind <;> exact does_request h rfl (by simp [Request.kind])
  | openLink kind data => exact does_request h rfl (by simp [Request.kind])
  | purchase productId => exact does_purchase h productId branches
  | savePermanentVariable permanentId variableId =>
    exact does_savePermanentVariable h permanentId variableId branches
  | sendAnalytics event value =>
    refine .aside i.walk (.refl _) ⟨?_, rfl, rfl, rfl⟩ trivial
    simp [Platform.requests, Session.modifyPlatform, Platform.tell]
  | playSound o => exact .aside i.walk (.refl _) ⟨rfl, rfl, rfl, rfl⟩ trivial
  | playMusic o =>
    exact .aside i.walk (.of_eq rfl rfl rfl rfl rfl rfl) ⟨rfl, rfl, rfl, rfl⟩ trivial
  | stopMusic fadeTime =>
    exact .aside i.walk (.of_eq rfl rfl rfl rfl rfl rfl) ⟨rfl, rfl, rfl, rfl⟩ trivial
  | tintScreen o => exact does_changeThenWait _ trivial (.of_eq rfl rfl rfl rfl rfl rfl)
  | shakeScreen o => exact does_changeThenWait _ trivial (.of_eq rfl rfl rfl rfl rfl rfl)
  | movePicture o => exact does_changeThenWait _ trivial (.of_eq rfl rfl rfl rfl rfl rfl)
  | scalePicture o => exact does_changeThenWait _ trivial (.of_eq rfl rfl rfl rfl rfl rfl)
  | rotatePicture o => exact does_changeThenWait _ trivial (.of_eq rfl rfl rfl rfl rfl rfl)
  | fadePicture o => exact does_changeThenWait _ trivial (.of_eq rfl rfl rfl rfl rfl rfl)
  | tintPicture o => exact does_changeThenWait _ trivial (.of_eq rfl rfl rfl rfl rfl rfl)
  | _ => first
    | exact does_go trivial
    | exact does_change (.of_eq rfl rfl rfl rfl rfl rfl)

/-- A command that nothing is pending for. -/
theorem does_execute (h : i.pending = none) (command : Command) :
    i.Does project s command (i.execute s project command) := by
  unfold execute
  split
  · exact does_go trivial
  · split
    · exact does_act h _ _
    · exact does_setRoute _ _

/-- A command that will run again does not stand in a route. -/
theorem kind_ne_route_of_waitHere {wait : Wait}
    (h : (i.execute s project command).outcome = .waitHere wait)
    (hfits : command.fitsRoute = false) : i.kind ≠ .route := by
  intro hkind
  unfold execute at h
  rw [if_pos (by simp [hkind, hfits])] at h
  cases h

/-! ## Second halves -/

/-- A command that asked takes its answer, and goes on. -/
theorem execute_of_asked {id : Nat} (h : i.pending = some (.request id)) (hkind : i.kind ≠ .route)
    (hasks : command.asks = true) :
    i.execute s project command =
      ⟨{ i with pending := none }, s.modifyPlatform fun p => (p.takeAnswer id).2, .next⟩ := by
  have hanswer : ∀ issue : Unit → Effect, i.withAnswer s issue =
      ⟨{ i with pending := none }, s.modifyPlatform fun p => (p.takeAnswer id).2, .next⟩ := by
    intro issue
    rw [withAnswer, takeAnswer?, h]
  have hrequest : ∀ request, i.request s request =
      ⟨{ i with pending := none }, s.modifyPlatform fun p => (p.takeAnswer id).2, .next⟩ :=
    fun _ => hanswer _
  cases command with
  | route order body branches => cases hasks
  | act action branches =>
    rw [execute, if_neg (by simp [hkind])]
    cases action with
    | save => exact (hanswer _ : i.save s = _)
    | syncPurchases => exact hrequest _
    | unlockAchievement id => exact hrequest _
    | showAds kind force => cases kind <;> exact hrequest _
    | openLink kind data => exact hrequest _
    | purchase productId => exact (hanswer _ : i.purchase s project productId = _)
    | savePermanentVariable permanentId variableId =>
      exact (hanswer _ : i.savePermanentVariable s permanentId variableId = _)
    | _ => cases hasks

/-- Choices that were opened are entered. -/
theorem execute_of_choosing (h : i.pending = some .choices) (hkind : i.kind ≠ .route)
    (order : ChoicesOrder) (branches : List Script) :
    i.execute s project (.act (.showChoices order) branches) =
      i.enterChoice s project order branches := by
  rw [execute, if_neg (by simp [hkind])]
  exact if_pos h

/-- A transfer whose screen is covered leaves dialogue and requests alone. -/
theorem execute_of_covered (s : Session) (project : Project) (h : i.pending = some .transfer)
    (hkind : i.kind ≠ .route) (order : TransferOrder) (branches : List Script) :
    (∃ w outcome, s.world.Quiet w ∧ outcome.IsPlain ∧
      i.execute s project (.act (.transfer order) branches) =
        ⟨{ i with pending := none }, { s with world := w }, outcome⟩) ∨
    ∃ fault, i.execute s project (.act (.transfer order) branches) = i.go s (.fail fault) := by
  have hact : i.execute s project (.act (.transfer order) branches) =
      i.transfer s project order := by
    rw [execute, if_neg (by simp [hkind])]
    rfl
  rw [hact]
  unfold transfer
  simp only [h, beq_self_eq_true, ↓reduceIte]
  split
  · next heq => cases heq
  · split
    · exact .inr ⟨_, rfl⟩
    · next w hw =>
      refine .inl ⟨_, .wait .fade, ?_, trivial, rfl⟩
      exact (World.quiet_transfer hw).trans (.of_eq rfl rfl rfl rfl rfl rfl)

end Interpreter

end Adventure
