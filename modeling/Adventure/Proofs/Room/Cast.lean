import Mathlib.Data.List.Forall2
import Adventure.Interpreter.Run

/-!
# What becomes of a cast

Commands, pages and the player's turns change one character at a time, and in a few ways only: it
turns, it takes on an image, an opacity, a property or a page, or it is erased.  So a relation that
all of these changes are in, one after the other, holds between what there is before a command and
what there is after it.  Walks and frames are left out, and so are transfers, which make the events
of the room anew.
-/

namespace Adventure

variable {project : Project}

/-- A relation that any number of changes of a character is in, other than an erasure. -/
structure Character.Admits (R : Character → Character → Prop) : Prop where
  refl : ∀ c, R c c
  trans : ∀ c c' c'', R c c' → R c' c'' → R c c''
  turn : ∀ (c : Character) (dir : Direction), R c (c.turn dir)
  setImage : ∀ (c : Character) (image : CharacterImage), R c (c.setImage image)
  setOpacity :
    ∀ (c : Character) (opacity : Int32) (frames : UInt32), R c (c.setOpacity opacity frames)
  change : ∀ (c : Character) (change : CharacterChange), R c (c.change change)
  updateWithPage : ∀ (c : Character) (page : Option Page), R c (c.updateWithPage page)

theorem forall₂_trans {α : Type} {R : α → α → Prop} (trans : ∀ a b c, R a b → R b c → R a c)
    {l l' l'' : List α} (first : List.Forall₂ R l l') (more : List.Forall₂ R l' l'') :
    List.Forall₂ R l l'' := by
  induction first generalizing l'' with
  | nil => exact more
  | cons h _ ih =>
    cases more with
    | cons h' hmore => exact .cons (trans _ _ _ h h') (ih hmore)

/-- What is at each place of two lists is in the relation. -/
theorem rel_getElem?_of_forall₂ {α : Type} {R : α → α → Prop} {l l' : List α}
    (h : List.Forall₂ R l l') (k : Nat) : Option.Rel R l[k]? l'[k]? := by
  induction h generalizing k with
  | nil => exact .none
  | cons first _ ih =>
    cases k with
    | zero => exact .some first
    | succ k => exact ih k

namespace Stage

/-- The player becomes what one relation says, and each event what another one says. -/
structure Becomes (P R : Character → Character → Prop) (s s' : Stage) : Prop where
  player : P s.player s'.player
  events : List.Forall₂ R s.events s'.events

/-- Relations for the player and for events that any number of changes is in.  An erasure is one of
the player or of an event with another id than the player. -/
structure Admits (P R : Character → Character → Prop) : Prop where
  player : Character.Admits P
  event : Character.Admits R
  erasePlayer : ∀ c, P c c.erase
  eraseEvent : ∀ c : Character, c.eventId ≠ playerId → R c c.erase

variable {P R : Character → Character → Prop} {s s' s'' : Stage}

namespace Admits

variable (h : Admits P R)

include h

theorem of_eq (player : s'.player = s.player) (events : s'.events = s.events) :
    s.Becomes P R s' := by
  refine ⟨player ▸ h.player.refl _, ?_⟩
  rw [events]
  exact List.forall₂_same.2 fun c _ => h.event.refl c

theorem refl (s : Stage) : s.Becomes P R s := h.of_eq rfl rfl

theorem trans (first : s.Becomes P R s') (more : s'.Becomes P R s'') : s.Becomes P R s'' :=
  ⟨h.player.trans _ _ _ first.player more.player,
    forall₂_trans h.event.trans first.events more.events⟩

/-- At most the first event with an id is changed. -/
theorem forall₂_modifyEvent {id : Int32} {change : Character → Character}
    (here : ∀ c, c.eventId = id → R c (change c)) (events : List Character) :
    List.Forall₂ R events (modifyEvent id change events) := by
  have hothers : ∀ l : List Character, List.Forall₂ R l l :=
    fun l => List.forall₂_same.2 fun c _ => h.event.refl c
  induction events with
  | nil => exact .nil
  | cons c rest ih =>
    unfold modifyEvent
    split
    · next hid => exact .cons (here c hid) (hothers rest)
    · exact .cons (h.event.refl c) ih

theorem modifyCharacter (s : Stage) (id : Int32) {change : Character → Character}
    (player : ∀ c, P c (change c)) (event : ∀ c, c.eventId = id → id ≠ playerId → R c (change c)) :
    s.Becomes P R (s.modifyCharacter id change) := by
  unfold Stage.modifyCharacter
  split
  · exact ⟨player _, List.forall₂_same.2 fun c _ => h.event.refl c⟩
  · next hid =>
    exact ⟨h.player.refl _, h.forall₂_modifyEvent (fun c hc => event c hc hid) s.events⟩

theorem erase (s : Stage) (id : Int32) : s.Becomes P R (s.modifyCharacter id Character.erase) :=
  h.modifyCharacter s id h.erasePlayer fun c hc hid => h.eraseEvent c (hc ▸ hid)

theorem turn (s : Stage) (id : Int32) (dir : Character → Direction) :
    s.Becomes P R (s.modifyCharacter id fun c => c.turn (dir c)) :=
  h.modifyCharacter s id (fun c => h.player.turn c _) fun c _ _ => h.event.turn c _

theorem showPage (s : Stage) (eventId : Int32) (index : Option Nat) :
    s.Becomes P R (s.showPage project eventId index) := by
  unfold Stage.showPage
  split
  · exact h.refl s
  · refine h.trans ?_ (h.modifyCharacter _ eventId (fun c => h.player.updateWithPage c _)
      fun c _ _ => h.event.updateWithPage c _)
    exact h.of_eq rfl rfl

end Admits

end Stage

variable {P R : Character → Character → Prop} (h : Stage.Admits P R)

include h

/-! ## Events -/

namespace World

variable (w : World)

theorem becomes_refreshPages (project : Project) :
    w.stage.Becomes P R (w.refreshPages project).stage := by
  unfold refreshPages
  refine List.foldlRecOn (motive := fun w' : World => w.stage.Becomes P R w'.stage) _ _
    (h.refl _) ?_
  exact fun w' hw' id _ => h.trans hw' (h.showPage _ id _)

theorem becomes_startEvent (eventId : Int32) :
    w.stage.Becomes P R (w.startEvent project eventId).2.stage := by
  unfold startEvent
  split
  · exact h.refl _
  · split
    · exact h.refl _
    · exact h.of_eq rfl rfl

theorem becomes_startItem (id : Int32) :
    w.stage.Becomes P R (w.startItem project id).2.stage := by
  unfold startItem
  split
  · exact h.refl _
  · split
    · exact h.refl _
    · split
      · exact h.refl _
      · exact h.of_eq rfl rfl

theorem becomes_startCombine (first second : Int32) :
    w.stage.Becomes P R (w.startCombine project first second).2.stage := by
  unfold startCombine
  split
  · exact h.refl _
  · split
    · exact h.refl _
    · exact h.of_eq rfl rfl

theorem becomes_startCommonEvent (id : Int32) :
    w.stage.Becomes P R (w.startCommonEvent project id).2.stage := by
  unfold startCommonEvent
  split
  · exact h.refl _
  · exact h.of_eq rfl rfl

theorem becomes_startHint : w.stage.Becomes P R (w.startHint project).2.stage := by
  unfold startHint
  split
  · exact h.refl _
  · exact h.of_eq rfl rfl

theorem becomes_startIfAutomatic (eventId : Int32) :
    w.stage.Becomes P R (startIfAutomatic project w eventId).stage := by
  unfold startIfAutomatic
  split
  · exact h.refl _
  · split
    · exact h.refl _
    · split
      · split
        · exact h.refl _
        · exact becomes_startEvent h w eventId
      · exact becomes_startEvent h w eventId
      all_goals exact h.refl _

theorem becomes_startAutomaticEvents :
    w.stage.Becomes P R (w.startAutomaticEvents project).stage := by
  unfold startAutomaticEvents
  refine List.foldlRecOn (motive := fun w' : World => w.stage.Becomes P R w'.stage) _ _
    (h.refl _) ?_
  exact fun w' hw' id _ => h.trans hw' (becomes_startIfAutomatic h w' id)

theorem becomes_runPlayerEvent (target : Tile) :
    w.stage.Becomes P R (w.runPlayerEvent project target).stage := by
  unfold runPlayerEvent
  split
  · exact h.refl _
  · dsimp only
    split
    · exact h.refl _
    · refine h.trans ?_ (becomes_startEvent h _ _)
      split
      · next dir _ => exact h.turn w.stage playerId fun _ => dir
      · exact h.refl _

theorem becomes_handleTap (input : Input) :
    w.stage.Becomes P R (w.handleTap project input).stage := by
  unfold handleTap
  split
  · exact h.refl _
  · split
    · exact h.refl _
    · split
      · exact becomes_startEvent h w _
      · split
        · exact becomes_runPlayerEvent h w _
        · exact h.of_eq rfl rfl

end World

/-! ## Commands -/

omit h

/-- What a command makes of the cast. -/
def Effect.Becomes (P R : Character → Character → Prop) (s : Session) (e : Effect) : Prop :=
  s.world.stage.Becomes P R e.session.world.stage

namespace Interpreter

variable {i : Interpreter} {s : Session}

include h

theorem becomes_aside {e : Effect} (player : e.session.world.stage.player = s.world.stage.player)
    (events : e.session.world.stage.events = s.world.stage.events) : e.Becomes P R s :=
  h.of_eq player events

theorem becomes_withTarget {run : Character → Effect} (hrun : ∀ c, (run c).Becomes P R s) :
    (i.withTarget s run).Becomes P R s := by
  unfold withTarget
  split
  · exact hrun _
  · exact becomes_aside h rfl rfl

theorem becomes_withAnswer {issue : Unit → Effect} (hissue : (issue ()).Becomes P R s) :
    (i.withAnswer s issue).Becomes P R s := by
  unfold withAnswer takeAnswer?
  split
  · next heq =>
    split at heq
    · obtain rfl := Option.some.inj heq
      exact becomes_aside h rfl rfl
    · cases heq
  · exact hissue

theorem becomes_changeTarget {change : Character → Character} (player : ∀ c, P c (change c))
    (event : ∀ c, R c (change c)) : (i.changeTarget s change).Becomes P R s :=
  becomes_withTarget h fun _ => h.modifyCharacter s.world.stage i.target player fun c _ _ => event c

theorem becomes_changeProperty (change : CharacterChange) :
    (i.changeProperty s change).Becomes P R s := by
  refine becomes_withTarget h fun _ => ?_
  refine h.trans ?_ (h.modifyCharacter _ i.target (fun c => h.player.change c change)
    fun c _ _ => h.event.change c change)
  split
  · split <;> exact h.of_eq rfl rfl
  · exact h.refl _

theorem becomes_moveTarget (order : MoveOrder) :
    (i.moveTarget s project order).Becomes P R s := by
  refine becomes_withTarget h fun _ => ?_
  dsimp only
  split <;> exact becomes_aside h rfl rfl

theorem becomes_enterBranch (conditions : List Condition) (branches : List Script) :
    (i.enterBranch s project conditions branches).Becomes P R s := by
  unfold enterBranch
  dsimp only
  split
  · exact becomes_aside h rfl rfl
  · split <;> exact becomes_aside h rfl rfl

theorem becomes_call (eventId : Int32) (script? : Option Script) :
    (i.call s eventId script?).Becomes P R s := by
  cases script? <;> exact becomes_aside h rfl rfl

theorem becomes_goToLabel (name : String) : (i.goToLabel s name).Becomes P R s := by
  unfold goToLabel
  split <;> exact becomes_aside h rfl rfl

theorem becomes_callEventHere : (i.callEventHere s project).Becomes P R s := by
  unfold callEventHere
  dsimp only
  split
  · exact becomes_aside h rfl rfl
  · exact becomes_call h _ _

theorem becomes_showBalloon (order : BalloonOrder) :
    (i.showBalloon s project order).Becomes P R s := by
  unfold showBalloon
  dsimp only
  split <;> exact becomes_aside h rfl rfl

theorem becomes_showChoices (order : ChoicesOrder) (branches : List Script) :
    (i.showChoices s project order branches).Becomes P R s := by
  unfold showChoices
  split
  · unfold enterChoice
    split
    · exact becomes_aside h rfl rfl
    · dsimp only
      split <;> exact becomes_aside h rfl rfl
  · unfold openChoices
    split <;> exact becomes_aside h rfl rfl

theorem becomes_setVariable (a : Assignment) : (i.setVariable s project a).Becomes P R s := by
  have hassign : (s.world.assign s.platform project a i.actingEvent).2.stage = s.world.stage := rfl
  refine becomes_aside h ?_ ?_
  all_goals
    unfold setVariable
    simp only [change, Session.modifyWorld]
    split
    · next heq => rw [← hassign, heq]
    · next heq =>
      rw [← hassign, heq]
      rfl

theorem becomes_addItem (id : Int32) :
    (i.change s fun w => addItem w project id).Becomes P R s := by
  refine becomes_aside h ?_ ?_
  all_goals
    simp only [change, Session.modifyWorld]
    unfold addItem
    split
    · rfl
    · split <;> rfl

theorem becomes_removeItem (id : Int32) :
    (i.change s fun w => removeItem w id).Becomes P R s := by
  refine becomes_aside h ?_ ?_
  all_goals
    simp only [change, Session.modifyWorld]
    unfold removeItem
    split <;> rfl

theorem becomes_setRoute (order : RouteOrder) (body : Script) :
    (i.setRoute s order body).Becomes P R s := by
  unfold setRoute
  dsimp only
  split <;> exact becomes_aside h rfl rfl

theorem becomes_purchase (productId : Int32) : (i.purchase s project productId).Becomes P R s := by
  refine becomes_withAnswer h ?_
  dsimp only
  split <;> exact becomes_aside h rfl rfl

theorem becomes_savePermanentVariable (permanentId : UInt64) (variableId : Int32) :
    (i.savePermanentVariable s permanentId variableId).Becomes P R s := by
  refine becomes_withAnswer h ?_
  dsimp only
  split <;> exact becomes_aside h rfl rfl

/-- All commands but a transfer change the cast in the admitted ways. -/
theorem becomes_act (branches : List Script) {action : Action}
    (stays : ∀ order, action ≠ .transfer order) :
    (i.act s project branches action).Becomes P R s := by
  cases action with
  | transfer order => exact absurd rfl (stays order)
  | setVariable a => exact becomes_setVariable h a
  | showChoices order => exact becomes_showChoices h order branches
  | showBalloon order => exact becomes_showBalloon h order
  | branch conditions => exact becomes_enterBranch h conditions branches
  | jump name => exact becomes_goToLabel h name
  | callEvent eventId page => exact becomes_call h _ _
  | callCommonEvent id => exact becomes_call h _ _
  | showHint => exact becomes_call h _ _
  | runEventHere => exact becomes_callEventHere h
  | addItem id => exact becomes_addItem h id
  | removeItem id => exact becomes_removeItem h id
  | moveCharacter order => exact becomes_moveTarget h order
  | turnCharacter dir =>
    exact becomes_changeTarget h (fun c => h.player.turn c dir) fun c => h.event.turn c dir
  | rotateCharacter angle =>
    exact becomes_changeTarget h (fun c => h.player.turn c _) fun c => h.event.turn c _
  | setCharacterImage image =>
    exact becomes_changeTarget h (fun c => h.player.setImage c image) fun c =>
      h.event.setImage c image
  | setCharacterOpacity change =>
    exact becomes_withTarget h fun _ => h.modifyCharacter s.world.stage i.target
      (fun c => h.player.setOpacity c _ _) fun c _ _ => h.event.setOpacity c _ _
  | changeCharacter change => exact becomes_changeProperty h change
  | eraseEvent => exact h.erase s.world.stage _
  | save => exact becomes_withAnswer h (becomes_aside h rfl rfl)
  | syncPurchases => exact becomes_withAnswer h (becomes_aside h rfl rfl)
  | unlockAchievement id => exact becomes_withAnswer h (becomes_aside h rfl rfl)
  | showAds kind force => cases kind <;> exact becomes_withAnswer h (becomes_aside h rfl rfl)
  | openLink kind data => exact becomes_withAnswer h (becomes_aside h rfl rfl)
  | purchase productId => exact becomes_purchase h productId
  | savePermanentVariable permanentId variableId =>
    exact becomes_savePermanentVariable h permanentId variableId
  | _ => exact becomes_aside h rfl rfl

end Interpreter

end Adventure
