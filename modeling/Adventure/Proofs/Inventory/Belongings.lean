import Adventure.Proofs.Inventory.Selections
import Adventure.Proofs.Session.Fixtures

/-!
# Items that are real

The command that adds an item looks whether the project has it.  The command that puts an item in
the place of others does not, and neither does it look for 0, which stands for no item.  So in a
game the player owns nothing but items of the project exactly if every item that is put in the place
of others is one.
-/

namespace Adventure

open Session (Act)

variable {project : Project}

/-- Whether an id is that of an item of the project, and not the one that stands for none. -/
def Project.HasItem (project : Project) (id : Int32) : Prop :=
  id ≠ 0 ∧ (project.item? id).isSome = true

instance (id : Int32) : Decidable (project.HasItem id) := inferInstanceAs (Decidable (_ ∧ _))

/-- Whether only items of the project are owned. -/
def Fixtures.IsReal (project : Project) (f : Fixtures) : Prop := ∀ id ∈ f.items, project.HasItem id

theorem World.items_transfer {w w' : World} {roomId : Int32} {t : Tile} {dir : Option Direction}
    (h : w.transfer project roomId t dir = .ok w') : w'.inventory.items = w.inventory.items := by
  unfold transfer at h
  split at h
  · cases h
  · next stage _ =>
    obtain rfl := Except.ok.inj h
    exact congrArg Fixtures.items (fixtures_refreshPages { w with stage := stage } project)

/-! ## Commands -/

namespace Interpreter

variable {i : Interpreter} {s : Session} {c : Command}

/-- What a command does to the items. -/
inductive Handles (project : Project) (i : Interpreter) (c : Command) (inv : Inventory) :
    List Int32 → Prop where
  | keeps : Handles project i c inv inv.items
  | adds {id : Int32} (real : project.HasItem id) : Handles project i c inv (inv.items ++ [id])
  | removes (id : Int32) : Handles project i c inv (inv.items.erase id)
  | replaces {id : Int32} {replaced : List Int32} {branches : List Script}
      (isCommand : c = .act (.replaceItem id replaced) branches) (script : i.kind ≠ .route) :
      Handles project i c inv (inv.replace id replaced).items

/-- A command handles no items. -/
def HandlesNone (s : Session) (e : Effect) : Prop :=
  e.session.world.inventory.items = s.world.inventory.items

theorem handlesNone_withTarget {run : Character → Effect} (h : ∀ c, HandlesNone s (run c)) :
    HandlesNone s (i.withTarget s run) := by
  unfold withTarget
  split
  · exact h _
  · rfl

theorem handlesNone_withAnswer {issue : Unit → Effect} (h : HandlesNone s (issue ())) :
    HandlesNone s (i.withAnswer s issue) := by
  unfold withAnswer takeAnswer?
  split
  · next heq =>
    split at heq
    · obtain rfl := Option.some.inj heq
      rfl
    · cases heq
  · exact h

theorem handlesNone_changeProperty (change : CharacterChange) :
    HandlesNone s (i.changeProperty s change) := by
  refine handlesNone_withTarget fun _ => ?_
  unfold HandlesNone Interpreter.change Session.modifyWorld World.modifyCharacter World.modifyStage
  dsimp only
  split
  · split <;> rfl
  · rfl

theorem handlesNone_moveTarget (order : MoveOrder) :
    HandlesNone s (i.moveTarget s project order) := by
  refine handlesNone_withTarget fun _ => ?_
  dsimp only
  split <;> rfl

theorem handlesNone_enterBranch (conditions : List Condition) (branches : List Script) :
    HandlesNone s (i.enterBranch s project conditions branches) := by
  unfold enterBranch
  dsimp only
  split
  · rfl
  · split <;> rfl

theorem handlesNone_call (eventId : Int32) (script? : Option Script) :
    HandlesNone s (i.call s eventId script?) := by
  cases script? <;> rfl

theorem handlesNone_goToLabel (name : String) : HandlesNone s (i.goToLabel s name) := by
  unfold goToLabel
  split <;> rfl

theorem handlesNone_callEventHere : HandlesNone s (i.callEventHere s project) := by
  unfold callEventHere
  dsimp only
  split
  · rfl
  · exact handlesNone_call _ _

theorem handlesNone_showBalloon (order : BalloonOrder) :
    HandlesNone s (i.showBalloon s project order) := by
  unfold showBalloon
  dsimp only
  split <;> rfl

theorem handlesNone_showChoices (order : ChoicesOrder) (branches : List Script) :
    HandlesNone s (i.showChoices s project order branches) := by
  unfold showChoices
  split
  · unfold enterChoice
    split
    · rfl
    · dsimp only
      split <;> rfl
  · unfold openChoices
    split <;> rfl

theorem handlesNone_setVariable (a : Assignment) : HandlesNone s (i.setVariable s project a) := by
  have hassign : (s.world.assign s.platform project a i.actingEvent).2.inventory.items =
      s.world.inventory.items := rfl
  unfold HandlesNone setVariable Interpreter.change Session.modifyWorld
  dsimp only
  split
  · next heq => rw [← hassign, heq]
  · next heq =>
    rw [← hassign, heq]
    rfl

theorem handlesNone_setRoute (order : RouteOrder) (body : Script) :
    HandlesNone s (i.setRoute s order body) := by
  unfold setRoute
  dsimp only
  split <;> rfl

theorem handlesNone_purchase (productId : Int32) :
    HandlesNone s (i.purchase s project productId) := by
  refine handlesNone_withAnswer ?_
  dsimp only
  split <;> rfl

theorem handlesNone_savePermanentVariable (permanentId : UInt64) (variableId : Int32) :
    HandlesNone s (i.savePermanentVariable s permanentId variableId) := by
  refine handlesNone_withAnswer ?_
  dsimp only
  split <;> rfl

theorem handlesNone_transfer (order : TransferOrder) :
    HandlesNone s (i.transfer s project order) := by
  unfold transfer
  dsimp only
  split
  · rfl
  · split
    · rfl
    · next w hw =>
      have hitems : w.inventory.items = s.world.inventory.items := World.items_transfer hw
      split <;> exact hitems

theorem handles_addItem (w : World) (id : Int32) :
    Handles project i c w.inventory (addItem w project id).inventory.items := by
  unfold addItem
  split
  · exact .keeps
  · next item hitem =>
    have hcases := w.inventory.add_cases id
    have hsome : (project.item? id).isSome = true := by rw [hitem]; rfl
    split
    · exact .keeps
    · next inventory heq =>
      rw [heq] at hcases
      rcases hcases with rfl | ⟨hid, _, rfl⟩
      · exact .keeps
      · exact .adds ⟨hid, hsome⟩

theorem handles_removeItem (w : World) (id : Int32) :
    Handles project i c w.inventory (removeItem w id).inventory.items := by
  have hitems := w.inventory.items_remove id
  unfold removeItem
  split
  · exact .keeps
  · next inventory heq =>
    rw [heq] at hitems
    exact hitems ▸ .removes id

theorem handlesNone_act (branches : List Script) {action : Action}
    (add : ∀ id, action ≠ .addItem id) (remove : ∀ id, action ≠ .removeItem id)
    (replace : ∀ id replaced, action ≠ .replaceItem id replaced) :
    HandlesNone s (i.act s project branches action) := by
  cases action with
  | addItem id => exact absurd rfl (add id)
  | removeItem id => exact absurd rfl (remove id)
  | replaceItem id replaced => exact absurd rfl (replace id replaced)
  | setVariable a => exact handlesNone_setVariable a
  | transfer order => exact handlesNone_transfer order
  | showChoices order => exact handlesNone_showChoices order branches
  | showBalloon order => exact handlesNone_showBalloon order
  | branch conditions => exact handlesNone_enterBranch conditions branches
  | jump name => exact handlesNone_goToLabel name
  | callEvent eventId page => exact handlesNone_call _ _
  | callCommonEvent id => exact handlesNone_call _ _
  | showHint => exact handlesNone_call _ _
  | runEventHere => exact handlesNone_callEventHere
  | moveCharacter order => exact handlesNone_moveTarget order
  | turnCharacter dir => exact handlesNone_withTarget fun _ => rfl
  | rotateCharacter angle => exact handlesNone_withTarget fun _ => rfl
  | setCharacterImage image => exact handlesNone_withTarget fun _ => rfl
  | setCharacterOpacity change => exact handlesNone_withTarget fun _ => rfl
  | changeCharacter change => exact handlesNone_changeProperty change
  | save => exact handlesNone_withAnswer rfl
  | syncPurchases => exact handlesNone_withAnswer rfl
  | unlockAchievement id => exact handlesNone_withAnswer rfl
  | showAds kind force => cases kind <;> exact handlesNone_withAnswer rfl
  | openLink kind data => exact handlesNone_withAnswer rfl
  | purchase productId => exact handlesNone_purchase productId
  | savePermanentVariable permanentId variableId =>
    exact handlesNone_savePermanentVariable permanentId variableId
  | _ => rfl

theorem handles_execute (i : Interpreter) (s : Session) (project : Project) (c : Command) :
    Handles project i c s.world.inventory
      (i.execute s project c).session.world.inventory.items := by
  have hnone : ∀ {e : Effect}, HandlesNone s e →
      Handles project i c s.world.inventory e.session.world.inventory.items := by
    intro e h
    rw [h]
    exact .keeps
  unfold execute
  split
  · exact .keeps
  · next hfits =>
    split
    · next action branches =>
      cases action with
      | addItem id => exact handles_addItem s.world id
      | removeItem id => exact handles_removeItem s.world id
      | replaceItem id replaced =>
        refine .replaces rfl fun hroute => hfits ?_
        simp [hroute, Command.fitsRoute, Action.fitsRoute]
      | _ => exact hnone (handlesNone_act _ (by simp) (by simp) (by simp))
    · exact hnone (handlesNone_setRoute _ _)

/-- If a command puts an item in the place of others, it is one of the project. -/
def ReplacesReal (project : Project) (r : Interpreter × Session × Command) : Prop :=
  r.1.kind ≠ .route → ∀ id replaced branches,
    r.2.2 = .act (.replaceItem id replaced) branches → project.HasItem id

variable {r : Interpreter × Session × Command}

theorem keeps_isReal (h : ReplacesReal project r) : Keeps project (Fixtures.IsReal project) r := by
  intro hreal id hid
  have hhandles := handles_execute r.1 r.2.1 project r.2.2
  replace hreal : ∀ id ∈ r.2.1.world.inventory.items, project.HasItem id := hreal
  replace hid : id ∈ (r.1.execute r.2.1 project r.2.2).session.world.inventory.items := hid
  generalize (r.1.execute r.2.1 project r.2.2).session.world.inventory.items = items at hid hhandles
  cases hhandles with
  | keeps => exact hreal id hid
  | adds real =>
    rcases List.mem_append.1 hid with hid | hid
    · exact hreal id hid
    · exact List.mem_singleton.1 hid ▸ real
  | removes old => exact hreal id (List.mem_of_mem_erase hid)
  | replaces isCommand script =>
    rcases (Inventory.mem_items_replace _ _ id).1 hid with ⟨hid, _⟩ | rfl
    · exact hreal id hid
    · exact h script _ _ _ isCommand

/-- The item that is put in the place of others is owned. -/
theorem replacesReal_of_leaves (h : Leaves project (Fixtures.IsReal project) r) :
    ReplacesReal project r := by
  obtain ⟨i, s, c⟩ := r
  rintro hscript id replaced branches rfl
  refine h id ?_
  have hruns : i.execute s project (.act (.replaceItem id replaced) branches) =
      i.change s fun w => { w with inventory := w.inventory.replace id replaced } := by
    rw [execute, if_neg (by simpa using fun hroute => absurd hroute hscript)]
    rfl
  rw [hruns]
  exact (Inventory.mem_items_replace id replaced id).2 (.inr rfl)

end Interpreter

/-! ## Games -/

namespace Session

variable (s : Session)

/-- The commands that are run in an act. -/
def commandsOf (project : Project) (s : Session) : Act → List (Interpreter × Session × Command)
  | .tick input => s.commandsRun project input
  | _ => []

/-- The commands that are run in the course of some acts. -/
def commandsOfAll (project : Project) : Session → List Act → List (Interpreter × Session × Command)
  | _, [] => []
  | s, act :: acts => s.commandsOf project act ++ commandsOfAll project (s.perform project act) acts

theorem isReal_of_items {f f' : Fixtures} (items : f'.items = f.items) (h : f.IsReal project) :
    f'.IsReal project := fun id hid => h id (items ▸ hid)

theorem isReal_tickMoments (input : Input)
    (replaces : ∀ r ∈ s.commandsRun project input, Interpreter.ReplacesReal project r)
    (h : s.world.fixtures.IsReal project) :
    ∀ m ∈ s.tickMoments project input, m.session.world.fixtures.IsReal project := by
  have hkeeps := fun r hr => Interpreter.keeps_isReal (replaces r hr)
  have hmusic : s.resumeMusic.world.fixtures.IsReal project := by rwa [fixtures_resumeMusic]
  have hanswers : (s.withAnswers project).collectSave.world.fixtures.IsReal project := by
    rwa [fixtures_withAnswers]
  have hbefore : (s.beforeScripts project input).world.fixtures.IsReal project := by
    rw [fixtures_beforeScripts]
    exact h
  have hscripts := s.kept_scriptMoments input hkeeps hbefore
  have hran := s.kept_runScripts input hkeeps hbefore
  have hafter : (s.afterScripts project input).world.fixtures.IsReal project := by
    unfold afterScripts
    generalize (s.beforeScripts project input).runScripts project = ran at hran
    exact hran
  have hsent : (s.afterScripts project input).sendScheduledSave.world.fixtures.IsReal project := by
    rw [fixtures_sendScheduledSave]
    exact hafter
  have hsaved : (s.afterSaves project input).world.fixtures.IsReal project := by
    rw [fixtures_afterSaves]
    exact hafter
  unfold tickMoments momentsWithAnswers
  refine List.forall_mem_cons.2 ⟨hmusic, List.forall_mem_cons.2 ⟨hmusic, ?_⟩⟩
  refine List.forall_mem_append.2 ⟨List.forall_mem_append.2 ⟨?_, hscripts⟩, ?_⟩
  · simp only [List.forall_mem_cons, List.not_mem_nil, false_implies, implies_true, and_true]
    unfold afterWindows beforeWindows
    generalize (s.withAnswers project).collectSave = collected at hanswers
    exact ⟨hanswers, hanswers, hanswers, hanswers, hbefore⟩
  · simp only [List.forall_mem_cons, List.not_mem_nil, false_implies, implies_true, and_true]
    refine ⟨hafter, hsent, hsaved, ?_⟩
    rw [update_eq]
    generalize s.afterSaves project input = saved at hsaved
    exact hsaved

/-- Between ticks only the host brings items. -/
theorem isReal_perform {act : Act} (between : ∀ input, act ≠ .tick input)
    (given : ∀ memory inventory, act = .set memory inventory →
      ∀ id ∈ inventory.items, project.HasItem id)
    (h : s.world.fixtures.IsReal project) :
    (s.perform project act).world.fixtures.IsReal project := by
  cases act with
  | tick input => exact absurd rfl (between input)
  | set memory inventory => exact given memory inventory rfl
  | startEvent id => exact isReal_of_items (congrArg (·.items) (World.fixtures_startEvent _ id)) h
  | startItem id => exact isReal_of_items (congrArg (·.items) (World.fixtures_startItem _ id)) h
  | startCombine first second =>
    exact isReal_of_items (congrArg (·.items) (World.fixtures_startCombine _ first second)) h
  | startCommonEvent id =>
    exact isReal_of_items (congrArg (·.items) (World.fixtures_startCommonEvent _ id)) h
  | startHint => exact isReal_of_items (congrArg (·.items) (World.fixtures_startHint _)) h
  | transfer roomId t dir =>
    unfold perform
    dsimp only
    split
    · next w hw =>
      have hitems : w.fixtures.items = s.world.fixtures.items := World.items_transfer hw
      exact isReal_of_items hitems h
    · exact h
  | requestSave => exact isReal_of_items (congrArg (·.items) s.fixtures_requestSave) h
  | answer a =>
    unfold perform
    dsimp only
    split <;> exact h
  | ask request unsaved => exact h
  | configure change silent => exact h

theorem isReal_moments {act : Act}
    (given : ∀ memory inventory, act = .set memory inventory →
      ∀ id ∈ inventory.items, project.HasItem id)
    (replaces : ∀ r ∈ s.commandsOf project act, Interpreter.ReplacesReal project r)
    (h : s.world.fixtures.IsReal project) :
    (∀ m ∈ s.moments project act, m.session.world.fixtures.IsReal project) ∧
      (s.perform project act).world.fixtures.IsReal project := by
  have hlast : ∀ moments : List Moment, .still (s.perform project act) ∈ moments →
      (∀ m ∈ moments, m.session.world.fixtures.IsReal project) →
      (∀ m ∈ moments, m.session.world.fixtures.IsReal project) ∧
        (s.perform project act).world.fixtures.IsReal project :=
    fun moments hmem hall => ⟨hall, hall _ hmem⟩
  by_cases htick : ∃ input, act = .tick input
  · obtain ⟨input, rfl⟩ := htick
    refine hlast _ ?_ (s.isReal_tickMoments input replaces h)
    simp [moments, tickMoments, momentsWithAnswers, perform]
  · have hbetween := not_exists.1 htick
    have hreal := s.isReal_perform hbetween given h
    refine hlast _ ?_ ?_
    · cases act with
      | tick input => exact absurd rfl (hbetween input)
      | _ => exact List.mem_singleton_self _
    · cases act with
      | tick input => exact absurd rfl (hbetween input)
      | _ => exact fun m hm => List.mem_singleton.1 hm ▸ hreal

theorem isReal_story {acts : List Act}
    (given : ∀ memory inventory, .set memory inventory ∈ acts →
      ∀ id ∈ inventory.items, project.HasItem id)
    (replaces : ∀ r ∈ commandsOfAll project s acts, Interpreter.ReplacesReal project r)
    (h : s.world.fixtures.IsReal project) :
    ∀ m ∈ story project s acts, m.session.world.fixtures.IsReal project := by
  induction acts generalizing s with
  | nil => exact fun m hm => by cases hm
  | cons act acts ih =>
    obtain ⟨hfirst, hmore⟩ := List.forall_mem_append.1 replaces
    obtain ⟨hmoments, hperform⟩ := s.isReal_moments
      (fun memory inventory hact => given memory inventory (hact ▸ List.mem_cons_self)) hfirst h
    refine List.forall_mem_append.2 ⟨hmoments,
      ih _ (fun memory inventory hmem => ?_) hmore hperform⟩
    exact given memory inventory (List.mem_cons_of_mem _ hmem)

theorem replacesReal_of_story {acts : List Act}
    (h : ∀ m ∈ story project s acts, m.session.world.fixtures.IsReal project) :
    ∀ r ∈ commandsOfAll project s acts, Interpreter.ReplacesReal project r := by
  induction acts generalizing s with
  | nil => exact fun r hr => by cases hr
  | cons act acts ih =>
    obtain ⟨hfirst, hmore⟩ := List.forall_mem_append.1 h
    refine List.forall_mem_append.2 ⟨fun r hr => ?_, ih _ hmore⟩
    cases act with
    | tick input =>
      refine Interpreter.replacesReal_of_leaves
        (s.leaves_of_scriptMoments input (fun m hm => ?_) r hr)
      refine hfirst m ?_
      simp [moments, tickMoments, momentsWithAnswers, hm]
    | _ => cases hr

/-- In a new game the player owns only items of the project, at every moment, exactly if every item
that a command puts in the place of others is one, and the host gives no others. -/
theorem owns_real_iff {w : World} {seed : UInt64} (started : World.start project seed = .ok w)
    (host : Host) (acts : List Act)
    (given : ∀ memory inventory, .set memory inventory ∈ acts →
      ∀ id ∈ inventory.items, project.HasItem id) :
    let s : Session := ⟨w, .start project host⟩
    (∀ m ∈ story project s acts, ∀ id ∈ m.session.world.inventory.items, project.HasItem id) ↔
      ∀ i t id replaced branches,
        (i, t, .act (.replaceItem id replaced) branches) ∈ commandsOfAll project s acts →
          i.kind ≠ .route → project.HasItem id := by
  intro s
  have hempty : s.world.fixtures.IsReal project := by
    obtain ⟨stage, _, rfl⟩ := World.exists_enter started
    have hfixtures := World.fixtures_refreshPages (.ofProgress (.fresh stage) seed) project
    have hitems : s.world.fixtures.items = [] := congrArg (·.items) hfixtures
    intro id hid
    rw [hitems] at hid
    cases hid
  constructor
  · intro h i t id replaced branches hr hscript
    exact s.replacesReal_of_story h _ hr hscript id replaced branches rfl
  · intro h
    refine s.isReal_story given ?_ hempty
    rintro ⟨i, t, c⟩ hr hscript id replaced branches rfl
    exact h i t id replaced branches hr hscript

end Session

/-- A project with items 3 and 4, and a common event that adds an item and puts others in
its place. -/
def barterRoom (added : Int32) (new : List Int32) : Project :=
  let replaces (id : Int32) : Command := .act (.replaceItem id [added]) []
  { Project.emptyRoom (.act (.addItem added) [] :: new.map replaces) with
    items := [⟨3, "", "", 0, []⟩, ⟨4, "", "", 0, []⟩] }

/-- The event runs once. -/
def barterActs : List Act := [.startCommonEvent 1, .tick .none]

/-- The item that a command puts in the place of others. -/
def Command.placed? : Command → Option Int32
  | .act (.replaceItem id _) _ => some id
  | _ => none

/-- Item 4 takes the place of item 3. -/
theorem barterRoom_owns_real :
    ∃ w, World.start (barterRoom 3 [4]) 1 = .ok w ∧
      let s : Session := ⟨w, .start (barterRoom 3 [4]) .deferred⟩
      (s.after (barterRoom 3 [4]) barterActs).world.inventory.items = [4] ∧
        ∀ m ∈ Session.story (barterRoom 3 [4]) s barterActs,
          ∀ id ∈ m.session.world.inventory.items, (barterRoom 3 [4]).HasItem id := by
  obtain ⟨w, hstart, hafter, hreplaces⟩ : ∃ w, World.start (barterRoom 3 [4]) 1 = .ok w ∧
      let s : Session := ⟨w, .start (barterRoom 3 [4]) .deferred⟩
      (s.after (barterRoom 3 [4]) barterActs).world.inventory.items = [4] ∧
        ((Session.commandsOfAll (barterRoom 3 [4]) s barterActs).all fun r =>
          r.2.2.placed?.all fun id => decide ((barterRoom 3 [4]).HasItem id)) = true := by
    refine ⟨_, rfl, ?_⟩
    decide +kernel
  refine ⟨w, hstart, hafter, (Session.owns_real_iff hstart .deferred barterActs ?_).2 ?_⟩
  · simp [barterActs]
  · intro i t id replaced branches hr _
    exact of_decide_eq_true (List.all_eq_true.1 hreplaces _ hr)

/-- Neither 98 nor 0 is an item, but only the command that adds one looks. -/
theorem barterRoom_owns_unreal :
    ∃ w, World.start (barterRoom 99 [98, 0]) 1 = .ok w ∧
      let s : Session := ⟨w, .start (barterRoom 99 [98, 0]) .deferred⟩
      (s.after (barterRoom 99 [98, 0]) barterActs).world.inventory.items = [98, 0] ∧
        ¬ (barterRoom 99 [98, 0]).HasItem 98 ∧ ¬ (barterRoom 99 [98, 0]).HasItem 0 := by
  refine ⟨_, rfl, ?_⟩
  decide +kernel

end Adventure
