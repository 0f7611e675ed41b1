import Adventure.Proofs.Platform.Permanent
import Adventure.Proofs.Scripts.Ticks
import Adventure.Proofs.Session.Choosing
import Adventure.Proofs.Session.Presence

/-!
# Commands that cannot run

A command finds out whether it can run before it changes anything, so one that cannot leaves no
trace.  There are three exceptions.  A pick is taken before its branch is looked for.  A transfer
with a color has covered the screen in its first half, before it looks for the room in its second
one, and leaves the screen covered.  And a permanent variable is set before all of them are packed,
which fails when there are too many for a save.  The script then ends with one report of where it
stands and why, and does nothing any more.
-/

namespace Adventure

open Save

theorem Windows.of_takeChosen {ws ws' : Windows} {id row : Nat}
    (h : ws.takeChosen id = (some row, ws')) :
    ws.chosen = some (id, row) ∧ ws' = { ws with chosen := .none } := by
  have hchosen : ws.chosen = some (id, row) := takeChosen_eq_some.1 (congrArg Prod.fst h)
  have htaken := congrArg Prod.snd h
  simp only [takeChosen, hchosen, if_pos] at htaken
  exact ⟨hchosen, htaken.symm⟩

namespace Interpreter

/-! ## What a command leaves behind that cannot run -/

/-- Whether a script has come to the second half of a transfer, behind a screen that the first half
has covered. -/
def IsBehindCover (i : Interpreter) (command : Command) : Prop :=
  i.pending = some .transfer ∧ ∃ order branches, command = .act (.transfer order) branches

/-- All that a command leaves behind that cannot run. -/
inductive Fails (i : Interpreter) (s : Session) (command : Command) (fault : ScriptFault) :
    Effect → Prop
  | traceless (uncovered : ¬ i.IsBehindCover command) : Fails i s command fault ⟨i, s, .fail fault⟩
  /-- The second half changes nothing, so what the first half has covered stays covered. -/
  | covered (behind : i.IsBehindCover command) : Fails i s command fault ⟨i, s, .fail fault⟩
  /-- The pick is taken, though there is no branch for it. -/
  | picked {order : ChoicesOrder} {branches : List Script} {row index : Nat}
      (isCommand : command = .act (.showChoices order) branches)
      (pending : i.pending = some .choices)
      (chosen : s.world.windows.chosen = some (i.id, row))
      (missing : branches[index]? = none)
      (isFault : fault = .missingChoice index) :
      Fails i s command fault
        ⟨{ i with pending := none },
          s.modifyWorld fun w => { w with windows := { w.windows with chosen := none } },
          .fail fault⟩
  /-- The variable is set, one of many more than there are numbers for. -/
  | overgrown {permanentId : UInt64} {variableId : Int32} {branches : List Script}
      {why : SaveFault}
      (isCommand : command = .act (.savePermanentVariable permanentId variableId) branches)
      (many : 477218587 ≤ s.platform.permanent.slots.length)
      (isFault : fault = .permanent (.save why)) :
      Fails i s command fault
        ⟨i, s.modifyPlatform fun p =>
          p.setPermanent permanentId.toNat (s.world.memory.get variableId), .fail fault⟩

end Interpreter

/-- A command leaves its script what it is, and nothing else behind where it cannot run. -/
structure Effect.Accounted (i : Interpreter) (s : Session) (command : Command) (e : Effect) :
    Prop where
  origin : e.interpreter.origin = i.origin
  fails : ∀ fault, e.outcome = .fail fault → i.Fails s command fault e

namespace Interpreter

variable {project : Project} {i : Interpreter} {s : Session} {command : Command}

theorem fails_of_unchanged (fault : ScriptFault) :
    i.Fails s command fault ⟨i, s, .fail fault⟩ := by
  by_cases h : i.IsBehindCover command
  · exact .covered h
  · exact .traceless h

theorem accounted_go (outcome : Outcome) : (i.go s outcome).Accounted i s command :=
  ⟨rfl, fun fault h => by
    obtain rfl : outcome = .fail fault := h
    exact fails_of_unchanged fault⟩

theorem accounted_of_ne {e : Effect} (origin : e.interpreter.origin = i.origin)
    (h : ∀ fault, e.outcome ≠ .fail fault) : e.Accounted i s command :=
  ⟨origin, fun fault hfault => absurd hfault (h fault)⟩

theorem accounted_change (change : World → World) : (i.change s change).Accounted i s command :=
  accounted_of_ne rfl (by simp [Interpreter.change])

theorem accounted_changeThenWait (waits : Bool) (wait : Wait) (change : World → World) :
    (i.changeThenWait s waits wait change).Accounted i s command := by
  refine accounted_of_ne rfl fun fault => ?_
  cases waits <;> simp [changeThenWait]

theorem accounted_awaitAnswer (s' : Session) (id : Nat) :
    (i.awaitAnswer s' id).Accounted i s command := accounted_of_ne rfl (by simp [awaitAnswer])

theorem accounted_withAnswer {issue : Unit → Effect} (h : (issue ()).Accounted i s command) :
    (i.withAnswer s issue).Accounted i s command := by
  unfold withAnswer takeAnswer?
  split
  · next effect htake =>
    split at htake
    · obtain rfl := Option.some.inj htake
      exact accounted_of_ne rfl (by simp)
    · cases htake
  · exact h

theorem accounted_request (request : Request) : (i.request s request).Accounted i s command :=
  accounted_withAnswer (accounted_awaitAnswer _ _)

theorem accounted_withTarget {run : Character → Effect}
    (h : ∀ c, (run c).Accounted i s command) : (i.withTarget s run).Accounted i s command := by
  unfold withTarget
  split
  · exact h _
  · exact accounted_go _

theorem accounted_changeTarget (change : Character → Character) :
    (i.changeTarget s change).Accounted i s command :=
  accounted_withTarget fun _ => accounted_change _

theorem accounted_moveTarget (order : MoveOrder) :
    (i.moveTarget s project order).Accounted i s command := by
  refine accounted_withTarget fun _ => ?_
  dsimp only
  split
  · exact accounted_of_ne rfl (by simp [go])
  · exact accounted_go _

theorem accounted_enterBranch (conditions : List Condition) (branches : List Script) :
    (i.enterBranch s project conditions branches).Accounted i s command := by
  unfold enterBranch
  dsimp only
  split
  · exact accounted_go _
  · split <;> exact accounted_go _

theorem accounted_goToLabel (name : String) : (i.goToLabel s name).Accounted i s command := by
  unfold goToLabel
  split <;> exact accounted_go _

theorem accounted_call (eventId : Int32) (script? : Option Script) :
    (i.call s eventId script?).Accounted i s command := by
  cases script? <;> exact accounted_go _

theorem accounted_callEventHere : (i.callEventHere s project).Accounted i s command := by
  unfold callEventHere
  dsimp only
  split
  · exact accounted_go _
  · exact accounted_call _ _

theorem accounted_showBalloon (order : BalloonOrder) :
    (i.showBalloon s project order).Accounted i s command := by
  unfold showBalloon
  dsimp only
  split
  · exact accounted_go _
  · exact accounted_of_ne rfl (by simp)

/-- The pick is taken first, and then there may be no branch for it. -/
theorem accounted_showChoices (order : ChoicesOrder) (branches : List Script) :
    (i.showChoices s project order branches).Accounted i s
      (.act (.showChoices order) branches) := by
  unfold showChoices
  split
  · next hpending =>
    unfold enterChoice
    split
    · exact accounted_go _
    · next row windows htaken =>
      obtain ⟨hchosen, rfl⟩ := Windows.of_takeChosen htaken
      dsimp only
      split
      · exact accounted_of_ne rfl (by simp [go])
      · next hmissing =>
        refine ⟨rfl, fun fault hfault => ?_⟩
        obtain rfl := Outcome.fail.inj hfault
        exact .picked rfl hpending hchosen hmissing rfl
  · unfold openChoices
    split
    · exact accounted_go _
    · exact accounted_of_ne rfl (by simp)

theorem accounted_purchase (productId : Int32) :
    (i.purchase s project productId).Accounted i s command := by
  refine accounted_withAnswer ?_
  split
  · exact accounted_go _
  · exact accounted_awaitAnswer _ _

theorem accounted_savePermanentVariable (permanentId : UInt64) (variableId : Int32)
    (branches : List Script) : (i.savePermanentVariable s permanentId variableId).Accounted i s
      (.act (.savePermanentVariable permanentId variableId) branches) := by
  refine accounted_withAnswer ?_
  dsimp only
  split
  · exact accounted_awaitAnswer _ _
  · exact accounted_go _
  · next why hsave =>
    refine ⟨rfl, fun fault hfault => ?_⟩
    obtain rfl := Outcome.fail.inj hfault
    exact .overgrown rfl (Platform.many_of_savePermanent hsave) rfl

theorem accounted_save : (i.save s).Accounted i s command := by
  refine accounted_withAnswer ?_
  exact accounted_awaitAnswer _ _

theorem accounted_setRoute (order : RouteOrder) (body : Script) :
    (i.setRoute s order body).Accounted i s command := by
  unfold setRoute
  dsimp only
  split
  · exact accounted_go _
  · exact accounted_changeThenWait _ _ _

theorem accounted_transfer (order : TransferOrder) :
    (i.transfer s project order).Accounted i s command := by
  unfold transfer
  dsimp only
  split
  · exact accounted_of_ne rfl (by simp)
  · split
    · exact accounted_go _
    · split
      · exact accounted_of_ne rfl (by simp)
      · exact accounted_of_ne rfl (by simp [go])

theorem accounted_act (branches : List Script) (action : Action) :
    (i.act s project branches action).Accounted i s (.act action branches) := by
  cases action with
  | showChoices order => exact accounted_showChoices order branches
  | savePermanentVariable permanentId variableId =>
    exact accounted_savePermanentVariable permanentId variableId branches
  | transfer order => exact accounted_transfer order
  | branch conditions => exact accounted_enterBranch conditions branches
  | jump name => exact accounted_goToLabel name
  | callEvent eventId page => exact accounted_call _ _
  | callCommonEvent id => exact accounted_call _ _
  | showHint => exact accounted_call _ _
  | runEventHere => exact accounted_callEventHere
  | showBalloon order => exact accounted_showBalloon order
  | moveCharacter order => exact accounted_moveTarget order
  | setCharacterOpacity change =>
    exact accounted_withTarget fun _ => accounted_changeThenWait _ _ _
  | changeCharacter change => exact accounted_withTarget fun _ => accounted_change _
  | turnCharacter dir => exact accounted_changeTarget _
  | rotateCharacter angle => exact accounted_changeTarget _
  | setCharacterImage image => exact accounted_changeTarget _
  | purchase productId => exact accounted_purchase productId
  | showAds kind force => cases kind <;> exact accounted_request _
  | save => exact accounted_save
  | showMessage order => exact accounted_of_ne rfl (by simp [act, showMessage])
  | playSound o => exact accounted_of_ne rfl (by simp [act, go])
  | playMusic o => exact accounted_of_ne rfl (by simp [act, go])
  | stopMusic time => exact accounted_of_ne rfl (by simp [act, go])
  | sendAnalytics event value => exact accounted_of_ne rfl (by simp [act, go])
  | _ => first
    | exact accounted_go _
    | exact accounted_change _
    | exact accounted_request _
    | exact accounted_changeThenWait _ _ _

theorem accounted_execute (i : Interpreter) (s : Session) (project : Project)
    (command : Command) : (i.execute s project command).Accounted i s command := by
  unfold execute
  split
  · exact accounted_go _
  · cases command with
    | act action branches => exact accounted_act branches action
    | route order body args => exact accounted_setRoute order body

/-! ## What a script stays -/

theorem origin_runCommand (i : Interpreter) (s : Session) (project : Project) :
    (i.runCommand s project).2.1.origin = i.origin := by
  unfold runCommand
  split
  · rfl
  · split
    · next command _ =>
      exact (follow_keeps _).1.trans (accounted_execute i s project command).origin
    · obtain ⟨frames, terminated, hfinish⟩ := i.finishFrame_eq
      dsimp only
      rw [hfinish]
      rfl

theorem origin_step (i : Interpreter) (s : Session) (project : Project) :
    (i.step s project).2.1.origin = i.origin := by
  unfold step
  split
  · rfl
  · split
    · exact i.origin_keepWaiting
    · obtain ⟨walk, w, -, hwalk⟩ := calm_updateWalk { i with wait := .none } s project
      split
      · next heq =>
        obtain ⟨rfl, rfl⟩ := Prod.mk.inj ((congrArg (·.2) heq).symm.trans hwalk)
        rfl
      · next j t heq =>
        obtain ⟨hj, -⟩ := Prod.mk.inj ((congrArg (·.2) heq).symm.trans hwalk)
        have hsame : j.origin = i.origin := by rw [hj]; rfl
        exact (j.origin_runCommand t project).trans hsame

/-- A common event brings the player to a room that is missing, behind a white screen. -/
def lostRoom : Project := .emptyRoom [.act (.transfer ⟨.constant, 2, 0, 0, none, .white⟩) []]

end Interpreter

end Adventure
