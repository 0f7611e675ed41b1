import Adventure.Proofs.Session.Directions
import Adventure.Proofs.Session.Presence
import Adventure.Proofs.Session.Registry
import Adventure.Proofs.Session.Stacks

/-!
# Scripts that forget their requests

A script that is loaded while it waits for an answer goes past the command that asked.  Had the
answer come instead, the script would run the command once more, take the answer, and go past the
command then.  From there on both runs are one: no command but one that takes an answer looks at the
answers, and whoever asks now asks under a number that is new.

So the two runs are compared on sessions that differ in a single answer.  `Interpreter.step_without`
says that a step of a script that does not wait for this answer is the same with it and without it,
and `Interpreter.run_without` says so of a whole run.
-/

namespace Adventure

/-! ## Sessions without an answer -/

namespace Platform

variable (p : Platform) (id : Nat)

/-- The platform without the answer to a request. -/
def without : Platform := (p.takeAnswer id).2

theorem without_comm (id' : Nat) : (p.without id).without id' = (p.without id').without id := by
  simp only [without, takeAnswer, SortedMap.erase_comm p.answers id id']

variable {p id} in
theorem without_of_unanswered (h : p.hasAnswer id = false) : p.without id = p := by
  simp only [without, takeAnswer, SortedMap.erase_of_absent p.answers h]

theorem without_without : (p.without id).without id = p.without id :=
  without_of_unanswered (congrArg Option.isSome (SortedMap.find?_erase_self p.answers id))

variable {id} in
theorem hasAnswer_without {id' : Nat} (h : id' ≠ id) :
    (p.without id).hasAnswer id' = p.hasAnswer id' := by
  exact congrArg Option.isSome (SortedMap.find?_erase_of_ne p.answers h)

theorem send_without (id' : Nat) (r : Request) :
    (p.without id).send id' r = (p.send id' r).without id := by
  unfold send
  dsimp only [without, takeAnswer, tell]
  split <;> rfl

theorem ask_without (r : Request) :
    (p.without id).ask r = ((p.ask r).1, (p.ask r).2.without id) :=
  congrArg (Prod.mk _) (p.nextRequestId.2.send_without id _ r)

theorem savePermanent_without (n : Nat) (value : Int64) :
    (p.without id).savePermanent n value =
      (p.savePermanent n value).map fun r => (r.1, r.2.without id) := by
  unfold savePermanent
  split
  · dsimp only
    have hpermanent : ((p.without id).setPermanent n value).permanent =
        (p.setPermanent n value).permanent := rfl
    rw [hpermanent]
    cases Save.toBlob .permanent (p.setPermanent n value).permanent with
    | error fault => rfl
    | ok bytes =>
      exact congrArg Except.ok ((p.setPermanent n value).ask_without id (.savePermanent bytes))
  · rfl

end Platform

/-- The session without the answer to a request. -/
def Session.without (s : Session) (id : Nat) : Session := s.modifyPlatform fun p => p.without id

theorem Session.world_without (s : Session) (id : Nat) : (s.without id).world = s.world := rfl

theorem Session.without_without (s : Session) (id : Nat) :
    (s.without id).without id = s.without id :=
  congrArg (Session.mk s.world) (s.platform.without_without id)

theorem Session.without_of_unanswered {s : Session} {id : Nat}
    (h : s.platform.hasAnswer id = false) : s.without id = s :=
  congrArg (Session.mk s.world) (Platform.without_of_unanswered h)

/-- What a command leaves behind, without the answer to a request. -/
def Effect.without (e : Effect) (id : Nat) : Effect := { e with session := e.session.without id }

namespace Interpreter

variable {project : Project} {i : Interpreter} {s : Session}

/-! ## Commands without an answer -/

section Commands

variable (i s) (id : Nat)

theorem call_without (eventId : Int32) (script? : Option Script) :
    i.call (s.without id) eventId script? = (i.call s eventId script?).without id := by
  cases script? <;> rfl

theorem enterBranch_without (conditions : List Condition) (branches : List Script) :
    i.enterBranch (s.without id) project conditions branches =
      (i.enterBranch s project conditions branches).without id := by
  unfold enterBranch
  rw [Session.world_without]
  dsimp only
  split
  · rfl
  · split <;> rfl

theorem goToLabel_without (name : String) :
    i.goToLabel (s.without id) name = (i.goToLabel s name).without id := by
  unfold goToLabel
  split <;> rfl

theorem callEventHere_without :
    i.callEventHere (s.without id) project = (i.callEventHere s project).without id := by
  unfold callEventHere
  rw [Session.world_without]
  dsimp only
  split
  · rfl
  · exact i.call_without s id _ _

theorem showBalloon_without (order : BalloonOrder) :
    i.showBalloon (s.without id) project order = (i.showBalloon s project order).without id := by
  unfold showBalloon
  rw [Session.world_without]
  dsimp only
  split <;> rfl

theorem enterChoice_without (order : ChoicesOrder) (branches : List Script) :
    i.enterChoice (s.without id) project order branches =
      (i.enterChoice s project order branches).without id := by
  unfold enterChoice
  rw [Session.world_without]
  split
  · rfl
  · next row windows _ =>
    have hindex (i : Interpreter) : World.choiceInRow
        ((s.without id).modifyWorld fun w => { w with windows := windows }).world project
          i.actingEvent order row =
        World.choiceInRow { s.world with windows := windows } project i.actingEvent order row := rfl
    simp only [hindex]
    dsimp only [Session.modifyWorld]
    split <;> rfl

theorem openChoices_without (order : ChoicesOrder) :
    i.openChoices (s.without id) project order = (i.openChoices s project order).without id := by
  have hshown : (s.without id).world.shownChoices (s.without id).platform project i.actingEvent
      order = s.world.shownChoices s.platform project i.actingEvent order := rfl
  unfold openChoices
  rw [hshown]
  split <;> rfl

theorem showChoices_without (order : ChoicesOrder) (branches : List Script) :
    i.showChoices (s.without id) project order branches =
      (i.showChoices s project order branches).without id := by
  unfold showChoices
  split
  · exact i.enterChoice_without s id order branches
  · exact i.openChoices_without s id order

theorem transfer_without (order : TransferOrder) :
    i.transfer (s.without id) project order = (i.transfer s project order).without id := by
  have henter : enterRoom (s.without id) project order = enterRoom s project order := rfl
  unfold transfer
  rw [henter]
  dsimp only
  split
  · rfl
  · split
    · rfl
    · split <;> rfl

theorem setRoute_without (order : RouteOrder) (body : Script) :
    i.setRoute (s.without id) order body = (i.setRoute s order body).without id := by
  unfold setRoute
  rw [Session.world_without]
  dsimp only
  split <;> rfl

variable {i s id} in
theorem withTarget_without {run run' : Character → Effect} (h : ∀ c, run' c = (run c).without id) :
    i.withTarget (s.without id) run' = (i.withTarget s run).without id := by
  unfold withTarget
  rw [Session.world_without]
  split
  · exact h _
  · rfl

theorem moveTarget_without (order : MoveOrder) :
    i.moveTarget (s.without id) project order = (i.moveTarget s project order).without id := by
  refine withTarget_without fun _ => ?_
  dsimp only
  rw [Session.world_without]
  split <;> rfl

variable {i s id} in
/-- Whoever takes an answer takes his own. -/
theorem withAnswer_without {issue issue' : Unit → Effect}
    (h : issue' () = (issue ()).without id) :
    i.withAnswer (s.without id) issue' = (i.withAnswer s issue).without id := by
  unfold withAnswer takeAnswer?
  cases i.pending with
  | none => exact h
  | some pending =>
    cases pending with
    | request id' =>
      have hcomm := s.platform.without_comm id id'
      exact congrArg (Effect.mk { i with pending := none } · .next)
        (congrArg (Session.mk s.world) hcomm)
    | choices | transfer => exact h

theorem save_without : i.save (s.without id) = (i.save s).without id := by
  refine withAnswer_without ?_
  rfl

theorem request_without (r : Request) :
    i.request (s.without id) r = (i.request s r).without id := by
  refine withAnswer_without ?_
  have hask : (s.without id).platform.ask r = _ := s.platform.ask_without id r
  rw [hask]
  rfl

theorem purchase_without (productId : Int32) :
    i.purchase (s.without id) project productId = (i.purchase s project productId).without id := by
  refine withAnswer_without ?_
  dsimp only
  split
  · rfl
  · next product _ =>
    have hask : (s.without id).platform.ask _ = _ :=
      s.platform.ask_without id (.purchase product.key)
    rw [hask]
    rfl

theorem savePermanentVariable_without (permanentId : UInt64) (variableId : Int32) :
    i.savePermanentVariable (s.without id) permanentId variableId =
      (i.savePermanentVariable s permanentId variableId).without id := by
  refine withAnswer_without ?_
  have hsave : (s.without id).platform.savePermanent permanentId.toNat
      (s.world.memory.get variableId) = _ := s.platform.savePermanent_without id _ _
  dsimp only
  rw [Session.world_without, hsave]
  cases s.platform.savePermanent permanentId.toNat (s.world.memory.get variableId) with
  | ok r => rfl
  | error fault => cases fault <;> rfl

theorem act_without (branches : List Script) (action : Action) :
    i.act (s.without id) project branches action =
      (i.act s project branches action).without id := by
  cases action with
  | showHint | callEvent | callCommonEvent => exact i.call_without s id _ _
  | runEventHere => exact i.callEventHere_without s id
  | branch conditions => exact i.enterBranch_without s id conditions branches
  | jump name => exact i.goToLabel_without s id name
  | showBalloon order => exact i.showBalloon_without s id order
  | showChoices order => exact i.showChoices_without s id order branches
  | transfer order => exact i.transfer_without s id order
  | save => exact i.save_without s id
  | syncPurchases | unlockAchievement | openLink => exact i.request_without s id _
  | showAds kind force => cases kind <;> exact i.request_without s id _
  | purchase productId => exact i.purchase_without s id productId
  | savePermanentVariable permanentId variableId =>
    exact i.savePermanentVariable_without s id permanentId variableId
  | moveCharacter order => exact i.moveTarget_without s id order
  | turnCharacter | rotateCharacter | changeCharacter | setCharacterImage | setCharacterOpacity =>
    exact withTarget_without fun _ => rfl
  | _ => rfl

theorem execute_without (command : Command) :
    i.execute (s.without id) project command = (i.execute s project command).without id := by
  unfold execute
  split
  · rfl
  · cases command with
    | act action branches => exact i.act_without s id branches action
    | route order body _ => exact i.setRoute_without s id order body

end Commands

/-! ## Runs without an answer -/

/-- What a step leads to, without the answer to a request. -/
def resultWithout (r : Bool × Interpreter × Session) (id : Nat) : Bool × Interpreter × Session :=
  (r.1, r.2.1, r.2.2.without id)

/-- A command that is run, seen without the answer to a request. -/
def commandWithout (r : Interpreter × Session × Command) (id : Nat) :
    Interpreter × Session × Command := (r.1, r.2.1.without id, r.2.2)

section Steps

variable {id : Nat}

theorem follow_without (e : Effect) : follow (e.without id) = resultWithout (follow e) id := by
  obtain ⟨i, s, outcome⟩ := e
  cases outcome <;> rfl

theorem isWaitOver_without (s : Session) (h : i.wait ≠ .request id) :
    i.isWaitOver (s.without id) = i.isWaitOver s := by
  unfold isWaitOver
  split
  case h_5 id' hwait =>
    exact s.platform.hasAnswer_without fun heq => h (heq ▸ hwait)
  all_goals rfl

theorem updateWalk_without (i : Interpreter) (s : Session) :
    i.updateWalk (s.without id) project = resultWithout (i.updateWalk s project) id := by
  unfold updateWalk
  split
  · rfl
  · rw [Session.world_without]
    dsimp only
    split <;> rfl

theorem runCommand_without (i : Interpreter) (s : Session) :
    i.runCommand (s.without id) project = resultWithout (i.runCommand s project) id := by
  unfold runCommand
  split
  · rfl
  · split
    · rw [execute_without, follow_without]
    · rfl

/-- A step of a script that does not wait for an answer is the same without it. -/
theorem step_without (s : Session) (h : i.terminated = false → i.wait ≠ .request id) :
    i.step (s.without id) project = resultWithout (i.step s project) id := by
  unfold step
  split
  · rfl
  · next hlive =>
    rw [isWaitOver_without s (h (Bool.eq_false_iff.2 hlive)), updateWalk_without]
    split
    · rfl
    · rcases ({ i with wait := .none } : Interpreter).updateWalk s project with ⟨goesOn, j, t⟩
      cases goesOn with
      | false => rfl
      | true => exact runCommand_without j t

theorem running?_without (s : Session) (h : i.terminated = false → i.wait ≠ .request id) :
    i.running? (s.without id) project = (i.running? s project).map (commandWithout · id) := by
  unfold running?
  by_cases hlive : i.terminated = true
  · simp [hlive]
  · rw [isWaitOver_without s (h (Bool.eq_false_iff.2 hlive)), updateWalk_without]
    split
    · rfl
    · rcases ({ i with wait := .none } : Interpreter).updateWalk s project with ⟨goesOn, j, t⟩
      cases goesOn with
      | false => rfl
      | true =>
        dsimp only [resultWithout]
        rw [Option.map_map]
        rfl

end Steps

/-! ## Scripts that wait for another answer -/

/-- A script that covers the screen for a transfer waits for the fade. -/
def FadesToCover (i : Interpreter) : Prop := i.pending = some .transfer → i.wait = .fade

theorem fadesToCover_of_pending (h : i.pending ≠ some .transfer) : i.FadesToCover :=
  fun hpending => absurd hpending h

theorem FadesToCover.keepWaiting (h : i.FadesToCover) : i.keepWaiting.FadesToCover := by
  unfold Interpreter.keepWaiting
  split
  · next count hwait => exact fun hpending => by cases hwait.symm.trans (h hpending)
  · exact h

theorem fadesToCover_follow {j : Interpreter} {command : Command} {outcome : Outcome}
    (pending : i.pending = none) (heads : i.Heads command j outcome) :
    (follow ⟨j, s, outcome⟩).2.1.FadesToCover := by
  have hadvance : i.advance.pending = none := (pending_modifyFrame _ _).trans pending
  cases heads with
  | simply simple =>
    refine fadesToCover_of_pending ?_
    cases outcome with
    | leave =>
      obtain ⟨frames, terminated, hleave⟩ := i.leave_eq
      simp [follow, hleave, pending]
    | next | wait => simp [follow, hadvance]
    | retry | fail => simp [follow, fail, pending]
    | waitHere | enter | jump => exact simple.elim
  | walks walk =>
    exact fadesToCover_of_pending (by simp [follow, advance, pending_modifyFrame, pending])
  | enters => exact fadesToCover_of_pending (by simp [follow, push, hadvance])
  | jumps => exact fadesToCover_of_pending (by simp [follow, jump, pending_modifyFrame, pending])
  | opens => exact fadesToCover_of_pending (by simp [follow])
  | asks => exact fadesToCover_of_pending (by simp [follow])
  | covers => exact fun _ => rfl

/-- The command that comes next, where nothing is pending. -/
theorem fadesToCover_runCommand (pending : i.pending = none) (s : Session) (project : Project) :
    (i.runCommand s project).2.1.FadesToCover := by
  cases hcurrent : i.current? with
  | none =>
    obtain ⟨goesOn, frames, terminated, hend⟩ := runCommand_of_end s project hcurrent
    rw [hend]
    exact fadesToCover_of_pending (by simp [pending])
  | some command =>
    obtain ⟨frame, hframe, hcommand⟩ := Option.bind_eq_some_iff.1 hcurrent
    simp only [runCommand, hframe, hcommand]
    exact fadesToCover_follow pending (directs_execute pending command).heads

/-- The second half of a command leaves nothing pending in a script that goes on. -/
theorem pending_of_second_half (h : i.Coherent) (live : i.terminated = false)
    (elapsed : i.isWaitOver s = true) (pending : i.pending ≠ none) :
    (i.step s project).2.1.terminated = true ∨ (i.step s project).2.1.pending = none := by
  obtain ⟨half, hpending⟩ := Option.ne_none_iff_exists'.1 pending
  cases half with
  | request id =>
    rw [isWaitOver, (h.asked id hpending).1] at elapsed
    obtain ⟨frames, hpast⟩ := i.goPast_eq
    rw [step_of_answered h (awaited?_eq_some.2 ⟨live, hpending⟩) elapsed, hpast]
    exact .inr rfl
  | choices =>
    have hchoosing := isChoosing_iff.2 ⟨live, hpending⟩
    rw [isWaitOver_of_choosing s h hchoosing] at elapsed
    obtain ⟨row, htaken⟩ := Option.isSome_iff_exists.1 elapsed
    obtain ⟨_, order, branches, hcurrent⟩ := h.choosing hpending
    rw [step_of_chosen h hchoosing hcurrent htaken]
    have hplain := i.choiceOutcome_isPlain branches
      (s.world.choiceInRow project i.actingEvent order row)
    refine .inr (GoesOnPlainly.pending (follow_of_plain hplain ?_))
    exact trivial
  | transfer =>
    obtain ⟨order, branches, hcurrent⟩ := h.covered hpending
    have hcovered : ({ i with wait := .none } : Interpreter).pending = some .transfer := hpending
    rw [step_of_running (running?_of_idle project live elapsed (h.walk pending) hcurrent)]
    rcases execute_of_covered s project hcovered (h.kind pending) order branches with
      ⟨w, outcome, _, hplain, hexecute⟩ | ⟨fault, hexecute⟩
    · rw [hexecute]
      refine .inr (GoesOnPlainly.pending (follow_of_plain hplain ?_))
      exact trivial
    · rw [hexecute]
      exact .inl rfl

/-- Whoever comes to cover the screen waits for the fade. -/
theorem fadesToCover_step (h : i.terminated = false → i.Coherent ∧ i.FadesToCover)
    (s : Session) (project : Project) (live : (i.step s project).2.1.terminated = false) :
    (i.step s project).2.1.FadesToCover := by
  cases hlive : i.terminated with
  | true =>
    have hstep : i.step s project = (false, i, s) := by rw [step, if_pos hlive]
    rw [hstep, hlive] at live
    cases live
  | false =>
    obtain ⟨hcoherent, hfades⟩ := h hlive
    cases hover : i.isWaitOver s with
    | false =>
      rw [step_of_waiting project hlive hover]
      exact hfades.keepWaiting
    | true =>
      by_cases hpending : i.pending = none
      · rcases updateWalk_cases { i with wait := .none } s project with
          ⟨walk, w, _, hwalk⟩ | ⟨w, _, hwalk⟩
        · rw [step, if_neg (by simp [hlive]), if_neg (by simp [hover]), hwalk]
          exact fadesToCover_of_pending (by simp [hpending])
        · rw [step, if_neg (by simp [hlive]), if_neg (by simp [hover]), hwalk]
          have hidle : ({ i with wait := .none, walk := none } : Interpreter).pending = none :=
            hpending
          exact fadesToCover_runCommand hidle { s with world := w } project
      · rcases pending_of_second_half hcoherent hlive hover hpending with hended | hnone
        · cases hended.symm.trans live
        · exact fadesToCover_of_pending (by simp [hnone])

/-- A script that does not wait for the answer to a request. -/
structure Indifferent (id : Nat) (i : Interpreter) : Prop where
  coherent : i.terminated = false → i.Coherent
  fades : i.terminated = false → i.FadesToCover
  unawaited : i.awaited? ≠ some id

namespace Indifferent

variable {id : Nat}

theorem wait (h : i.Indifferent id) (live : i.terminated = false) : i.wait ≠ .request id := by
  intro hwait
  have hcoherent := h.coherent live
  cases hpending : i.pending with
  | none =>
    have hplain := hcoherent.plain hpending
    rw [hwait] at hplain
    exact hplain
  | some half =>
    cases half with
    | request id' =>
      obtain ⟨hwait', _⟩ := hcoherent.asked id' hpending
      obtain rfl : id' = id := by simpa using hwait'.symm.trans hwait
      exact h.unawaited (awaited?_eq_some.2 ⟨live, hpending⟩)
    | choices => cases hwait.symm.trans (hcoherent.choosing hpending).1
    | transfer => cases hwait.symm.trans (h.fades live hpending)

/-- Requests get new numbers, so who does not wait for an answer that was asked for before never
does. -/
theorem step (h : i.Indifferent id) (asked : id ≤ s.platform.lastRequestId) (project : Project) :
    (i.step s project).2.1.Indifferent id ∧
      id ≤ (i.step s project).2.2.platform.lastRequestId := by
  obtain ⟨hgoes, hcoherent⟩ : i.GoesTo project s (i.step s project).2 := goesTo_step h.coherent
  have hfades := fadesToCover_step (fun live => ⟨h.coherent live, h.fades live⟩) s project
  rcases hgoes.lastRequestId_cases with ⟨hlast, hold⟩ | ⟨hlast, _, hnew⟩
  · exact ⟨⟨hcoherent, hfades, fun hid => h.unawaited (hold id hid)⟩, by omega⟩
  · refine ⟨⟨hcoherent, hfades, fun hid => ?_⟩, by omega⟩
    have heq : s.platform.lastRequestId + 1 = id := by simpa using hnew.symm.trans hid
    omega

end Indifferent

/-- A script that goes past a command waits for nothing. -/
theorem indifferent_goPast (i : Interpreter) (id : Nat) : i.goPast.Indifferent id := by
  obtain ⟨frames, hpast⟩ := i.goPast_eq
  rw [hpast]
  exact ⟨fun _ => .of_plain rfl trivial, fun _ => fadesToCover_of_pending (by simp),
    by simp [awaited?]⟩

/-! ## Runs that come to their end -/

/-- Whether a run comes to its end for this tick within so many steps, instead of being stopped. -/
def stopsWithin (project : Project) : (steps : Nat) → Interpreter → Session → Bool
  | 0, _, _ => false
  | steps + 1, i, s =>
    match i.step s project with
    | (false, _, _) => true
    | (true, i, s) => stopsWithin project steps i s

/-- A run of a script that does not wait for an answer is the same without it. -/
theorem run_without {id : Nat} (h : i.Indifferent id) (asked : id ≤ s.platform.lastRequestId)
    (project : Project) (n : Nat) :
    run project n i (s.without id) =
        ((run project n i s).1, (run project n i s).2.without id) ∧
      i.commands project n (s.without id) = (i.commands project n s).map (commandWithout · id) := by
  induction n generalizing i s with
  | zero => exact ⟨rfl, rfl⟩
  | succ n ih =>
    obtain ⟨hnext, hasked⟩ := h.step asked project
    have hstep : i.step (s.without id) project = _ := step_without s h.wait
    have hrunning : i.running? (s.without id) project = _ := running?_without s h.wait
    unfold run commands
    rw [hstep, hrunning]
    rcases hresult : i.step s project with ⟨goesOn, i', s'⟩
    rw [hresult] at hnext hasked
    have hcommand : ((i.running? s project).map (commandWithout · id)).toList =
        (i.running? s project).toList.map (commandWithout · id) := by
      cases i.running? s project <;> rfl
    cases goesOn with
    | false =>
      refine ⟨rfl, ?_⟩
      simp [resultWithout, hcommand]
    | true =>
      obtain ⟨hrun, hcommands⟩ := ih hnext hasked
      refine ⟨hrun, ?_⟩
      simp [resultWithout, hcommand, hcommands]

/-- Whether an answer that nobody waits for is there or not, a run ends up the same but for it. -/
theorem run_agrees {id : Nat} (h : i.Indifferent id)
    (asked : s.platform.hasAnswer id = true → id ≤ s.platform.lastRequestId) (project : Project)
    (n : Nat) :
    (run project n i s).1 = (run project n i (s.without id)).1 ∧
      (run project n i s).2.without id = (run project n i (s.without id)).2.without id ∧
      (i.commands project n s).map (commandWithout · id) =
        (i.commands project n (s.without id)).map (commandWithout · id) := by
  cases hanswer : s.platform.hasAnswer id with
  | false =>
    rw [Session.without_of_unanswered hanswer]
    exact ⟨rfl, rfl, rfl⟩
  | true =>
    obtain ⟨hrun, hcommands⟩ := run_without h (asked hanswer) project n
    rw [hrun, hcommands, Session.without_without, List.map_map]
    have htwice : (commandWithout · id) ∘ (commandWithout · id) = (commandWithout · id) := by
      funext r
      simp only [Function.comp, commandWithout, Session.without_without]
    exact ⟨rfl, rfl, by rw [htwice]⟩

/-- Who has come to his end does nothing more, however many steps he may make. -/
theorem run_succ_of_stops {n : Nat} (h : stopsWithin project n i s = true) :
    run project (n + 1) i s = run project n i s ∧
      i.commands project (n + 1) s = i.commands project n s := by
  induction n generalizing i s with
  | zero => cases h
  | succ n ih =>
    unfold stopsWithin at h
    unfold run commands
    rcases hresult : i.step s project with ⟨goesOn, i', s'⟩
    rw [hresult] at h
    cases goesOn with
    | false => exact ⟨rfl, rfl⟩
    | true =>
      obtain ⟨hrun, hcommands⟩ := ih h
      refine ⟨hrun, ?_⟩
      simp only [hcommands]

/-! ## Forgetting -/

/-- A script that runs and waits for the answer to a request that its command made. -/
structure SuspendedOn (i : Interpreter) (id : Nat) : Prop where
  live : i.terminated = false
  pending : i.pending = some (.request id)
  wait : i.wait = .request id
  walk : i.walk = none
  kind : i.kind ≠ .route
  current : ∃ c, i.current? = some c ∧ c.asks = true

namespace SuspendedOn

variable {id : Nat}

theorem of_coherent (h : i.Coherent) (awaited : i.awaited? = some id) : i.SuspendedOn id := by
  obtain ⟨hlive, hpending⟩ := awaited?_eq_some.1 awaited
  have hsome : i.pending ≠ none := by simp [hpending]
  obtain ⟨hwait, hcurrent⟩ := h.asked id hpending
  exact ⟨hlive, hpending, hwait, h.walk hsome, h.kind hsome, hcurrent⟩

theorem coherent (h : i.SuspendedOn id) : i.Coherent := by
  obtain ⟨c, hcurrent, hasks⟩ := h.current
  exact .of_asked h.wait h.pending h.walk h.kind hcurrent hasks

theorem awaited (h : i.SuspendedOn id) : i.awaited? = some id :=
  awaited?_eq_some.2 ⟨h.live, h.pending⟩

theorem forgetRequest_eq (h : i.SuspendedOn id) : i.forgetRequest = i.goPast := by
  rw [forgetRequest, h.pending]
  rfl

end SuspendedOn

/-- A script that was suspended on a request and forgets it goes on as if the answer had come.  The
session `s` has the answer, and `t` is one like it that may lack it; where it does not, the request
must have been made.  Both runs end with the same script and the same world, and the answer is all
in which the platforms can differ.  The run that takes the answer runs the command that asked once
more, and then the very commands of the other run. -/
theorem update_forgetRequest {i : Interpreter} {id : Nat} {s t : Session}
    (suspended : i.SuspendedOn id) (ready : s.platform.hasAnswer id = true)
    (same : t.without id = s.without id)
    (asked : t.platform.hasAnswer id = true → id ≤ t.platform.lastRequestId)
    (stops : stopsWithin project stepLimit i s = true) :
    (i.forgetRequest.update t project).1 = (i.update s project).1 ∧
      (i.forgetRequest.update t project).2.world = (i.update s project).2.world ∧
      (i.forgetRequest.update t project).2.without id = (i.update s project).2.without id ∧
      ∃ c later, c.asks = true ∧
        i.commands project stepLimit s = ({ i with wait := .none }, s, c) :: later ∧
        (i.forgetRequest.commands project stepLimit t).map (commandWithout · id) =
          later.map (commandWithout · id) := by
  have hstep : i.step s project = (true, i.goPast, s.without id) :=
    step_of_answered suspended.coherent suspended.awaited ready
  obtain ⟨c, hasks, hrunning⟩ :=
    running?_of_awaited project suspended.coherent suspended.awaited ready
  -- the first step of the run that takes the answer is all that the other run leaves out
  have hstops : stopsWithin project 999 i.goPast (s.without id) = true := by
    have h : stopsWithin project (999 + 1) i s = true := stops
    unfold stopsWithin at h
    rwa [hstep] at h
  have hupdate : i.update s project = run project 999 i.goPast (s.without id) := by
    have h : i.update s project = run project (999 + 1) i s := rfl
    rw [h, run, hstep]
  have hcommands : i.commands project stepLimit s =
      ({ i with wait := .none }, s, c) :: i.goPast.commands project 999 (s.without id) := by
    have h : i.commands project stepLimit s = i.commands project (999 + 1) s := rfl
    rw [h, commands, hstep, hrunning]
    rfl
  obtain ⟨hrun, hmore⟩ := run_succ_of_stops hstops
  obtain ⟨hscript, hsession, hlater⟩ :=
    run_agrees (indifferent_goPast i id) asked project stepLimit
  have hforget : i.forgetRequest.update t project = run project stepLimit i.goPast t := by
    rw [suspended.forgetRequest_eq]
    rfl
  rw [same] at hscript hsession hlater
  have hsession' : (i.forgetRequest.update t project).2.without id =
      (i.update s project).2.without id := by
    rw [hforget, hupdate, hsession]
    exact congrArg (fun r => r.2.without id) hrun
  have hworld := congrArg Session.world hsession'
  refine ⟨?_, hworld, hsession', c, _, hasks, hcommands, ?_⟩
  · rw [hforget, hupdate, hscript]
    exact congrArg (·.1) hrun
  · rw [suspended.forgetRequest_eq, hlater]
    exact congrArg (List.map (commandWithout · id)) hmore

end Interpreter

/-- In a game every script that waits for an answer is suspended on its request, and the request was
made. -/
theorem Session.Begins.suspendedOn {s₀ : Session} (begins : Session.Begins project s₀)
    (acts : List Session.Act) {i : Interpreter} {id : Nat}
    (there : i ∈ (s₀.after project acts).world.stage.scripts) (awaited : i.awaited? = some id) :
    i.SuspendedOn id ∧ id ≤ (s₀.after project acts).platform.lastRequestId := by
  have hregistry : (Moment.still (s₀.after project acts)).Registry :=
    registry_after begins.registry acts
  have hlisted : i ∈ (Moment.still (s₀.after project acts)).scripts := by
    simpa [Moment.scripts, Moment.off, Moment.still] using there
  obtain ⟨hlive, _⟩ := Interpreter.awaited?_eq_some.1 awaited
  refine ⟨.of_coherent (hregistry.coherent i hlisted hlive) awaited, ?_⟩
  exact hregistry.awaited_le id ((Multiset.mem_filterMap _ _).2 ⟨i, hlisted, awaited⟩)

/-- A common event unlocks an achievement in a branch, sets a switch, and unlocks another one. -/
def encoreRoom : Project :=
  .emptyRoom [.act (.branch []) [[.act (.unlockAchievement 7) []]],
    .act (.setSwitch 3 .constant true false) [], .act (.unlockAchievement 8) []]

/-- The answer is that the first achievement was not unlocked.  With it and past it the script goes
on to wait for the second one. -/
theorem encoreRoom_goes_on :
    ∃ w i, World.start encoreRoom 1 = .ok w ∧
      let s := Session.after encoreRoom ⟨w, .start encoreRoom .deferred⟩
        [.startCommonEvent 1, .tick .none]
      let t := s.modifyPlatform fun p =>
        (p.deliver ⟨1, .unlockAchievement, .failure⟩).collect encoreRoom
      i ∈ s.world.stage.scripts ∧ i.SuspendedOn 1 ∧ t.platform.hasAnswer 1 = true ∧
        1 ≤ t.platform.lastRequestId ∧ i.stopsWithin encoreRoom stepLimit t = true ∧
        (i.update t encoreRoom).1.awaited? = some 2 ∧
        (i.update t encoreRoom).2.world.memory.switch 3 = true ∧
        (i.forgetRequest.update t encoreRoom).1 = (i.update t encoreRoom).1 ∧
        (i.forgetRequest.update t encoreRoom).2.world = (i.update t encoreRoom).2.world ∧
        ((i.forgetRequest.commands encoreRoom stepLimit t).length,
          (i.commands encoreRoom stepLimit t).length) = (2, 3) := by
  obtain ⟨w, hstart, i, hi, hawaited, hready, hasked, hstops, hwaits, hswitch, hcount⟩ :
      ∃ w, World.start encoreRoom 1 = .ok w ∧
        let s := Session.after encoreRoom ⟨w, .start encoreRoom .deferred⟩
          [.startCommonEvent 1, .tick .none]
        let t := s.modifyPlatform fun p =>
          (p.deliver ⟨1, .unlockAchievement, .failure⟩).collect encoreRoom
        ∃ i ∈ s.world.stage.interpreters, i.awaited? = some 1 ∧ t.platform.hasAnswer 1 = true ∧
          1 ≤ t.platform.lastRequestId ∧ i.stopsWithin encoreRoom stepLimit t = true ∧
          (i.update t encoreRoom).1.awaited? = some 2 ∧
          (i.update t encoreRoom).2.world.memory.switch 3 = true ∧
          ((i.forgetRequest.commands encoreRoom stepLimit t).length,
            (i.commands encoreRoom stepLimit t).length) = (2, 3) := by
    refine ⟨_, rfl, ?_⟩
    decide +kernel
  have hbegins : Session.Begins encoreRoom ⟨w, .start encoreRoom .deferred⟩ :=
    .new 1 .deferred hstart
  have hthere := Stage.mem_scripts_of_interpreter hi
  obtain ⟨hsuspended, _⟩ := hbegins.suspendedOn _ hthere hawaited
  obtain ⟨hscript, hworld, _⟩ :=
    Interpreter.update_forgetRequest hsuspended hready rfl (fun _ => hasked) hstops
  exact ⟨w, i, hstart, hthere, hsuspended, hready, hasked, hstops, hwaits, hswitch, hscript, hworld,
    hcount⟩

end Adventure
