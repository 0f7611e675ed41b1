import Adventure.Proofs.Session.Directions
import Adventure.Proofs.Session.Roster

/-!
# Scripts that can be resumed

Between two ticks every script stands where it can go on: on its stack, with a wait that fits what
is pending, on the command that the second half belongs to, and without anything to wait for while
its character moves.  Each step of a script keeps it so, whatever the session is like, and with the
steps every tick, every act of the host and every load does.
-/

namespace Adventure

open Session (Act)

variable {project : Project}

namespace Interpreter

/-- A suspended script that can go on from where it is. -/
structure Resumable (i : Interpreter) : Prop extends Stands i where
  choices : i.pending = some .choices →
    i.wait = .choices ∧ ∃ order branches, i.current? = some (.act (.showChoices order) branches)
  request (id : Nat) : i.pending = some (.request id) →
    i.wait = .request id ∧ ∃ c, i.current? = some c ∧ c.asks = true
  transfer : i.pending = some .transfer →
    i.wait = .fade ∧ ∃ order branches, i.current? = some (.act (.transfer order) branches) ∧
      order.transition ≠ .none
  walk : i.walk ≠ none → i.wait = .none ∧ i.pending = none

/-- A script between two commands: nothing is pending, and its character does not move. -/
structure Idle (i : Interpreter) : Prop extends Stands i where
  pending : i.pending = none
  walk : i.walk = none

variable {i j : Interpreter} {s : Session} {command : Command} {f : Frame}

namespace Idle

/-- Whatever it waits for. -/
theorem resumable (h : i.Idle) : i.Resumable := by
  refine ⟨h.toStands, fun hsome => ?_, fun id hsome => ?_, fun hsome => ?_,
    fun hsome => absurd h.walk hsome⟩ <;> cases h.pending.symm.trans hsome

theorem setWait (h : i.Idle) (wait : Wait) : ({ i with wait := wait } : Interpreter).Idle :=
  ⟨⟨h.live, h.stack, h.route, h.depth⟩, h.pending, h.walk⟩

theorem advance (h : i.Idle) (current : i.current? = some command) : i.advance.Idle :=
  ⟨h.toStands.advance current, (pending_modifyFrame _ _).trans h.pending,
    (walk_modifyFrame _ _).trans h.walk⟩

theorem jump (h : i.Idle) {index : Nat} (frame : i.frame? = some f)
    (inside : index ≤ f.commands.length) : (i.jump index).Idle :=
  ⟨h.toStands.jump frame inside, (pending_modifyFrame _ _).trans h.pending,
    (walk_modifyFrame _ _).trans h.walk⟩

theorem push (h : i.Idle) (notRoute : i.kind ≠ .route) (kind : f.kind ≠ .root)
    (inside : f.index ≤ f.commands.length) : (i.push f).Idle :=
  ⟨h.toStands.push notRoute kind inside, h.pending, h.walk⟩

theorem leave (h : i.Idle) (live : i.leave.terminated = false) : i.leave.Idle := by
  refine ⟨h.toStands.leave live, ?_, ?_⟩ <;> obtain ⟨frames, terminated, hleave⟩ := i.leave_eq <;>
    rw [hleave]
  · exact h.pending
  · exact h.walk

theorem finishFrame (h : i.Idle) (live : i.finishFrame.2.terminated = false) :
    i.finishFrame.2.Idle := by
  refine ⟨h.toStands.finishFrame live, ?_, ?_⟩ <;>
    obtain ⟨frames, terminated, hfinish⟩ := i.finishFrame_eq <;> rw [hfinish]
  · exact h.pending
  · exact h.walk

end Idle

namespace Resumable

theorem idle (h : i.Resumable) (pending : i.pending = none) (walk : i.walk = none) : i.Idle :=
  ⟨h.toStands, pending, walk⟩

theorem of_choices {order : ChoicesOrder} {branches : List Script} (h : i.Stands)
    (pending : i.pending = some .choices) (wait : i.wait = .choices) (walk : i.walk = none)
    (current : i.current? = some (.act (.showChoices order) branches)) : i.Resumable := by
  refine ⟨h, fun _ => ⟨wait, order, branches, current⟩, fun id hsome => ?_, fun hsome => ?_,
    fun hsome => absurd walk hsome⟩ <;> cases pending.symm.trans hsome

theorem of_request {id : Nat} (h : i.Stands) (pending : i.pending = some (.request id))
    (wait : i.wait = .request id) (walk : i.walk = none) (current : i.current? = some command)
    (asks : command.asks = true) : i.Resumable := by
  refine ⟨h, fun hsome => ?_, fun id' hsome => ?_, fun hsome => ?_,
    fun hsome => absurd walk hsome⟩ <;> cases pending.symm.trans hsome
  exact ⟨wait, command, current, asks⟩

theorem of_transfer {order : TransferOrder} {branches : List Script} (h : i.Stands)
    (pending : i.pending = some .transfer) (wait : i.wait = .fade) (walk : i.walk = none)
    (current : i.current? = some (.act (.transfer order) branches))
    (transition : order.transition ≠ .none) : i.Resumable := by
  refine ⟨h, fun hsome => ?_, fun id hsome => ?_,
    fun _ => ⟨wait, order, branches, current, transition⟩, fun hsome => absurd walk hsome⟩ <;>
    cases pending.symm.trans hsome

theorem of_walk (h : i.Stands) (pending : i.pending = none) (wait : i.wait = .none) :
    i.Resumable := by
  refine ⟨h, fun hsome => ?_, fun id hsome => ?_, fun hsome => ?_, fun _ => ⟨wait, pending⟩⟩ <;>
    cases pending.symm.trans hsome

theorem walk_eq_none (h : i.Resumable) (pending : i.pending ≠ none) : i.walk = none :=
  Decidable.byContradiction fun hwalk => pending (h.walk hwalk).2

/-- A script with a second half to come stands on a command. -/
theorem exists_current (h : i.Resumable) (pending : i.pending ≠ none) :
    ∃ c, i.current? = some c := by
  obtain ⟨half, hpending⟩ := Option.ne_none_iff_exists'.1 pending
  cases half with
  | choices =>
    obtain ⟨_, order, branches, hcurrent⟩ := h.choices hpending
    exact ⟨_, hcurrent⟩
  | request id =>
    obtain ⟨_, c, hcurrent, _⟩ := h.request id hpending
    exact ⟨c, hcurrent⟩
  | transfer =>
    obtain ⟨_, order, branches, hcurrent, _⟩ := h.transfer hpending
    exact ⟨_, hcurrent⟩

/-- A script that waits for frames has nothing pending, and its character does not move. -/
theorem idle_of_frames (h : i.Resumable) {count : UInt32} (wait : i.wait = .frames count) :
    i.Idle := by
  refine h.idle ?_ ?_
  · cases hpending : i.pending with
    | none => rfl
    | some half =>
      cases half with
      | choices => cases wait.symm.trans (h.choices hpending).1
      | request id => cases wait.symm.trans (h.request id hpending).1
      | transfer => cases wait.symm.trans (h.transfer hpending).1
  · exact Decidable.byContradiction fun hwalk => by cases wait.symm.trans (h.walk hwalk).1

theorem keepWaiting (h : i.Resumable) : i.keepWaiting.Resumable := by
  unfold Interpreter.keepWaiting
  split
  · next count hwait => exact ((h.idle_of_frames hwait).setWait _).resumable
  · exact h

/-- A script that forgets its request goes past the command that made it. -/
theorem forgetRequest (h : i.Resumable) : i.forgetRequest.Resumable := by
  unfold Interpreter.forgetRequest
  split
  · next id hpending =>
    obtain ⟨_, c, hcurrent, _⟩ := h.request id hpending
    have hidle : ({ i with pending := none, wait := .none } : Interpreter).Idle :=
      ⟨⟨h.live, h.stack, h.route, h.depth⟩, rfl, h.walk_eq_none (by simp [hpending])⟩
    exact (hidle.advance hcurrent).resumable
  · exact h

end Resumable

theorem resumable_start (id : Nat) (mapId roomId eventId : Int32) {kind : InterpreterKind}
    (script : Script) (isScript : kind ≠ .route) :
    (start id mapId roomId eventId kind script).Resumable :=
  Idle.resumable ⟨stands_start id mapId roomId eventId script isScript, rfl, rfl⟩

theorem resumable_startRoute (id : Nat) (mapId roomId : Int32) (route : RouteState)
    (body : Script) : (startRoute id mapId roomId route body).Resumable :=
  Idle.resumable ⟨stands_startRoute id mapId roomId route body, rfl, rfl⟩

/-! ## Commands -/

/-- What a step leaves: the script can be resumed unless it has ended, and the scripts on the stage
are those that were there or begin. -/
structure ResumesTo (s : Session) (r : Interpreter × Session) : Prop where
  script : r.1.terminated = false → r.1.Resumable
  world : s.world.Recasts r.2.world

theorem recasts_follow (e : Effect) : e.session.world.Recasts (follow e).2.2.world :=
  .of_sameCast (follow_keeps e).2.2.toSameCast

/-- A script goes on after a command for which nothing was pending. -/
theorem resumesTo_follow {e : Effect} (h : j.Idle) (wait : j.wait = .none)
    (current : j.current? = some command) (directs : e.Directs j s command) :
    ResumesTo s (follow e).2 := by
  refine ⟨?_, directs.world.trans (recasts_follow e)⟩
  obtain ⟨i, t, outcome⟩ := e
  have hheads : j.Heads command i outcome := directs.heads
  have hadvanced : j.advance.Idle := h.advance current
  cases hheads with
  | simply simple =>
    cases outcome with
    | next => exact fun _ => hadvanced.resumable
    | retry => exact fun _ => h.resumable
    | wait wait' => exact fun _ => (hadvanced.setWait wait').resumable
    | leave => exact fun live => (h.leave live).resumable
    | fail fault => exact fun live => by cases live
    | waitHere | enter | jump => exact simple.elim
  | walks walk =>
    have hstands : ({ j with walk := some walk } : Interpreter).Stands :=
      ⟨h.live, h.stack, h.route, h.depth⟩
    exact fun _ => .of_walk (hstands.advance current)
      ((pending_modifyFrame _ _).trans h.pending) ((wait_modifyFrame _ _).trans wait)
  | enters script eventId notRoot notRoute =>
    have hkind : j.advance.kind = j.kind := kind_eq_of_origin (origin_modifyFrame j Frame.advance)
    exact fun _ => (hadvanced.push (hkind ▸ notRoute) notRoot (Nat.zero_le _)).resumable
  | jumps frame inside => exact fun _ => (h.jump frame inside.le).resumable
  | opens isCommand =>
    exact fun _ =>
      .of_choices ⟨h.live, h.stack, h.route, h.depth⟩ rfl rfl h.walk (isCommand ▸ current)
  | asks id isCommand =>
    exact fun _ =>
      .of_request ⟨h.live, h.stack, h.route, h.depth⟩ rfl rfl h.walk current isCommand
  | covers isCommand transition =>
    exact fun _ => .of_transfer ⟨h.live, h.stack, h.route, h.depth⟩ rfl rfl h.walk
      (isCommand ▸ current) transition

/-! ### Second halves -/

/-- The script that nothing is pending for any more. -/
def settled (i : Interpreter) : Interpreter := { i with wait := .none, pending := none }

/-- A script goes on after the second half of its command. -/
theorem resumesTo_of_settled {s' : Session} {outcome : Outcome} (h : i.Resumable)
    (pending : i.pending ≠ none) (current : i.current? = some command)
    (heads : i.settled.Heads command i.settled outcome) (world : s.world.Recasts s'.world) :
    ResumesTo s (follow ⟨i.settled, s', outcome⟩).2 := by
  have hidle : i.settled.Idle :=
    ⟨⟨h.live, h.stack, h.route, h.depth⟩, rfl, h.walk_eq_none pending⟩
  have hdirects : Effect.Directs i.settled s' command ⟨i.settled, s', outcome⟩ := ⟨heads, .refl _⟩
  have hfollow := resumesTo_follow hidle rfl current hdirects
  exact ⟨hfollow.script, world.trans hfollow.world⟩

theorem resumesTo_fail (i : Interpreter) (s : Session) (fault : ScriptFault) :
    ResumesTo s (follow (i.go s (.fail fault))).2 :=
  ⟨fun live => (by cases live), .of_stage_eq rfl⟩

/-- The choice that was picked is entered, or the script waits on. -/
theorem resumesTo_enterChoice {order : ChoicesOrder} {branches : List Script} (h : i.Resumable)
    (pending : i.pending = some .choices) (notRoute : i.kind ≠ .route)
    (current : i.current? = some (.act (.showChoices order) branches)) :
    ResumesTo s (follow
      (({ i with wait := .none } : Interpreter).enterChoice s project order branches)).2 := by
  have hsome : i.pending ≠ none := by simp [pending]
  unfold enterChoice
  split
  · refine ⟨fun _ => .of_choices ⟨h.live, h.stack, h.route, h.depth⟩ pending rfl ?_ current,
      .refl _⟩
    exact h.walk_eq_none hsome
  · dsimp only
    split
    · exact resumesTo_of_settled h hsome current (.enters _ _ (by simp) notRoute) (.of_stage_eq rfl)
    · exact resumesTo_of_settled h hsome current (.simply trivial) (.of_stage_eq rfl)

/-- Behind the cover the player comes to the other room, or the script ends. -/
theorem resumesTo_transfer {order : TransferOrder} {branches : List Script} (h : i.Resumable)
    (pending : i.pending = some .transfer)
    (current : i.current? = some (.act (.transfer order) branches)) :
    ResumesTo s (follow (({ i with wait := .none } : Interpreter).transfer s project order)).2 := by
  unfold Interpreter.transfer
  simp only [pending, beq_self_eq_true, ↓reduceIte]
  split
  · next heq => cases heq
  · split
    · exact resumesTo_fail _ _ _
    · next w hw =>
      refine resumesTo_of_settled h (by simp [pending]) current (.simply trivial) ?_
      exact (World.Recasts.transfer hw).trans (.of_stage_eq rfl)

/-- The second half of a command.  A route has none: its command is refused there. -/
theorem resumesTo_of_pending (h : i.Resumable) (pending : i.pending ≠ none)
    (current : i.current? = some command) :
    ResumesTo s
      (follow (({ i with wait := .none } : Interpreter).execute s project command)).2 := by
  by_cases hrefused : i.kind = .route ∧ command.fitsRoute = false
  · have hexecute : ({ i with wait := .none } : Interpreter).execute s project command =
        ({ i with wait := .none } : Interpreter).go s (.fail (.notInRoute command.name)) :=
      if_pos (by simpa using hrefused)
    rw [hexecute]
    exact resumesTo_fail _ _ _
  have hkind : command.fitsRoute = false → i.kind ≠ .route := fun hfits hroute =>
    hrefused ⟨hroute, hfits⟩
  obtain ⟨half, hpending⟩ := Option.ne_none_iff_exists'.1 pending
  cases half with
  | choices =>
    obtain ⟨_, order, branches, hchoices⟩ := h.choices hpending
    obtain rfl := Option.some.inj (current.symm.trans hchoices)
    rw [execute_of_choosing (i := { i with wait := .none }) hpending (hkind rfl)]
    exact resumesTo_enterChoice h hpending (hkind rfl) current
  | request id =>
    obtain ⟨_, c, hasks, hc⟩ := h.request id hpending
    obtain rfl := Option.some.inj (current.symm.trans hasks)
    rw [execute_of_asked (i := { i with wait := .none }) hpending
      (hkind (Command.fitsRoute_of_asks hc)) hc]
    exact resumesTo_of_settled (i := i) h pending current (.simply trivial) (.of_stage_eq rfl)
  | transfer =>
    obtain ⟨_, order, branches, htransfer, _⟩ := h.transfer hpending
    obtain rfl := Option.some.inj (current.symm.trans htransfer)
    have hexecute : ({ i with wait := .none } : Interpreter).execute s project
        (.act (.transfer order) branches) =
          ({ i with wait := .none } : Interpreter).transfer s project order :=
      if_neg (by simp [hkind rfl])
    rw [hexecute]
    exact resumesTo_transfer h hpending current

/-- Every command, its first half and its second, whose wait is over. -/
theorem resumesTo_execute (h : i.Resumable) (walk : i.walk = none)
    (current : i.current? = some command) (s : Session) (project : Project) :
    ResumesTo s
      (follow (({ i with wait := .none } : Interpreter).execute s project command)).2 := by
  by_cases hpending : i.pending = none
  · have hidle : ({ i with wait := .none } : Interpreter).Idle :=
      (h.idle hpending walk).setWait .none
    exact resumesTo_follow hidle rfl current (directs_execute hidle.pending command)
  · exact resumesTo_of_pending h hpending current

/-! ## Steps -/

/-- The command that comes next, or the end of a list. -/
theorem resumesTo_runCommand (h : i.Resumable) (walk : i.walk = none) (s : Session)
    (project : Project) :
    ResumesTo s (({ i with wait := .none } : Interpreter).runCommand s project).2 := by
  unfold runCommand
  split
  · exact ⟨fun live => (by cases live), .refl _⟩
  · next frame hframe =>
    have hcurrent : i.current? = frame.current? := by
      rw [current?, show i.frame? = some frame from hframe]
      rfl
    split
    · next command hcommand =>
      exact resumesTo_execute h walk (hcurrent.trans hcommand) s project
    · next hend =>
      have hpending : i.pending = none := Decidable.byContradiction fun hsome => by
        obtain ⟨c, hc⟩ := h.exists_current hsome
        cases hc.symm.trans (hcurrent.trans hend)
      have hidle := (h.idle hpending walk).setWait .none
      exact ⟨fun live => (hidle.finishFrame live).resumable, .refl _⟩

/-- Once its wait is over a script moves on with its character, and then with its commands. -/
theorem resumesTo_of_elapsed (h : i.Resumable) (elapsed : i.isWaitOver s = true) :
    ResumesTo s (i.step s project).2 := by
  have hworld : s.world.Recasts
      (({ i with wait := .none } : Interpreter).updateWalk s project).2.2.world := by
    obtain ⟨walk, w, hcalm, hwalk⟩ := calm_updateWalk { i with wait := .none } s project
    rw [hwalk]
    exact .of_sameCast hcalm.toSameCast
  rw [step, if_neg (by simp [h.live]), if_neg (by simp [elapsed])]
  by_cases hwalk : i.walk = none
  · have hstays : ({ i with wait := .none } : Interpreter).updateWalk s project =
        (true, { i with wait := .none }, s) := by
      rw [updateWalk, show ({ i with wait := .none } : Interpreter).walk = none from hwalk]
    rw [hstays]
    exact resumesTo_runCommand h hwalk s project
  · obtain ⟨_, hpending⟩ := h.walk hwalk
    rcases updateWalk_cases { i with wait := .none } s project with
      ⟨walk, w, _, hmoves⟩ | ⟨w, _, harrives⟩
    · rw [hmoves] at hworld ⊢
      exact ⟨fun _ => .of_walk ⟨h.live, h.stack, h.route, h.depth⟩ hpending rfl, hworld⟩
    · rw [harrives] at hworld ⊢
      have hidle : ({ i with walk := none } : Interpreter).Idle :=
        ⟨⟨h.live, h.stack, h.route, h.depth⟩, hpending, rfl⟩
      have hruns := resumesTo_runCommand hidle.resumable rfl { s with world := w } project
      exact ⟨hruns.script, hworld.trans hruns.world⟩

/-- A step of a script that can be resumed, in whatever session. -/
theorem resumesTo_step (h : i.terminated = false → i.Resumable) (s : Session) (project : Project) :
    ResumesTo s (i.step s project).2 := by
  cases hlive : i.terminated with
  | true =>
    have hstep : i.step s project = (false, i, s) := by rw [step, if_pos hlive]
    rw [hstep]
    exact ⟨h, .refl _⟩
  | false =>
    cases hover : i.isWaitOver s with
    | false =>
      rw [step_of_waiting project hlive hover]
      exact ⟨fun _ => (h hlive).keepWaiting, .refl _⟩
    | true => exact resumesTo_of_elapsed (h hlive) hover

/-- Any number of steps. -/
theorem resumesTo_run (n : Nat) (h : i.terminated = false → i.Resumable) (s : Session)
    (project : Project) : ResumesTo s (run project n i s) := by
  induction n generalizing i s with
  | zero => exact ⟨h, .refl _⟩
  | succ n ih =>
    have hstep := resumesTo_step h s project
    unfold run
    rcases hresult : i.step s project with ⟨goesOn, i', s'⟩
    rw [hresult] at hstep
    cases goesOn with
    | false => exact hstep
    | true =>
      have hmore := ih hstep.script s'
      exact ⟨hmore.script, hstep.world.trans hmore.world⟩

/-- Scripts that take turns one after the other. -/
theorem resumesTo_updateAll {turn : List Interpreter}
    (h : ∀ i ∈ turn, i.terminated = false → i.Resumable) (s : Session) (project : Project) :
    (∀ i ∈ (updateAll project turn s).1, i.terminated = false → i.Resumable) ∧
      s.world.Recasts (updateAll project turn s).2.world := by
  induction turn generalizing s with
  | nil => exact ⟨h, .refl _⟩
  | cons i rest ih =>
    have hfirst : ResumesTo s (i.update s project) :=
      resumesTo_run stepLimit (h i List.mem_cons_self) s project
    obtain ⟨hrest, hmore⟩ := ih (fun j hj => h j (List.mem_cons_of_mem _ hj)) (i.update s project).2
    exact ⟨List.forall_mem_cons.2 ⟨hfirst.script, hrest⟩, hfirst.world.trans hmore⟩

/-- However a script that can be resumed is changed, it can be resumed afterwards. -/
structure KeepsResumable (project : Project) (i : Interpreter) : Prop where
  /-- Any command, its first half or its second, once the wait is over. -/
  command (s : Session) {c : Command} (walk : i.walk = none) (current : i.current? = some c) :
    let r := follow (({ i with wait := .none } : Interpreter).execute s project c)
    r.2.1.terminated = false → r.2.1.Resumable
  /-- A wait that is over, or one that goes on. -/
  step (s : Session) : let r := i.step s project; r.2.1.terminated = false → r.2.1.Resumable
  /-- As many steps as a tick allows. -/
  run (n : Nat) (s : Session) : let r := run project n i s; r.1.terminated = false → r.1.Resumable
  advance {c : Command} (idle : i.Idle) (current : i.current? = some c) : i.advance.Resumable
  jump {f : Frame} {index : Nat} (idle : i.Idle) (frame : i.frame? = some f)
    (inside : index ≤ f.commands.length) : (i.jump index).Resumable
  push (script : Script) {kind : FrameKind} (eventId : Int32) (idle : i.Idle)
    (notRoute : i.kind ≠ .route) (notRoot : kind ≠ .root) :
    (i.push (.enter script kind eventId)).Resumable
  leave (idle : i.Idle) : i.leave.terminated = false → i.leave.Resumable
  finishFrame (idle : i.Idle) :
    i.finishFrame.2.terminated = false → i.finishFrame.2.Resumable
  forgetRequest : i.forgetRequest.Resumable

theorem Resumable.keeps (h : i.Resumable) (project : Project) : i.KeepsResumable project where
  command s _ walk current := (resumesTo_execute h walk current s project).script
  step s := (resumesTo_step (fun _ => h) s project).script
  run n s := (resumesTo_run n (fun _ => h) s project).script
  advance idle current := (idle.advance current).resumable
  jump idle frame inside := (idle.jump frame inside).resumable
  push _ _ _ idle notRoute notRoot := (idle.push notRoute notRoot (Nat.zero_le _)).resumable
  leave idle live := (idle.leave live).resumable
  finishFrame idle live := (idle.finishFrame live).resumable
  forgetRequest := h.forgetRequest

end Interpreter

/-! ## Worlds -/

/-- All scripts on the stage can be resumed. -/
def World.Resumable (w : World) : Prop :=
  ∀ i ∈ w.stage.interpreters ++ w.stage.routes, i.Resumable

namespace World.Resumable

variable {w w' : World}

theorem of_recasts (h : w.Resumable) (world : w.Recasts w') : w'.Resumable := by
  intro i hi
  rcases List.mem_append.1 hi with hi | hi
  · exact h i (List.mem_append_left _ (world.interpreters i hi))
  · rcases world.routes i hi with hi | ⟨id, mapId, roomId, route, body, rfl⟩
    · exact h i (List.mem_append_right _ hi)
    · exact Interpreter.resumable_startRoute id mapId roomId route body

theorem of_sameCast (h : w.Resumable) (same : w.SameCast w') : w'.Resumable :=
  h.of_recasts (.of_sameCast same)

theorem opens (h : w.Resumable) (opens : w.Opens w') : w'.Resumable := by
  cases opens with
  | aside calm => exact h.of_sameCast calm.toSameCast
  | starts kind eventId script isScript alone last fade stage =>
    intro i hi
    rw [stage.interpreters, stage.routes, Stage.addInterpreter] at hi
    simp only [List.append_assoc, List.mem_append, List.mem_singleton] at hi
    rcases hi with hi | rfl | hi
    · exact h i (List.mem_append_left _ hi)
    · exact Interpreter.resumable_start _ _ _ eventId script isScript
    · exact h i (List.mem_append_right _ hi)

theorem opened (h : w.Resumable) (opened : w.Opened w') : w'.Resumable := by
  induction opened with
  | refl => exact h
  | tail _ opens ih => exact ih.opens opens

/-- Scripts of other rooms that nobody has to wait for are dropped. -/
theorem dropStale (h : w.Resumable) : (w.modifyStage Stage.dropStale).Resumable := by
  intro i hi
  rcases List.mem_append.1 hi with hi | hi
  · exact h i (List.mem_append_left _ (List.mem_filter.1 hi).1)
  · exact h i (List.mem_append_right _ (List.mem_filter.1 hi).1)

end World.Resumable

/-! ## Games -/

namespace Session

variable {s : Session}

theorem resumable_runInterpreters (h : s.world.Resumable) (project : Project) :
    (s.runInterpreters project).world.Resumable := by
  have hturn : ∀ i ∈ s.world.stage.interpreters, i.terminated = false → i.Resumable :=
    fun i hi _ => h i (List.mem_append_left _ hi)
  have htaken : s.withoutInterpreters.world.Resumable :=
    fun i hi => h i (List.mem_append_right _ hi)
  obtain ⟨hran, hworld⟩ := Interpreter.resumesTo_updateAll hturn s.withoutInterpreters project
  have hleft := htaken.of_recasts hworld
  intro i hi
  rw [runInterpreters_eq] at hi
  simp only [modifyWorld, World.modifyStage, Stage.mergeInterpreters, List.append_assoc,
    List.mem_append, List.mem_filter] at hi
  rcases hi with ⟨hi, hlive⟩ | hi
  · exact hran i hi (by simpa using hlive)
  · exact hleft i (List.mem_append.2 hi)

theorem resumable_runRoutes (h : s.world.Resumable) (project : Project) :
    (s.runRoutes project).world.Resumable := by
  have hturn : ∀ r ∈ s.world.stage.routes, r.terminated = false → r.Resumable :=
    fun r hr _ => h r (List.mem_append_right _ hr)
  have htaken : s.withoutRoutes.world.Resumable := by
    intro i hi
    rcases List.mem_append.1 hi with hi | hi
    · exact h i (List.mem_append_left _ hi)
    · cases hi
  obtain ⟨hran, hworld⟩ := Interpreter.resumesTo_updateAll hturn s.withoutRoutes project
  have hleft := htaken.of_recasts hworld
  intro i hi
  rw [runRoutes_eq] at hi
  simp only [modifyWorld, World.modifyStage, Stage.mergeRoutes, List.mem_append,
    List.mem_filter, Bool.and_eq_true] at hi
  rcases hi with hi | ⟨hi, hlive, _⟩ | hi
  · exact hleft i (List.mem_append_left _ hi)
  · exact hran i hi (by simpa using hlive)
  · exact hleft i (List.mem_append_right _ hi)

theorem resumable_update (h : s.world.Resumable) (project : Project) (input : Input) :
    (s.update project input).world.Resumable := by
  obtain ⟨w, hsame, hopened⟩ := s.opened_beforeScripts project input
  have hbefore := (h.of_sameCast hsame).opened hopened
  have hscripts : ((s.beforeScripts project input).runScripts project).world.Resumable := by
    rw [runScripts_eq]
    exact resumable_runRoutes (resumable_runInterpreters hbefore project) project
  exact hscripts.dropStale.of_sameCast (s.sameCast_update project input)

theorem resumable_perform (h : s.world.Resumable) (project : Project) (act : Act) :
    (s.perform project act).world.Resumable := by
  cases act with
  | tick input => exact resumable_update h project input
  | startEvent id => exact h.opens (World.opens_startEvent _ id)
  | startItem id => exact h.opens (World.opens_startItem _ id)
  | startCombine first second => exact h.opens (World.opens_startCombine _ first second)
  | startCommonEvent id => exact h.opens (World.opens_startCommonEvent _ id)
  | startHint => exact h.opens (World.opens_startHint _)
  | transfer roomId t dir =>
    unfold perform
    dsimp only
    split
    · next hw => exact h.of_recasts (.transfer hw)
    · exact h
  | set memory inventory => exact h
  | requestSave => exact h.of_sameCast s.sameCast_requestSave
  | answer a =>
    unfold perform
    dsimp only
    split <;> exact h
  | ask request unsaved => exact h
  | configure change silent => exact h

theorem resumable_after (h : s.world.Resumable) (project : Project) (acts : List Act) :
    (s.after project acts).world.Resumable := by
  induction acts generalizing s with
  | nil => exact h
  | cons act acts ih => exact ih (resumable_perform h project act)

/-- Scripts that go on in a loaded game do not wait for the answers of the earlier one. -/
theorem resumable_of_resume {w : World} (h : w.Resumable) (seed : UInt64) :
    (World.resume w.toProgress seed).Resumable := by
  intro i hi
  have hmap : i ∈ (w.stage.interpreters ++ w.stage.routes).map Interpreter.forgetRequest := by
    rw [List.map_append]
    exact hi
  obtain ⟨j, hj, rfl⟩ := List.mem_map.1 hmap
  exact (h j hj).forgetRequest

theorem Begins.world_resumable (h : Begins project s) : s.world.Resumable := by
  induction h with
  | new seed host started =>
    obtain ⟨stage, hinterpreters, hroutes, hcalm⟩ := calm_of_start started
    have hfresh : (World.ofProgress (.fresh stage) seed).Resumable := by
      intro i hi
      have hempty : i ∈ stage.interpreters ++ stage.routes := hi
      simp [hinterpreters, hroutes] at hempty
    exact hfresh.of_sameCast hcalm.toSameCast
  | loaded earlier acts seed host ih => exact resumable_of_resume (resumable_after ih _ acts) seed

/-- In every state that a game leads to every script that is listed can be resumed, and whatever
happens to a script that can be resumed leaves it so. -/
theorem Begins.resumable_and_keeps {s₀ : Session} (begins : Begins project s₀) (acts : List Act) :
    (∀ i ∈ (s₀.after project acts).world.stage.interpreters ++
        (s₀.after project acts).world.stage.routes, i.Resumable) ∧
      ∀ i : Interpreter, i.Resumable → i.KeepsResumable project :=
  ⟨resumable_after begins.world_resumable project acts, fun _ h => h.keeps project⟩

end Session

/-- A common event sets the player on a route and unlocks an achievement in a branch. -/
def ceremonyRoom : Project :=
  .emptyRoom [.route ⟨playerId, false, false, false⟩ [.act (.wait 5) []] [],
    .act (.branch []) [[.act (.unlockAchievement 7) []]]]

/-- A tick later the route waits for its frames, and the script in its branch for the answer. -/
theorem ceremonyRoom_resumable :
    ∃ w, World.start ceremonyRoom 1 = .ok w ∧
      let s := Session.after ceremonyRoom ⟨w, .start ceremonyRoom .deferred⟩
        [.startCommonEvent 1, .tick .none]
      s.world.stage.interpreters.map (fun i => (i.pending, i.frames.map (·.kind))) =
          [(some (.request 1), [.branch, .root])] ∧
        s.world.stage.routes.map (·.wait) = [.frames 4] ∧
        (∀ i ∈ s.world.stage.interpreters ++ s.world.stage.routes, i.Resumable) ∧
        ∀ i : Interpreter, i.Resumable → i.KeepsResumable ceremonyRoom := by
  obtain ⟨w, hstart, hscripts, hroutes⟩ : ∃ w, World.start ceremonyRoom 1 = .ok w ∧
      let s := Session.after ceremonyRoom ⟨w, .start ceremonyRoom .deferred⟩
        [.startCommonEvent 1, .tick .none]
      s.world.stage.interpreters.map (fun i => (i.pending, i.frames.map (·.kind))) =
          [(some (.request 1), [.branch, .root])] ∧
        s.world.stage.routes.map (·.wait) = [.frames 4] := by
    refine ⟨_, rfl, ?_⟩
    decide +kernel
  have hbegins : Session.Begins ceremonyRoom ⟨w, .start ceremonyRoom .deferred⟩ :=
    .new 1 .deferred hstart
  exact ⟨w, hstart, hscripts, hroutes, hbegins.resumable_and_keeps _⟩

end Adventure
