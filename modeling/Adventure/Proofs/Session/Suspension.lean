import Adventure.Proofs.Session.Deeds

/-!
# Suspended scripts

A script that opened choices, sent a request or covered the screen stands on the command that did
so, and runs it again for its second half.  `Interpreter.Coherent` says what a pending second half
means for the rest of a script, and `Interpreter.Goes` says all that one step of such a script can
do to what scripts share.
-/

namespace Adventure

theorem Windows.isSome_takeChosen (ws : Windows) (id : Nat) :
    (ws.takeChosen id).1.isSome = ws.hasChosen id := by
  unfold takeChosen hasChosen
  split
  · split <;> simp [*]
  · rfl

namespace Interpreter

variable {project : Project} {i i' : Interpreter} {s s' : Session}

/-- The command that comes next. -/
def current? (i : Interpreter) : Option Command := i.frame?.bind Frame.current?

/-- The request that a running script waits for. -/
def awaited? (i : Interpreter) : Option Nat :=
  match i.terminated, i.pending with
  | false, some (.request id) => some id
  | _, _ => none

/-- Whether a running script waits for its choice. -/
def isChoosing (i : Interpreter) : Bool := !i.terminated && i.pending == some .choices

/-- The script past the command that it stands on. -/
def goPast (i : Interpreter) : Interpreter := { i with pending := none, wait := .none }.advance

/-! ## Coherence -/

/-- What a pending second half says about a script that runs. -/
structure Coherent (i : Interpreter) : Prop where
  plain : i.pending = none → (Outcome.wait i.wait).IsPlain
  walk : i.pending ≠ none → i.walk = none
  kind : i.pending ≠ none → i.kind ≠ .route
  asked (id : Nat) : i.pending = some (.request id) →
    i.wait = .request id ∧ ∃ c, i.current? = some c ∧ c.asks = true
  choosing : i.pending = some .choices →
    i.wait = .choices ∧ ∃ order branches, i.current? = some (.act (.showChoices order) branches)
  covered : i.pending = some .transfer →
    ∃ order branches, i.current? = some (.act (.transfer order) branches)

namespace Coherent

/-- A script with nothing pending that does not wait for choices or for an answer. -/
theorem of_plain (pending : i.pending = none) (wait : (Outcome.wait i.wait).IsPlain) :
    i.Coherent := by
  refine ⟨fun _ => wait, fun h => absurd pending h, fun h => absurd pending h, fun id h => ?_,
    fun h => ?_, fun h => ?_⟩ <;> cases pending.symm.trans h

theorem of_asked {id : Nat} {c : Command} (wait : i.wait = .request id)
    (pending : i.pending = some (.request id)) (walk : i.walk = none) (kind : i.kind ≠ .route)
    (current : i.current? = some c) (asks : c.asks = true) : i.Coherent := by
  refine ⟨fun h => ?_, fun _ => walk, fun _ => kind, fun id' h => ?_, fun h => ?_, fun h => ?_⟩ <;>
    cases pending.symm.trans h
  exact ⟨wait, c, current, asks⟩

theorem of_choosing {order : ChoicesOrder} {branches : List Script} (wait : i.wait = .choices)
    (pending : i.pending = some .choices) (walk : i.walk = none) (kind : i.kind ≠ .route)
    (current : i.current? = some (.act (.showChoices order) branches)) : i.Coherent := by
  refine ⟨fun h => ?_, fun _ => walk, fun _ => kind, fun id' h => ?_, fun h => ?_, fun h => ?_⟩ <;>
    cases pending.symm.trans h
  exact ⟨wait, order, branches, current⟩

theorem of_covered {order : TransferOrder} {branches : List Script}
    (pending : i.pending = some .transfer) (walk : i.walk = none) (kind : i.kind ≠ .route)
    (current : i.current? = some (.act (.transfer order) branches)) : i.Coherent := by
  refine ⟨fun h => ?_, fun _ => walk, fun _ => kind, fun id' h => ?_, fun h => ?_, fun h => ?_⟩ <;>
    cases pending.symm.trans h
  exact ⟨order, branches, current⟩

/-- Another wait that is plain changes nothing about a script that does not wait for choices or for
an answer. -/
theorem congr_wait {wait : Wait} (h : i.Coherent) (asked : ∀ id, i.pending ≠ some (.request id))
    (choosing : i.pending ≠ some .choices) (plain : (Outcome.wait wait).IsPlain) :
    ({ i with wait := wait } : Interpreter).Coherent :=
  ⟨fun _ => plain, h.walk, h.kind, fun id hid => absurd hid (asked id),
    fun hid => absurd hid choosing, h.covered⟩

theorem keepWaiting (h : i.Coherent) : i.keepWaiting.Coherent := by
  unfold Interpreter.keepWaiting
  split
  · next count hwait =>
    refine h.congr_wait (fun id hid => ?_) (fun hid => ?_) trivial
    · cases hwait.symm.trans (h.asked id hid).1
    · cases hwait.symm.trans (h.choosing hid).1
  · exact h

end Coherent

theorem IsFresh.coherent (h : i.IsFresh) : i.Coherent :=
  .of_plain h.pending (by rw [h.wait]; trivial)

theorem IsFresh.awaited? (h : i.IsFresh) : i.awaited? = none := by
  unfold Interpreter.awaited?
  split
  · next id _ hpending => cases h.pending.symm.trans hpending
  · rfl

theorem IsFresh.isChoosing (h : i.IsFresh) : i.isChoosing = false := by
  simp [Interpreter.isChoosing, h.pending]

theorem awaited?_of_pending (h : i.pending = none) : i.awaited? = none := by
  unfold Interpreter.awaited?
  split
  · next id _ hpending => cases h.symm.trans hpending
  · rfl

theorem isChoosing_of_pending (h : i.pending = none) : i.isChoosing = false := by
  simp [Interpreter.isChoosing, h]

theorem awaited?_of_terminated (h : i.terminated = true) : i.awaited? = none := by
  simp [Interpreter.awaited?, h]

theorem isChoosing_of_terminated (h : i.terminated = true) : i.isChoosing = false := by
  simp [Interpreter.isChoosing, h]

/-! ## Parts of a step -/

/-- The script and the session that the command of a step sees, and this command.  Waiting and
walking are over by then. -/
def running? (i : Interpreter) (s : Session) (project : Project) :
    Option (Interpreter × Session × Command) :=
  if i.terminated || !i.isWaitOver s then none
  else
    match { i with wait := .none }.updateWalk s project with
    | (false, _, _) => none
    | (true, j, t) => j.current?.map fun c => (j, t, c)

/-- A command is run when the script lives, its wait is over and its walk has come to an end. -/
theorem running?_eq_some {j : Interpreter} {t : Session} {c : Command}
    (h : i.running? s project = some (j, t, c)) :
    i.terminated = false ∧ i.isWaitOver s = true ∧
      ({ i with wait := .none } : Interpreter).updateWalk s project = (true, j, t) ∧
        j.current? = some c := by
  unfold running? at h
  split at h
  · cases h
  · next hready =>
    simp only [Bool.or_eq_true, Bool.not_eq_true', not_or, Bool.not_eq_true,
      Bool.not_eq_false] at hready
    split at h
    · cases h
    · next j' t' hwalk =>
      obtain ⟨c', hcurrent, heq⟩ := Option.map_eq_some_iff.1 h
      obtain ⟨rfl, rfl, rfl⟩ : j' = j ∧ t' = t ∧ c' = c := by simpa using heq
      exact ⟨hready.1, hready.2, hwalk, hcurrent⟩

theorem step_of_running {j : Interpreter} {t : Session} {c : Command}
    (h : i.running? s project = some (j, t, c)) :
    i.step s project = follow (j.execute t project c) := by
  obtain ⟨hlive, hover, hwalk, hcurrent⟩ := running?_eq_some h
  obtain ⟨frame, hframe, hcommand⟩ := Option.bind_eq_some_iff.1 hcurrent
  rw [step, if_neg (by simp [hlive]), if_neg (by simp [hover]), hwalk]
  simp only [runCommand, hframe, hcommand]

/-- A step without a command does nothing, or it is a frame of the walk. -/
theorem step_of_idle (h : i.running? s project = none) :
    (i.step s project).2.2 = s ∨
      (i.step s project).2.2 =
        (({ i with wait := .none } : Interpreter).updateWalk s project).2.2 := by
  unfold running? at h
  unfold step
  split
  · exact .inl rfl
  · next hlive =>
    split
    · exact .inl rfl
    · next hover =>
      rw [if_neg (by simpa using And.intro hlive hover)] at h
      refine .inr ?_
      split
      · next heq => rw [heq]
      · next j t heq =>
        rw [heq] at h ⊢
        have hcurrent : j.current? = none := Option.map_eq_none_iff.1 h
        unfold runCommand
        split
        · rfl
        · next frame hframe =>
          have hnone : frame.current? = none := by simpa [current?, hframe] using hcurrent
          rw [hnone]

theorem step_of_waiting (project : Project) (live : i.terminated = false)
    (waits : i.isWaitOver s = false) : i.step s project = (false, i.keepWaiting, s) := by
  rw [step, if_neg (by simp [live]), if_pos (by simp [waits])]

theorem updateWalk_of_none (h : i.walk = none) : i.updateWalk s project = (true, i, s) := by
  rw [updateWalk, h]

/-- A script that neither waits nor walks runs the command that comes next. -/
theorem running?_of_idle (project : Project) {c : Command} (live : i.terminated = false)
    (elapsed : i.isWaitOver s = true) (walk : i.walk = none) (current : i.current? = some c) :
    i.running? s project = some ({ i with wait := .none }, s, c) := by
  have hwalk : ({ i with wait := .none } : Interpreter).updateWalk s project =
      (true, { i with wait := .none }, s) := updateWalk_of_none walk
  have hcurrent : ({ i with wait := .none } : Interpreter).current? = some c := current
  rw [running?, if_neg (by simp [live, elapsed]), hwalk]
  simp only [hcurrent, Option.map_some]

/-- A walk goes on or is over, and does nothing to what scripts share. -/
theorem updateWalk_cases (i : Interpreter) (s : Session) (project : Project) :
    (∃ walk w, s.world.Quiet w ∧
      i.updateWalk s project = (false, { i with walk := some walk }, { s with world := w })) ∨
    ∃ w, s.world.Quiet w ∧
      i.updateWalk s project = (true, { i with walk := none }, { s with world := w }) := by
  unfold updateWalk
  split
  · next hwalk =>
    have hsame : ({ i with walk := none } : Interpreter) = i := by rw [← hwalk]
    exact .inr ⟨s.world, .refl _, by rw [hsame]⟩
  · next walk _ =>
    have hinterpreters := Stage.interpreters_walk s.world.stage project walk s.world.random
    have hroutes := Stage.routes_walk s.world.stage project walk s.world.random
    dsimp only
    split
    · refine .inr ⟨_, ?_, rfl⟩
      exact .of_eq rfl rfl rfl rfl hinterpreters hroutes
    · refine .inl ⟨_, _, ?_, rfl⟩
      exact .of_eq rfl rfl rfl rfl hinterpreters hroutes

theorem modifyFrame_eq (i : Interpreter) (change : Frame → Frame) :
    ∃ frames, i.modifyFrame change = { i with frames := frames } := by
  unfold modifyFrame
  split
  · exact ⟨_, rfl⟩
  · exact ⟨i.frames, rfl⟩

theorem leave_eq (i : Interpreter) :
    ∃ frames terminated, i.leave = { i with frames := frames, terminated := terminated } := by
  unfold leave
  split
  · exact ⟨_, i.terminated, rfl⟩
  · exact ⟨_, _, rfl⟩

theorem finishFrame_eq (i : Interpreter) : ∃ frames terminated,
    i.finishFrame.2 = { i with frames := frames, terminated := terminated } := by
  unfold finishFrame
  split
  · exact ⟨_, i.terminated, rfl⟩
  · split
    · obtain ⟨frames, hframes⟩ := i.modifyFrame_eq fun f => { f with index := 0 }
      exact ⟨frames, i.terminated, hframes⟩
    · exact ⟨_, _, rfl⟩

theorem goPast_eq (i : Interpreter) :
    ∃ frames, i.goPast = { i with pending := none, wait := .none, frames := frames } :=
  modifyFrame_eq _ _

/-- A script that forgets its request goes past the command; any other stays as it is. -/
theorem forgetRequest_cases (i : Interpreter) :
    i.forgetRequest = i.goPast ∨ i.forgetRequest = i ∧ ∀ id, i.pending ≠ some (.request id) := by
  unfold forgetRequest
  split
  · exact .inl rfl
  · next h => exact .inr ⟨rfl, h⟩

theorem id_forgetRequest (i : Interpreter) : i.forgetRequest.id = i.id := by
  obtain ⟨frames, hpast⟩ := i.goPast_eq
  rcases i.forgetRequest_cases with h | ⟨h, _⟩ <;> rw [h]
  rw [hpast]

theorem terminated_forgetRequest (i : Interpreter) : i.forgetRequest.terminated = i.terminated := by
  obtain ⟨frames, hpast⟩ := i.goPast_eq
  rcases i.forgetRequest_cases with h | ⟨h, _⟩ <;> rw [h]
  rw [hpast]

theorem awaited?_forgetRequest (i : Interpreter) : i.forgetRequest.awaited? = none := by
  obtain ⟨frames, hpast⟩ := i.goPast_eq
  rcases i.forgetRequest_cases with h | ⟨h, hnot⟩ <;> rw [h]
  · rw [hpast]
    exact awaited?_of_pending rfl
  · unfold awaited?
    split
    · next id _ hpending => exact absurd hpending (hnot id)
    · rfl

theorem Coherent.forgetRequest (h : i.Coherent) : i.forgetRequest.Coherent := by
  obtain ⟨frames, hpast⟩ := i.goPast_eq
  rcases i.forgetRequest_cases with heq | ⟨heq, _⟩ <;> rw [heq]
  · rw [hpast]
    exact .of_plain rfl trivial
  · exact h

/-- A script that goes on with nothing new pending, waiting for neither choices nor an answer. -/
structure GoesOnPlainly (e : Effect) (r : Interpreter × Session) : Prop where
  id : r.1.id = e.interpreter.id
  pending : r.1.pending = e.interpreter.pending
  wait : (Outcome.wait r.1.wait).IsPlain
  world : e.session.world.Quiet r.2.world
  platform : r.2.platform = e.session.platform

theorem follow_of_plain {e : Effect} (plain : e.outcome.IsPlain)
    (wait : (Outcome.wait e.interpreter.wait).IsPlain) : GoesOnPlainly e (follow e).2 := by
  obtain ⟨i, s, outcome⟩ := e
  obtain ⟨frames, hadvance⟩ := i.modifyFrame_eq Frame.advance
  cases outcome with
  | next =>
    simp only [follow, advance, hadvance]
    exact ⟨rfl, rfl, wait, .refl _, rfl⟩
  | retry => exact ⟨rfl, rfl, wait, .refl _, rfl⟩
  | wait wait' =>
    simp only [follow, advance, hadvance]
    exact ⟨rfl, rfl, plain, .refl _, rfl⟩
  | waitHere wait' => exact plain.elim
  | enter frame =>
    simp only [follow, advance, hadvance, push]
    exact ⟨rfl, rfl, wait, .refl _, rfl⟩
  | jump index =>
    obtain ⟨frames, hjump⟩ := i.modifyFrame_eq fun f => { f with index := index }
    simp only [follow, jump, hjump]
    exact ⟨rfl, rfl, wait, .refl _, rfl⟩
  | leave =>
    obtain ⟨frames, terminated, hleave⟩ := i.leave_eq
    simp only [follow, hleave]
    exact ⟨rfl, rfl, wait, .refl _, rfl⟩
  | fail fault => exact ⟨rfl, rfl, wait, .of_eq rfl rfl rfl rfl rfl rfl, rfl⟩

/-! ## All that a step can do -/

/-- What a step of a script does to what scripts share.  The script may have walked before, which
led to the world `w`. -/
inductive Goes (project : Project) (i : Interpreter) (s : Session) :
    Interpreter → Session → Prop where
  | ended (terminated : i.terminated = true) : Goes project i s i s
  | waits (live : i.terminated = false) (waits : i.isWaitOver s = false) :
      Goes project i s i.keepWaiting s
  | aside {i' : Interpreter} {s' : Session} (id : i'.id = i.id)
      (unawaited : i.awaited? = none) (unawaited' : i'.awaited? = none)
      (unchosen : i.isChoosing = false) (unchosen' : i'.isChoosing = false)
      (world : s.world.Quiet s'.world) (platform : s.platform.Silent s'.platform) :
      Goes project i s i' s'
  | speaks {i' : Interpreter} {w : World} (window : Window) (id : i'.id = i.id)
      (unawaited : i.awaited? = none) (unawaited' : i'.awaited? = none)
      (unchosen : i.isChoosing = false) (unchosen' : i'.isChoosing = false)
      (world : s.world.Quiet w) :
      Goes project i s i'
        { s with world := { w with windows := { w.windows with next := some window } } }
  | opens {j : Interpreter} {w : World} {order : ChoicesOrder} {branches : List Script}
      {choice : String × Bool} {choices : List (String × Bool)}
      (running : i.running? s project =
        some (j, { s with world := w }, .act (.showChoices order) branches))
      (pending : j.pending = none) (id : j.id = i.id)
      (unawaited : i.awaited? = none) (unchosen : i.isChoosing = false)
      (shown : w.shownChoices s.platform project j.actingEvent order = choice :: choices)
      (world : s.world.Quiet w) :
      Goes project i s { j with pending := some .choices, wait := .choices }
        { s with
          world := { w with windows := w.windows.showChoices (choice :: choices) j.id } }
  | asks {i' : Interpreter} {w : World} {p : Platform} (request : Request) (id : i'.id = i.id)
      (unawaited : i.awaited? = none) (awaited' : i'.awaited? = some (s.platform.lastRequestId + 1))
      (unchosen : i.isChoosing = false) (unchosen' : i'.isChoosing = false)
      (unsaved : request.kind ≠ .saveProgress) (world : s.world.Quiet w)
      (platform : s.platform.Silent p) :
      Goes project i s i' ⟨w, (p.ask request).2⟩
  | queues {i' : Interpreter} {w : World} (id : i'.id = i.id)
      (unawaited : i.awaited? = none) (awaited' : i'.awaited? = some (s.platform.lastRequestId + 1))
      (unchosen : i.isChoosing = false) (unchosen' : i'.isChoosing = false)
      (world : s.world.Quiet w) :
      Goes project i s i'
        ⟨w.scheduleSave (s.platform.lastRequestId + 1), s.platform.nextRequestId.2⟩
  | answered {id : Nat} (awaited : i.awaited? = some id) (ready : s.platform.hasAnswer id = true) :
      Goes project i s i.goPast (s.modifyPlatform fun p => (p.takeAnswer id).2)
  | chooses {i' : Interpreter} {s' : Session} {row : Nat} (id : i'.id = i.id)
      (unawaited : i.awaited? = none) (unawaited' : i'.awaited? = none)
      (choosing : i.isChoosing = true) (unchosen' : i'.isChoosing = false)
      (taken : (s.world.windows.takeChosen i.id).1 = some row)
      (world : World.Quiet { s.world with windows := (s.world.windows.takeChosen i.id).2 } s'.world)
      (platform : s'.platform = s.platform) : Goes project i s i' s'

/-- A step done: what the script did, and that it is as it should be while it runs. -/
def GoesTo (project : Project) (i : Interpreter) (s : Session) (r : Interpreter × Session) : Prop :=
  i.Goes project s r.1 r.2 ∧ (r.1.terminated = false → r.1.Coherent)

/-- A script with nothing pending goes on to be plain again. -/
theorem GoesTo.aside {s' : Session} (id : i'.id = i.id) (pending : i.pending = none)
    (pending' : i'.pending = none) (wait' : (Outcome.wait i'.wait).IsPlain)
    (world : s.world.Quiet s'.world) (platform : s.platform.Silent s'.platform) :
    i.GoesTo project s (i', s') :=
  ⟨.aside id (awaited?_of_pending pending) (awaited?_of_pending pending')
    (isChoosing_of_pending pending) (isChoosing_of_pending pending') world platform,
    fun _ => .of_plain pending' wait'⟩

/-- The command of a script with nothing pending, after a walk that led to the world `w`. -/
theorem goesTo_command {j : Interpreter} {w : World} {c : Command}
    (running : i.running? s project = some (j, { s with world := w }, c)) (id : j.id = i.id)
    (wait : j.wait = .none) (walk : j.walk = none) (live : j.terminated = false)
    (current : j.current? = some c) (pending : i.pending = none) (pending' : j.pending = none)
    (world : s.world.Quiet w) :
    i.GoesTo project s (follow (j.execute { s with world := w } project c)).2 := by
  have hdoes : j.Does project { s with world := w } c (j.execute { s with world := w } project c) :=
    does_execute pending' c
  have hkind : ∀ wait, (j.execute { s with world := w } project c).outcome = .waitHere wait →
      c.fitsRoute = false → j.kind ≠ .route := fun _ => kind_ne_route_of_waitHere
  generalize j.execute { s with world := w } project c = e at hdoes hkind
  have hunawaited := awaited?_of_pending pending
  have hunchosen := isChoosing_of_pending pending
  have hplain : (Outcome.wait j.wait).IsPlain := by rw [wait]; trivial
  cases hdoes with
  | @aside walk' s' outcome hworld hplatform houtcome =>
    have hgoes : GoesOnPlainly ⟨{ j with walk := walk' }, s', outcome⟩ (follow _).2 :=
      follow_of_plain houtcome hplain
    refine .aside (hgoes.id.trans id) pending (hgoes.pending.trans pending') hgoes.wait
      ((world.trans hworld).trans hgoes.world) ?_
    rw [hgoes.platform]
    exact hplatform
  | speaks window =>
    obtain ⟨frames, hadvance⟩ := j.modifyFrame_eq Frame.advance
    simp only [follow, advance, hadvance]
    refine ⟨?_, fun _ => .of_plain pending' trivial⟩
    exact .speaks window id hunawaited (awaited?_of_pending pending') hunchosen
      (isChoosing_of_pending pending') world
  | @opens order branches choice choices isCommand shown =>
    subst isCommand
    have hopens := Goes.opens running pending' id hunawaited hunchosen shown world
    exact ⟨hopens, fun _ => .of_choosing rfl rfl walk (hkind _ rfl rfl) current⟩
  | @asks request p isCommand kind silent =>
    have hid : (p.ask request).1 = s.platform.lastRequestId + 1 :=
      congrArg (· + 1) silent.lastRequestId
    refine ⟨?_, fun _ => ?_⟩
    · refine Goes.asks request id hunawaited ?_ hunchosen ?_ kind world silent
      · simp only [awaitAnswer, follow, awaited?, live, hid]
      · simp [awaitAnswer, follow, isChoosing]
    · have hroute := hkind _ rfl (Command.fitsRoute_of_asks isCommand)
      exact .of_asked rfl rfl walk hroute current isCommand
  | queues isCommand =>
    refine ⟨?_, fun _ => ?_⟩
    · refine Goes.queues id hunawaited ?_ hunchosen ?_ world
      · simp only [awaitAnswer, follow, awaited?, live, Platform.nextRequestId]
      · simp [awaitAnswer, follow, isChoosing]
    · have hroute := hkind _ rfl (Command.fitsRoute_of_asks isCommand)
      exact .of_asked rfl rfl walk hroute current isCommand
  | @covers order branches w' isCommand hworld =>
    subst isCommand
    refine ⟨?_, fun _ => .of_covered rfl walk (hkind _ rfl rfl) current⟩
    refine .aside id hunawaited ?_ hunchosen ?_ (world.trans hworld) (.refl _)
    · simp [follow, awaited?]
    · simp [follow, isChoosing]

/-- A script without a command at hand ends or leaves a list. -/
theorem runCommand_of_end {j : Interpreter} (t : Session) (project : Project)
    (h : j.current? = none) :
    ∃ goesOn frames terminated, j.runCommand t project =
      (goesOn, { j with frames := frames, terminated := terminated }, t) := by
  unfold runCommand
  split
  · exact ⟨_, j.frames, true, rfl⟩
  · next frame hframe =>
    have hend : frame.current? = none := by rwa [current?, hframe] at h
    rw [hend]
    obtain ⟨frames, terminated, hfinish⟩ := j.finishFrame_eq
    exact ⟨j.finishFrame.1, frames, terminated, by simp only [hfinish]⟩

/-- The step of a script that has nothing pending and nothing to wait for. -/
theorem goesTo_of_plain (live : i.terminated = false) (elapsed : i.isWaitOver s = true)
    (pending : i.pending = none) : i.GoesTo project s (i.step s project).2 := by
  rcases updateWalk_cases { i with wait := .none } s project with
    ⟨walk, w, hquiet, hwalk⟩ | ⟨w, hquiet, hwalk⟩
  · have hstep : i.step s project =
        (false, { i with wait := .none, walk := some walk }, { s with world := w }) := by
      rw [step, if_neg (by simp [live]), if_neg (by simp [elapsed]), hwalk]
    rw [hstep]
    exact .aside rfl pending pending trivial hquiet (.refl _)
  · cases hcurrent : i.current? with
    | none =>
      have hend : ({ i with wait := .none, walk := none } : Interpreter).current? = none := hcurrent
      obtain ⟨goesOn, frames, terminated, hcommand⟩ :=
        runCommand_of_end { s with world := w } project hend
      have hstep : i.step s project = (goesOn, { i with
          wait := .none, walk := none, frames := frames, terminated := terminated },
          { s with world := w }) := by
        rw [step, if_neg (by simp [live]), if_neg (by simp [elapsed]), hwalk]
        exact hcommand
      rw [hstep]
      exact .aside rfl pending pending trivial hquiet (.refl _)
    | some c =>
      have hrunning : i.running? s project =
          some ({ i with wait := .none, walk := none }, { s with world := w }, c) := by
        have hcurrent' : ({ i with wait := .none, walk := none } : Interpreter).current? = some c :=
          hcurrent
        rw [running?, if_neg (by simp [live, elapsed]), hwalk]
        simp only [hcurrent', Option.map_some]
      rw [step_of_running hrunning]
      exact goesTo_command hrunning rfl rfl rfl live hcurrent pending pending hquiet

/-! ### Second halves -/

theorem awaited?_eq_some {id : Nat} :
    i.awaited? = some id ↔ i.terminated = false ∧ i.pending = some (.request id) := by
  unfold awaited?
  split
  · next id' hlive hpending => simp [hlive, hpending]
  · next h =>
    simp only [false_iff, not_and, reduceCtorEq]
    exact fun hlive hpending => h id hlive hpending

theorem isChoosing_iff :
    i.isChoosing = true ↔ i.terminated = false ∧ i.pending = some .choices := by
  simp [isChoosing]

theorem awaited?_of_choosing (h : i.isChoosing = true) : i.awaited? = none := by
  obtain ⟨_, hpending⟩ := isChoosing_iff.1 h
  unfold awaited?
  split
  · next hrequest => cases hpending.symm.trans hrequest
  · rfl

/-- A script that waits for an answer stands on a command that made a request. -/
theorem running?_of_awaited (project : Project) {id : Nat} (h : i.Coherent)
    (awaited : i.awaited? = some id)
    (ready : s.platform.hasAnswer id = true) :
    ∃ c, c.asks = true ∧ i.running? s project = some ({ i with wait := .none }, s, c) := by
  obtain ⟨hlive, hpending⟩ := awaited?_eq_some.1 awaited
  have hsome : i.pending ≠ none := by simp [hpending]
  obtain ⟨hwait, c, hcurrent, hasks⟩ := h.asked id hpending
  have hover : i.isWaitOver s = true := by rw [isWaitOver, hwait]; exact ready
  exact ⟨c, hasks, running?_of_idle project hlive hover (h.walk hsome) hcurrent⟩

/-- A script that waits for an answer and finds it takes it and goes past the command. -/
theorem step_of_answered {id : Nat} (h : i.Coherent) (awaited : i.awaited? = some id)
    (ready : s.platform.hasAnswer id = true) :
    i.step s project = (true, i.goPast, s.modifyPlatform fun p => (p.takeAnswer id).2) := by
  obtain ⟨_, hpending⟩ := awaited?_eq_some.1 awaited
  obtain ⟨c, hasks, hrunning⟩ := running?_of_awaited project h awaited ready
  have hexecute : ({ i with wait := .none } : Interpreter).execute s project c =
      ⟨{ i with wait := .none, pending := none }, s.modifyPlatform fun p => (p.takeAnswer id).2,
        .next⟩ := execute_of_asked hpending (h.kind (by simp [hpending])) hasks
  rw [step_of_running hrunning, hexecute]
  rfl

/-- A script that waits for an answer and does not find it stays as it is. -/
theorem step_of_unanswered {id : Nat} (h : i.Coherent) (awaited : i.awaited? = some id)
    (unready : s.platform.hasAnswer id = false) : i.step s project = (false, i, s) := by
  obtain ⟨hlive, hpending⟩ := awaited?_eq_some.1 awaited
  have hwait := (h.asked id hpending).1
  have hover : i.isWaitOver s = false := by rw [isWaitOver, hwait]; exact unready
  rw [step_of_waiting project hlive hover, keepWaiting, hwait]

/-- How a script goes on with a choice: with its branch, if there is one. -/
def choiceOutcome (i : Interpreter) (branches : List Script) (index : Nat) : Outcome :=
  match branches[index]? with
  | some branch => .enter (.enter branch .branch i.actingEvent)
  | none => .fail (.missingChoice index)

/-- A script that takes a row goes on with the choice that stands in it by now. -/
theorem execute_of_chosen {row : Nat} {order : ChoicesOrder} {branches : List Script}
    (pending : i.pending = some .choices) (kind : i.kind ≠ .route)
    (taken : (s.world.windows.takeChosen i.id).1 = some row) :
    i.execute s project (.act (.showChoices order) branches) =
      ⟨{ i with pending := none },
        { s with
          world := { s.world with windows := (s.world.windows.takeChosen i.id).2 } },
        i.choiceOutcome branches (s.world.choiceInRow project i.actingEvent order row)⟩ := by
  rw [execute_of_choosing pending kind, enterChoice]
  split
  · next h => simp [h] at taken
  · next row' ws h =>
    obtain rfl : row' = row := by simpa [h] using taken
    rw [h]
    dsimp only
    split
    · next branch hbranch =>
      have hbranch' : branches[s.world.choiceInRow project i.actingEvent order row']? =
          some branch := hbranch
      rw [choiceOutcome, hbranch']
      rfl
    · next hbranch =>
      have hbranch' : branches[s.world.choiceInRow project i.actingEvent order row']? = none :=
        hbranch
      rw [choiceOutcome, hbranch']
      rfl

theorem choiceOutcome_isPlain (branches : List Script) (index : Nat) :
    (i.choiceOutcome branches index).IsPlain := by
  unfold choiceOutcome
  split <;> trivial

/-- A script that waits for its choice waits until there is a row to take. -/
theorem isWaitOver_of_choosing (s : Session) (h : i.Coherent) (choosing : i.isChoosing = true) :
    i.isWaitOver s = (s.world.windows.takeChosen i.id).1.isSome := by
  rw [isWaitOver, (h.choosing (isChoosing_iff.1 choosing).2).1, Windows.isSome_takeChosen]

/-- The step of a script that takes the row that was picked. -/
theorem step_of_chosen {order : ChoicesOrder} {branches : List Script} {row : Nat}
    (h : i.Coherent) (choosing : i.isChoosing = true)
    (current : i.current? = some (.act (.showChoices order) branches))
    (taken : (s.world.windows.takeChosen i.id).1 = some row) :
    i.step s project = follow
      ⟨{ i with wait := .none, pending := none },
        { s with world := { s.world with windows := (s.world.windows.takeChosen i.id).2 } },
        i.choiceOutcome branches (s.world.choiceInRow project i.actingEvent order row)⟩ := by
  obtain ⟨hlive, hpending⟩ := isChoosing_iff.1 choosing
  have hsome : i.pending ≠ none := by simp [hpending]
  have hover : i.isWaitOver s = true := by rw [isWaitOver_of_choosing s h choosing, taken]; rfl
  rw [step_of_running (running?_of_idle project hlive hover (h.walk hsome) current)]
  exact congrArg follow (execute_of_chosen hpending (h.kind hsome) taken)

/-- A script that has no row to take stays as it is. -/
theorem step_of_unchosen (h : i.Coherent) (choosing : i.isChoosing = true)
    (untaken : (s.world.windows.takeChosen i.id).1 = none) :
    i.step s project = (false, i, s) := by
  obtain ⟨hlive, hpending⟩ := isChoosing_iff.1 choosing
  have hover : i.isWaitOver s = false := by rw [isWaitOver_of_choosing s h choosing, untaken]; rfl
  rw [step_of_waiting project hlive hover, keepWaiting, (h.choosing hpending).1]

theorem goesTo_of_chosen {row : Nat} (h : i.Coherent) (choosing : i.isChoosing = true)
    (taken : (s.world.windows.takeChosen i.id).1 = some row) :
    i.GoesTo project s (i.step s project).2 := by
  obtain ⟨_, order, branches, hcurrent⟩ := h.choosing (isChoosing_iff.1 choosing).2
  rw [step_of_chosen h choosing hcurrent taken]
  have hgoes := follow_of_plain (e := ⟨{ i with wait := .none, pending := none }, { s with
    world := { s.world with windows := (s.world.windows.takeChosen i.id).2 } },
    i.choiceOutcome branches (s.world.choiceInRow project i.actingEvent order row)⟩)
    (choiceOutcome_isPlain branches _) trivial
  refine ⟨?_, fun _ => .of_plain hgoes.pending hgoes.wait⟩
  exact .chooses hgoes.id (awaited?_of_choosing choosing) (awaited?_of_pending hgoes.pending)
    choosing (isChoosing_of_pending hgoes.pending) taken hgoes.world hgoes.platform

/-- The step of a script that takes an answer. -/
theorem goesTo_of_answered {id : Nat} (h : i.Coherent) (awaited : i.awaited? = some id)
    (ready : s.platform.hasAnswer id = true) : i.GoesTo project s (i.step s project).2 := by
  rw [step_of_answered h awaited ready]
  refine ⟨.answered awaited ready, fun _ => ?_⟩
  obtain ⟨frames, hpast⟩ := i.goPast_eq
  simp only [hpast]
  exact .of_plain rfl trivial

/-- The step of a script that changes the room behind a covered screen. -/
theorem goesTo_of_covered (h : i.Coherent) (live : i.terminated = false)
    (elapsed : i.isWaitOver s = true) (pending : i.pending = some .transfer) :
    i.GoesTo project s (i.step s project).2 := by
  have hsome : i.pending ≠ none := by simp [pending]
  obtain ⟨order, branches, hcurrent⟩ := h.covered pending
  have hunawaited : i.awaited? = none := by simp [awaited?, pending]
  have hunchosen : i.isChoosing = false := by simp [isChoosing, pending]
  have hcovered : ({ i with wait := .none } : Interpreter).pending = some .transfer := pending
  rw [step_of_running (running?_of_idle project live elapsed (h.walk hsome) hcurrent)]
  rcases execute_of_covered s project hcovered (h.kind hsome) order branches with
    ⟨w, outcome, hquiet, hplain, hexecute⟩ | ⟨fault, hexecute⟩
  · have hgoes : GoesOnPlainly ⟨{ i with wait := .none, pending := none },
        { s with world := w }, outcome⟩ (follow _).2 := follow_of_plain hplain trivial
    rw [hexecute]
    refine ⟨?_, fun _ => .of_plain hgoes.pending hgoes.wait⟩
    refine .aside hgoes.id hunawaited (awaited?_of_pending hgoes.pending) hunchosen
      (isChoosing_of_pending hgoes.pending) (hquiet.trans hgoes.world) ?_
    rw [hgoes.platform]
    exact .refl _
  · rw [hexecute]
    refine ⟨?_, fun hlive => by cases hlive⟩
    exact .aside rfl hunawaited (awaited?_of_terminated rfl) hunchosen
      (isChoosing_of_terminated rfl) (.of_eq rfl rfl rfl rfl rfl rfl) (.refl _)

/-- All that a step of a script can do, and that the script is as it should be afterwards. -/
theorem goesTo_step (h : i.terminated = false → i.Coherent) :
    i.GoesTo project s (i.step s project).2 := by
  by_cases hlive : i.terminated = true
  · have hstep : i.step s project = (false, i, s) := by rw [step, if_pos hlive]
    rw [hstep]
    exact ⟨.ended hlive, h⟩
  replace hlive := Bool.eq_false_iff.2 hlive
  have hi := h hlive
  cases hover : i.isWaitOver s with
  | false =>
    rw [step_of_waiting project hlive hover]
    exact ⟨.waits hlive hover, fun _ => hi.keepWaiting⟩
  | true =>
    cases hpending : i.pending with
    | none => exact goesTo_of_plain hlive hover hpending
    | some pending =>
      cases pending with
      | request id =>
        rw [isWaitOver, (hi.asked id hpending).1] at hover
        exact goesTo_of_answered hi (awaited?_eq_some.2 ⟨hlive, hpending⟩) hover
      | choices =>
        have hchoosing := isChoosing_iff.2 ⟨hlive, hpending⟩
        rw [isWaitOver_of_choosing s hi hchoosing] at hover
        obtain ⟨row, htaken⟩ := Option.isSome_iff_exists.1 hover
        exact goesTo_of_chosen hi hchoosing htaken
      | transfer => exact goesTo_of_covered hi hlive hover hpending

/-! ## What a step leaves alone -/

namespace Goes

variable (h : i.Goes project s i' s')

include h

theorem id_eq : i'.id = i.id := by
  cases h with
  | ended terminated => rfl
  | waits live waits =>
    unfold Interpreter.keepWaiting
    split <;> rfl
  | answered awaited ready =>
    obtain ⟨frames, hpast⟩ := i.goPast_eq
    rw [hpast]
  | aside id | speaks _ id | opens _ _ id | asks _ id | queues id | chooses id => exact id

theorem recruits :
    Stage.Recruits s.world.lastInterpreterId s'.world.lastInterpreterId s.world.stage
      s'.world.stage := by
  cases h with
  | ended terminated => exact .of_le le_rfl
  | waits live waits => exact .of_le le_rfl
  | answered awaited ready => exact .of_le le_rfl
  | aside _ _ _ _ _ world | speaks _ _ _ _ _ _ world | opens _ _ _ _ _ _ world
  | asks _ _ _ _ _ _ _ world | queues _ _ _ _ _ world | chooses _ _ _ _ _ _ world =>
    exact world.scripts

theorem saveInFlight_eq : s'.world.saveInFlight = s.world.saveInFlight := by
  cases h with
  | ended terminated => rfl
  | waits live waits => rfl
  | answered awaited ready => rfl
  | aside _ _ _ _ _ world | speaks _ _ _ _ _ _ world | opens _ _ _ _ _ _ world
  | asks _ _ _ _ _ _ _ world | queues _ _ _ _ _ world | chooses _ _ _ _ _ _ world =>
    exact world.saveInFlight

/-- Either no request was made, or exactly one. -/
theorem lastRequestId_cases :
    s'.platform.lastRequestId = s.platform.lastRequestId ∧
        (∀ id, i'.awaited? = some id → i.awaited? = some id) ∨
      s'.platform.lastRequestId = s.platform.lastRequestId + 1 ∧ i.awaited? = none ∧
        i'.awaited? = some (s.platform.lastRequestId + 1) := by
  cases h with
  | ended terminated => exact .inl ⟨rfl, fun _ h => h⟩
  | waits live waits =>
    refine .inl ⟨rfl, fun id hid => ?_⟩
    rw [← hid]
    unfold Interpreter.keepWaiting
    split <;> rfl
  | answered awaited ready =>
    obtain ⟨frames, hpast⟩ := i.goPast_eq
    refine .inl ⟨rfl, fun id hid => ?_⟩
    rw [hpast, awaited?_of_pending rfl] at hid
    cases hid
  | opens running pending id unawaited unchosen shown world =>
    refine .inl ⟨rfl, fun id hid => ?_⟩
    simp [Interpreter.awaited?] at hid
  | aside id unawaited unawaited' unchosen unchosen' world platform =>
    exact .inl ⟨platform.lastRequestId, fun id hid => by cases unawaited'.symm.trans hid⟩
  | speaks window id unawaited unawaited' =>
    exact .inl ⟨rfl, fun id hid => by cases unawaited'.symm.trans hid⟩
  | chooses id unawaited unawaited' choosing unchosen' taken world platform =>
    exact .inl ⟨by rw [platform], fun id hid => by cases unawaited'.symm.trans hid⟩
  | asks request id unawaited awaited' unchosen unchosen' unsaved world platform =>
    refine .inr ⟨?_, unawaited, awaited'⟩
    rw [Platform.lastRequestId_ask, platform.lastRequestId]
  | queues id unawaited awaited' => exact .inr ⟨rfl, unawaited, awaited'⟩

/-- A script takes only the answer that it waits for. -/
theorem find?_answers {id : Nat} (other : i.awaited? ≠ some id) :
    s'.platform.answers.find? id = s.platform.answers.find? id := by
  cases h with
  | ended terminated => rfl
  | waits live waits => rfl
  | @answered id' awaited ready =>
    exact SortedMap.find?_erase_of_ne _ fun heq => other (heq ▸ awaited)
  | opens running pending id unawaited unchosen shown world => rfl
  | aside id unawaited unawaited' unchosen unchosen' world platform => rw [platform.answers]
  | speaks window => rfl
  | chooses id unawaited unawaited' choosing unchosen' taken world platform => rw [platform]
  | asks request id unawaited awaited' unchosen unchosen' unsaved world platform =>
    rw [Platform.answers_ask, platform.answers]
  | queues id unawaited awaited' => rfl

end Goes

end Interpreter

end Adventure
