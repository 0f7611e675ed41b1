import Adventure.Proofs.Session.Gradual

/-!
# Timed waits

A command can start something that lasts some frames and have its script wait for that.  The frames
of a plain wait are counted in the turns of the script, and any other wait is for parts that go on
by themselves.  Either way the script goes on after just so many ticks, and what was set going has
arrived by then.  There is one exception: a command that is the last step of its turn is followed by
nothing in this tick, not even by the first look at the wait.
-/

namespace Adventure

open Session (Act)

variable {project : Project}

/-! ## Commands that wait for what they start -/

/-- Something that a command starts and has its script wait for. -/
structure Timing where
  frames : UInt32
  wait : Wait
  /-- Where each of the parts is to arrive, if it is to go anywhere. -/
  targets : List (Option Binary64)

namespace Timing

/-- What the command is to start is there and at rest. -/
structure IsReady (T : Timing) (parts : List Interpolation) : Prop where
  length : T.targets.length = parts.length
  idle : ∀ p ∈ parts, p.isAnimating = false

/-- Every part that was to go somewhere is exactly there. -/
def HasArrived (T : Timing) (parts : List Interpolation) : Prop :=
  List.Forall₂ (fun target? p => ∀ target, target? = some target → p.current = target)
    T.targets parts

/-- How many ticks it takes until the script goes on, if the command is the step after so many
others in its tick.  After the last step of a tick, the wait is looked at in the next tick at the
earliest, and a plain wait begins to count then. -/
def delay (T : Timing) (step : Nat) : Nat :=
  if step + 1 < stepLimit then T.frames.toNat
  else
    match T.wait with
    | .frames _ => T.frames.toNat + 1
    | _ => max T.frames.toNat 1

end Timing

/-- The targets of a tint. -/
def TintOrder.targets (o : TintOrder) : List (Option Binary64) :=
  [some (Tint.share o.red), some (Tint.share o.green), some (Tint.share o.blue),
    some (Tint.share o.gray)]

/-- What an action starts, if it has its script wait for that. -/
def Interpreter.timing? (i : Interpreter) (s : Session) : Action → Option Timing
  | .wait time => some ⟨time, .frames time, []⟩
  | .tintScreen o => if o.wait then some ⟨o.time, .tint, o.targets⟩ else none
  | .movePicture o =>
    let read := s.world.memory.resolve o.source
    let targets := [some (Binary64.ofInt (read o.x).toInt), some (Binary64.ofInt (read o.y).toInt)]
    if o.wait then some ⟨o.time, .picture o.id, targets ++ .replicate 8 none⟩ else none
  | .scalePicture o =>
    let targets := [some (Picture.factor o.scaleX), some (Picture.factor o.scaleY)]
    if o.wait then
      some ⟨o.time, .picture o.id, .replicate 2 none ++ targets ++ .replicate 6 none⟩
    else none
  | .rotatePicture o =>
    let targets := [some (Binary64.ofInt o.angle.toInt)]
    if o.wait then
      some ⟨o.time, .picture o.id, .replicate 4 none ++ targets ++ .replicate 5 none⟩
    else none
  | .fadePicture o =>
    let targets := [some (Picture.opacityShare o.opacity)]
    if o.wait then
      some ⟨o.time, .picture o.id, .replicate 5 none ++ targets ++ .replicate 4 none⟩
    else none
  | .tintPicture o =>
    if o.tint.wait then some ⟨o.tint.time, .picture o.id, .replicate 6 none ++ o.tint.targets⟩
    else none
  | .setCharacterOpacity change =>
    let targets := [some (Binary64.ofInt (clampByte change.opacity).toInt)]
    if change.wait then some ⟨change.time, .opacity i.target, targets⟩ else none
  | _ => none

namespace Timing

/-- What a command leaves behind that starts something and waits for it. -/
structure Starts (T : Timing) (i : Interpreter) (s : Session) (e : Effect) : Prop where
  interpreter : e.interpreter = i
  outcome : e.outcome = .wait T.wait
  parts : T.wait.parts i.mapId i.roomId e.session.world.fixtures =
    List.zipWith (Interpolation.aim · T.frames) (T.wait.parts i.mapId i.roomId s.world.fixtures)
      T.targets

variable {T : Timing} {i : Interpreter} {s : Session}

theorem starts_picture {frames : UInt32} {id : UInt64} {waits : Bool}
    {targets : List (Option Binary64)} {change : Picture → Picture}
    (h : (if waits then some ⟨frames, .picture id, targets⟩ else none) = some T)
    (aims : ∀ p, (change p).parts = List.zipWith (Interpolation.aim · frames) p.parts targets) :
    T.Starts i s (i.changePicturesThenWait s waits id fun ps => ps.modify id change) := by
  obtain ⟨hwaits, heq⟩ := Option.ite_none_right_eq_some.1 h
  obtain rfl := Option.some.inj heq
  refine ⟨rfl, if_pos hwaits, ?_⟩
  show (((s.world.pictures.modify id change).get? id).map Picture.parts).getD [] =
    List.zipWith _ (((s.world.pictures.get? id).map Picture.parts).getD []) targets
  rw [Pictures.get?_modify]
  cases s.world.pictures.get? id with
  | none => rfl
  | some p => exact aims p

theorem starts_opacity (change : OpacityChange) (waits : change.wait = true)
    (ready : IsReady ⟨change.time, .opacity i.target,
        [some (Binary64.ofInt (clampByte change.opacity).toInt)]⟩
      ((Wait.opacity i.target).parts i.mapId i.roomId s.world.fixtures)) :
    Starts ⟨change.time, .opacity i.target,
      [some (Binary64.ofInt (clampByte change.opacity).toInt)]⟩ i s (i.fadeTarget s change) := by
  have hlength := ready.length
  rw [Wait.parts_opacity] at hlength
  unfold Interpreter.fadeTarget Interpreter.withTarget
  split
  · next c hc =>
    refine ⟨rfl, if_pos waits, ?_⟩
    have hchanged : (s.world.stage.modifyCharacter i.target fun c =>
        c.setOpacity change.opacity change.time).characterIn? i.mapId i.roomId i.target =
          some (c.setOpacity change.opacity change.time) := by
      rw [Stage.characterIn?_modifyCharacter (Character.Steady.setOpacity _ _).eventId, hc]
      rfl
    refine (Wait.parts_opacity _ _ _ _).trans ?_
    rw [Wait.parts_opacity, hc]
    exact congrArg (fun c? => (Option.map Character.opacity c?).toList) hchanged
  · next hnone =>
    rw [hnone] at hlength
    cases hlength

/-- Each command that waits for what it starts sets out for the targets. -/
theorem starts_act (branches : List Script) {action : Action} (h : i.timing? s action = some T)
    (ready : T.IsReady (T.wait.parts i.mapId i.roomId s.world.fixtures)) :
    T.Starts i s (i.act s project branches action) := by
  cases action with
  | wait time =>
    obtain rfl := Option.some.inj h
    exact ⟨rfl, rfl, rfl⟩
  | tintScreen o =>
    obtain ⟨hwaits, heq⟩ := Option.ite_none_right_eq_some.1 h
    obtain rfl := Option.some.inj heq
    exact ⟨rfl, if_pos hwaits, rfl⟩
  | movePicture o => exact starts_picture h fun _ => rfl
  | scalePicture o => exact starts_picture h fun _ => rfl
  | rotatePicture o => exact starts_picture h fun _ => rfl
  | fadePicture o => exact starts_picture h fun _ => rfl
  | tintPicture o => exact starts_picture h fun _ => rfl
  | setCharacterOpacity change =>
    obtain ⟨hwaits, heq⟩ := Option.ite_none_right_eq_some.1 h
    obtain rfl := Option.some.inj heq
    exact starts_opacity change hwaits ready
  | _ => cases h

/-- A plain wait counts for itself, and any other wait is for parts with a target. -/
theorem wait_cases {action : Action} (h : i.timing? s action = some T) :
    T.wait = .frames T.frames ∧ T.targets = [] ∨
      T.wait.IsForParts ∧ T.targets.any Option.isSome = true := by
  cases action with
  | wait time =>
    obtain rfl := Option.some.inj h
    exact .inl ⟨rfl, rfl⟩
  | tintScreen o | movePicture o | scalePicture o | rotatePicture o | fadePicture o | tintPicture o
  | setCharacterOpacity o =>
    obtain ⟨_, heq⟩ := Option.ite_none_right_eq_some.1 h
    obtain rfl := Option.some.inj heq
    exact .inr ⟨trivial, rfl⟩
  | _ => cases h

/-! ## Waiting -/

/-- The wait is over after so many frames. -/
inductive Waits (T : Timing) : Nat → Wait → List Interpolation → Prop where
  | count {frames : Nat} (count : UInt32) (isLeft : count.toNat = frames)
      (isCount : T.wait = .frames T.frames) (targets : T.targets = []) :
      T.Waits frames (.frames count) []
  | parts {frames : Nat} {parts : List Interpolation} (isForParts : T.wait.IsForParts)
      (aims : T.targets.any Option.isSome = true)
      (due : Interpolation.AllDue frames T.targets parts) : T.Waits frames T.wait parts

/-- A wait that has begun is as long as what was started. -/
theorem waits_of_starts {action : Action} {e : Effect} (h : i.timing? s action = some T)
    (ready : T.IsReady (T.wait.parts i.mapId i.roomId s.world.fixtures)) (starts : T.Starts i s e) :
    T.Waits T.frames.toNat T.wait (T.wait.parts i.mapId i.roomId e.session.world.fixtures) := by
  rcases wait_cases h with ⟨hcount, htargets⟩ | ⟨hparts, haims⟩
  · have hwaits : T.Waits T.frames.toNat (.frames T.frames) [] :=
      .count T.frames rfl hcount htargets
    rw [hcount]
    exact hwaits
  · refine .parts hparts haims ?_
    rw [starts.parts]
    exact Interpolation.allDue_aim ready.idle ready.length T.frames

namespace Waits

variable {wait : Wait} {parts : List Interpolation} {frames : Nat}

theorem hasArrived (h : T.Waits 0 wait parts) : T.HasArrived parts := by
  unfold HasArrived
  cases h with
  | count count isLeft isCount targets =>
    rw [targets]
    exact .nil
  | parts isForParts aims due =>
    refine due.imp fun target? p hdue target htarget => ?_
    rw [htarget] at hdue
    exact hdue.2.2 rfl

/-- The script goes on exactly when no frames are left. -/
theorem isWaitOver_eq (h : T.Waits frames wait (T.wait.parts i.mapId i.roomId s.world.fixtures)) :
    ({ i with wait := wait } : Interpreter).isWaitOver s = decide (frames = 0) := by
  generalize hparts : T.wait.parts i.mapId i.roomId s.world.fixtures = parts at h
  cases h with
  | count count isLeft isCount targets =>
    have hzero : count = 0 ↔ frames = 0 := by rw [← isLeft, ← UInt32.toNat_inj]; rfl
    simp only [Interpreter.isWaitOver, hzero]
  | parts isForParts aims due =>
    rw [Interpreter.isWaitOver_of_isForParts isForParts, hparts]
    cases frames with
    | zero => rw [due.idle]; rfl
    | succ frames => rw [due.animating aims]; rfl

/-- One more frame of waiting. -/
theorem keepWaiting (h : T.Waits (frames + 1) wait parts) (i : Interpreter) :
    ∃ wait', ({ i with wait := wait } : Interpreter).keepWaiting = { i with wait := wait' } ∧
      T.Waits frames wait' (parts.map Interpolation.update) := by
  unfold Interpreter.keepWaiting
  cases h with
  | count count isLeft isCount targets =>
    have hleft : (count - 1).toNat = frames := by
      rw [Interpolation.toNat_pred (fun hzero => by simp [hzero] at isLeft), isLeft]
      rfl
    exact ⟨_, rfl, .count _ hleft isCount targets⟩
  | parts isForParts aims due =>
    refine ⟨T.wait, ?_, .parts isForParts aims due.update⟩
    split
    · next hframes =>
      replace hframes : T.wait = .frames _ := hframes
      rw [hframes] at isForParts
      exact isForParts.elim
    · rfl

/-- After the last step of a turn there is a frame before the wait is looked at. -/
theorem put_off (h : T.Waits T.frames.toNat T.wait parts) {step : Nat}
    (last : ¬ step + 1 < stepLimit) :
    0 < T.delay step ∧ T.Waits (T.delay step - 1) T.wait (parts.map Interpolation.update) := by
  rcases T with ⟨total, awaited, targets⟩
  rw [delay, if_neg last]
  cases h with
  | count count isLeft isCount targets =>
    exact ⟨Nat.succ_pos _, .count count isLeft isCount targets⟩
  | parts isForParts aims due =>
    dsimp only at isForParts ⊢
    split
    · exact isForParts.elim
    · rw [show max total.toNat 1 - 1 = total.toNat - 1 by omega]
      exact ⟨by omega, .parts isForParts aims due.update⟩

end Waits

end Timing

/-! ## Turns of a script that waits -/

namespace Interpreter

variable {i : Interpreter} {s : Session}

/-- A script that waits does nothing else in its turn. -/
theorem run_of_waiting (live : i.terminated = false) (waits : i.isWaitOver s = false) {n : Nat}
    (room : 0 < n) :
    run project n i s = (i.keepWaiting, s) ∧ i.commands project n s = [] := by
  obtain ⟨n, rfl⟩ : ∃ m, n = m + 1 := ⟨n - 1, by omega⟩
  have hstep := step_of_waiting project live waits
  have hidle : i.running? s project = none := by rw [running?, if_pos (by simp [waits])]
  exact ⟨by rw [run, hstep], by simp [commands, hstep, hidle]⟩

/-- A script whose wait is over goes on as if it had not waited. -/
theorem commands_of_over (live : i.terminated = false) (elapsed : i.isWaitOver s = true) (n : Nat) :
    i.commands project n s = ({ i with wait := .none } : Interpreter).commands project n s := by
  cases n with
  | zero => rfl
  | succ n =>
    have hover : ({ i with wait := .none } : Interpreter).isWaitOver s = true := rfl
    have hstep : i.step s project = ({ i with wait := .none } : Interpreter).step s project := by
      rw [step, step, if_neg (by simp [live]), if_neg (by simp [elapsed]), if_neg (by simp [live]),
        if_neg (by simp [hover])]
    have hrunning : i.running? s project =
        ({ i with wait := .none } : Interpreter).running? s project := by
      simp only [running?, elapsed, hover]
    rw [commands, commands, hstep, hrunning]

/-- The first steps of a turn run the first commands. -/
theorem Runs.commands_eq {n : Nat} {c c' : Config} (h : Runs project n c c') (more : Nat) :
    c.1.commands project (n + more) c.2 =
      c.1.commands project n c.2 ++ c'.1.commands project more c'.2 := by
  induction h with
  | refl => rw [Nat.zero_add]; rfl
  | @step n c c' c'' first _ ih =>
    replace first : c.1.step c.2 project = (true, c') := first
    rw [Nat.add_right_comm, commands, commands, first]
    dsimp only
    rw [if_pos rfl, if_pos rfl, ih, List.append_assoc]

theorem walk_of_running {j : Interpreter} {t : Session} {c : Command}
    (h : i.running? s project = some (j, t, c)) : j.walk = none := by
  obtain ⟨_, _, hwalk, _⟩ := running?_eq_some h
  rcases updateWalk_cases { i with wait := .none } s project with
    ⟨walk, w, _, hwalks⟩ | ⟨w, _, hwalks⟩
  · simp [hwalks] at hwalk
  · obtain ⟨rfl, _⟩ := Prod.mk.inj (Prod.mk.inj (hwalks.symm.trans hwalk)).2
    rfl

/-- What a script goes on with: with its next command, if there is another in the list. -/
structure GoesOnWith (next : Interpreter) (project : Project) (steps : Nat) (s : Session)
    (commands : List (Interpreter × Session × Command)) : Prop where
  all : commands = next.commands project steps s
  first : ∀ c, next.current? = some c → commands.head? = some (next, s, c)

theorem running?_of_ready (live : i.terminated = false) (wait : i.wait = .none)
    (walk : i.walk = none) {c : Command} (current : i.current? = some c) :
    i.running? s project = some (i, s, c) := by
  have hover : i.isWaitOver s = true := by rw [isWaitOver, wait]
  have hsame : ({ i with wait := .none } : Interpreter) = i := by rw [← wait]
  have hrunning := running?_of_idle project live hover walk current
  rwa [hsame] at hrunning

theorem goesOnWith (live : i.terminated = false) (wait : i.wait = .none) (walk : i.walk = none)
    {n : Nat} (room : 0 < n) : i.GoesOnWith project n s (i.commands project n s) := by
  refine ⟨rfl, fun c hcurrent => ?_⟩
  obtain ⟨n, rfl⟩ : ∃ m, n = m + 1 := ⟨n - 1, by omega⟩
  rw [commands, running?_of_ready live wait walk hcurrent]
  rfl

/-- Commands that do nothing take one step each. -/
theorem runs_nops (kind : i.kind ≠ .route) (live : i.terminated = false) (wait : i.wait = .none)
    (walk : i.walk = none) {f : Frame} {rest : List Frame} (frames : i.frames = f :: rest) {n : Nat}
    (nops : ∀ k < n, f.commands[f.index + k]? = some (.act .nop [])) :
    Runs project n (i, s) ({ i with frames := { f with index := f.index + n } :: rest }, s) := by
  induction n with
  | zero =>
    rw [Nat.add_zero, ← frames]
    exact .refl _
  | succ n ih =>
    have hfirst := ih fun k hk => nops k (Nat.lt_succ_of_lt hk)
    refine hfirst.trans (.step ?_ (.refl _))
    generalize hj : ({ i with frames := { f with index := f.index + n } :: rest } : Interpreter) = j
    have hcurrent : j.current? = some (.act .nop []) := by
      rw [← hj]
      exact nops n (Nat.lt_succ_self n)
    have hrunning : j.running? s project = some (j, s, .act .nop []) := by
      refine running?_of_ready ?_ ?_ ?_ hcurrent
      all_goals rw [← hj]
      exacts [live, wait, walk]
    have hkind : ¬ (j.kind = .route && !(Command.act .nop []).fitsRoute) = true := by
      rw [← hj, Bool.and_eq_true, decide_eq_true_iff]
      exact fun h => kind h.1
    show j.step s project = _
    rw [step_of_running hrunning, execute, if_neg hkind, ← hj]
    rfl

end Interpreter

namespace Turn

variable {T : Timing} {next : Interpreter} {frames : Nat} {τ τ' : Turn project}

/-- In its turn the script has so many frames left to wait, and then it goes on as `next`. -/
def FindsWaiting (T : Timing) (next : Interpreter) (frames : Nat) (τ : Turn project) : Prop :=
  ∃ wait, τ.script = { next with wait := wait } ∧
    T.Waits frames wait (T.wait.parts next.mapId next.roomId τ.found.world.fixtures)

/-- After its turn the script has so many frames left to wait from its next turn on. -/
def LeavesWaiting (T : Timing) (next : Interpreter) (frames : Nat) (τ : Turn project) : Prop :=
  ∃ wait, τ.left.1 = { next with wait := wait } ∧
    T.Waits frames wait
      ((T.wait.parts next.mapId next.roomId τ.left.2.world.fixtures).map Interpolation.update)

theorem Next.findsWaiting (h : τ.Next (T.wait.parts next.mapId next.roomId) τ')
    (leaves : τ.LeavesWaiting T next frames) : τ'.FindsWaiting T next frames := by
  obtain ⟨wait, hscript, hwaits⟩ := leaves
  rw [← h.parts_eq] at hwaits
  exact ⟨wait, h.script.trans hscript, hwaits⟩

theorem FindsWaiting.leavesWaiting (finds : τ.FindsWaiting T next (frames + 1))
    (live : next.terminated = false) : τ.commands = [] ∧ τ.LeavesWaiting T next frames := by
  obtain ⟨wait, hscript, hwaits⟩ := finds
  obtain ⟨wait', hkeeps, hwaits'⟩ := hwaits.keepWaiting next
  have hturn : τ.left = (τ.script.keepWaiting, τ.found) ∧ τ.commands = [] := by
    refine Interpreter.run_of_waiting ?_ ?_ (by decide)
    · rw [hscript]
      exact live
    · rw [hscript]
      exact hwaits.isWaitOver_eq
  obtain ⟨hleft, hcommands⟩ := hturn
  refine ⟨hcommands, wait', ?_, ?_⟩
  · rw [hleft, hscript]
    exact hkeeps
  · rw [hleft]
    exact hwaits'

/-- As long as nobody else touches the parts, every tick brings the end of the wait closer. -/
theorem After.findsWaiting {k : Nat}
    (after : After (T.wait.parts next.mapId next.roomId) τ (k + 1) τ')
    (leaves : τ.LeavesWaiting T next frames) (live : next.terminated = false) (le : k ≤ frames) :
    τ'.FindsWaiting T next (frames - k) := by
  induction k generalizing τ' with
  | zero =>
    cases after with
    | next earlier hnext =>
      cases earlier with
      | now => exact hnext.findsWaiting leaves
  | succ k ih =>
    cases after with
    | next earlier hnext =>
      have hfinds := ih earlier (Nat.le_of_succ_le le)
      rw [show frames - k = frames - (k + 1) + 1 by omega] at hfinds
      exact hnext.findsWaiting (hfinds.leavesWaiting live).2

/-- When no frames are left, everything has arrived and the script goes on. -/
theorem FindsWaiting.goesOn (finds : τ.FindsWaiting T next 0) (live : next.terminated = false)
    (wait : next.wait = .none) (walk : next.walk = none) :
    T.HasArrived (T.wait.parts next.mapId next.roomId τ.found.world.fixtures) ∧
      next.GoesOnWith project stepLimit τ.found τ.commands := by
  obtain ⟨wait', hscript, hwaits⟩ := finds
  have hover : τ.script.isWaitOver τ.found = true := by
    rw [hscript]
    exact hwaits.isWaitOver_eq
  have hlive : τ.script.terminated = false := by
    rw [hscript]
    exact live
  have hsame : ({ τ.script with wait := .none } : Interpreter) = next := by rw [hscript, ← wait]
  have hcommands : τ.commands = next.commands project stepLimit τ.found := by
    rw [commands, Interpreter.commands_of_over hlive hover, hsame]
  rw [hcommands]
  exact ⟨hwaits.hasArrived, Interpreter.goesOnWith live wait walk (by decide)⟩

theorem LeavesWaiting.terminated (leaves : τ.LeavesWaiting T next frames)
    (live : next.terminated = false) : τ.left.1.terminated = false := by
  obtain ⟨wait, hscript, _⟩ := leaves
  rw [hscript]
  exact live

theorem LeavesWaiting.isBlocking (leaves : τ.LeavesWaiting T next frames) :
    τ.script.isBlocking = next.isBlocking := by
  obtain ⟨wait, hscript, _⟩ := leaves
  have hleft : τ.left.1.isBlocking = τ.script.isBlocking :=
    Interpreter.isBlocking_eq_of_origin (τ.script.origin_run τ.found stepLimit)
  rw [← hleft, hscript]
  rfl

/-- Until no frames are left, the turns of the script do nothing but wait. -/
theorem After.leavesWaiting {k : Nat}
    (after : After (T.wait.parts next.mapId next.roomId) τ k τ')
    (leaves : τ.LeavesWaiting T next frames) (live : next.terminated = false) (le : k ≤ frames) :
    τ'.LeavesWaiting T next (frames - k) ∧ (0 < k → τ'.commands = []) := by
  cases k with
  | zero =>
    cases after with
    | now => exact ⟨leaves, fun h => absurd h (Nat.lt_irrefl 0)⟩
  | succ k =>
    have hfinds := after.findsWaiting leaves live (Nat.le_of_succ_le le)
    rw [show frames - k = frames - (k + 1) + 1 by omega] at hfinds
    obtain ⟨hcommands, hleaves⟩ := hfinds.leavesWaiting live
    exact ⟨hleaves, fun _ => hcommands⟩

/-- Later turns belong to the same game. -/
theorem After.exists_acts {α : Type} {part : Fixtures → α} {k : Nat} (after : After part τ k τ')
    {s₀ : Session} {past : List Act} (game : τ.session = s₀.after project past) :
    ∃ past', τ'.session = s₀.after project past' := by
  induction after with
  | now => exact ⟨past, game⟩
  | @next k τ' τ'' _ hnext ih =>
    obtain ⟨past', hsession⟩ := ih
    obtain ⟨acts, _, hacts⟩ := hnext.host
    refine ⟨past' ++ .tick τ'.input :: acts, ?_⟩
    rw [hacts, afterTick, hsession, Session.after, Session.after, Session.after, List.foldl_append,
      List.foldl_cons]
    rfl

/-- A script that has a tick for itself has nobody before it and nobody after it. -/
theorem alone (τ : Turn project) (h : (τ.session.turns project τ.input).length = 1) :
    τ.earlier = [] ∧ τ.later = [] := by
  rw [τ.isTurn, List.length_append, List.length_cons] at h
  exact ⟨List.eq_nil_of_length_eq_zero (by omega), List.eq_nil_of_length_eq_zero (by omega)⟩

/-- Nobody touches anything while there is just one script. -/
theorem next_of_alone {α : Type} (part : Fixtures → α) (session : τ'.session = τ.afterTick)
    (script : τ'.script = τ.left.1) (later : τ.later = []) (earlier : τ'.earlier = []) :
    τ.Next part τ' := by
  refine ⟨script, ⟨[], fun _ => List.not_mem_nil, session⟩, by rw [session], ?_⟩
  rw [later, earlier]
  exact fun r hr => absurd hr List.not_mem_nil

/-- A plain wait goes on in the next tick, whatever others do meanwhile. -/
theorem LeavesWaiting.exists_finds (leaves : τ.LeavesWaiting T next frames)
    (live : next.terminated = false) (blocking : τ.script.isBlocking = true)
    (plain : T.wait = .frames T.frames) {s₀ : Session} (begins : Session.Begins project s₀)
    {past : List Act} (game : τ.session = s₀.after project past) :
    ∃ τ' : Turn project, τ'.session = τ.afterTick ∧ τ'.script = τ.left.1 ∧
      τ'.FindsWaiting T next frames := by
  have hnoTick : ∀ input, Act.tick input ∉ ([] : List Act) := fun _ => List.not_mem_nil
  obtain ⟨τ', hsession, -, hscript⟩ :=
    exists_next begins τ game hnoTick (.inl blocking) (leaves.terminated live) .none
  have hparts : ∀ f f', T.wait.parts next.mapId next.roomId f =
      T.wait.parts next.mapId next.roomId f' := fun _ _ => by rw [plain]; rfl
  have hnext : τ.Next (T.wait.parts next.mapId next.roomId) τ' :=
    ⟨hscript, ⟨[], hnoTick, hsession⟩, hparts _ _, fun _ _ => hparts _ _⟩
  exact ⟨τ', hsession, hscript, hnext.findsWaiting leaves⟩

/-! ## The turn that starts it -/

/-- A step of the turn runs an action that starts something and waits for it. -/
structure Starts (τ : Turn project) (T : Timing) (step : Nat) (j : Interpreter) (t : Session)
    (action : Action) (branches : List Script) : Prop where
  room : step < stepLimit
  running : ∃ i u, Interpreter.Runs project step (τ.script, τ.found) (i, u) ∧
    i.running? u project = some (j, t, .act action branches)
  fits : j.kind = .route → action.fitsRoute = true
  timing : j.timing? t action = some T
  ready : T.IsReady (T.wait.parts j.mapId j.roomId t.world.fixtures)

variable {step : Nat} {j : Interpreter} {t : Session} {action : Action} {branches : List Script}

namespace Starts

theorem starts (h : τ.Starts T step j t action branches) :
    T.Starts j t (j.execute t project (.act action branches)) := by
  have hruns : ¬ (j.kind = .route && !(Command.act action branches).fitsRoute) = true := by
    rw [Bool.and_eq_true, decide_eq_true_iff, Bool.not_eq_true']
    exact fun ⟨hroute, hmisfit⟩ => Bool.false_ne_true (hmisfit.symm.trans (h.fits hroute))
  rw [Interpreter.execute, if_neg hruns]
  exact Timing.starts_act branches h.timing h.ready

/-- What goes on after the wait neither has ended nor walks, and is in the same room. -/
theorem advanced (h : τ.Starts T step j t action branches) :
    j.advance.terminated = false ∧ j.advance.walk = none ∧
      j.advance.mapId = j.mapId ∧ j.advance.roomId = j.roomId := by
  obtain ⟨i, u, _, hrunning⟩ := h.running
  obtain ⟨frames, hadvance⟩ := j.modifyFrame_eq Frame.advance
  have hlive : j.terminated = false := Interpreter.terminated_of_running hrunning
  have hwalk : j.walk = none := Interpreter.walk_of_running hrunning
  rw [Interpreter.advance, hadvance]
  exact ⟨hlive, hwalk, rfl, rfl⟩

/-- Until the wait begins, the turn goes on as any turn does. -/
theorem split (h : τ.Starts T step j t action branches) :
    let started := (j.execute t project (.act action branches)).session
    let waiting := { j.advance with wait := T.wait }
    τ.left = Interpreter.run project (stepLimit - (step + 1)) waiting started ∧
    τ.commands = τ.script.commands project step τ.found ++ (j, t, .act action branches) ::
      waiting.commands project (stepLimit - (step + 1)) started := by
  intro started waiting
  obtain ⟨i, u, hruns, hrunning⟩ := h.running
  have hroom := h.room
  have hstep : i.step u project = (true, waiting, started) := by
    rw [Interpreter.step_of_running hrunning, Interpreter.follow, h.starts.outcome,
      h.starts.interpreter]
  have hmore := hruns.trans (.step hstep (.refl _))
  have hlimit : stepLimit = step + 1 + (stepLimit - (step + 1)) := by omega
  refine ⟨?_, ?_⟩
  · have hrun := hmore.run_eq (stepLimit - (step + 1))
    rw [← hlimit] at hrun
    exact hrun
  · have hcommands := hruns.commands_eq (1 + (stepLimit - (step + 1)))
    rw [← Nat.add_assoc, ← hlimit] at hcommands
    refine hcommands.trans (congrArg _ ?_)
    rw [Nat.add_comm 1, Interpreter.commands, hstep, hrunning]
    rfl

/-- The turn either goes on at once or leaves its script waiting. -/
theorem goesOn_or_leavesWaiting (h : τ.Starts T step j t action branches) :
    let started := (j.execute t project (.act action branches)).session
    let waiting := { j.advance with wait := T.wait }
    let next := { j.advance with wait := .none }
    let since := waiting.commands project (stepLimit - (step + 1)) started
    T.delay step = 0 ∧ T.HasArrived (T.wait.parts next.mapId next.roomId started.world.fixtures) ∧
        next.GoesOnWith project (stepLimit - (step + 1)) started since ∨
      0 < T.delay step ∧ since = [] ∧ τ.LeavesWaiting T next (T.delay step - 1) := by
  intro started waiting next since
  obtain ⟨hleft, _⟩ := h.split
  obtain ⟨hlive, hwalk, hmap, hroom⟩ := h.advanced
  have hwaits : T.Waits T.frames.toNat T.wait
      (T.wait.parts next.mapId next.roomId started.world.fixtures) := by
    rw [show next.mapId = j.mapId from hmap, show next.roomId = j.roomId from hroom]
    exact Timing.waits_of_starts h.timing h.ready h.starts
  by_cases hlast : step + 1 < stepLimit
  · have hdelay : T.delay step = T.frames.toNat := if_pos hlast
    have hwaiting : waiting.terminated = false := hlive
    have hsteps : 0 < stepLimit - (step + 1) := by omega
    rw [hdelay]
    generalize T.frames.toNat = frames at hwaits
    cases frames with
    | zero =>
      have hover : waiting.isWaitOver started = true := hwaits.isWaitOver_eq
      refine .inl ⟨rfl, hwaits.hasArrived, ?_⟩
      have hsince : since = _ := Interpreter.commands_of_over hwaiting hover _
      rw [hsince]
      exact Interpreter.goesOnWith (show next.terminated = false from hlive) rfl hwalk hsteps
    | succ frames =>
      have hover : waiting.isWaitOver started = false := hwaits.isWaitOver_eq
      have hturn : _ ∧ since = [] := Interpreter.run_of_waiting hwaiting hover hsteps
      obtain ⟨wait, hkeeps, hwaits'⟩ := hwaits.keepWaiting next
      rw [hturn.1] at hleft
      refine .inr ⟨Nat.succ_pos _, hturn.2, wait, ?_, ?_⟩
      · rw [hleft]
        exact hkeeps
      · rw [hleft]
        exact hwaits'
  · -- nothing of the turn is left
    have hsteps : stepLimit - (step + 1) = 0 := by omega
    obtain ⟨hpos, hwaits'⟩ := hwaits.put_off hlast
    rw [hsteps] at hleft
    refine .inr ⟨hpos, ?_, T.wait, ?_, ?_⟩
    · simp only [since, hsteps, Interpreter.commands]
    · rw [hleft]
      rfl
    · rw [hleft]
      exact hwaits'

end Starts

/-- A script that starts something and waits for it goes on after exactly so many ticks, provided
that it is not dropped.  Until then it runs no command, and by then everything has arrived that
nobody else has touched. -/
theorem goesOn_in_time {s₀ : Session} (begins : Session.Begins project s₀) {past : List Act}
    (game : τ.session = s₀.after project past) (starts : τ.Starts T step j t action branches) :
    let parts := T.wait.parts j.mapId j.roomId
    let next : Interpreter := { j.advance with wait := .none }
    let started := (j.execute t project (.act action branches)).session
    let delay := T.delay step
    (∃ since,
      τ.commands = τ.script.commands project step τ.found ++ (j, t, .act action branches) :: since ∧
      (0 < delay → since = []) ∧
      (delay = 0 → T.HasArrived (parts started.world.fixtures) ∧
        next.GoesOnWith project (stepLimit - (step + 1)) started since)) ∧
    ∀ k τ', After parts τ k τ' →
      (0 < k → k < delay → τ'.commands = []) ∧
      (0 < k → k = delay → T.HasArrived (parts τ'.found.world.fixtures) ∧
        next.GoesOnWith project stepLimit τ'.found τ'.commands) ∧
      (k < delay → ∀ acts : List Act, (∀ input, .tick input ∉ acts) → τ'.Stays acts →
        ∀ input, ∃ τ'' : Turn project, τ''.session = τ'.afterTick.after project acts ∧
          τ''.input = input ∧ τ''.script = τ'.left.1) := by
  intro parts next started delay
  obtain ⟨_, hcommands⟩ := starts.split
  obtain ⟨hlive, hwalk, hmap, hroom⟩ := starts.advanced
  have hparts : T.wait.parts next.mapId next.roomId = parts := by
    rw [show next.mapId = j.mapId from hmap, show next.roomId = j.roomId from hroom]
  replace hlive : next.terminated = false := hlive
  replace hwalk : next.walk = none := hwalk
  refine ⟨⟨_, hcommands, ?_⟩, fun k τ' after => ?_⟩
  all_goals rcases starts.goesOn_or_leavesWaiting with ⟨hzero, hgoes⟩ | ⟨hpos, hsince, hleaves⟩
  · rw [hparts] at hgoes
    exact ⟨fun h => absurd hzero h.ne', fun _ => hgoes⟩
  · exact ⟨fun _ => hsince, fun h => absurd h hpos.ne'⟩
  · have hnone : ∀ {m}, ¬ m < T.delay step := fun h => by omega
    refine ⟨fun _ h => absurd h hnone, fun h heq => absurd heq ?_, fun h => absurd h hnone⟩
    exact fun heq => h.ne' (heq.trans hzero)
  · rw [← hparts] at after
    refine ⟨fun h hless => (after.leavesWaiting hleaves hlive (by omega)).2 h, fun h heq => ?_,
      fun hless acts noTick stays input => ?_⟩
    · obtain ⟨k, rfl⟩ : ∃ m, k = m + 1 := ⟨k - 1, by omega⟩
      have hfinds := after.findsWaiting hleaves hlive (by omega)
      rw [show T.delay step - 1 - k = 0 by omega] at hfinds
      rw [← hparts]
      exact hfinds.goesOn hlive rfl hwalk
    · obtain ⟨hleaves', _⟩ := after.leavesWaiting hleaves hlive (by omega)
      obtain ⟨past', hgame⟩ := after.exists_acts game
      exact exists_next begins τ' hgame noTick stays (hleaves'.terminated hlive) input

end Turn

/-! ## A tint and a wait -/

/-- Two frames of a red tint. -/
def dimming : TintOrder := ⟨255, 0, 0, 0, 2, true⟩

/-- A common event that waits for the tint. -/
def dimmedScript : Script :=
  [.act (.tintScreen dimming) [], .act (.setSwitch 1 .constant true false) []]

def dimmedRoom : Project := .emptyRoom dimmedScript

/-- The switch is set two ticks later, when the screen is red. -/
theorem dimmedRoom_goesOn_in_time :
    ∃ w, World.start dimmedRoom 1 = .ok w ∧ ∃ τ τ' τ'' : Turn dimmedRoom,
      τ.session =
        (⟨w, .start dimmedRoom .deferred⟩ : Session).after dimmedRoom [.startCommonEvent 1] ∧
      Turn.After (Wait.tint.parts 1 1) τ 1 τ' ∧ τ'.commands = [] ∧
      Turn.After (Wait.tint.parts 1 1) τ 2 τ'' ∧
      τ''.found.world.screen.tint.red.current = Tint.share 255 ∧
      (τ''.commands.map (·.2.2)).head? = some (.act (.setSwitch 1 .constant true false) []) := by
  obtain ⟨w, hstart, hlisted, hidle, hlone, hlone', hlone''⟩ :
      ∃ w, World.start dimmedRoom 1 = .ok w ∧
        let s := (⟨w, .start dimmedRoom .deferred⟩ : Session).after dimmedRoom [.startCommonEvent 1]
        s.world.stage.interpreters = [.start 1 1 1 selfId .common dimmedScript] ∧
        (∀ p ∈ (s.beforeScripts dimmedRoom .none).world.screen.tint.parts, p.isAnimating = false) ∧
        let s' := s.update dimmedRoom .none
        (s.turns dimmedRoom .none).length = 1 ∧ (s'.turns dimmedRoom .none).length = 1 ∧
          ((s'.update dimmedRoom .none).turns dimmedRoom .none).length = 1 := by
    refine ⟨_, rfl, rfl, ?_⟩
    decide +kernel
  have hbegins : Session.Begins dimmedRoom ⟨w, .start dimmedRoom .deferred⟩ :=
    .new 1 .deferred hstart
  have hnoTick : ∀ input, Act.tick input ∉ ([] : List Act) := fun _ => List.not_mem_nil
  obtain ⟨τ, hsession, hinput, hscript⟩ : ∃ τ : Turn dimmedRoom, _ ∧ _ ∧ _ :=
    Turn.exists_turn _ .none (hlisted ▸ List.mem_singleton_self _)
  rw [← hsession, ← hinput] at hlone hidle
  obtain ⟨hearlier, hlater⟩ := τ.alone hlone
  have hready : ∀ p ∈ τ.found.world.fixtures.screen.tint.parts, p.isAnimating = false := by
    refine τ.kept_found (K := fun f => ∀ p ∈ f.screen.tint.parts, p.isAnimating = false) ?_ hidle
    rw [hearlier]
    exact fun r hr => absurd hr List.not_mem_nil
  have hstarts : τ.Starts ⟨2, .tint, dimming.targets⟩ 0
      (.start 1 1 1 selfId .common dimmedScript) τ.found (.tintScreen dimming) [] := by
    refine ⟨by decide, ⟨τ.script, τ.found, .refl _, ?_⟩, ?_, rfl, rfl, hready⟩
    · rw [hscript]
      exact Interpreter.running?_of_ready rfl rfl rfl rfl
    · exact fun h => InterpreterKind.noConfusion h
  have hblocking : τ.script.isBlocking = true := by rw [hscript]; rfl
  obtain ⟨_, hturns⟩ := Turn.goesOn_in_time hbegins hsession hstarts
  -- the next tick: the script waits
  obtain ⟨τ', hsession', hinput', hscript'⟩ :=
    (hturns 0 τ .now).2.2 (by decide) [] hnoTick (.inl hblocking) .none
  replace hsession' : τ'.session = τ.afterTick := hsession'
  obtain ⟨hearlier', hlater'⟩ := τ'.alone (by
    rw [hsession', hinput', Turn.afterTick, hinput, hsession]
    exact hlone')
  have hafter' : Turn.After (Wait.tint.parts 1 1) τ 1 τ' :=
    .next .now (Turn.next_of_alone _ hsession' hscript' hlater hearlier')
  have hblocking' : τ'.script.isBlocking = true := by
    rw [hscript', ← hblocking]
    exact Interpreter.isBlocking_eq_of_origin (τ.script.origin_run τ.found stepLimit)
  -- and the tick after it: the script goes on
  obtain ⟨τ'', hsession'', hinput'', hscript''⟩ :=
    (hturns 1 τ' hafter').2.2 (by decide) [] hnoTick (.inl hblocking') .none
  replace hsession'' : τ''.session = τ'.afterTick := hsession''
  obtain ⟨hearlier'', _⟩ := τ''.alone (by
    rw [hsession'', hinput'', Turn.afterTick, hinput', hsession', Turn.afterTick, hinput, hsession]
    exact hlone'')
  have hafter'' : Turn.After (Wait.tint.parts 1 1) τ 2 τ'' :=
    .next hafter' (Turn.next_of_alone _ hsession'' hscript'' hlater' hearlier'')
  obtain ⟨harrived, hgoes⟩ := (hturns 2 τ'' hafter'').2.1 (by decide) rfl
  refine ⟨w, hstart, τ, τ', τ'', hsession, hafter', (hturns 1 τ' hafter').1 (by decide) (by decide),
    hafter'', (List.forall₂_cons.1 harrived).1 _ rfl, ?_⟩
  rw [List.head?_map, hgoes.first _ rfl]
  rfl

/-- A common event whose wait is the last step of its turn. -/
def busyScript : Script :=
  .replicate 999 (.act .nop []) ++ [.act (.wait 1) [], .act (.setSwitch 1 .constant true false) []]

def busyRoom : Project := .emptyRoom busyScript

theorem busyScript.getElem?_add (k : Nat) : busyScript[999 + k]? =
    ([.act (.wait 1) [], .act (.setSwitch 1 .constant true false) []] : Script)[k]? := by
  rw [busyScript,
    List.getElem?_append_right (List.length_replicate.trans_le (Nat.le_add_right _ _)),
    List.length_replicate, Nat.add_sub_cancel_left]

/-- The script when it comes to its wait. -/
def busyScript.last : Interpreter :=
  { Interpreter.start 1 1 1 selfId .common busyScript with
    frames := [⟨busyScript, 999, .root, selfId⟩] }

theorem busyRoom_starts (τ : Turn busyRoom)
    (script : τ.script = .start 1 1 1 selfId .common busyScript) :
    τ.Starts ⟨1, .frames 1, []⟩ 999 busyScript.last τ.found (.wait 1) [] := by
  have hnops : ∀ k < 999, busyScript[0 + k]? = some (.act .nop []) := fun k hk => by
    rw [Nat.zero_add, busyScript,
      List.getElem?_append_left (hk.trans_eq List.length_replicate.symm),
      List.getElem?_replicate, if_pos hk]
  have hkind : (Interpreter.start 1 1 1 selfId .common busyScript).kind ≠ .route :=
    InterpreterKind.noConfusion
  refine ⟨by decide, ⟨busyScript.last, τ.found, ?_, ?_⟩, fun h => absurd h hkind, rfl, rfl, ?_⟩
  · rw [script]
    exact Interpreter.runs_nops hkind rfl rfl rfl rfl hnops
  · exact Interpreter.running?_of_ready rfl rfl rfl (busyScript.getElem?_add 0)
  · exact fun p hp => absurd hp List.not_mem_nil

/-- A wait for one frame takes two ticks if it is the last step of a turn. -/
theorem busyRoom_goesOn_late :
    ∃ w, World.start busyRoom 1 = .ok w ∧ ∃ τ τ' τ'' : Turn busyRoom,
      τ.session = (⟨w, .start busyRoom .deferred⟩ : Session).after busyRoom [.startCommonEvent 1] ∧
      τ'.session = τ.afterTick ∧ τ'.script = τ.left.1 ∧
      τ''.session = τ'.afterTick ∧ τ''.script = τ'.left.1 ∧
      (τ.commands.map (·.2.2)).getLast? = some (.act (.wait 1) []) ∧ τ'.commands = [] ∧
      (τ''.commands.map (·.2.2)).head? = some (.act (.setSwitch 1 .constant true false) []) := by
  obtain ⟨w, hstart, hlisted⟩ : ∃ w, World.start busyRoom 1 = .ok w ∧
      ((⟨w, .start busyRoom .deferred⟩ : Session).after busyRoom
        [.startCommonEvent 1]).world.stage.interpreters =
          [.start 1 1 1 selfId .common busyScript] := ⟨_, rfl, rfl⟩
  have hbegins : Session.Begins busyRoom ⟨w, .start busyRoom .deferred⟩ := .new 1 .deferred hstart
  obtain ⟨τ, hsession, -, hscript⟩ : ∃ τ : Turn busyRoom, _ ∧ _ ∧ _ :=
    Turn.exists_turn _ .none (hlisted ▸ List.mem_singleton_self _)
  have hstarts := busyRoom_starts τ hscript
  obtain ⟨_, hcommands⟩ := hstarts.split
  rcases hstarts.goesOn_or_leavesWaiting with ⟨hnow, _⟩ | ⟨_, hsince, hleaves⟩
  · cases hnow
  rw [hsince] at hcommands
  replace hleaves : τ.LeavesWaiting _ _ 1 := hleaves
  have hblocking : τ.script.isBlocking = true := by rw [hscript]; rfl
  obtain ⟨τ', hsession', hscript', hfinds'⟩ :=
    hleaves.exists_finds rfl hblocking rfl hbegins hsession
  obtain ⟨hcommands', hleaves'⟩ := hfinds'.leavesWaiting rfl
  have hblocking' : τ'.script.isBlocking = true := by
    rw [hleaves'.isBlocking]
    rfl
  have hgame : τ'.session = (⟨w, .start busyRoom .deferred⟩ : Session).after busyRoom
      [.startCommonEvent 1, .tick τ.input] := by
    rw [hsession', Turn.afterTick, hsession]
    rfl
  obtain ⟨τ'', hsession'', hscript'', hfinds''⟩ :=
    hleaves'.exists_finds rfl hblocking' rfl hbegins hgame
  obtain ⟨_, hgoes⟩ := hfinds''.goesOn rfl rfl rfl
  refine ⟨w, hstart, τ, τ', τ'', hsession, hsession', hscript', hsession'', hscript'', ?_,
    hcommands', ?_⟩
  · rw [hcommands, List.map_append]
    exact List.getLast?_concat
  · rw [List.head?_map, hgoes.first _ (busyScript.getElem?_add 1)]
    rfl

end Adventure
