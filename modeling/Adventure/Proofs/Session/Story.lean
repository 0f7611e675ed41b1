import Adventure.Proofs.Session.Reachable
import Adventure.Proofs.Session.Suspension

/-!
# The story of a game

A game told moment by moment.  Between two ticks there is one moment, and within a tick there is one
after each of its parts; while scripts run there is one after each step of each script.  A moment
holds the session along with the scripts that were taken off the stage to run.  `Session.story`
tells what a list of acts of the host leads to; it ends where the acts themselves lead to, and from
one moment to the next there is one of the passages that `Moment.Next` lists.
-/

namespace Adventure

/-! ## Moments -/

/-- A session in the middle of things. -/
structure Moment where
  session : Session
  /-- Scripts that were taken off the stage and have had their turn. -/
  ran : List Interpreter
  /-- Scripts that were taken off the stage and have their turn now (the first one) or later. -/
  turn : List Interpreter

namespace Moment

/-- A moment in which all scripts are on the stage. -/
def still (s : Session) : Moment := ⟨s, [], []⟩

/-- The scripts that are off the stage. -/
def off (m : Moment) : List Interpreter := m.ran ++ m.turn

/-- All scripts, on the stage and off it. -/
def scripts (m : Moment) : Multiset Interpreter := ↑m.off + m.session.world.stage.scripts

end Moment

/-! ## Scripts that take turns -/

/-- The steps of a script in a tick: what it is after each of them, and the session. -/
def Interpreter.steps (project : Project) :
    Nat → Interpreter → Session → List (Interpreter × Session)
  | 0, _, _ => []
  | n + 1, i, s =>
    let (goesOn, i, s) := i.step s project
    (i, s) :: if goesOn then steps project n i s else []

/-- Scripts take turns, after others that have had theirs. -/
def Moment.turns (project : Project) (ran : List Interpreter) :
    List Interpreter → Session → List Moment
  | [], _ => []
  | i :: rest, s =>
    let (last, s') := i.update s project
    ((i.steps project stepLimit s).map fun (j, t) => ⟨t, ran, j :: rest⟩) ++
      ⟨s', ran ++ [last], rest⟩ :: turns project (ran ++ [last]) rest s'

namespace Session

/-- Scripts are taken off the stage, take turns, and are put back. -/
def batch (project : Project) (scripts : List Interpreter) (taken : Session)
    (merge : Stage → List Interpreter → Stage) : List Moment :=
  let (ran, s) := Interpreter.updateAll project scripts taken
  ⟨taken, [], scripts⟩ :: Moment.turns project [] scripts taken ++
    [.still (s.modifyWorld fun w => w.modifyStage fun stage => merge stage ran)]

/-- The moments in which scripts run. -/
def scriptMoments (s : Session) (project : Project) : List Moment :=
  let taken := s.modifyWorld fun w => w.modifyStage fun stage => { stage with interpreters := [] }
  let s' := s.runInterpreters project
  let taken' := s'.modifyWorld fun w => w.modifyStage fun stage => { stage with routes := [] }
  batch project s.world.stage.interpreters taken Stage.mergeInterpreters ++
    batch project s'.world.stage.routes taken' Stage.mergeRoutes

/-! ## Parts of a tick -/

/-- What there is when the answers have been collected. -/
def withAnswers (s : Session) (project : Project) : Session :=
  s.resumeMusic.modifyPlatform fun p => p.collect project

/-- What there is before the windows have the input. -/
def beforeWindows (s : Session) (project : Project) : Session :=
  (s.withAnswers project).collectSave.modifyWorld fun w => { w with screen := w.screen.update }

/-- What the windows leave of the input. -/
def inputLeft (s : Session) (project : Project) (input : Input) : Input :=
  ((s.beforeWindows project).updateWindows input).1

/-- What there is after the windows have had the input. -/
def afterWindows (s : Session) (project : Project) (input : Input) : Session :=
  ((s.beforeWindows project).updateWindows input).2

/-- What there is when scripts begin to run. -/
def beforeScripts (s : Session) (project : Project) (input : Input) : Session :=
  ((s.afterWindows project input).modifyWorld fun w =>
    { w with pictures := w.pictures.update }).startScripts project (s.inputLeft project input)

/-- What there is when scripts have run. -/
def afterScripts (s : Session) (project : Project) (input : Input) : Session :=
  ((s.beforeScripts project input).runScripts project).modifyWorld fun w =>
    w.modifyStage fun stage => stage.dropStale.updateCharacters

/-- What there is when the saves have been sent. -/
def afterSaves (s : Session) (project : Project) (input : Input) : Session :=
  (s.afterScripts project input).save (s.beforeScripts project input).world.stage.isBlocked

theorem update_eq (s : Session) (project : Project) (input : Input) :
    s.update project input =
      (s.afterSaves project input).modifyWorld fun w => w.updateTouch (s.inputLeft project input) :=
  rfl

/-- The moments of a tick, from when the answers have been collected. -/
def momentsWithAnswers (s : Session) (project : Project) (input : Input) : List Moment :=
  let windows := s.afterWindows project input
  [.still (s.withAnswers project).collectSave, .still (s.beforeWindows project), .still windows,
      .still (windows.modifyWorld fun w => { w with pictures := w.pictures.update }),
      .still (s.beforeScripts project input)] ++
    (s.beforeScripts project input).scriptMoments project ++
    [.still (s.afterScripts project input), .still (s.afterScripts project input).sendScheduledSave,
      .still (s.afterSaves project input), .still (s.update project input)]

/-- The moments of a tick. -/
def tickMoments (s : Session) (project : Project) (input : Input) : List Moment :=
  .still s.resumeMusic :: .still (s.withAnswers project) :: s.momentsWithAnswers project input

/-! ## Acts -/

/-- What the host does with a game. -/
inductive Act where
  | tick (input : Input)
  | startEvent (id : Int32)
  | startItem (id : Int32)
  | startCombine (first second : Int32)
  | startCommonEvent (id : Int32)
  | startHint
  | transfer (roomId : Int32) (t : Tile) (dir : Option Direction)
  /-- Sets switches, variables and items as it likes. -/
  | set (memory : Variables) (inventory : Inventory)
  | requestSave
  /-- Answers a request, if this request was made. -/
  | answer (answer : Answer)
  /-- Makes a request of its own. -/
  | ask (request : Request) (unsaved : request.kind ≠ .saveProgress)
  /-- Changes something else about the platform. -/
  | configure (change : Platform → Platform) (silent : ∀ p, Platform.Silent p (change p))

/-- Whether the host was sent a request with this id. -/
def hasAsked (s : Session) (id : Nat) : Bool := s.platform.askedIds.contains id

/-- The session after an act. -/
def perform (project : Project) (s : Session) : Act → Session
  | .tick input => s.update project input
  | .startEvent id => s.modifyWorld fun w => (w.startEvent project id).2
  | .startItem id => s.modifyWorld fun w => (w.startItem project id).2
  | .startCombine first second => s.modifyWorld fun w => (w.startCombine project first second).2
  | .startCommonEvent id => s.modifyWorld fun w => (w.startCommonEvent project id).2
  | .startHint => s.modifyWorld fun w => (w.startHint project).2
  | .transfer roomId t dir =>
    match s.world.transfer project roomId t dir with
    | .ok w => { s with world := w }
    | .error _ => s
  | .set memory inventory => s.modifyWorld fun w => { w with memory, inventory }
  | .requestSave => s.requestSave.2
  | .answer a => if s.hasAsked a.id then s.modifyPlatform fun p => p.deliver a else s
  | .ask request _ => s.modifyPlatform fun p => (p.ask request).2
  | .configure change _ => s.modifyPlatform change

/-- The session after some acts. -/
def after (project : Project) (s : Session) (acts : List Act) : Session :=
  acts.foldl (perform project) s

/-- The moments of an act; only a tick has several of them. -/
def moments (project : Project) (s : Session) : Act → List Moment
  | .tick input => s.tickMoments project input
  | act => [.still (s.perform project act)]

/-- The moments that some acts lead through. -/
def story (project : Project) : Session → List Act → List Moment
  | _, [] => []
  | s, act :: acts => s.moments project act ++ story project (s.perform project act) acts

end Session

/-! ## Passages -/

namespace Moment

/-- Scripts are only started and dropped, and nothing else that they share changes. -/
structure Quiet (m m' : Moment) : Prop where
  windows : m'.session.world.windows = m.session.world.windows
  saveInFlight : m'.session.world.saveInFlight = m.session.world.saveInFlight
  scheduledSaves : m'.session.world.scheduledSaves = m.session.world.scheduledSaves
  platform : m.session.platform.Silent m'.session.platform
  scripts : ∃ started, StartedBetween m.session.world.lastInterpreterId
    m'.session.world.lastInterpreterId started ∧ m'.scripts ≤ m.scripts + ↑started

/-- What can happen from one moment to the next.  The player's input is one of some `inputs`, and
answers are collected at most if this is one of the things that happen. -/
inductive Next (project : Project) (inputs : Input → Prop) (collects : Prop) :
    Moment → Moment → Prop where
  | quiet {m m' : Moment} (quiet : m.Quiet m') : Next project inputs collects m m'
  | collect (s : Session) (h : collects) :
      Next project inputs collects (still s) (still (s.modifyPlatform fun p => p.collect project))
  | collectSave (s : Session) : Next project inputs collects (still s) (still s.collectSave)
  | windows (s : Session) {input : Input} (h : inputs input) :
      Next project inputs collects (still s) (still (s.updateWindows input).2)
  | step (s : Session) (ran : List Interpreter) (i : Interpreter) (rest : List Interpreter) :
      Next project inputs collects ⟨s, ran, i :: rest⟩
        ⟨(i.step s project).2.2, ran, (i.step s project).2.1 :: rest⟩
  | sendScheduledSave (s : Session) :
      Next project inputs collects (still s) (still s.sendScheduledSave)
  | requestSave (s : Session) : Next project inputs collects (still s) (still s.requestSave.2)
  | deliver (s : Session) (a : Answer) (asked : s.hasAsked a.id = true) :
      Next project inputs collects (still s) (still (s.modifyPlatform fun p => p.deliver a))
  | ask (s : Session) {request : Request} (unsaved : request.kind ≠ .saveProgress) :
      Next project inputs collects (still s) (still (s.modifyPlatform fun p => (p.ask request).2))

/-! ### What saves leave alone -/

theorem collectSave_world (s : Session) :
    ∃ save, s.collectSave.world = { s.world with saveInFlight := save } := by
  unfold Session.collectSave
  split
  · exact ⟨s.world.saveInFlight, rfl⟩
  · split
    · exact ⟨s.world.saveInFlight, rfl⟩
    · exact ⟨none, rfl⟩

theorem sendScheduledSave_world (s : Session) : ∃ save scheduled,
    s.sendScheduledSave.world =
      { s.world with saveInFlight := save, scheduledSaves := scheduled } := by
  unfold Session.sendScheduledSave
  split
  · exact ⟨s.world.saveInFlight, s.world.scheduledSaves, rfl⟩
  · split
    · exact ⟨s.world.saveInFlight, s.world.scheduledSaves, rfl⟩
    · next rest _ =>
      dsimp only
      split
      · exact ⟨_, rest, rfl⟩
      · exact ⟨s.world.saveInFlight, rest, rfl⟩

theorem requestSave_world (s : Session) :
    ∃ save, s.requestSave.2.world = { s.world with saveInFlight := save } := by
  unfold Session.requestSave
  split
  · exact ⟨s.world.saveInFlight, rfl⟩
  · split
    · exact ⟨s.world.saveInFlight, rfl⟩
    · exact ⟨_, rfl⟩

/-- From one moment to the next scripts are only started and dropped, or a script makes a step. -/
theorem Next.recruits_or_step {project : Project} {inputs : Input → Prop} {collects : Prop}
    {m m' : Moment} (h : Next project inputs collects m m') :
    (∃ started, StartedBetween m.session.world.lastInterpreterId
        m'.session.world.lastInterpreterId started ∧ m'.scripts ≤ m.scripts + ↑started) ∨
      ∃ s ran i rest, m = ⟨s, ran, i :: rest⟩ ∧
        m' = ⟨(i.step s project).2.2, ran, (i.step s project).2.1 :: rest⟩ := by
  have hsame : ∀ s s' : Session, s'.world.lastInterpreterId = s.world.lastInterpreterId →
      s'.world.stage = s.world.stage → ∃ started, StartedBetween s.world.lastInterpreterId
        s'.world.lastInterpreterId started ∧ (still s').scripts ≤ (still s).scripts + ↑started := by
    intro s s' hlast hstage
    exact ⟨[], .nil hlast.ge, by simp [scripts, off, still, hstage]⟩
  cases h with
  | quiet quiet => exact .inl quiet.scripts
  | step s ran i rest => exact .inr ⟨s, ran, i, rest, rfl, rfl⟩
  | collect s _ => exact .inl (hsame s _ rfl rfl)
  | windows s _ => exact .inl (hsame s _ rfl rfl)
  | deliver s a asked => exact .inl (hsame s _ rfl rfl)
  | ask s unsaved => exact .inl (hsame s _ rfl rfl)
  | collectSave s =>
    obtain ⟨save, hworld⟩ := collectSave_world s
    exact .inl (hsame s s.collectSave (by rw [hworld]) (by rw [hworld]))
  | sendScheduledSave s =>
    obtain ⟨save, scheduled, hworld⟩ := sendScheduledSave_world s
    exact .inl (hsame s s.sendScheduledSave (by rw [hworld]) (by rw [hworld]))
  | requestSave s =>
    obtain ⟨save, hworld⟩ := requestSave_world s
    exact .inl (hsame s s.requestSave.2 (by rw [hworld]) (by rw [hworld]))

/-- The moments from one to another, one passage after the other. -/
inductive Trail (project : Project) (inputs : Input → Prop) (collects : Prop) :
    Moment → List Moment → Moment → Prop where
  | nil (m : Moment) : Trail project inputs collects m [] m
  | cons {m m' last : Moment} {moments : List Moment} (first : Next project inputs collects m m')
      (more : Trail project inputs collects m' moments last) :
      Trail project inputs collects m (m' :: moments) last

variable {project : Project} {inputs : Input → Prop} {collects : Prop} {m m' m'' : Moment}

namespace Trail

theorem single (h : Next project inputs collects m m') : Trail project inputs collects m [m'] m' :=
  .cons h (.nil m')

theorem append {first more : List Moment} (h : Trail project inputs collects m first m')
    (h' : Trail project inputs collects m' more m'') :
    Trail project inputs collects m (first ++ more) m'' := by
  induction h with
  | nil => exact h'
  | cons step _ ih => exact .cons step (ih h')

/-- What holds in a moment and is kept by every passage holds in all moments of a trail. -/
theorem invariant {P : Moment → Prop} {moments : List Moment}
    (h : Trail project inputs collects m moments m')
    (start : P m) (keeps : ∀ a b, Next project inputs collects a b → P a → P b) :
    ∀ a ∈ m :: moments, P a := by
  induction h with
  | nil => simpa using start
  | cons step _ ih => exact List.forall_mem_cons.2 ⟨start, ih (keeps _ _ step start)⟩

/-- What holds in a moment and is kept by every passage from a moment without `Q` holds up to the
first moment with `Q`. -/
theorem invariant_until {P Q : Moment → Prop} {moments : List Moment}
    (h : Trail project inputs collects m moments m') (start : P m)
    (keeps : ∀ a b, Next project inputs collects a b → ¬ Q a → P a → P b)
    {before later : List Moment} {a : Moment} (split : m :: moments = before ++ a :: later)
    (without : ∀ b ∈ before, ¬ Q b) : P a := by
  induction h generalizing before with
  | nil m =>
    cases before with
    | nil =>
      obtain ⟨rfl, _⟩ := List.cons.inj split
      exact start
    | cons b before => simp at split
  | cons step _ ih =>
    cases before with
    | nil =>
      obtain ⟨rfl, _⟩ := List.cons.inj split
      exact start
    | cons b before =>
      obtain ⟨rfl, hrest⟩ := List.cons.inj split
      obtain ⟨hfirst, hbefore⟩ := List.forall_mem_cons.1 without
      exact ih (keeps _ _ step hfirst start) hrest hbefore

/-- Moments that follow each other are passages. -/
theorem next_at {moments : List Moment} (h : Trail project inputs collects m moments m') {k : Nat}
    {a b : Moment} (ha : (m :: moments)[k]? = some a) (hb : (m :: moments)[k + 1]? = some b) :
    Next project inputs collects a b := by
  induction h generalizing k with
  | nil => simp at hb
  | cons step _ ih =>
    cases k with
    | zero =>
      obtain rfl := Option.some.inj ha
      obtain rfl := Option.some.inj hb
      exact step
    | succ k => exact ih ha hb

/-- What holds at one moment and is kept by the passages up to another one holds there. -/
theorem invariant_between {P : Nat → Moment → Prop} {moments : List Moment}
    (h : Trail project inputs collects m moments m') {first last : Nat} (le : first ≤ last)
    {a : Moment} (ha : (m :: moments)[first]? = some a) (start : P first a)
    (keeps : ∀ k u v, first ≤ k → k < last → (m :: moments)[k]? = some u →
      (m :: moments)[k + 1]? = some v → Next project inputs collects u v → P k u → P (k + 1) v)
    {b : Moment} (hb : (m :: moments)[last]? = some b) : P last b := by
  induction last, le using Nat.le_induction generalizing b with
  | base =>
    obtain rfl := Option.some.inj (ha.symm.trans hb)
    exact start
  | succ k hle ih =>
    obtain ⟨u, hu⟩ : ∃ u, (m :: moments)[k]? = some u := by
      have hlt := (List.getElem?_eq_some_iff.1 hb).1
      exact ⟨_, List.getElem?_eq_getElem (by omega)⟩
    refine keeps k u b hle (Nat.lt_succ_self k) hu hb (h.next_at hu hb) (ih ?_ hu)
    exact fun k u v hle hlt => keeps k u v hle (Nat.lt_succ_of_lt hlt)

theorem last_mem {moments : List Moment} (h : Trail project inputs collects m moments m') :
    m' ∈ m :: moments := by
  induction h with
  | nil => exact List.mem_cons_self
  | cons _ _ ih => exact List.mem_cons_of_mem _ ih

end Trail

namespace Quiet

theorem still {s s' : Session} (world : s.world.Quiet s'.world)
    (platform : s.platform.Silent s'.platform) : (Moment.still s).Quiet (.still s') := by
  obtain ⟨started, hstarted, hle⟩ := world.scripts
  refine ⟨world.windows, world.saveInFlight, world.scheduledSaves, platform, started, hstarted, ?_⟩
  simpa [Moment.scripts, Moment.off, Moment.still] using hle

/-- Scripts only change places. -/
theorem of_scripts_le
    (world : m'.session.world = { m.session.world with stage := m'.session.world.stage })
    (platform : m'.session.platform = m.session.platform) (scripts : m'.scripts ≤ m.scripts) :
    m.Quiet m' := by
  refine ⟨?_, ?_, ?_, ?_, [], ?_, by simpa using scripts⟩
  · rw [world]
  · rw [world]
  · rw [world]
  · rw [platform]
    exact .refl _
  · rw [world]
    exact .nil le_rfl

end Quiet

end Moment

open Moment (Next Trail)

/-! ## Scripts take turns -/

section Turns

variable {project : Project} {inputs : Input → Prop} {collects : Prop}

theorem Interpreter.trail_steps (ran : List Interpreter) (rest : List Interpreter) (n : Nat)
    (i : Interpreter) (s : Session) :
    Trail project inputs collects ⟨s, ran, i :: rest⟩
      ((i.steps project n s).map fun (j, t) => ⟨t, ran, j :: rest⟩)
      ⟨(run project n i s).2, ran, (run project n i s).1 :: rest⟩ := by
  induction n generalizing i s with
  | zero => exact .nil _
  | succ n ih =>
    have hstep : Next project inputs collects ⟨s, ran, i :: rest⟩ _ := .step s ran i rest
    unfold run steps
    rcases hresult : i.step s project with ⟨goesOn, i', s'⟩
    rw [hresult] at hstep
    cases goesOn with
    | false => exact .single hstep
    | true => exact .cons hstep (ih i' s')

theorem Moment.trail_turns (ran turn : List Interpreter) (s : Session) :
    Trail project inputs collects ⟨s, ran, turn⟩ (turns project ran turn s)
      ⟨(Interpreter.updateAll project turn s).2,
        ran ++ (Interpreter.updateAll project turn s).1, []⟩ := by
  induction turn generalizing ran s with
  | nil =>
    simp only [turns, Interpreter.updateAll, List.append_nil]
    exact .nil _
  | cons i rest ih =>
    simp only [turns, Interpreter.updateAll]
    refine (i.trail_steps ran rest stepLimit s).append (.cons (.quiet ?_) ?_)
    · refine .of_scripts_le rfl rfl (le_of_eq ?_)
      simp [scripts, off, Interpreter.update]
    · have hrest := ih (ran ++ [(i.update s project).1]) (i.update s project).2
      simpa using hrest

/-- Scripts are taken off the stage, take turns, and are put back. -/
theorem Session.trail_batch {s taken : Session} {scripts : List Interpreter}
    {merge : Stage → List Interpreter → Stage}
    (take : (Moment.still s).Quiet ⟨taken, [], scripts⟩)
    (back : ∀ t ran, Moment.Quiet ⟨t, ran, []⟩
      (.still (t.modifyWorld fun w => w.modifyStage fun stage => merge stage ran))) :
    Trail project inputs collects (.still s) (batch project scripts taken merge)
      (.still ((Interpreter.updateAll project scripts taken).2.modifyWorld fun w =>
        w.modifyStage fun stage =>
          merge stage (Interpreter.updateAll project scripts taken).1)) := by
  have hturns : Trail project inputs collects ⟨taken, [], scripts⟩ _ _ :=
    Moment.trail_turns [] scripts taken
  exact .cons (.quiet take) (hturns.append (.single (.quiet (back _ _))))

end Turns

/-! ## Ticks and acts -/

namespace Session

variable {project : Project} {inputs : Input → Prop} {collects : Prop} (s : Session)

theorem quiet_resumeMusic : (Moment.still s).Quiet (.still s.resumeMusic) := by
  refine .still ?_ ?_
  · unfold resumeMusic
    split
    · exact .refl _
    · exact .of_eq rfl rfl rfl rfl rfl rfl
  · unfold resumeMusic
    split
    · exact .refl _
    · exact ⟨rfl, rfl, rfl, rfl⟩

theorem quiet_takeInterpreters :
    (Moment.still s).Quiet ⟨s.modifyWorld fun w => w.modifyStage fun stage =>
      { stage with interpreters := [] }, [], s.world.stage.interpreters⟩ := by
  refine .of_scripts_le rfl rfl (le_of_eq ?_)
  simp [Moment.scripts, Moment.off, Moment.still, Stage.scripts, modifyWorld, World.modifyStage]

theorem quiet_takeRoutes :
    (Moment.still s).Quiet ⟨s.modifyWorld fun w => w.modifyStage fun stage =>
      { stage with routes := [] }, [], s.world.stage.routes⟩ := by
  refine .of_scripts_le rfl rfl (le_of_eq ?_)
  simp [Moment.scripts, Moment.off, Moment.still, Stage.scripts, modifyWorld, World.modifyStage,
    add_comm]

theorem quiet_mergeInterpreters (ran : List Interpreter) :
    Moment.Quiet ⟨s, ran, []⟩ (.still (s.modifyWorld fun w => w.modifyStage fun stage =>
      stage.mergeInterpreters ran)) := by
  have hran : (↑(ran.filter fun i => !i.terminated) : Multiset Interpreter) ≤ ↑ran :=
    Multiset.coe_le.2 List.filter_sublist.subperm
  refine .of_scripts_le rfl rfl ?_
  simpa [Moment.scripts, Moment.off, Moment.still, Stage.scripts, modifyWorld, World.modifyStage,
    Stage.mergeInterpreters, ← Multiset.coe_add, add_assoc] using hran

theorem quiet_mergeRoutes (ran : List Interpreter) :
    Moment.Quiet ⟨s, ran, []⟩ (.still (s.modifyWorld fun w => w.modifyStage fun stage =>
      stage.mergeRoutes ran)) := by
  refine .of_scripts_le rfl rfl ?_
  simp only [Moment.scripts, Moment.off, Moment.still, Stage.scripts, modifyWorld,
    World.modifyStage, Stage.mergeRoutes, ← Multiset.coe_add, List.append_nil, Multiset.coe_nil,
    zero_add]
  rw [add_left_comm]
  gcongr
  exact Multiset.coe_le.2 List.filter_sublist.subperm

theorem trail_scriptMoments :
    Trail project inputs collects (.still s) (s.scriptMoments project)
      (.still (s.runScripts project)) :=
  (trail_batch s.quiet_takeInterpreters fun t ran => t.quiet_mergeInterpreters ran).append
    (trail_batch (s.runInterpreters project).quiet_takeRoutes
      fun t ran => t.quiet_mergeRoutes ran)

theorem quiet_settle : s.world.Quiet
    (s.world.modifyStage fun stage => stage.dropStale.updateCharacters) :=
  ⟨rfl, rfl, rfl, .of_le (Stage.scripts_dropStale _)⟩

/-- The saves at the end of a tick. -/
theorem next_save (wasBlocked : Bool) :
    Next project inputs collects (.still s.sendScheduledSave) (.still (s.save wasBlocked)) := by
  unfold save
  dsimp only
  split
  · exact .requestSave _
  · exact .quiet (.still (.refl _) (.refl _))

theorem next_of_quiet {w : World} (h : s.world.Quiet w) :
    Next project inputs collects (.still s) (.still { s with world := w }) :=
      .quiet (.still h (.refl _))

/-- The parts of a tick that come before scripts run. -/
theorem trail_beforeScripts {input : Input} (h : inputs input) :
    Trail project inputs collects (.still (s.withAnswers project))
      [.still (s.withAnswers project).collectSave, .still (s.beforeWindows project),
        .still (s.afterWindows project input),
        .still ((s.afterWindows project input).modifyWorld fun w =>
          { w with pictures := w.pictures.update }),
        .still (s.beforeScripts project input)] (.still (s.beforeScripts project input)) := by
  refine .cons (.collectSave _) (.cons (next_of_quiet _ ?_) (.cons (.windows _ h) ?_))
  · exact .of_eq rfl rfl rfl rfl rfl rfl
  · refine .cons (next_of_quiet _ (.of_eq rfl rfl rfl rfl rfl rfl)) (.single (.quiet ?_))
    exact .still (starts_startScripts _ _ _).quiet (.refl _)

/-- The parts of a tick that come after scripts have run. -/
theorem trail_afterScripts (input : Input) :
    Trail project inputs collects (.still ((s.beforeScripts project input).runScripts project))
      [.still (s.afterScripts project input),
        .still (s.afterScripts project input).sendScheduledSave,
        .still (s.afterSaves project input), .still (s.update project input)]
      (.still (s.update project input)) := by
  refine .cons (next_of_quiet _ (quiet_settle _)) (.cons (.sendScheduledSave _) ?_)
  refine .cons (next_save _ _) (.single (next_of_quiet _ ?_))
  exact .of_eq rfl rfl rfl rfl rfl rfl

/-- Answers are collected once in a tick. -/
theorem trail_momentsWithAnswers {input : Input} (h : inputs input) :
    Trail project inputs collects (.still (s.withAnswers project))
      (s.momentsWithAnswers project input) (.still (s.update project input)) :=
  ((s.trail_beforeScripts h).append (trail_scriptMoments _)).append (s.trail_afterScripts input)

theorem trail_tickMoments {input : Input} (h : inputs input) :
    Trail project inputs True (.still s) (s.tickMoments project input)
      (.still (s.update project input)) :=
  .cons (.quiet s.quiet_resumeMusic) (.cons (.collect _ trivial) (s.trail_momentsWithAnswers h))

/-- An act leads along a trail to the session after it. -/
theorem trail_moments (act : Act) (h : ∀ input, act = .tick input → inputs input) :
    Trail project inputs True (.still s) (s.moments project act)
      (.still (s.perform project act)) := by
  cases act with
  | tick input => exact s.trail_tickMoments (h input rfl)
  | startEvent id => exact .single (next_of_quiet s (World.starts_startEvent _ id).quiet)
  | startItem id => exact .single (next_of_quiet s (World.starts_startItem _ id).quiet)
  | startCombine first second =>
    exact .single (next_of_quiet s (World.starts_startCombine _ first second).quiet)
  | startCommonEvent id =>
    exact .single (next_of_quiet s (World.starts_startCommonEvent _ id).quiet)
  | startHint => exact .single (next_of_quiet s (World.starts_startHint _).quiet)
  | transfer roomId t dir =>
    refine .single (.quiet (.still ?_ ?_))
    · unfold perform
      dsimp only
      split
      · next hw => exact World.quiet_transfer hw
      · exact .refl _
    · unfold perform
      dsimp only
      split <;> exact .refl _
  | set memory inventory =>
    exact .single (next_of_quiet s (.of_eq rfl rfl rfl rfl rfl rfl))
  | requestSave => exact .single (.requestSave s)
  | answer a =>
    refine .single ?_
    unfold perform
    dsimp only
    split
    · next hasked => exact .deliver s a hasked
    · exact next_of_quiet s (.refl _)
  | ask request unsaved => exact .single (.ask s unsaved)
  | configure change silent => exact .single (.quiet (.still (.refl _) (silent _)))

/-- A story is a trail to the session after its acts. -/
theorem trail_story (acts : List Act) (h : ∀ input, .tick input ∈ acts → inputs input) :
    Trail project inputs True (.still s) (story project s acts)
      (.still (s.after project acts)) := by
  induction acts generalizing s with
  | nil => exact .nil _
  | cons act acts ih =>
    refine (s.trail_moments act fun input hact => h input (hact ▸ List.mem_cons_self)).append ?_
    exact ih _ fun input hact => h input (List.mem_cons_of_mem _ hact)

/-- A story with any inputs. -/
theorem trail_after (project : Project) (s : Session) (acts : List Act) :
    Trail project (fun _ => True) True (.still s) (story project s acts)
      (.still (s.after project acts)) := s.trail_story acts fun _ _ => trivial

end Session

/-- A project with an empty room and one common event. -/
def Project.emptyRoom (commands : Script) : Project :=
  let room : Room :=
    { id := 1, width := 1, height := 1, tileSetId := 0, tiles := [], events := [],
      background := "", foreground := "" }
  { (default : Project) with
    maps := [⟨1, "", [room]⟩]
    commonEvents := [⟨1, "", commands⟩]
    system := { (default : System) with initialPosition := ⟨1, 1, 0, 0⟩ } }

end Adventure
