import Adventure.Proofs.Room.Cast
import Adventure.Proofs.Session.Presence

/-!
# From moment to moment

A tick is told moment by moment, and most of what happens from one of them to the next leaves the
cast of the room alone.  What is left are the start of scripts, their steps and the frame of the
characters.  So a relation between casts that these three are in holds from each moment of a tick to
the next, where it may depend on the commands that are run.
-/

namespace Adventure

open Moment (Line)
open Session (Act)

variable {project : Project}

/-- A relation between stages that holds from each moment of a tick to the next, as long as the
commands that scripts run are allowed. -/
structure Stage.Spans (project : Project) (Allowed : Interpreter × Session × Command → Prop)
    (S : Stage → Stage → Prop) : Prop where
  aside : ∀ s s' : Stage, s'.player = s.player → s'.events = s.events → S s s'
  starts : ∀ (s : Session) (input : Input),
    S s.world.stage (s.startScripts project input).world.stage
  step : ∀ (i : Interpreter) (s : Session), (∀ r, i.running? s project = some r → Allowed r) →
    S s.world.stage (i.step s project).2.2.world.stage
  frame : ∀ s : Stage, S s s.dropStale.updateCharacters

/-- The stages of two moments are in a relation. -/
def Moment.Along (S : Stage → Stage → Prop) (m m' : Moment) : Prop :=
  S m.session.world.stage m'.session.world.stage

theorem Interpreter.stage_follow (e : Effect) :
    (follow e).2.2.world.stage = e.session.world.stage := by
  unfold follow
  dsimp only
  split <;> rfl

/-- A change that is neither a tick nor a transfer leaves every character as it is. -/
theorem Session.becomes_perform {P R : Character → Character → Prop} (h : Stage.Admits P R)
    (s : Session) {act : Act} (noTick : ∀ input, act ≠ .tick input)
    (noTransfer : ∀ roomId t dir, act ≠ .transfer roomId t dir) :
    s.world.stage.Becomes P R (s.perform project act).world.stage := by
  cases act with
  | tick input => exact absurd rfl (noTick input)
  | transfer roomId t dir => exact absurd rfl (noTransfer roomId t dir)
  | startEvent id => exact World.becomes_startEvent h _ id
  | startItem id => exact World.becomes_startItem h _ id
  | startCombine first second => exact World.becomes_startCombine h _ first second
  | startCommonEvent id => exact World.becomes_startCommonEvent h _ id
  | startHint => exact World.becomes_startHint h _
  | set memory inventory => exact h.of_eq rfl rfl
  | requestSave =>
    obtain ⟨save, hworld⟩ := Moment.requestSave_world s
    exact h.of_eq (congrArg (·.stage.player) hworld) (congrArg (·.stage.events) hworld)
  | answer a =>
    unfold perform
    dsimp only
    split <;> exact h.of_eq rfl rfl
  | ask request unsaved => exact h.of_eq rfl rfl
  | configure change silent => exact h.of_eq rfl rfl

namespace Stage.Spans

variable {Allowed : Interpreter × Session × Command → Prop} {S : Stage → Stage → Prop}
  (h : Stage.Spans project Allowed S)

include h

/-! ## Scripts -/

theorem along_of_eq {m m' : Moment}
    (stage : m'.session.world.stage = m.session.world.stage) : m.Along S m' :=
  h.aside _ _ (congrArg (·.player) stage) (congrArg (·.events) stage)

theorem line_steps (ran rest : List Interpreter) {n : Nat} {i : Interpreter} {s : Session}
    (allowed : ∀ r ∈ i.commands project n s, Allowed r) :
    Line (Moment.Along S) ⟨s, ran, i :: rest⟩
      ((i.steps project n s).map fun (j, t) => ⟨t, ran, j :: rest⟩)
      ⟨(Interpreter.run project n i s).2, ran, (Interpreter.run project n i s).1 :: rest⟩ := by
  induction n generalizing i s with
  | zero => exact .nil _
  | succ n ih =>
    unfold Interpreter.commands at allowed
    have hstep := h.step i s fun r hr =>
      allowed r (List.mem_append_left _ (Option.mem_toList.2 hr))
    unfold Interpreter.run Interpreter.steps
    rcases hresult : i.step s project with ⟨goesOn, i', s'⟩
    rw [hresult] at hstep allowed
    cases goesOn with
    | false => exact .single hstep
    | true => exact .cons hstep (ih fun r hr => allowed r (List.mem_append_right _ hr))

theorem line_turns (ran : List Interpreter) {turn : List Interpreter} {s : Session}
    (allowed : ∀ r ∈ Interpreter.commandsOfAll project turn s, Allowed r) :
    Line (Moment.Along S) ⟨s, ran, turn⟩ (Moment.turns project ran turn s)
      ⟨(Interpreter.updateAll project turn s).2,
        ran ++ (Interpreter.updateAll project turn s).1, []⟩ := by
  induction turn generalizing ran s with
  | nil =>
    simp only [Moment.turns, Interpreter.updateAll, List.append_nil]
    exact .nil _
  | cons i rest ih =>
    obtain ⟨hfirst, hmore⟩ := List.forall_mem_append.1 allowed
    simp only [Moment.turns, Interpreter.updateAll]
    refine (h.line_steps ran rest hfirst).append (.cons (h.along_of_eq rfl) ?_)
    simpa using ih (ran ++ [(i.update s project).1]) hmore

/-- Scripts are taken off the stage, take turns, and are put back. -/
theorem line_batch {s taken : Session} {turn : List Interpreter}
    {merge : Stage → List Interpreter → Stage}
    (allowed : ∀ r ∈ Interpreter.commandsOfAll project turn taken, Allowed r)
    (take : S s.world.stage taken.world.stage) (back : ∀ stage ran, S stage (merge stage ran)) :
    Line (Moment.Along S) (.still s) (Session.batch project turn taken merge)
      (.still ((Interpreter.updateAll project turn taken).2.modifyWorld fun w =>
        w.modifyStage fun stage => merge stage (Interpreter.updateAll project turn taken).1)) :=
  .cons take ((h.line_turns [] allowed).append (.single (back _ _)))

theorem line_scriptMoments (s : Session) (input : Input)
    (allowed : ∀ r ∈ s.commandsRun project input, Allowed r) :
    Line (Moment.Along S) (.still (s.beforeScripts project input))
      ((s.beforeScripts project input).scriptMoments project)
      (.still ((s.beforeScripts project input).runScripts project)) := by
  unfold Session.commandsRun at allowed
  generalize s.beforeScripts project input = b at allowed ⊢
  obtain ⟨hscripts, hroutes⟩ := List.forall_mem_append.1 allowed
  have hrunInterpreters : Line (Moment.Along S) (.still b)
      (Session.batch project b.world.stage.interpreters _ Stage.mergeInterpreters)
      (.still (b.runInterpreters project)) :=
    h.line_batch hscripts (h.aside _ _ rfl rfl) fun _ _ => h.aside _ _ rfl rfl
  have hrunRoutes : Line (Moment.Along S) (.still (b.runInterpreters project))
      (Session.batch project (b.runInterpreters project).world.stage.routes _ Stage.mergeRoutes)
      (.still ((b.runInterpreters project).runRoutes project)) :=
    h.line_batch hroutes (h.aside _ _ rfl rfl) fun _ _ => h.aside _ _ rfl rfl
  exact hrunInterpreters.append hrunRoutes

/-! ## Ticks -/

theorem along_collectSave (s : Session) : (Moment.still s).Along S (.still s.collectSave) := by
  obtain ⟨save, hworld⟩ := Moment.collectSave_world s
  exact h.along_of_eq (congrArg (·.stage) hworld)

theorem along_sendScheduledSave (s : Session) :
    (Moment.still s).Along S (.still s.sendScheduledSave) := by
  obtain ⟨save, scheduled, hworld⟩ := Moment.sendScheduledSave_world s
  exact h.along_of_eq (congrArg (·.stage) hworld)

theorem along_save (s : Session) (wasBlocked : Bool) :
    (Moment.still s.sendScheduledSave).Along S (.still (s.save wasBlocked)) := by
  unfold Session.save
  dsimp only
  split
  · obtain ⟨save, hworld⟩ := Moment.requestSave_world s.sendScheduledSave
    exact h.along_of_eq (congrArg (·.stage) hworld)
  · exact h.along_of_eq rfl

theorem line_beforeScripts (s : Session) (input : Input) :
    Line (Moment.Along S) (.still s)
      [.still s.resumeMusic, .still (s.withAnswers project),
        .still (s.withAnswers project).collectSave, .still (s.beforeWindows project),
        .still (s.afterWindows project input),
        .still ((s.afterWindows project input).modifyWorld fun w =>
          { w with pictures := w.pictures.update }),
        .still (s.beforeScripts project input)] (.still (s.beforeScripts project input)) := by
  refine .cons ?_ (.cons (h.along_of_eq rfl) (.cons (h.along_collectSave _) ?_))
  · unfold Session.resumeMusic
    split <;> exact h.along_of_eq rfl
  · refine .cons (h.along_of_eq rfl) (.cons (h.along_of_eq rfl) (.cons (h.along_of_eq rfl) ?_))
    exact .single (h.starts _ _)

theorem line_afterScripts (s : Session) (input : Input) :
    Line (Moment.Along S) (.still ((s.beforeScripts project input).runScripts project))
      [.still (s.afterScripts project input),
        .still (s.afterScripts project input).sendScheduledSave,
        .still (s.afterSaves project input), .still (s.update project input)]
      (.still (s.update project input)) :=
  .cons (h.frame _) (.cons (h.along_sendScheduledSave _) (.cons (h.along_save _ _)
    (.single (h.along_of_eq rfl))))

/-- The relation holds from each moment of a tick to the next. -/
theorem line_tickMoments (s : Session) (input : Input)
    (allowed : ∀ r ∈ s.commandsRun project input, Allowed r) :
    Line (Moment.Along S) (.still s) (s.tickMoments project input)
      (.still (s.update project input)) :=
  ((h.line_beforeScripts s input).append (h.line_scriptMoments s input allowed)).append
    (h.line_afterScripts s input)

/-- An act other than a tick is done at once. -/
theorem line_moments (s : Session) (act : Act)
    (allowed : ∀ input, act = .tick input → ∀ r ∈ s.commandsRun project input, Allowed r)
    (other : (∀ input, act ≠ .tick input) →
      S s.world.stage (s.perform project act).world.stage) :
    Line (Moment.Along S) (.still s) (s.moments project act) (.still (s.perform project act)) := by
  cases act with
  | tick input => exact h.line_tickMoments s input (allowed input rfl)
  | _ => exact .single (other (by simp))

end Stage.Spans

end Adventure
