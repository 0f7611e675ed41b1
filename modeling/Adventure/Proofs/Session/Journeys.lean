import Adventure.Proofs.Session.Arrivals
import Adventure.Proofs.Session.Stacks
import Adventure.Proofs.Session.Stays
import Adventure.Proofs.Session.Walks

/-!
# Walks under way

Once a walk has begun it changes by its own frames only, whether its script is on the stage or off
it, until it is over or dropped, and a save brings it back as it was.  So what is true of walks when
they begin, and stays true in each of their frames, is true of every walk of a game at every moment.
-/

namespace Adventure

open Session (Act)

variable {project : Project} {P : Walk → Prop}

/-! ## Scripts -/

/-- The walk of a script has a property, if the script has one, and so have those on the stage. -/
structure Interpreter.Walking (P : Walk → Prop) (i : Interpreter) (s : Session) : Prop where
  own : ∀ walk, i.walk = some walk → P walk
  others : ∀ walk ∈ s.world.stage.walks, P walk

namespace Interpreter

variable {i : Interpreter} {s : Session}

theorem walk_follow (e : Effect) : (follow e).2.1.walk = e.interpreter.walk := by
  unfold follow
  dsimp only
  split
  · exact walk_modifyFrame _ _
  · rfl
  · exact walk_modifyFrame _ _
  · rfl
  · exact walk_modifyFrame _ _
  · exact walk_modifyFrame _ _
  · obtain ⟨frames, terminated, hleave⟩ := e.interpreter.leave_eq
    rw [hleave]
  · rfl

theorem walk_forgetRequest (i : Interpreter) : i.forgetRequest.walk = i.walk := by
  unfold forgetRequest
  split
  · exact walk_modifyFrame _ _
  · rfl

theorem walk_keepWaiting (i : Interpreter) : i.keepWaiting.walk = i.walk := by
  unfold keepWaiting
  split <;> rfl

namespace Walking

variable (lasting : Walk.Lasting project P) (h : Walking P i s)

include lasting h

/-- A walk that a command plans has the property too. -/
theorem follow {e : Effect} (plans : e.Plans project i s) :
    Walking P (Interpreter.follow e).2.1 (Interpreter.follow e).2.2 := by
  refine ⟨fun walk hwalk => ?_, fun walk hwalk => ?_⟩
  · rw [walk_follow] at hwalk
    rcases plans.own with hsame | ⟨order, skip, hplan⟩
    · exact h.own walk (hsame.symm.trans hwalk)
    · exact lasting.plan (hplan.symm.trans hwalk)
  · exact h.others walk (plans.others (stage_follow e ▸ hwalk))

theorem runCommand :
    Walking P (i.runCommand s project).2.1 (i.runCommand s project).2.2 := by
  unfold Interpreter.runCommand
  split
  · exact ⟨h.own, h.others⟩
  · split
    · exact h.follow lasting (plans_execute i s _)
    · obtain ⟨frames, terminated, hfinish⟩ := i.finishFrame_eq
      dsimp only
      rw [hfinish]
      exact ⟨h.own, h.others⟩

/-- The walk of a script makes a frame, or it is over. -/
theorem updateWalk :
    Walking P (i.updateWalk s project).2.1 (i.updateWalk s project).2.2 := by
  unfold Interpreter.updateWalk
  split
  · exact h
  · next walk hwalk =>
    have hown := lasting.update (h.own walk hwalk) s.world.stage s.world.random
    have hothers : ∀ x ∈ (walk.update project s.world.stage s.world.random).2.1.walks, P x := by
      rw [Stage.walks_update]
      exact h.others
    dsimp only
    split
    · exact ⟨fun x hx => (by cases hx), hothers⟩
    · exact ⟨fun x hx => Option.some.inj hx ▸ hown, hothers⟩

theorem step : Walking P (i.step s project).2.1 (i.step s project).2.2 := by
  unfold Interpreter.step
  split
  · exact h
  · split
    · exact ⟨fun walk hwalk => h.own walk (i.walk_keepWaiting ▸ hwalk), h.others⟩
    · have hready : Walking P ({ i with wait := .none } : Interpreter) s := ⟨h.own, h.others⟩
      have hwalk := hready.updateWalk lasting
      split
      · next heq =>
        rw [heq] at hwalk
        exact hwalk
      · next heq =>
        rw [heq] at hwalk
        exact hwalk.runCommand lasting

theorem steps (n : Nat) : ∀ r ∈ i.steps project n s, Walking P r.1 r.2 := by
  induction n generalizing i s with
  | zero => exact fun r hr => by cases hr
  | succ n ih =>
    have hstep := h.step lasting
    unfold Interpreter.steps
    rcases hresult : i.step s project with ⟨goesOn, i', s'⟩
    rw [hresult] at hstep
    refine List.forall_mem_cons.2 ⟨hstep, ?_⟩
    cases goesOn with
    | false => exact fun r hr => by cases hr
    | true => exact ih hstep

theorem run (n : Nat) : Walking P (run project n i s).1 (run project n i s).2 := by
  induction n generalizing i s with
  | zero => exact h
  | succ n ih =>
    have hstep := h.step lasting
    unfold Interpreter.run
    rcases hresult : i.step s project with ⟨goesOn, i', s'⟩
    rw [hresult] at hstep
    cases goesOn with
    | false => exact hstep
    | true => exact ih hstep

end Walking

end Interpreter

/-! ## Moments -/

/-- The walks under way at a moment, also those of scripts that are off the stage. -/
def Moment.walks (m : Moment) : List Walk := m.off.filterMap (·.walk) ++ m.session.world.stage.walks

namespace Moment

variable {m : Moment} {w : Walk}

theorem mem_walks_iff :
    w ∈ m.walks ↔ (∃ i ∈ m.off, i.walk = some w) ∨ w ∈ m.session.world.stage.walks := by
  simp only [walks, List.mem_append, List.mem_filterMap]

/-- All walks of a moment have a property. -/
structure Walking (P : Walk → Prop) (m : Moment) : Prop where
  off : ∀ i ∈ m.off, ∀ walk, i.walk = some walk → P walk
  on : ∀ walk ∈ m.session.world.stage.walks, P walk

theorem Walking.all (h : m.Walking P) : ∀ walk ∈ m.walks, P walk := by
  intro walk hwalk
  rcases mem_walks_iff.1 hwalk with ⟨i, hi, hown⟩ | hon
  · exact h.off i hi walk hown
  · exact h.on walk hon

/-- Something else than the stage changes. -/
theorem Walking.of_stage_eq {s s' : Session} (h : (still s).Walking P)
    (stage : s'.world.stage = s.world.stage) : (still s').Walking P :=
  ⟨fun _ hi => absurd hi List.not_mem_nil, stage ▸ h.on⟩

theorem walking_still {s : Session} (h : ∀ walk ∈ s.world.stage.walks, P walk) :
    (still s).Walking P := ⟨fun _ hi => absurd hi List.not_mem_nil, h⟩

variable {s : Session} {ran turn : List Interpreter} (lasting : Walk.Lasting project P)

include lasting

/-- In each moment while scripts take turns. -/
theorem walking_turns (h : Walking P ⟨s, ran, turn⟩) :
    ∀ m ∈ turns project ran turn s, m.Walking P := by
  induction turn generalizing ran s with
  | nil => exact fun m hm => by cases hm
  | cons i rest ih =>
    obtain ⟨hran, hturn⟩ := List.forall_mem_append.1 h.off
    obtain ⟨hfirst, hrest⟩ := List.forall_mem_cons.1 hturn
    have hbegins : i.Walking P s := ⟨hfirst, h.on⟩
    intro m hm
    rcases List.mem_append.1 hm with hm | hm
    · obtain ⟨⟨j, t⟩, hj, rfl⟩ := List.mem_map.1 hm
      have hstep : j.Walking P t := hbegins.steps lasting stepLimit (j, t) hj
      exact ⟨List.forall_mem_append.2 ⟨hran, List.forall_mem_cons.2 ⟨hstep.own, hrest⟩⟩,
        hstep.others⟩
    · have hdone : (i.update s project).1.Walking P (i.update s project).2 :=
        hbegins.run lasting stepLimit
      have hnext : Walking P ⟨(i.update s project).2, ran ++ [(i.update s project).1], rest⟩ := by
        refine ⟨List.forall_mem_append.2 ⟨?_, hrest⟩, hdone.others⟩
        exact List.forall_mem_append.2 ⟨hran, List.forall_mem_singleton.2 hdone.own⟩
      rcases List.mem_cons.1 hm with rfl | hm
      · exact hnext
      · exact ih hnext m hm

/-- After all scripts have had their turn. -/
theorem walking_updateAll (h : Walking P ⟨s, [], turn⟩) :
    Walking P ⟨(Interpreter.updateAll project turn s).2,
      (Interpreter.updateAll project turn s).1, []⟩ := by
  induction turn generalizing s with
  | nil => exact h
  | cons i rest ih =>
    obtain ⟨hfirst, hrest⟩ := List.forall_mem_cons.1 h.off
    have hbegins : i.Walking P s := ⟨hfirst, h.on⟩
    have hdone : (i.update s project).1.Walking P (i.update s project).2 :=
      hbegins.run lasting stepLimit
    have hmore := ih (s := (i.update s project).2) ⟨hrest, hdone.others⟩
    exact ⟨List.forall_mem_cons.2 ⟨hdone.own, hmore.off⟩, hmore.on⟩

end Moment

/-! ## Games -/

namespace Session

variable {s : Session}

/-- An act ends at the last of its moments. -/
theorem still_perform_mem_moments (s : Session) (project : Project) (act : Act) :
    .still (s.perform project act) ∈ s.moments project act := by
  cases act with
  | tick input =>
    refine List.mem_cons_of_mem _ (List.mem_cons_of_mem _ (List.mem_append_right _ ?_))
    exact List.mem_cons_of_mem _
      (List.mem_cons_of_mem _ (List.mem_cons_of_mem _ List.mem_cons_self))
  | _ => exact List.mem_cons_self

/-! ### Where nobody sets out -/

theorem walks_withoutInterpreters (s : Session) :
    s.withoutInterpreters.world.stage.walks ⊆ s.world.stage.walks :=
  Stage.walks_subset (fun _ hi => absurd hi List.not_mem_nil) (fun _ => .inl) (.inl rfl)

theorem walks_withoutRoutes (s : Session) :
    s.withoutRoutes.world.stage.walks ⊆ s.world.stage.walks :=
  Stage.walks_subset (fun _ => .inl) (fun _ hi => absurd hi List.not_mem_nil) (.inl rfl)

/-- Once scripts have run, some are dropped. -/
theorem setsOutNobody_afterScripts (s : Session) (project : Project) (input : Input) :
    ((s.beforeScripts project input).runScripts project).world.SetsOutNobody
      (s.afterScripts project input).world := by
  unfold afterScripts
  generalize (s.beforeScripts project input).runScripts project = t
  exact Stage.walks_dropStale t.world.stage

theorem stage_afterSaves (s : Session) (project : Project) (input : Input) :
    (s.afterSaves project input).world.stage = (s.afterScripts project input).world.stage := by
  obtain ⟨_, _, hsent⟩ := Moment.sendScheduledSave_world (s.afterScripts project input)
  have hstage := congrArg (·.stage) hsent
  unfold afterSaves Session.save
  dsimp only at hstage ⊢
  split
  · obtain ⟨_, hrequested⟩ :=
      Moment.requestSave_world (s.afterScripts project input).sendScheduledSave
    exact (congrArg (·.stage) hrequested).trans hstage
  · exact hstage

/-- Once scripts have run. -/
theorem walking_afterScripts {input : Input}
    (h : ∀ w ∈ ((s.beforeScripts project input).runScripts project).world.stage.walks, P w) :
    ∀ m ∈ [Moment.still (s.afterScripts project input),
        .still (s.afterScripts project input).sendScheduledSave,
        .still (s.afterSaves project input), .still (s.update project input)], m.Walking P := by
  have hleft : (Moment.still (s.afterScripts project input)).Walking P :=
    Moment.walking_still fun w hw => h w (s.setsOutNobody_afterScripts project input hw)
  have hsaved : (Moment.still (s.afterSaves project input)).Walking P :=
    hleft.of_stage_eq (s.stage_afterSaves project input)
  obtain ⟨_, _, hworld⟩ := Moment.sendScheduledSave_world (s.afterScripts project input)
  simp only [List.forall_mem_cons]
  exact ⟨hleft, hleft.of_stage_eq (congrArg (·.stage) hworld), hsaved,
    hsaved.of_stage_eq (s.update_eq project input ▸ rfl), fun _ hm => absurd hm List.not_mem_nil⟩

/-- A walk goes on in a loaded game. -/
theorem walks_resume (w : World) (seed : UInt64) :
    (World.resume w.toProgress seed).stage.walks = w.stage.walks := by
  have hwalk : ∀ l : List Interpreter,
      (l.map Interpreter.forgetRequest).filterMap (·.walk) = l.filterMap (·.walk) := fun l => by
    simp only [List.filterMap_map, Function.comp_def, Interpreter.walk_forgetRequest]
  show ((w.stage.interpreters.map Interpreter.forgetRequest ++
    w.stage.routes.map Interpreter.forgetRequest).filterMap (·.walk)) ++ _ = _
  rw [← List.map_append, hwalk]
  rfl

variable (lasting : Walk.Lasting project P)

include lasting

/-! ### Ticks -/

/-- Scripts are taken off the stage, take turns, and are put back. -/
theorem walking_batch {taken : Session} {turn : List Interpreter}
    {merge : Stage → List Interpreter → Stage} (h : Moment.Walking P ⟨taken, [], turn⟩)
    (back : ∀ stage ran, ∀ w ∈ (merge stage ran).walks,
      (∃ i ∈ ran, i.walk = some w) ∨ w ∈ stage.walks) :
    ∀ m ∈ batch project turn taken merge, m.Walking P := by
  intro m hm
  simp only [batch, List.cons_append, List.mem_cons, List.mem_append, List.not_mem_nil,
    or_false] at hm
  rcases hm with rfl | hm | rfl
  · exact h
  · exact Moment.walking_turns lasting h m hm
  · have hran := Moment.walking_updateAll lasting h
    refine Moment.walking_still fun w hw => ?_
    rcases back _ _ w hw with ⟨i, hi, hwalk⟩ | hw
    · exact hran.off i (List.mem_append_left _ hi) w hwalk
    · exact hran.on w hw

theorem walking_interpreters (h : ∀ w ∈ s.world.stage.walks, P w) :
    ∀ m ∈ batch project s.world.stage.interpreters s.withoutInterpreters Stage.mergeInterpreters,
      m.Walking P := by
  refine walking_batch lasting ⟨fun i hi w hw => ?_, fun w hw => ?_⟩
    fun _ _ _ => Stage.mem_walks_mergeInterpreters
  · exact h w (Stage.mem_walks_iff.2 (.inl ⟨i, List.mem_append_left _ hi, hw⟩))
  · exact h w (s.walks_withoutInterpreters hw)

theorem walking_routes (h : ∀ w ∈ s.world.stage.walks, P w) :
    ∀ m ∈ batch project s.world.stage.routes s.withoutRoutes Stage.mergeRoutes, m.Walking P := by
  refine walking_batch lasting ⟨fun i hi w hw => ?_, fun w hw => ?_⟩
    fun _ _ _ => Stage.mem_walks_mergeRoutes
  · exact h w (Stage.mem_walks_iff.2 (.inl ⟨i, List.mem_append_right _ hi, hw⟩))
  · exact h w (s.walks_withoutRoutes hw)

theorem walking_scriptMoments (h : ∀ w ∈ s.world.stage.walks, P w) :
    (∀ m ∈ s.scriptMoments project, m.Walking P) ∧
      ∀ w ∈ (s.runScripts project).world.stage.walks, P w := by
  have hscripts := walking_interpreters lasting h
  have hran : Moment.Walking P (.still (s.runInterpreters project)) :=
    hscripts _ (List.mem_append_right _ List.mem_cons_self)
  have hroutes := walking_routes lasting hran.on
  have hdone : Moment.Walking P (.still (s.runScripts project)) :=
    hroutes _ (List.mem_append_right _ List.mem_cons_self)
  exact ⟨List.forall_mem_append.2 ⟨hscripts, hroutes⟩, hdone.on⟩

/-- When the player's walk is to make its frame. -/
theorem walks_beforeWalk (h : ∀ w ∈ s.world.stage.walks, P w) (input : Input) :
    ∀ w ∈ (s.beforeWalk project input).stage.walks, P w := by
  unfold beforeWalk
  rw [← s.stage_afterWindows project input] at h
  generalize (s.afterWindows project input).world = w at h ⊢
  have hpages : w.SetsOutNobody ({ w with pictures := w.pictures.update }.refreshPages project) :=
    .refreshPages { w with pictures := w.pictures.update }
  exact World.walks_handleTap lasting
    (fun x hx => h x ((hpages.trans (.startAutomaticEvents _)) hx)) _

/-- Until scripts run. -/
theorem walking_beforeScripts (h : ∀ w ∈ s.world.stage.walks, P w) (input : Input) :
    ∀ m ∈ [Moment.still s.resumeMusic, .still (s.withAnswers project),
        .still (s.withAnswers project).collectSave, .still (s.beforeWindows project),
        .still (s.afterWindows project input),
        .still ((s.afterWindows project input).modifyWorld fun w =>
          { w with pictures := w.pictures.update }),
        .still (s.beforeScripts project input)], m.Walking P := by
  have hmusic : s.resumeMusic.world.stage = s.world.stage := by
    unfold resumeMusic
    split <;> rfl
  have hcollected : (s.withAnswers project).collectSave.world.stage = s.world.stage := by
    obtain ⟨_, hworld⟩ := Moment.collectSave_world (s.withAnswers project)
    exact (congrArg (·.stage) hworld).trans hmusic
  have hstill : (Moment.still s).Walking P := Moment.walking_still h
  have hstart : (Moment.still (s.beforeScripts project input)).Walking P :=
    Moment.walking_still
      (World.walks_updatePlayerWalk lasting (walks_beforeWalk lasting h input))
  simp only [List.forall_mem_cons]
  exact ⟨hstill.of_stage_eq hmusic, hstill.of_stage_eq hmusic, hstill.of_stage_eq hcollected,
    hstill.of_stage_eq hcollected, hstill.of_stage_eq hcollected, hstill.of_stage_eq hcollected,
    hstart, fun _ hm => absurd hm List.not_mem_nil⟩

theorem walking_tickMoments (h : ∀ w ∈ s.world.stage.walks, P w) (input : Input) :
    ∀ m ∈ s.tickMoments project input, m.Walking P := by
  have hbefore := walking_beforeScripts lasting h input
  have hstart : (Moment.still (s.beforeScripts project input)).Walking P := hbefore _ (by simp)
  obtain ⟨hscripts, hran⟩ := walking_scriptMoments lasting hstart.on
  exact List.forall_mem_append.2
    ⟨List.forall_mem_append.2 ⟨hbefore, hscripts⟩, walking_afterScripts hran⟩

/-! ### Acts -/

theorem walking_moments (h : ∀ w ∈ s.world.stage.walks, P w) (act : Act) :
    ∀ m ∈ s.moments project act, m.Walking P := by
  have hkept : ∀ w', s.world.SetsOutNobody w' → ∀ t : Session, t.world = w' →
      ∀ m ∈ [Moment.still t], m.Walking P := by
    rintro w' hsubset t rfl
    exact List.forall_mem_singleton.2 (Moment.walking_still fun w hw => h w (hsubset hw))
  cases act with
  | tick input => exact walking_tickMoments lasting h input
  | startEvent id => exact hkept _ (.startEvent s.world id) _ rfl
  | startItem id => exact hkept _ (.startItem s.world id) _ rfl
  | startCombine first second => exact hkept _ (.startCombine s.world first second) _ rfl
  | startCommonEvent id => exact hkept _ (.startCommonEvent s.world id) _ rfl
  | startHint => exact hkept _ (.startHint s.world) _ rfl
  | transfer roomId t dir =>
    refine hkept _ ?_ _ rfl
    unfold perform
    dsimp only
    split
    · next hw => exact .transfer hw
    · exact .refl _
  | set memory inventory => exact hkept { s.world with memory, inventory } (.of_stage_eq rfl) _ rfl
  | requestSave =>
    obtain ⟨save, hworld⟩ := Moment.requestSave_world s
    exact hkept _ (.of_stage_eq (congrArg (·.stage) hworld)) _ rfl
  | answer a =>
    refine hkept s.world (.refl _) _ ?_
    unfold perform
    dsimp only
    split <;> rfl
  | ask request unsaved => exact hkept _ (.refl _) _ rfl
  | configure change silent => exact hkept _ (.refl _) _ rfl

theorem walking_story (h : ∀ w ∈ s.world.stage.walks, P w) (acts : List Act) :
    (∀ m ∈ s.story project acts, m.Walking P) ∧
      ∀ w ∈ (s.after project acts).world.stage.walks, P w := by
  induction acts generalizing s with
  | nil => exact ⟨fun m hm => (by cases hm), h⟩
  | cons act acts ih =>
    have hfirst := walking_moments lasting h act
    obtain ⟨hmore, hend⟩ := ih (hfirst _ (s.still_perform_mem_moments project act)).on
    exact ⟨List.forall_mem_append.2 ⟨hfirst, hmore⟩, hend⟩

theorem Begins.walks (begins : Begins project s) : ∀ w ∈ s.world.stage.walks, P w := by
  induction begins with
  | @new w seed host started =>
    obtain ⟨stage, hentered, rfl⟩ := World.exists_enter started
    have hpages : (World.ofProgress (.fresh stage) seed).SetsOutNobody
        ((World.ofProgress (.fresh stage) seed).refreshPages project) := .refreshPages _
    have hempty : stage.walks = [] := Stage.walks_enter hentered
    intro walk hwalk
    cases hempty ▸ hpages hwalk
  | loaded earlier acts seed host ih =>
    intro w hw
    rw [walks_resume] at hw
    exact (walking_story lasting ih acts).2 w hw

/-- What is true of walks as they begin, and stays true in each of their frames, is true of every
walk of a game, at every moment and when the player's walk goes on. -/
theorem Begins.walking (begins : Begins project s) (acts : List Act) :
    (∀ m ∈ s.story project acts, ∀ w ∈ m.walks, P w) ∧
      ∀ input, ∀ w ∈ ((s.after project acts).beforeWalk project input).stage.walks, P w := by
  obtain ⟨hstory, hend⟩ := walking_story lasting (begins.walks lasting) acts
  exact ⟨fun m hm => (hstory m hm).all, fun input => walks_beforeWalk lasting hend input⟩

end Session

end Adventure
