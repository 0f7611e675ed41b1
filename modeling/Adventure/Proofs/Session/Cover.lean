import Adventure.Proofs.Session.Roster

/-!
# The covered screen

A transfer with a color covers the screen, and its second half uncovers it.  Nobody else does.  So a
screen that stays covered has lost the script that would have uncovered it, and there are only two
ways to lose it: the room behind the cover is missing, or the script is dropped with the room that
it belongs to.
-/

namespace Adventure

open Moment (Line Works)
open Session (Act)

variable {project : Project} {m m' : Moment}

namespace Moment

/-- The screen was covered last, and no script is left that uncovers it. -/
def Stranded (m : Moment) : Prop :=
  m.session.world.screen.fade.target = .one ∧ ∀ i ∈ m.scripts, i.uncovers = false

/-- It is the turn of a script that has to uncover the screen, and the room that it is to enter
first is missing.  The script ends with a report. -/
def Stumbles (project : Project) (m m' : Moment) : Prop :=
  ∃ s ran i rest order branches e, m = ⟨s, ran, i :: rest⟩ ∧
    m' = ⟨(i.step s project).2.2, ran, (i.step s project).2.1 :: rest⟩ ∧ i.uncovers = true ∧
    i.current? = some (.act (.transfer order) branches) ∧
    Interpreter.enterRoom s project order = .error e ∧ (i.step s project).2.1.terminated = true ∧
    m'.session.world.scriptErrors = m.session.world.scriptErrors ++ [⟨i.location, .missingRoom e⟩]

/-- A script that has to uncover the screen is dropped: the player is not in its room, and nobody
has to wait for it. -/
def Drops (m m' : Moment) : Prop :=
  ∃ i ∈ m.scripts, i.uncovers = true ∧ i.isBlocking = false ∧
    i.isIn m'.session.world.stage.mapId m'.session.world.stage.roomId = false ∧ i ∉ m'.scripts

/-- The last script that would have uncovered the screen is lost. -/
structure Strands (project : Project) (m m' : Moment) : Prop where
  stranded : m'.Stranded
  lost : Stumbles project m m' ∨ Drops m m'

/-- A screen that nobody uncovers was left so before, or it is so now. -/
def Accounts (project : Project) (m m' : Moment) : Prop :=
  m'.Stranded → m.Stranded ∨ Strands project m m'

/-! ## Passages -/

/-- Whoever has to uncover the screen goes on to do so. -/
theorem Accounts.of_kept
    (target : m'.session.world.screen.fade.target = m.session.world.screen.fade.target)
    (kept : ∀ i ∈ m.scripts, i.uncovers = true → i ∈ m'.scripts) : Accounts project m m' := by
  rintro ⟨htarget, hnobody⟩
  refine .inl ⟨target ▸ htarget, fun i hi => ?_⟩
  cases huncovers : i.uncovers with
  | false => rfl
  | true => exact (hnobody i (kept i hi huncovers)).symm.trans huncovers |>.symm

/-- The stage and the fade stay as they are. -/
theorem Accounts.of_stage_eq {s s' : Session} (stage : s'.world.stage = s.world.stage)
    (target : s'.world.screen.fade.target = s.world.screen.fade.target) :
    Accounts project (still s) (still s') := by
  refine .of_kept target fun i hi _ => ?_
  simpa [scripts, still, off, stage] using hi

theorem mem_scripts : ∀ {i : Interpreter}, i ∈ m.scripts ↔
    i ∈ m.off ∨ i ∈ m.session.world.stage.interpreters ∨ i ∈ m.session.world.stage.routes := by
  simp [scripts, Stage.scripts]

/-- Something stirs the stage, while those that are off it go on. -/
theorem Accounts.of_stir (stir : m.session.world.Stir m'.session.world)
    (routes : ∀ r ∈ m.session.world.stage.routes, r.uncovers = false)
    (off : ∀ i ∈ m.off, i.uncovers = true → ∃ j ∈ m'.off, j.uncovers = true)
    (target : m'.session.world.screen.fade.target = m.session.world.screen.fade.target) :
    Accounts project m m' := by
  rintro ⟨htarget, hnobody⟩
  by_cases hstranded : m.Stranded
  · exact .inl hstranded
  obtain ⟨i, hi, huncovers⟩ : ∃ i ∈ m.scripts, i.uncovers = true := by
    by_contra hnone
    refine hstranded ⟨target ▸ htarget, fun i hi => Bool.eq_false_iff.2 fun huncovers => ?_⟩
    exact hnone ⟨i, hi, huncovers⟩
  have hgone : i ∉ m'.scripts := fun hi' =>
    absurd ((hnobody i hi').symm.trans huncovers) Bool.false_ne_true
  refine .inr ⟨⟨htarget, hnobody⟩, .inr ⟨i, hi, huncovers, ?_⟩⟩
  rcases mem_scripts.1 hi with hoff | hstage | hroute
  · obtain ⟨j, hj, hj'⟩ := off i hoff huncovers
    exact absurd ((hnobody j (mem_scripts.2 (.inl hj))).symm.trans hj') Bool.false_ne_true
  · cases stir with
    | aside same =>
      exact absurd (mem_scripts.2 (.inr (.inl (same.stage.interpreters.symm ▸ hstage)))) hgone
    | sets r id kind route live fresh last stage =>
      exact absurd (mem_scripts.2 (.inr (.inl (stage.interpreters.symm ▸ hstage)))) hgone
    | enters roomId last stage =>
      have hdropped : ¬ (i.isBlocking || i.isIn m'.session.world.stage.mapId
          m'.session.world.stage.roomId) = true := by
        intro hstays
        refine hgone (mem_scripts.2 (.inr (.inl ?_)))
        rw [stage.interpreters]
        refine List.mem_filter.2 ⟨hstage, ?_⟩
        rwa [stage.mapId, stage.roomId] at hstays
      obtain ⟨hblocking, hroom⟩ := by simpa using hdropped
      exact ⟨hblocking, hroom, hgone⟩
  · exact absurd ((routes i hroute).symm.trans huncovers) Bool.false_ne_true

/-- The scripts off the stage are as they should be, and no route on it uncovers the screen. -/
structure Orderly (m : Moment) : Prop where
  fit : m.Fit
  routes : ∀ r ∈ m.session.world.stage.routes, r.uncovers = false

end Moment

/-- A route begins without a cover, so none on the stage has one. -/
theorem World.Stir.uncovers {w w' : World} (stir : w.Stir w')
    (h : ∀ r ∈ w.stage.routes, r.uncovers = false) : ∀ r ∈ w'.stage.routes, r.uncovers = false := by
  intro r hr
  cases stir with
  | aside same => exact h r (same.stage.routes ▸ hr)
  | sets new id kind route live fresh last stage =>
    rw [stage.routes] at hr
    rcases List.mem_append.1 hr with hr | hr
    · exact h r (List.mem_filter.1 hr).1
    · obtain rfl := List.mem_singleton.1 hr
      exact Interpreter.uncovers_of_pending (by simp [fresh.pending])
  | enters roomId last stage =>
    rw [stage.routes] at hr
    exact h r (List.mem_filter.1 hr).1

namespace Moment

theorem Orderly.works (h : m.Orderly) (works : Works project m m') : m'.Orderly :=
  ⟨(works.worked h.fit).2, (works.stir h.fit).uncovers h.routes⟩

/-- A step of a script accounts for a screen that nobody uncovers. -/
theorem Accounts.of_works (works : Works project m m') (h : m.Orderly) : Accounts project m m' := by
  have hstir := works.stir h.fit
  cases works with
  | yield s ran i rest =>
    refine .of_kept rfl fun j hj _ => ?_
    simpa [scripts, off] using hj
  | step s ran i rest =>
    have hmem : i ∈ (Moment.mk s ran (i :: rest)).off :=
      List.mem_append.2 (.inr List.mem_cons_self)
    have hmem' : (i.step s project).2.1 ∈
        (Moment.mk (i.step s project).2.2 ran ((i.step s project).2.1 :: rest)).off :=
      List.mem_append.2 (.inr List.mem_cons_self)
    have hstirs : i.StirsTo project s (i.step s project).2 :=
      Interpreter.stirsTo_step (h.fit i hmem)
    cases hstirs.covering with
    | keeps same fade =>
      refine .of_stir hstir h.routes (fun j hj huncovers => ?_) (congrArg Interpolation.target fade)
      rcases List.mem_append.1 hj with hj | hj
      · exact ⟨j, List.mem_append_left _ hj, huncovers⟩
      · rcases List.mem_cons.1 hj with rfl | hj
        · exact ⟨_, hmem', same.trans huncovers⟩
        · exact ⟨j, List.mem_append_right _ (List.mem_cons_of_mem _ hj), huncovers⟩
    | covers uncovers target =>
      rintro ⟨_, hnobody⟩
      have hnot := hnobody _ (mem_scripts.2 (.inl hmem'))
      exact absurd (hnot.symm.trans uncovers) Bool.false_ne_true
    | uncovers uncovers target =>
      rintro ⟨htarget, _⟩
      exact absurd (target.symm.trans htarget) (by decide)
    | stumbles uncovers order branches e current missing ended report =>
      intro hstranded
      refine .inr ⟨hstranded,
        .inl ⟨s, ran, i, rest, order, branches, e, rfl, rfl, uncovers, current,
        missing, ended, ?_⟩⟩
      exact congrArg World.scriptErrors report

theorem line_accounts_turns {turn : List Interpreter} {s : Session}
    (h : Orderly ⟨s, [], turn⟩) :
    Line (Accounts project) ⟨s, [], turn⟩ (turns project [] turn s)
      ⟨(Interpreter.updateAll project turn s).2, (Interpreter.updateAll project turn s).1, []⟩ :=
  (line_turns [] turn s).imp h (fun _ _ works h => h.works works) fun _ _ h works =>
    .of_works works h

end Moment

namespace Session

variable {s : Session}

/-- The routes on the stage have nothing to uncover. -/
theorem uncovers_of_routes (h : s.world.Roster) (registry : (Moment.still s).Registry) :
    ∀ r ∈ s.world.stage.routes, r.uncovers = false := by
  intro r hr
  have hkind : r.kind = .route := (h.routeKinds r hr).1
  have hlive := h.live r (List.mem_append_right _ hr)
  refine Interpreter.uncovers_of_pending fun hpending => ?_
  exact (fit_routes registry r hr hlive).kind (by simp [hpending]) hkind

/-- Scripts are taken off the stage, take turns, and are put back if they go on. -/
theorem line_accounts_batch {taken : Session} {turn : List Interpreter}
    {merge : Stage → List Interpreter → Stage} (screen : taken.world.screen = s.world.screen)
    (take : ∀ i ∈ s.world.stage.scripts, i ∈ turn ∨ i ∈ taken.world.stage.scripts)
    (h : Moment.Orderly ⟨taken, [], turn⟩)
    (back : ∀ i, i ∈ (Interpreter.updateAll project turn taken).1 ∨
        i ∈ (Interpreter.updateAll project turn taken).2.world.stage.scripts →
      i.uncovers = true → i ∈ (merge (Interpreter.updateAll project turn taken).2.world.stage
        (Interpreter.updateAll project turn taken).1).scripts) :
    Line (Moment.Accounts project) (.still s) (batch project turn taken merge)
      (.still ((Interpreter.updateAll project turn taken).2.modifyWorld fun w =>
        w.modifyStage fun stage =>
          merge stage (Interpreter.updateAll project turn taken).1)) := by
  refine .cons ?_ ((Moment.line_accounts_turns h).append (.single ?_))
  · refine .of_kept (by rw [screen]; rfl) fun i hi _ => ?_
    have hi' : i ∈ s.world.stage.scripts := by
      simpa [Moment.scripts, Moment.still, Moment.off] using hi
    rcases take i hi' with hi | hi
    · simp [Moment.scripts, Moment.off, hi]
    · simp [Moment.scripts, Moment.off, hi]
  · refine .of_kept rfl fun i hi huncovers => ?_
    have hback := back i (by simpa [Moment.scripts, Moment.off] using hi) huncovers
    simpa [Moment.scripts, Moment.still, Moment.off, modifyWorld, World.modifyStage] using hback

section Batches

variable (h : s.world.Roster) (registry : (Moment.still s).Registry)

include h registry

theorem line_accounts_interpreters :
    Line (Moment.Accounts project) (.still s)
      (batch project s.world.stage.interpreters s.withoutInterpreters Stage.mergeInterpreters)
      (.still (s.runInterpreters project)) := by
  refine line_accounts_batch rfl (fun i hi => ?_) ⟨?_, ?_⟩ fun i hi huncovers => ?_
  · simpa [Stage.scripts, withoutInterpreters, modifyWorld, World.modifyStage] using hi
  · simpa [Moment.Fit, Moment.off] using fit_interpreters registry
  · exact fun r hr => uncovers_of_routes h registry r hr
  · obtain ⟨hlive, _⟩ := Interpreter.uncovers_iff.1 huncovers
    simp only [Stage.scripts, Stage.mergeInterpreters, Multiset.mem_add, Multiset.mem_coe,
      List.mem_append, List.mem_filter] at hi ⊢
    rcases hi with hran | hstage | hroute
    · exact .inl (.inl ⟨hran, by simp [hlive]⟩)
    · exact .inl (.inr hstage)
    · exact .inr hroute

theorem line_accounts_routes :
    Line (Moment.Accounts project) (.still s)
      (batch project s.world.stage.routes s.withoutRoutes Stage.mergeRoutes)
      (.still (s.runRoutes project)) := by
  have hempty :
      (Interpreter.updateAll project s.world.stage.routes s.withoutRoutes).2.world.stage.routes =
      [] := (sameCast_routes project (fit_routes registry) h).stage.routes
  refine line_accounts_batch rfl (fun i hi => ?_) ⟨?_, ?_⟩ fun i hi huncovers => ?_
  · simpa [Stage.scripts, withoutRoutes, modifyWorld, World.modifyStage, or_comm] using hi
  · simpa [Moment.Fit, Moment.off] using fit_routes registry
  · simp [withoutRoutes, modifyWorld, World.modifyStage]
  · obtain ⟨hlive, _⟩ := Interpreter.uncovers_iff.1 huncovers
    simp only [Stage.scripts, Stage.mergeRoutes, hempty, Multiset.mem_add, Multiset.mem_coe,
      List.append_nil, List.mem_filter] at hi ⊢
    rcases hi with hran | hstage | hroute
    · exact .inr ⟨hran, by simp [hlive]⟩
    · exact .inl hstage
    · cases hroute

end Batches

/-! ## Ticks and acts -/

theorem accounts_resumeMusic (s : Session) :
    Moment.Accounts project (.still s) (.still s.resumeMusic) := by
  unfold resumeMusic
  split
  · exact .of_stage_eq rfl rfl
  · exact .of_stage_eq rfl rfl

theorem accounts_collectSave (s : Session) :
    Moment.Accounts project (.still s) (.still s.collectSave) := by
  obtain ⟨save, hworld⟩ := Moment.collectSave_world s
  exact .of_stage_eq (by rw [hworld]) (by rw [hworld])

theorem accounts_sendScheduledSave (s : Session) :
    Moment.Accounts project (.still s) (.still s.sendScheduledSave) := by
  obtain ⟨save, scheduled, hworld⟩ := Moment.sendScheduledSave_world s
  exact .of_stage_eq (by rw [hworld]) (by rw [hworld])

theorem accounts_requestSave (s : Session) :
    Moment.Accounts project (.still s) (.still s.requestSave.2) := by
  obtain ⟨save, hworld⟩ := Moment.requestSave_world s
  exact .of_stage_eq (by rw [hworld]) (by rw [hworld])

theorem accounts_save (s : Session) (wasBlocked : Bool) :
    Moment.Accounts project (.still s.sendScheduledSave) (.still (s.save wasBlocked)) := by
  unfold save
  dsimp only
  split
  · exact accounts_requestSave _
  · exact .of_stage_eq rfl rfl

theorem accounts_opened {s s' : Session} (opened : s.world.Opened s'.world) :
    Moment.Accounts project (.still s) (.still s') := by
  refine .of_kept (congrArg Interpolation.target opened.fade) fun i hi _ => ?_
  simp only [Moment.mem_scripts, Moment.still, Moment.off, opened.routes] at hi ⊢
  exact hi.imp_right (Or.imp_left fun hi => opened.interpreters.subset hi)

theorem target_updateScreen (screen : Screen) : screen.update.fade.target = screen.fade.target := by
  show screen.fade.update.target = _
  unfold Interpolation.update
  split
  · rfl
  · dsimp only
    split <;> rfl

theorem line_accounts_beforeScripts (s : Session) (input : Input) :
    Line (Moment.Accounts project) (.still s)
      [.still s.resumeMusic, .still (s.withAnswers project),
        .still (s.withAnswers project).collectSave, .still (s.beforeWindows project),
        .still (s.afterWindows project input),
        .still ((s.afterWindows project input).modifyWorld fun w =>
          { w with pictures := w.pictures.update }),
        .still (s.beforeScripts project input)] (.still (s.beforeScripts project input)) := by
  refine .cons (accounts_resumeMusic s) (.cons (.of_stage_eq rfl rfl) ?_)
  refine .cons (accounts_collectSave _) (.cons (.of_stage_eq rfl (target_updateScreen _)) ?_)
  refine .cons (.of_stage_eq rfl rfl) (.cons (.of_stage_eq rfl rfl) (.single ?_))
  exact accounts_opened (opened_startScripts _ _)

theorem line_accounts_afterScripts (input : Input)
    (h : ((s.beforeScripts project input).runScripts project).world.Roster)
    (registry : (Moment.still ((s.beforeScripts project input).runScripts project)).Registry) :
    Line (Moment.Accounts project) (.still ((s.beforeScripts project input).runScripts project))
      [.still (s.afterScripts project input),
        .still (s.afterScripts project input).sendScheduledSave,
        .still (s.afterSaves project input), .still (s.update project input)]
      (.still (s.update project input)) := by
  have hroutes := uncovers_of_routes h registry
  refine .cons ?_ (.cons (accounts_sendScheduledSave _) (.cons (accounts_save _ _) (.single ?_)))
  · rw [afterScripts]
    generalize (s.beforeScripts project input).runScripts project = t at hroutes ⊢
    refine .of_stir ?_ hroutes (fun i hi => by simp [Moment.off, Moment.still] at hi) rfl
    exact .enters t.world.stage.roomId rfl ⟨rfl, rfl, rfl, rfl⟩
  · rw [update_eq]
    exact .of_stage_eq rfl rfl

theorem line_accounts_tick (h : s.world.Roster) (registry : (Moment.still s).Registry)
    (input : Input) :
    Line (Moment.Accounts project) (.still s) (s.tickMoments project input)
      (.still (s.update project input)) := by
  have hbefore := registry_beforeScripts registry project input
  have hroster := roster_beforeScripts h project input
  have hinterpreters := registry_runInterpreters hbefore project
  have hinterpretersRoster := roster_runInterpreters project (fit_interpreters hbefore) hroster
  have hroutesRoster := roster_runRoutes project (fit_routes hinterpreters) hinterpretersRoster
  have hscripts : Line (Moment.Accounts project) _ _ _ :=
    (line_accounts_interpreters hroster hbefore).append
      (line_accounts_routes hinterpretersRoster hinterpreters)
  exact ((s.line_accounts_beforeScripts input).append hscripts).append
    (line_accounts_afterScripts input hroutesRoster (registry_runRoutes hinterpreters project))

theorem line_accounts_moments (h : s.world.Roster) (registry : (Moment.still s).Registry)
    (act : Act) :
    Line (Moment.Accounts project) (.still s) (s.moments project act)
      (.still (s.perform project act)) := by
  by_cases htick : ∃ input, act = .tick input
  · obtain ⟨input, rfl⟩ := htick
    exact line_accounts_tick h registry input
  · have hmoments : s.moments project act = [.still (s.perform project act)] := by
      cases act with
      | tick input => exact absurd ⟨input, rfl⟩ htick
      | _ => rfl
    rw [hmoments]
    refine .single ?_
    rcases s.perform_cases project (not_exists.1 htick) with hopens | ⟨hstir, hfade⟩
    · exact accounts_opened (.single hopens)
    · refine .of_stir hstir (uncovers_of_routes h registry) (fun i hi => ?_)
        (congrArg Interpolation.target hfade)
      simp [Moment.off, Moment.still] at hi

theorem line_accounts_story (h : s.world.Roster) (registry : (Moment.still s).Registry)
    (acts : List Act) :
    Line (Moment.Accounts project) (.still s) (story project s acts)
      (.still (s.after project acts)) := by
  induction acts generalizing s with
  | nil => exact .nil _
  | cons act acts ih =>
    refine (line_accounts_moments h registry act).append (ih ?_ ?_)
    · exact roster_perform h registry act
    · exact registry_after registry [act]

end Session

/-- Where each moment accounts for the next one, nobody is stranded exactly if nobody was so at
first and nobody becomes so. -/
theorem Moment.Line.forall_not_stranded_iff {moments : List Moment}
    (h : Line (Accounts project) m moments m') :
    (∀ a ∈ m :: moments, ¬ a.Stranded) ↔
      ¬ m.Stranded ∧ (m :: moments).IsChain fun a b => ¬ Strands project a b := by
  induction h with
  | nil m => simp
  | @cons m b last moments first _ ih =>
    rw [List.forall_mem_cons, ih, List.isChain_cons_cons]
    refine ⟨fun ⟨hm, hb, hchain⟩ => ⟨hm, fun hstrands => hb hstrands.stranded, hchain⟩, ?_⟩
    rintro ⟨hm, hstrands, hchain⟩
    exact ⟨hm, fun hb => (first hb).elim hm hstrands, hchain⟩

namespace Session

variable {s : Session}

theorem not_stranded_of_start {w : World} {seed : UInt64} (h : World.start project seed = .ok w)
    (platform : Platform) : ¬ (Moment.still ⟨w, platform⟩).Stranded := by
  rintro ⟨htarget, _⟩
  obtain ⟨stage, _, _, hcalm⟩ := calm_of_start h
  have hzero : (World.ofProgress (.fresh stage) seed).screen.fade.target = .zero := rfl
  have hone : Binary64.zero = .one :=
    hzero.symm.trans ((congrArg Interpolation.target hcalm.fade).symm.trans htarget)
  exact absurd hone (by decide)

/-- A loaded game has the screen covered, and scripts to uncover it, as when it was saved. -/
theorem stranded_resume_iff (w : World) (seed : UInt64) (platform platform' : Platform) :
    (Moment.still ⟨.resume w.toProgress seed, platform'⟩).Stranded ↔
      (Moment.still ⟨w, platform⟩).Stranded := by
  have hscripts : (Moment.still ⟨.resume w.toProgress seed, platform'⟩).scripts =
      (Moment.still ⟨w, platform⟩).scripts.map Interpreter.forgetRequest := by
    simp [Moment.scripts, Moment.off, Moment.still, Stage.scripts, World.resume,
      World.ofProgress, Stage.forgetRequests]
  refine and_congr Iff.rfl ?_
  rw [hscripts]
  simp only [Multiset.mem_map, forall_exists_index, and_imp, forall_apply_eq_imp_iff₂,
    Interpreter.uncovers_forgetRequest]

/-- The screen always has someone to uncover it exactly as long as no script that has to is lost, to
a missing room or to a change of the room. -/
theorem Begins.uncovered_iff (begins : Begins project s) (acts : List Act) :
    ((∀ m ∈ .still s :: story project s acts, ¬ m.Stranded) ↔
      ¬ (Moment.still s).Stranded ∧ (.still s :: story project s acts).IsChain fun m m' =>
        ¬ Moment.Strands project m m') ∧
    (∀ w seed host, World.start project seed = .ok w →
      ¬ (Moment.still ⟨w, .start project host⟩).Stranded) ∧
    ∀ seed host, (Moment.still ⟨.resume (s.after project acts).world.toProgress seed,
      .start project host⟩).Stranded ↔ (Moment.still (s.after project acts)).Stranded :=
  ⟨(line_accounts_story begins.roster begins.registry acts).forall_not_stranded_iff,
    fun _ _ _ started => not_stranded_of_start started _,
    fun seed _ => stranded_resume_iff _ seed _ _⟩

end Session

/-- A common event brings the player to a room of the only map, which has room 1, behind a black
screen. -/
def veilRoom (roomId : Int32) : Project :=
  .emptyRoom [.act (.transfer ⟨.constant, roomId, 0, 0, none, .black⟩) []]

/-- The room is missing, so the screen is covered and stays so without anyone to uncover it. -/
theorem veilRoom_stranded :
    ∃ w, World.start (veilRoom 2) 1 = .ok w ∧
      let s := Session.after (veilRoom 2) ⟨w, .start (veilRoom 2) .deferred⟩
        (.startCommonEvent 1 :: List.replicate 40 (.tick .none))
      s.world.screen.isFadedOut = true ∧ s.world.stage.interpreters.length = 0 ∧
        (Moment.still s).Stranded := by
  refine ⟨_, rfl, ?_⟩
  unfold Moment.Stranded
  decide +kernel

/-- While the screen is covered on the way to a room that is there, no script is lost. -/
theorem veilRoom_uncovered :
    ∃ w, World.start (veilRoom 1) 1 = .ok w ∧
      let s : Session := ⟨w, .start (veilRoom 1) .deferred⟩
      let acts : List Act := .startCommonEvent 1 :: List.replicate 40 (.tick .none)
      (Session.after (veilRoom 1) s (acts.take 20)).world.screen.fade.target = .one ∧
        (.still s :: Session.story (veilRoom 1) s acts).IsChain fun m m' =>
          ¬ Moment.Strands (veilRoom 1) m m' := by
  obtain ⟨w, hstart, hcovered, hnever⟩ : ∃ w, World.start (veilRoom 1) 1 = .ok w ∧
      let s : Session := ⟨w, .start (veilRoom 1) .deferred⟩
      let acts : List Act := .startCommonEvent 1 :: List.replicate 40 (.tick .none)
      (Session.after (veilRoom 1) s (acts.take 20)).world.screen.fade.target = .one ∧
        ∀ m ∈ .still s :: Session.story (veilRoom 1) s acts, ¬ m.Stranded := by
    refine ⟨_, rfl, ?_⟩
    unfold Moment.Stranded
    decide +kernel
  have hbegins : Session.Begins (veilRoom 1) ⟨w, .start (veilRoom 1) .deferred⟩ :=
    .new 1 .deferred hstart
  exact ⟨w, hstart, hcovered, ((hbegins.uncovered_iff _).1.1 hnever).2⟩

end Adventure
