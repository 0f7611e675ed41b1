import Adventure.Proofs.Platform.Answers
import Adventure.Proofs.Session.Registry

/-!
# Awaited answers

A script that waits for the answer to a request looks for it each time its turn comes.  The answers
to all requests go through one buffer of limited size, which drops the answers to the oldest
requests whether or not somebody waits for them.  So a script finds its answer exactly if there are
fewer than `answerLimit` answers to later requests by then; otherwise it waits on, for an answer
that is gone.
-/

namespace Adventure

open Moment (Next Trail)
open Session (Act)

namespace Moment

variable {project : Project} {inputs : Input → Prop} {collects : Prop} {m m' : Moment}

/-- While it is not the turn of a script, nobody takes the answer that it waits for. -/
theorem Next.find?_answers (next : Next project inputs False m m') (h : m.Registry)
    {i : Interpreter} {id : Nat} (turn : ¬ m.IsTurnOf i.id) (there : i ∈ m.scripts)
    (awaited : i.awaited? = some id) :
    m'.session.platform.answers.find? id = m.session.platform.answers.find? id := by
  cases next with
  | quiet quiet => rw [quiet.platform.answers]
  | collect s never => exact never.elim
  | windows s _ => rfl
  | deliver s a _ => rfl
  | ask s _ => exact congrArg (·.find? id) (Platform.answers_ask s.platform _)
  | collectSave s =>
    unfold Session.collectSave
    split
    · rfl
    · next save hsave =>
      split
      · rfl
      · dsimp only [still]
        split
        · rfl
        · next hhost =>
          -- a save of the host is not what the script waits for
          have hother := (h.save save hsave (Bool.eq_false_iff.2 hhost)).1
          refine SortedMap.find?_erase_of_ne _ fun heq => hother ?_
          exact (Multiset.mem_filterMap _ _).2 ⟨i, there, heq ▸ awaited⟩
  | sendScheduledSave s =>
    unfold Session.sendScheduledSave
    split
    · rfl
    · split
      · rfl
      · dsimp only
        split
        · exact congrArg (·.find? id) (Platform.answers_saveProgress s.platform _ _)
        · rfl
  | requestSave s =>
    unfold Session.requestSave
    split
    · rfl
    · split
      · rfl
      · exact congrArg (·.find? id) (Platform.answers_saveProgress s.platform.nextRequestId.2 _ _)
  | step s ran j rest =>
    obtain ⟨hgoes, _⟩ : j.GoesTo project s (j.step s project).2 :=
      Interpreter.goesTo_step h.coherent_of_turn
    refine hgoes.find?_answers fun hj => ?_
    -- two scripts would wait for one request
    have hnodup := h.awaited
    rw [Moment.awaited, Registry.scripts_turn, Multiset.filterMap_cons_some _ _ _ hj,
      Multiset.nodup_cons] at hnodup
    rw [Registry.scripts_turn] at there
    rcases Multiset.mem_cons.1 there with rfl | hi
    · exact turn ⟨i, rest, rfl, rfl⟩
    · exact hnodup.1 ((Multiset.mem_filterMap _ _).2 ⟨i, hi, awaited⟩)

/-- Until its turn comes, a script stays as it is, and so does what it finds for a request. -/
structure Awaits (m : Moment) (i : Interpreter) (id : Nat) (found : Option Answer) : Prop where
  registry : m.Registry
  old : i.id ≤ m.session.world.lastInterpreterId
  same : ∀ j ∈ m.scripts, j.id = i.id → j = i
  found : i ∈ m.scripts → m.session.platform.answers.find? id = found

theorem Awaits.passage {i : Interpreter} {id : Nat} {found : Option Answer}
    (h : m.Awaits i id found) (awaited : i.awaited? = some id)
    (next : Next project inputs False m m') (turn : ¬ m.IsTurnOf i.id) : m'.Awaits i id found := by
  obtain ⟨hold, hthere⟩ := next.mem_scripts h.registry turn h.old
  refine ⟨h.registry.passage next, hold, fun j hj hid => h.same j (hthere j hj hid) hid, ?_⟩
  intro hi
  have hbefore := hthere i hi rfl
  exact (next.find?_answers h.registry turn hbefore awaited).trans (h.found hbefore)

/-- In its turn a script finds the answer and takes it, or it waits on. -/
theorem Awaits.step {i : Interpreter} {id : Nat} {found : Option Answer}
    (h : m.Awaits i id found) (awaited : i.awaited? = some id) (turn : m.IsTurnOf i.id) :
    (∃ rest, m.turn = i :: rest) ∧ m.session.platform.answers.find? id = found ∧
      i.step m.session project =
        if found.isSome then
          (true, i.goPast, m.session.modifyPlatform fun p => (p.takeAnswer id).2)
        else (false, i, m.session) := by
  obtain ⟨s, ran, next⟩ := m
  obtain ⟨j, rest, rfl, hid⟩ : ∃ j rest, next = j :: rest ∧ j.id = i.id := turn
  have hj : j ∈ (Moment.mk s ran (j :: rest)).scripts :=
    Registry.scripts_turn s ran j rest ▸ Multiset.mem_cons_self _ _
  obtain rfl : j = i := h.same j hj hid
  have hfound : s.platform.answers.find? id = found := h.found hj
  have hcoherent := h.registry.coherent j hj (Interpreter.awaited?_eq_some.1 awaited).1
  have hhas : s.platform.hasAnswer id = found.isSome := by rw [Platform.hasAnswer_eq, hfound]
  refine ⟨⟨rest, rfl⟩, hfound, ?_⟩
  cases found with
  | none => exact Interpreter.step_of_unanswered hcoherent awaited hhas
  | some a => exact Interpreter.step_of_answered hcoherent awaited hhas

/-- At some time while scripts take turns it is the turn of each of them. -/
theorem exists_turn (project : Project) (ran turn : List Interpreter) (s : Session)
    {i : Interpreter} (hi : i ∈ turn) :
    ∃ m ∈ ⟨s, ran, turn⟩ :: turns project ran turn s, m.IsTurnOf i.id := by
  induction turn generalizing ran s with
  | nil => cases hi
  | cons j rest ih =>
    rcases List.mem_cons.1 hi with rfl | hi
    · exact ⟨_, List.mem_cons_self, i, rest, rfl, rfl⟩
    · obtain ⟨m, hm, hturn⟩ := ih (ran ++ [(j.update s project).1]) (j.update s project).2 hi
      exact ⟨m, List.mem_cons_of_mem _ (List.mem_append_right _ hm), hturn⟩

end Moment

namespace Session

variable {project : Project}

/-- The answer that is there once the answers have been collected. -/
theorem find?_withAnswers (s : Session) (id : Nat) :
    (s.withAnswers project).platform.answers.find? id =
      if (s.platform.laterAnswers id).length < answerLimit then s.platform.latestAnswer? id
      else none := by
  have hinbox : s.resumeMusic.platform.inbox = s.platform.inbox :=
    s.quiet_resumeMusic.platform.inbox
  have hanswers : s.resumeMusic.platform.answers = s.platform.answers :=
    s.quiet_resumeMusic.platform.answers
  have hcollect := Platform.find?_collect s.resumeMusic.platform project id
  rwa [Platform.laterAnswers, Platform.latestAnswer?, hinbox, hanswers] at hcollect

/-- Nobody leaves the stage before scripts run. -/
theorem mem_interpreters_beforeScripts (s : Session) (input : Input) {i : Interpreter}
    (hi : i ∈ s.world.stage.interpreters) :
    i ∈ (s.beforeScripts project input).world.stage.interpreters := by
  obtain ⟨started, _, hstarted⟩ := (starts_startScripts
    ((s.afterWindows project input).modifyWorld fun w => { w with pictures := w.pictures.update })
    project (s.inputLeft project input)).interpreters
  obtain ⟨save, hsave⟩ := Moment.collectSave_world (s.withAnswers project)
  have hstage : (s.afterWindows project input).world.stage.interpreters =
      (s.withAnswers project).collectSave.world.stage.interpreters := rfl
  have hmusic : s.resumeMusic.world.stage = s.world.stage := by
    unfold resumeMusic
    split <;> rfl
  have hsame : (s.afterWindows project input).world.stage.interpreters =
      s.world.stage.interpreters := by
    rw [hstage, hsave]
    exact congrArg Stage.interpreters hmusic
  rw [beforeScripts, hstarted]
  exact List.mem_append_left _ (hsame ▸ hi)

/-- In a tick, every interpreter has its turn. -/
theorem exists_turn_tickMoments (s : Session) (input : Input) {i : Interpreter}
    (hi : i ∈ s.world.stage.interpreters) :
    ∃ m ∈ s.tickMoments project input, m.IsTurnOf i.id := by
  obtain ⟨m, hm, hturn⟩ := Moment.exists_turn project [] _
    ((s.beforeScripts project input).modifyWorld fun w =>
      w.modifyStage fun stage => { stage with interpreters := [] })
    (s.mem_interpreters_beforeScripts input hi)
  refine ⟨m, List.mem_cons_of_mem _ (List.mem_cons_of_mem _ ?_), hturn⟩
  refine List.mem_append_left _ (List.mem_append_right _ ?_)
  exact List.mem_append_left _ (List.mem_append_left _ hm)

/-- What a script finds from when the answers have been collected. -/
theorem awaits_withAnswers {s : Session} (h : (Moment.still s).Registry) {i : Interpreter}
    (there : i ∈ s.world.stage.scripts) (id : Nat) :
    (Moment.still (s.withAnswers project)).Awaits i id
      (if (s.platform.laterAnswers id).length < answerLimit then s.platform.latestAnswer? id
        else none) := by
  have hmusic : (Moment.still s.resumeMusic).Registry := h.of_quiet s.quiet_resumeMusic
  have hcollect : (Moment.still (s.withAnswers project)).Registry :=
    hmusic.passage (Next.collect s.resumeMusic trivial : Next project (fun _ => True) True _ _)
  have hworld : (s.withAnswers project).world.stage = s.world.stage := by
    show s.resumeMusic.world.stage = _
    unfold resumeMusic
    split <;> rfl
  have hthere : i ∈ (Moment.still (s.withAnswers project)).scripts := by
    simpa [Moment.scripts, Moment.off, Moment.still, hworld] using there
  exact ⟨hcollect, hcollect.ids_le i hthere, fun j hj hid => hcollect.eq_of_id_eq hj hthere hid,
    fun _ => s.find?_withAnswers id⟩

/-- A script that waits for an answer finds it when its turn comes, if there are few answers to
later requests, and goes past the command that it waits at.  Otherwise the answer is gone, and the
script stays as it is. -/
theorem Begins.step_of_awaited {s₀ : Session} (begins : Begins project s₀) (acts : List Act)
    (input : Input) {i : Interpreter} {id : Nat}
    (there : i ∈ (s₀.after project acts).world.stage.scripts) (awaited : i.awaited? = some id)
    (received : id ∈ (s₀.after project acts).platform.inbox.map (·.id)) :
    let s := s₀.after project acts
    (i ∈ s.world.stage.interpreters → ∃ m ∈ s.tickMoments project input, m.IsTurnOf i.id) ∧
      ∀ before m later, s.tickMoments project input = before ++ m :: later →
        (∀ m' ∈ before, ¬ m'.IsTurnOf i.id) → m.IsTurnOf i.id →
        (∃ rest, m.turn = i :: rest) ∧
          ((s.platform.laterAnswers id).length < answerLimit →
            (∃ a, s.platform.latestAnswer? id = some a ∧
              m.session.platform.answers.find? id = some a) ∧
            i.step m.session project =
              (true, i.goPast, m.session.modifyPlatform fun p => (p.takeAnswer id).2)) ∧
          (answerLimit ≤ (s.platform.laterAnswers id).length →
            m.session.platform.answers.find? id = none ∧
              i.step m.session project = (false, i, m.session)) := by
  intro s
  refine ⟨s.exists_turn_tickMoments input, fun before m later split without turn => ?_⟩
  have htrail : Trail project (fun _ => True) False (.still (s.withAnswers project))
      (s.momentsWithAnswers project input) (.still (s.update project input)) :=
    s.trail_momentsWithAnswers trivial
  have hawaits : (Moment.still (s.withAnswers project)).Awaits i id _ :=
    awaits_withAnswers (registry_after begins.registry acts) there id
  -- nobody's turn comes before the answers have been collected
  obtain ⟨before, rfl⟩ : ∃ before', before = .still s.resumeMusic :: before' := by
    cases before with
    | nil =>
      obtain ⟨rfl, _⟩ := List.cons.inj split
      exact absurd turn (Moment.not_isTurnOf_still _ _)
    | cons b before => exact ⟨before, by rw [(List.cons.inj split).1]⟩
  have hm : m.Awaits i id (if (s.platform.laterAnswers id).length < answerLimit then
      s.platform.latestAnswer? id else none) :=
    htrail.invariant_until (P := fun m => m.Awaits i id _) hawaits
      (fun a b next hturn h => Moment.Awaits.passage h awaited next hturn)
      (List.cons.inj split).2 (List.forall_mem_cons.1 without).2
  obtain ⟨hrest, hfound, hstep⟩ := hm.step awaited turn
  refine ⟨hrest, fun hfew => ?_, fun hmany => ?_⟩
  · obtain ⟨a, ha⟩ := Platform.exists_latestAnswer received
    rw [if_pos hfew, ha] at hfound hstep
    exact ⟨⟨a, ha, hfound⟩, hstep⟩
  · rw [if_neg (Nat.not_lt.2 hmany)] at hfound hstep
    exact ⟨hfound, hstep⟩

end Session

/-- A common event unlocks an achievement. -/
def awardRoom : Project := .emptyRoom [.act (.unlockAchievement 7) []]

/-- So many scripts unlock the achievement at the same time, and then they are all answered. -/
def Session.awards (count : Nat) : List Act :=
  List.replicate count (.startCommonEvent 1) ++ .tick .none ::
    (List.range count).map fun n => .answer ⟨n + 1, .unlockAchievement, ⟨true, []⟩⟩

/-- The first of many scripts that wait for answers does not find its own. -/
theorem awardRoom_drops_awaited :
    ∃ w, World.start awardRoom 1 = .ok w ∧
      let s := Session.after awardRoom ⟨w, .start awardRoom .deferred⟩ (Session.awards 65)
      1 ∈ s.platform.inbox.map (·.id) ∧
        (∃ i ∈ s.world.stage.interpreters, i.awaited? = some 1) ∧
        (s.update awardRoom .none).platform.answers.find? 1 = none ∧
        ∃ i ∈ (s.update awardRoom .none).world.stage.interpreters, i.awaited? = some 1 := by
  refine ⟨_, rfl, ?_⟩
  decide +kernel

/-- The second one does: there are few enough answers to later requests. -/
theorem awardRoom_finds_awaited :
    ∃ w i, World.start awardRoom 1 = .ok w ∧
      let s := Session.after awardRoom ⟨w, .start awardRoom .deferred⟩ (Session.awards 65)
      i ∈ s.world.stage.scripts ∧ i.awaited? = some 2 ∧ 2 ∈ s.platform.inbox.map (·.id) ∧
        (∃ m ∈ s.tickMoments awardRoom .none, m.IsTurnOf i.id) ∧
        ∀ before m later, s.tickMoments awardRoom .none = before ++ m :: later →
          (∀ m' ∈ before, ¬ m'.IsTurnOf i.id) → m.IsTurnOf i.id →
          (∃ a, m.session.platform.answers.find? 2 = some a) ∧
            (i.step m.session awardRoom).2.1 = i.goPast := by
  obtain ⟨w, hstart, hreceived, hfew, i, hi, hawaited⟩ : ∃ w, World.start awardRoom 1 = .ok w ∧
      let s := Session.after awardRoom ⟨w, .start awardRoom .deferred⟩ (Session.awards 65)
      2 ∈ s.platform.inbox.map (·.id) ∧ (s.platform.laterAnswers 2).length < answerLimit ∧
        ∃ i ∈ s.world.stage.interpreters, i.awaited? = some 2 := by
    refine ⟨_, rfl, ?_⟩
    decide +kernel
  have hbegins : Session.Begins awardRoom ⟨w, .start awardRoom .deferred⟩ := .new 1 .deferred hstart
  obtain ⟨hturn, hstep⟩ := hbegins.step_of_awaited (Session.awards 65) .none
    (Stage.mem_scripts_of_interpreter hi) hawaited hreceived
  refine ⟨w, i, hstart, Stage.mem_scripts_of_interpreter hi, hawaited, hreceived, hturn hi, ?_⟩
  intro before m later split without turn
  obtain ⟨_, hfinds, _⟩ := hstep before m later split without turn
  obtain ⟨⟨a, _, hfound⟩, hstep⟩ := hfinds hfew
  exact ⟨⟨a, hfound⟩, by rw [hstep]⟩

end Adventure
