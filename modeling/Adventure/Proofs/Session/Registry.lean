import Adventure.Proofs.Session.Story

/-!
# Who is who

In every moment of a game each script has an id of its own, and no two scripts wait for the same
request.  Ids are never given again, so a script that is still there later is the same one.
-/

namespace Adventure

open Moment (Next Trail)

/-- The requests that scripts wait for. -/
def Moment.awaited (m : Moment) : Multiset Nat := m.scripts.filterMap Interpreter.awaited?

/-- In a moment, the scripts are as they should be and nobody waits for what is not his. -/
structure Moment.Registry (m : Moment) : Prop where
  ids : (m.scripts.map (·.id)).Nodup
  ids_le : ∀ i ∈ m.scripts, i.id ≤ m.session.world.lastInterpreterId
  coherent : ∀ i ∈ m.scripts, i.terminated = false → i.Coherent
  awaited : m.awaited.Nodup
  awaited_le : ∀ id ∈ m.awaited, id ≤ m.session.platform.lastRequestId
  /-- A save of the host is not what a script waits for. -/
  save (save : SaveInFlight) : m.session.world.saveInFlight = some save → save.byScript = false →
    save.requestId ∉ m.awaited ∧ save.requestId ≤ m.session.platform.lastRequestId

/-- The beginnings of a game: a new one, or one that goes on from the progress of another. -/
inductive Session.Begins (project : Project) : Session → Prop where
  | new {w : World} (seed : UInt64) (host : Host) (started : World.start project seed = .ok w) :
      Begins project ⟨w, .start project host⟩
  | loaded {s : Session} (earlier : Begins project s) (acts : List Session.Act) (seed : UInt64)
      (host : Host) :
      Begins project ⟨.resume (s.after project acts).world.toProgress seed, .start project host⟩

variable {project : Project} {inputs : Input → Prop} {collects : Prop} {m m' : Moment}

namespace Moment.Registry

/-- Two scripts with the same id are the same. -/
theorem eq_of_id_eq (h : m.Registry) {i j : Interpreter} (hi : i ∈ m.scripts) (hj : j ∈ m.scripts)
    (hid : i.id = j.id) : i = j := Multiset.inj_on_of_nodup_map h.ids i hi j hj hid

/-- New scripts start next to `old` ones that have the ids they had. -/
theorem next (h : m.Registry) {old : Multiset Interpreter} {started : List Interpreter}
    (hstarted : StartedBetween m.session.world.lastInterpreterId
      m'.session.world.lastInterpreterId started)
    (hscripts : m'.scripts ≤ old + ↑started)
    (ids : old.map (·.id) = m.scripts.map (·.id))
    (coherent : ∀ i ∈ old, i.terminated = false → i.Coherent)
    (awaited : (old.filterMap Interpreter.awaited?).Nodup)
    (awaited_le : ∀ id ∈ old.filterMap Interpreter.awaited?,
      id ≤ m'.session.platform.lastRequestId)
    (save : ∀ save, m'.session.world.saveInFlight = some save → save.byScript = false →
      save.requestId ∉ old.filterMap Interpreter.awaited? ∧
        save.requestId ≤ m'.session.platform.lastRequestId) : m'.Registry := by
  have hids : m'.scripts.map (·.id) ≤ m.scripts.map (·.id) + ↑(started.map (·.id)) := by
    rw [← ids, ← Multiset.map_coe, ← Multiset.map_add]
    exact Multiset.map_le_map hscripts
  have hawaited : m'.awaited ≤ old.filterMap Interpreter.awaited? := by
    have hnone : (↑started : Multiset Interpreter).filterMap Interpreter.awaited? = 0 := by
      rw [Multiset.filterMap_coe, Multiset.coe_eq_zero, List.filterMap_eq_nil_iff]
      exact fun i hi => (hstarted.fresh i hi).awaited?
    have hle := Multiset.filterMap_le_filterMap Interpreter.awaited? hscripts
    rwa [Multiset.filterMap_add, hnone, add_zero] at hle
  have hmem : ∀ i ∈ m'.scripts, i ∈ old ∨ i ∈ started := fun i hi => by
    simpa using Multiset.subset_of_le hscripts hi
  refine ⟨?_, ?_, ?_, ?_, ?_, ?_⟩
  · refine Multiset.nodup_of_le hids (Multiset.nodup_add.2 ⟨h.ids, ?_, ?_⟩)
    · exact Multiset.coe_nodup.2 (hstarted.increasing.imp fun hlt => hlt.ne)
    · rw [Multiset.disjoint_left]
      intro id hold hnew
      obtain ⟨i, hi, rfl⟩ := Multiset.mem_map.1 hold
      obtain ⟨j, hj, heq⟩ := List.mem_map.1 (Multiset.mem_coe.1 hnew)
      have hlt := (hstarted.bounds j hj).1
      have hle := h.ids_le i hi
      omega
  · intro i hi
    rcases hmem i hi with hi | hi
    · have hid : i.id ∈ m.scripts.map (·.id) := ids ▸ Multiset.mem_map_of_mem _ hi
      obtain ⟨j, hj, heq⟩ := Multiset.mem_map.1 hid
      exact heq ▸ (h.ids_le j hj).trans hstarted.le
    · exact (hstarted.bounds i hi).2
  · intro i hi hlive
    rcases hmem i hi with hi | hi
    · exact coherent i hi hlive
    · exact (hstarted.fresh i hi).coherent
  · exact Multiset.nodup_of_le hawaited awaited
  · exact fun id hid => awaited_le id (Multiset.subset_of_le hawaited hid)
  · intro s hs hhost
    obtain ⟨hnot, hle⟩ := save s hs hhost
    exact ⟨fun hid => hnot (Multiset.subset_of_le hawaited hid), hle⟩

theorem of_quiet (h : m.Registry) (quiet : m.Quiet m') : m'.Registry := by
  obtain ⟨started, hstarted, hscripts⟩ := quiet.scripts
  refine h.next hstarted hscripts rfl h.coherent h.awaited ?_ ?_
  · rw [quiet.platform.lastRequestId]
    exact h.awaited_le
  · rw [quiet.platform.lastRequestId, quiet.saveInFlight]
    exact h.save

/-- The scripts stay, and a save that the host has in flight now is a new one or was so before. -/
theorem of_scripts_eq (h : m.Registry) (scripts : m'.scripts = m.scripts)
    (last : m'.session.world.lastInterpreterId = m.session.world.lastInterpreterId)
    (lastRequest : m.session.platform.lastRequestId ≤ m'.session.platform.lastRequestId)
    (save : ∀ save, m'.session.world.saveInFlight = some save → save.byScript = false →
      m.session.world.saveInFlight = some save ∨
        m.session.platform.lastRequestId < save.requestId ∧
          save.requestId ≤ m'.session.platform.lastRequestId) : m'.Registry := by
  have hstarted : StartedBetween m.session.world.lastInterpreterId
      m'.session.world.lastInterpreterId [] := .nil last.ge
  refine h.next hstarted (by simp [scripts]) rfl h.coherent h.awaited
    (fun id hid => (h.awaited_le id hid).trans lastRequest) fun s hs hhost => ?_
  rcases save s hs hhost with hbefore | ⟨hlt, hle⟩
  · obtain ⟨hnot, hle⟩ := h.save s hbefore hhost
    exact ⟨hnot, hle.trans lastRequest⟩
  · exact ⟨fun hid => absurd (h.awaited_le _ hid) (by omega), hle⟩

/-- The script whose turn it is, next to all others. -/
theorem scripts_turn (s : Session) (ran : List Interpreter) (i : Interpreter)
    (rest : List Interpreter) :
    (Moment.mk s ran (i :: rest)).scripts = i ::ₘ (↑(ran ++ rest) + s.world.stage.scripts) := by
  simp only [scripts, off, ← Multiset.coe_add, ← Multiset.cons_coe, Multiset.add_cons,
    Multiset.cons_add]

/-- A script whose turn it is becomes another one with its id, and waits for at most what it waited
for or for a new request. -/
theorem of_turn {s s' : Session} {ran rest : List Interpreter} {i i' : Interpreter}
    (h : Registry ⟨s, ran, i :: rest⟩) (same : i'.id = i.id)
    (coherent : i'.terminated = false → i'.Coherent)
    (world : Stage.Recruits s.world.lastInterpreterId s'.world.lastInterpreterId s.world.stage
      s'.world.stage)
    (saveInFlight : s'.world.saveInFlight = s.world.saveInFlight)
    (last : s.platform.lastRequestId ≤ s'.platform.lastRequestId)
    (awaited : ∀ id, i'.awaited? = some id → i.awaited? = some id ∨
      s.platform.lastRequestId < id ∧ id ≤ s'.platform.lastRequestId) :
    Registry ⟨s', ran, i' :: rest⟩ := by
  obtain ⟨started, hstarted, hle⟩ := world
  generalize hothers : (↑(ran ++ rest) + s.world.stage.scripts : Multiset Interpreter) = others
  have hbefore : (Moment.mk s ran (i :: rest)).scripts = i ::ₘ others := hothers ▸ scripts_turn ..
  have hawaited := h.awaited
  have hawaited_le := h.awaited_le
  rw [Moment.awaited, hbefore] at hawaited hawaited_le
  have hothers_awaited : others.filterMap Interpreter.awaited? ≤
      (i ::ₘ others).filterMap Interpreter.awaited? :=
    Multiset.filterMap_le_filterMap _ (Multiset.le_cons_self _ _)
  -- whatever is awaited now was so before, or is new
  have hnow : ∀ id ∈ (i' ::ₘ others).filterMap Interpreter.awaited?,
      id ∈ (i ::ₘ others).filterMap Interpreter.awaited? ∨
        s.platform.lastRequestId < id ∧ id ≤ s'.platform.lastRequestId := by
    intro id hid
    obtain ⟨j, hj, hj'⟩ := (Multiset.mem_filterMap _ _).1 hid
    rcases Multiset.mem_cons.1 hj with rfl | hj
    · refine (awaited id hj').imp_left fun hi => ?_
      exact (Multiset.mem_filterMap _ _).2 ⟨i, Multiset.mem_cons_self _ _, hi⟩
    · exact .inl ((Multiset.mem_filterMap _ _).2 ⟨j, Multiset.mem_cons_of_mem hj, hj'⟩)
  refine h.next hstarted (?_ : Moment.scripts _ ≤ (i' ::ₘ others) + ↑started) ?_ ?_ ?_ ?_ ?_
  · rw [scripts_turn, Multiset.cons_add, ← hothers, add_assoc]
    exact Multiset.cons_le_cons _ (add_le_add_right hle _)
  · rw [hbefore, Multiset.map_cons, Multiset.map_cons, same]
  · intro j hj hlive
    rcases Multiset.mem_cons.1 hj with rfl | hj
    · exact coherent hlive
    · exact h.coherent j (hbefore ▸ Multiset.mem_cons_of_mem hj) hlive
  · cases hid : i'.awaited? with
    | none =>
      rw [Multiset.filterMap_cons_none _ _ hid]
      exact Multiset.nodup_of_le hothers_awaited hawaited
    | some id =>
      rw [Multiset.filterMap_cons_some _ _ _ hid, Multiset.nodup_cons]
      refine ⟨fun hmem => ?_, Multiset.nodup_of_le hothers_awaited hawaited⟩
      rcases awaited id hid with hi | ⟨hlt, _⟩
      · rw [Multiset.filterMap_cons_some _ _ _ hi, Multiset.nodup_cons] at hawaited
        exact hawaited.1 hmem
      · exact absurd (hawaited_le id (Multiset.subset_of_le hothers_awaited hmem))
          (Nat.not_le.2 hlt)
  · intro id hid
    rcases hnow id hid with hid | ⟨_, hle⟩
    · exact (hawaited_le id hid).trans last
    · exact hle
  · intro save hsave hhost
    obtain ⟨hnot, hle⟩ := h.save save (saveInFlight ▸ hsave) hhost
    rw [Moment.awaited, hbefore] at hnot
    refine ⟨fun hid => ?_, hle.trans last⟩
    rcases hnow _ hid with hid | ⟨hlt, _⟩
    · exact hnot hid
    · exact absurd hle (Nat.not_le.2 hlt)

/-- The script whose turn it is is as it should be. -/
theorem coherent_of_turn {s : Session} {ran rest : List Interpreter} {i : Interpreter}
    (h : Registry ⟨s, ran, i :: rest⟩) : i.terminated = false → i.Coherent :=
  h.coherent i (scripts_turn s ran i rest ▸ Multiset.mem_cons_self _ _)

/-- A step of a script whose turn it is. -/
theorem step {s : Session} {ran rest : List Interpreter} {i : Interpreter}
    (h : Registry ⟨s, ran, i :: rest⟩) :
    Registry ⟨(i.step s project).2.2, ran, (i.step s project).2.1 :: rest⟩ := by
  obtain ⟨hgoes, hcoherent⟩ : i.GoesTo project s (i.step s project).2 :=
    Interpreter.goesTo_step h.coherent_of_turn
  refine h.of_turn hgoes.id_eq hcoherent hgoes.recruits hgoes.saveInFlight_eq ?_ ?_
  · rcases hgoes.lastRequestId_cases with ⟨hlast, _⟩ | ⟨hlast, _⟩ <;> omega
  · intro id hid
    rcases hgoes.lastRequestId_cases with ⟨_, hold⟩ | ⟨hlast, _, hnew⟩
    · exact .inl (hold id hid)
    · cases hnew.symm.trans hid
      exact .inr ⟨Nat.lt_succ_self _, hlast.ge⟩

/-- Every passage keeps the registry. -/
theorem passage (h : m.Registry) (next : Next project inputs collects m m') : m'.Registry := by
  cases next with
  | quiet quiet => exact h.of_quiet quiet
  | collect s _ =>
    refine h.of_scripts_eq rfl rfl ?_ fun _ hs _ => .inl hs
    simp [still, Session.modifyPlatform]
  | collectSave s =>
    unfold Session.collectSave
    split
    · exact h
    · split
      · exact h
      · refine h.of_scripts_eq rfl rfl ?_ fun save hs _ => by cases hs
        dsimp only [still]
        split <;> exact le_rfl
  | windows s _ => exact h.of_scripts_eq rfl rfl le_rfl fun _ hs _ => .inl hs
  | step s ran i rest => exact h.step
  | sendScheduledSave s =>
    unfold Session.sendScheduledSave
    split
    · exact h
    · split
      · exact h
      · dsimp only
        split
        · refine h.of_scripts_eq rfl rfl ?_ fun save hs hhost => ?_
          · simp [still, Session.sendSave, Session.modifyWorld]
          · cases hs
            cases hhost
        · exact h.of_scripts_eq rfl rfl le_rfl fun _ hs _ => .inl hs
  | requestSave s =>
    unfold Session.requestSave
    split
    · exact h
    · split
      · exact h
      · next bytes _ =>
        have hlast : s.platform.lastRequestId + 1 = (Platform.saveProgress
            s.platform.nextRequestId.2 s.platform.nextRequestId.1 bytes).lastRequestId :=
          (Platform.lastRequestId_saveProgress s.platform.nextRequestId.2 _ _).symm
        refine h.of_scripts_eq rfl rfl ?_ fun save hs _ => .inr ?_
        · exact (Nat.le_succ _).trans hlast.le
        · cases hs
          exact ⟨Nat.lt_succ_self _, hlast.le⟩
  | deliver s a asked => exact h.of_scripts_eq rfl rfl le_rfl fun _ hs _ => .inl hs
  | ask s unsaved =>
    refine h.of_scripts_eq rfl rfl ?_ fun _ hs _ => .inl hs
    simp [still, Session.modifyPlatform]

end Moment.Registry

namespace Moment

/-- Whether it is the turn of the script with an id. -/
def IsTurnOf (m : Moment) (id : Nat) : Prop := ∃ i rest, m.turn = i :: rest ∧ i.id = id

theorem not_isTurnOf_still (s : Session) (id : Nat) : ¬ (still s).IsTurnOf id := by
  rintro ⟨i, rest, h, _⟩
  cases h

/-- Where scripts are only started and dropped, one that is not new was there before. -/
theorem mem_scripts_of_le {m m' : Moment} {started : List Interpreter}
    (hstarted : StartedBetween m.session.world.lastInterpreterId
      m'.session.world.lastInterpreterId started) (hle : m'.scripts ≤ m.scripts + ↑started)
    {i : Interpreter} (hi : i ∈ m'.scripts) (old : i.id ≤ m.session.world.lastInterpreterId) :
    i ∈ m.scripts := by
  rcases Multiset.mem_add.1 (Multiset.subset_of_le hle hi) with hi | hi
  · exact hi
  · exact absurd (hstarted.bounds i (Multiset.mem_coe.1 hi)).1 (Nat.not_lt.2 old)

/-- A script that is there and whose turn it was not was there before, if it is not new. -/
theorem Next.mem_scripts (next : Next project inputs collects m m') (h : m.Registry) {id : Nat}
    (turn : ¬ m.IsTurnOf id) (old : id ≤ m.session.world.lastInterpreterId) :
    id ≤ m'.session.world.lastInterpreterId ∧ ∀ j ∈ m'.scripts, j.id = id → j ∈ m.scripts := by
  rcases next.recruits_or_step with ⟨started, hstarted, hle⟩ | ⟨s, ran, i, rest, rfl, rfl⟩
  · exact ⟨old.trans hstarted.le, fun j hj hid => mem_scripts_of_le hstarted hle hj (hid ▸ old)⟩
  · obtain ⟨hgoes, _⟩ : i.GoesTo project s (i.step s project).2 :=
      Interpreter.goesTo_step h.coherent_of_turn
    obtain ⟨started, hstarted, hle⟩ := hgoes.recruits
    refine ⟨old.trans hstarted.le, fun j hj hid => ?_⟩
    rw [Registry.scripts_turn] at hj ⊢
    rcases Multiset.mem_cons.1 hj with rfl | hj
    · exact absurd ⟨i, rest, rfl, hgoes.id_eq.symm.trans hid⟩ turn
    · refine Multiset.mem_cons_of_mem ?_
      rcases Multiset.mem_add.1 hj with hj | hj
      · exact Multiset.mem_add.2 (.inl hj)
      · rcases Multiset.mem_add.1 (Multiset.subset_of_le hle hj) with hj | hj
        · exact Multiset.mem_add.2 (.inr hj)
        · have hlt := (hstarted.bounds j (Multiset.mem_coe.1 hj)).1
          dsimp only at old
          omega

end Moment

/-! ## Beginnings -/

namespace Session

/-- A game without scripts, in which the host has no save in flight. -/
theorem registry_of_no_scripts {s : Session} (scripts : s.world.stage.scripts = 0)
    (save : s.world.saveInFlight = none) : (Moment.still s).Registry := by
  have hnone : (Moment.still s).scripts = 0 := by
    simp [Moment.scripts, Moment.off, Moment.still, scripts]
  refine ⟨?_, ?_, ?_, ?_, ?_, fun s' hs => ?_⟩
  · simp [hnone]
  · simp [hnone]
  · simp [hnone]
  · simp [Moment.awaited, hnone]
  · simp [Moment.awaited, hnone]
  · cases save.symm.trans hs

theorem registry_of_start {w : World} {seed : UInt64} (h : World.start project seed = .ok w)
    (platform : Platform) : (Moment.still ⟨w, platform⟩).Registry := by
  obtain ⟨stage, hstage, rfl⟩ := World.exists_enter h
  have hempty : stage.scripts = 0 := by
    unfold Stage.enter at hstage
    split at hstage
    · cases hstage
    · obtain rfl := Except.ok.inj hstage
      rfl
  have hfresh : (Moment.still ⟨.ofProgress (.fresh stage) seed, platform⟩).Registry :=
    registry_of_no_scripts hempty rfl
  exact hfresh.of_quiet (.still (World.starts_refreshPages _).quiet (.refl _))

/-- A game that goes on: who waited for a request does not wait any more. -/
theorem registry_of_resume {s : Session} (h : (Moment.still s).Registry) (seed : UInt64)
    (platform : Platform) :
    (Moment.still ⟨.resume s.world.toProgress seed, platform⟩).Registry := by
  have hscripts : (Moment.still ⟨.resume s.world.toProgress seed, platform⟩).scripts =
      (Moment.still s).scripts.map Interpreter.forgetRequest := by
    simp [Moment.scripts, Moment.off, Moment.still, Stage.scripts, World.resume,
      World.ofProgress, Stage.forgetRequests]
  have hawaited :
      (Moment.still ⟨.resume s.world.toProgress seed, platform⟩).awaited = 0 := by
    rw [Moment.awaited, hscripts, Multiset.eq_zero_iff_forall_notMem]
    intro id hid
    obtain ⟨i, hi, hid⟩ := (Multiset.mem_filterMap _ _).1 hid
    obtain ⟨j, _, rfl⟩ := Multiset.mem_map.1 hi
    rw [j.awaited?_forgetRequest] at hid
    cases hid
  refine ⟨?_, ?_, ?_, ?_, ?_, fun save hs => by cases hs⟩
  · simpa [hscripts, Interpreter.id_forgetRequest] using h.ids
  · rw [hscripts]
    intro i hi
    obtain ⟨j, hj, rfl⟩ := Multiset.mem_map.1 hi
    rw [j.id_forgetRequest]
    exact h.ids_le j hj
  · rw [hscripts]
    intro i hi hlive
    obtain ⟨j, hj, rfl⟩ := Multiset.mem_map.1 hi
    rw [j.terminated_forgetRequest] at hlive
    exact (h.coherent j hj hlive).forgetRequest
  · simp [hawaited]
  · simp [hawaited]

/-- Along a story the registry is kept. -/
theorem registry_story {s : Session} (h : (Moment.still s).Registry) (acts : List Act) :
    ∀ m ∈ .still s :: story project s acts, m.Registry :=
  (trail_after project s acts).invariant h fun _ _ hnext h => h.passage hnext

theorem registry_after {s : Session} (h : (Moment.still s).Registry) (acts : List Act) :
    (Moment.still (s.after project acts)).Registry :=
  registry_story h acts _ (trail_after project s acts).last_mem

theorem Begins.registry {s : Session} (h : Begins project s) : (Moment.still s).Registry := by
  induction h with
  | new seed host started => exact registry_of_start started _
  | loaded _ acts seed host ih => exact registry_of_resume (registry_after ih acts) seed _

end Session

end Adventure
