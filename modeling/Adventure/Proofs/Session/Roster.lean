import Adventure.Proofs.Session.Counts
import Adventure.Proofs.Session.Openings
import Adventure.Proofs.Session.Turns

/-!
# The roster

Scripts and routes are listed apart, each list in the order in which they were started.  In a tick
both lists are taken off the stage, run and put back, while scripts set routes and change the room;
`Session.Round` says what becomes of the listed ones.  Ids are counted without a bound in a
`Roster`; a `KeptRoster` says the same of them in the 32 bits that they have, where the count fits.
-/

namespace Adventure

open Moment (Line Works)
open Session (Act)

variable {project : Project}

/-! ## Lists of scripts -/

/-- Whether two scripts run for the same event of the same room. -/
def Interpreter.SharesEvent (i j : Interpreter) : Prop :=
  (i.kind = .event ∨ i.kind = .parallel) ∧ (j.kind = .event ∨ j.kind = .parallel) ∧
    i.mapId = j.mapId ∧ i.roomId = j.roomId ∧ i.eventId = j.eventId

/-- How scripts and routes are listed, with ids up to the last one that was given. -/
structure Lineup (last : Nat) (scripts routes : List Interpreter) : Prop where
  ids : ((scripts ++ routes).map (·.id)).Nodup
  ids_le : ∀ i ∈ scripts ++ routes, i.id ≤ last
  inOrder : scripts.Pairwise fun i j => i.id < j.id
  routesInOrder : routes.Pairwise fun r q => r.id < q.id
  kinds : ∀ i ∈ scripts, i.kind ≠ .route
  routeKinds : ∀ r ∈ routes, r.kind = .route ∧ r.route.isSome = true
  events : scripts.Pairwise fun i j => ¬ i.SharesEvent j
  characters : routes.Pairwise fun r q => r.routeCharacter? ≠ q.routeCharacter?

namespace Interpreter

variable {l l' : List Interpreter}

theorem forall_of_origins (h : (l'.map origin).Sublist (l.map origin)) (P : Origin → Prop)
    (hl : ∀ i ∈ l, P i.origin) : ∀ i ∈ l', P i.origin := by
  intro i hi
  obtain ⟨j, hj, heq⟩ := List.mem_map.1 (h.subset (List.mem_map_of_mem hi))
  exact heq ▸ hl j hj

theorem pairwise_of_origins (h : (l'.map origin).Sublist (l.map origin))
    (R : Origin → Origin → Prop) (hl : l.Pairwise fun i j => R i.origin j.origin) :
    l'.Pairwise fun i j => R i.origin j.origin :=
  List.pairwise_map.1 ((List.pairwise_map.2 hl).sublist h)

end Interpreter

namespace Lineup

variable {last last' : Nat} {scripts scripts' routes routes' : List Interpreter}

/-- Scripts go on, and some are dropped. -/
theorem of_sublist (h : Lineup last scripts routes) (le : last ≤ last')
    (hscripts : (scripts'.map Interpreter.origin).Sublist (scripts.map Interpreter.origin))
    (hroutes : (routes'.map Interpreter.origin).Sublist (routes.map Interpreter.origin)) :
    Lineup last' scripts' routes' := by
  have hall : ((scripts' ++ routes').map Interpreter.origin).Sublist
      ((scripts ++ routes).map Interpreter.origin) := by
    simpa using hscripts.append hroutes
  refine ⟨?_, ?_, ?_, ?_, ?_, ?_, ?_, ?_⟩
  · have hids :
        ∀ l : List Interpreter, l.map (·.id) = (l.map Interpreter.origin).map Origin.id := by
      simp [Interpreter.origin, Function.comp_def]
    rw [hids]
    exact (hids _ ▸ h.ids).sublist (hall.map Origin.id)
  · exact fun i hi =>
      (Interpreter.forall_of_origins hall (fun o => o.id ≤ last) h.ids_le i hi).trans le
  · exact Interpreter.pairwise_of_origins hscripts (fun o p => o.id < p.id) h.inOrder
  · exact Interpreter.pairwise_of_origins hroutes (fun o p => o.id < p.id) h.routesInOrder
  · exact Interpreter.forall_of_origins hscripts (fun o => o.kind ≠ .route) h.kinds
  · exact Interpreter.forall_of_origins hroutes
      (fun o => o.kind = .route ∧ o.route.isSome = true) h.routeKinds
  · exact Interpreter.pairwise_of_origins hscripts (fun o p => ¬
      ((o.kind = .event ∨ o.kind = .parallel) ∧ (p.kind = .event ∨ p.kind = .parallel) ∧
        o.mapId = p.mapId ∧ o.roomId = p.roomId ∧ o.eventId = p.eventId)) h.events
  · exact Interpreter.pairwise_of_origins hroutes
      (fun o p => o.route.map (·.character) ≠ p.route.map (·.character)) h.characters

theorem nodup_insert (first more : List Interpreter) {i : Interpreter}
    (nodup : ((first ++ more).map (·.id)).Nodup) (le : ∀ j ∈ first ++ more, j.id ≤ last)
    (id : i.id = last + 1) : ((first ++ i :: more).map (·.id)).Nodup := by
  have hperm : ((first ++ i :: more).map (·.id)).Perm ((i :: (first ++ more)).map (·.id)) :=
    List.perm_middle.map _
  rw [hperm.nodup_iff, List.map_cons, List.nodup_cons]
  refine ⟨fun hmem => ?_, nodup⟩
  obtain ⟨j, hj, heq⟩ := List.mem_map.1 hmem
  have hle := le j hj
  omega

/-- A script is started. -/
theorem addScript (h : Lineup last scripts routes) {i : Interpreter} (id : i.id = last + 1)
    (kind : i.kind ≠ .route) (alone : ∀ j ∈ scripts, ¬ j.SharesEvent i) :
    Lineup (last + 1) (scripts ++ [i]) routes := by
  have hle : ∀ j ∈ scripts, j.id < i.id := fun j hj => by
    have hj := h.ids_le j (List.mem_append_left _ hj)
    omega
  refine ⟨?_, ?_, ?_, h.routesInOrder, ?_, h.routeKinds, ?_, h.characters⟩
  · simpa using nodup_insert scripts routes h.ids h.ids_le id
  · intro j hj
    simp only [List.append_assoc, List.mem_append, List.mem_singleton] at hj
    rcases hj with hj | rfl | hj
    · exact (h.ids_le j (List.mem_append_left _ hj)).trans (Nat.le_succ last)
    · exact id.le
    · exact (h.ids_le j (List.mem_append_right _ hj)).trans (Nat.le_succ last)
  · exact List.pairwise_append.2 ⟨h.inOrder, List.pairwise_singleton _ _, by simpa using hle⟩
  · simpa [or_imp, forall_and] using ⟨h.kinds, kind⟩
  · exact List.pairwise_append.2 ⟨h.events, List.pairwise_singleton _ _, by simpa using alone⟩

/-- A route is set, in place of the one that its character followed. -/
theorem setRoute (h : Lineup last scripts routes) {r : Interpreter} (id : r.id = last + 1)
    (kind : r.kind = .route) (route : r.route.isSome = true) :
    Lineup (last + 1) scripts
      (routes.filter (fun q => q.routeCharacter? != r.routeCharacter?) ++ [r]) := by
  have hkept : (routes.filter fun q => q.routeCharacter? != r.routeCharacter?).Sublist routes :=
    List.filter_sublist
  generalize hfiltered :
    (routes.filter fun q => q.routeCharacter? != r.routeCharacter?) = kept at hkept
  have hothers := h.of_sublist le_rfl (List.Sublist.refl _) (hkept.map Interpreter.origin)
  refine ⟨?_, ?_, h.inOrder, ?_, h.kinds, ?_, h.events, ?_⟩
  · have hids := nodup_insert (scripts ++ kept) [] (by simpa using hothers.ids)
      (by simpa using hothers.ids_le) id
    simpa using hids
  · intro j hj
    rw [← List.append_assoc] at hj
    rcases List.mem_append.1 hj with hj | hj
    · exact (hothers.ids_le j hj).trans (Nat.le_succ last)
    · exact List.mem_singleton.1 hj ▸ id.le
  · refine List.pairwise_append.2 ⟨hothers.routesInOrder, List.pairwise_singleton _ _, ?_⟩
    intro q hq j hj
    obtain rfl := List.mem_singleton.1 hj
    have hq := hothers.ids_le q (List.mem_append_right _ hq)
    omega
  · intro q hq
    rcases List.mem_append.1 hq with hq | hq
    · exact hothers.routeKinds q hq
    · exact List.mem_singleton.1 hq ▸ ⟨kind, route⟩
  · refine List.pairwise_append.2 ⟨hothers.characters, List.pairwise_singleton _ _, ?_⟩
    intro q hq j hj
    obtain rfl := List.mem_singleton.1 hj
    rw [← hfiltered] at hq
    simpa using (List.mem_filter.1 hq).2

end Lineup

/-! ## Worlds -/

/-- The scripts on the stage are listed, and none of them has ended. -/
structure World.Roster (w : World) : Prop
    extends Lineup w.lastInterpreterId w.stage.interpreters w.stage.routes where
  live : ∀ i ∈ w.stage.interpreters ++ w.stage.routes, i.terminated = false

/-- The ids of the scripts on the stage are exact in 32 bits, and in order there. -/
structure World.KeptRoster (w : World) : Prop where
  exact : ∀ i ∈ w.stage.interpreters ++ w.stage.routes, (keptId i.id).toNat = i.id
  ids : ((w.stage.interpreters ++ w.stage.routes).map fun i => keptId i.id).Nodup
  ids_le : ∀ i ∈ w.stage.interpreters ++ w.stage.routes, keptId i.id ≤ keptId w.lastInterpreterId
  inOrder : w.stage.interpreters.Pairwise fun i j => keptId i.id < keptId j.id
  routesInOrder : w.stage.routes.Pairwise fun r q => keptId r.id < keptId q.id

namespace World

variable {w w' : World} {scripts : List Interpreter}

theorem Stir.interpreters (stir : w.Stir w') :
    w'.stage.interpreters.Sublist w.stage.interpreters := by
  cases stir with
  | aside same => rw [same.stage.interpreters]
  | sets r id kind route live fresh last stage =>
    rw [stage.interpreters]
    exact .refl _
  | enters roomId last stage =>
    rw [stage.interpreters]
    exact List.filter_sublist

theorem Stir.last_le (stir : w.Stir w') : w.lastInterpreterId ≤ w'.lastInterpreterId := by
  cases stir with
  | aside same => exact same.last.ge
  | sets r id kind route live fresh last stage => exact (Nat.le_succ _).trans last.ge
  | enters roomId last stage => exact last.ge

/-- A stir keeps the scripts listed, also those that are off the stage. -/
theorem Stir.lineup (stir : w.Stir w') (h : Lineup w.lastInterpreterId scripts w.stage.routes) :
    Lineup w'.lastInterpreterId scripts w'.stage.routes := by
  cases stir with
  | aside same => rwa [same.last, same.stage.routes]
  | sets r id kind route live fresh last stage =>
    rw [last, stage.routes]
    exact h.setRoute id kind route
  | enters roomId last stage =>
    rw [last, stage.routes]
    exact h.of_sublist le_rfl (.refl _) (List.filter_sublist.map _)

theorem Stir.live (stir : w.Stir w') (h : ∀ r ∈ w.stage.routes, r.terminated = false) :
    ∀ r ∈ w'.stage.routes, r.terminated = false := by
  intro r hr
  cases stir with
  | aside same => exact h r (same.stage.routes ▸ hr)
  | sets new id kind route live fresh last stage =>
    rw [stage.routes] at hr
    rcases List.mem_append.1 hr with hr | hr
    · exact h r (List.mem_filter.1 hr).1
    · exact List.mem_singleton.1 hr ▸ live
  | enters roomId last stage =>
    rw [stage.routes] at hr
    exact h r (List.mem_filter.1 hr).1

namespace Stirred

theorem interpreters (stirred : w.Stirred w') :
    w'.stage.interpreters.Sublist w.stage.interpreters := by
  induction stirred with
  | refl => exact .refl _
  | tail _ stir ih => exact stir.interpreters.trans ih

theorem last_le (stirred : w.Stirred w') : w.lastInterpreterId ≤ w'.lastInterpreterId := by
  induction stirred with
  | refl => exact le_rfl
  | tail _ stir ih => exact ih.trans stir.last_le

theorem lineup (stirred : w.Stirred w')
    (h : Lineup w.lastInterpreterId scripts w.stage.routes) :
    Lineup w'.lastInterpreterId scripts w'.stage.routes := by
  induction stirred with
  | refl => exact h
  | tail _ stir ih => exact stir.lineup ih

theorem live (stirred : w.Stirred w') (h : ∀ r ∈ w.stage.routes, r.terminated = false) :
    ∀ r ∈ w'.stage.routes, r.terminated = false := by
  induction stirred with
  | refl => exact h
  | tail _ stir ih => exact stir.live ih

end Stirred

namespace Roster

theorem stir (h : w.Roster) (stir : w.Stir w') : w'.Roster := by
  refine ⟨?_, fun i hi => ?_⟩
  · exact (stir.lineup h.toLineup).of_sublist le_rfl (stir.interpreters.map _) (.refl _)
  · rcases List.mem_append.1 hi with hi | hi
    · exact h.live i (List.mem_append_left _ (stir.interpreters.subset hi))
    · exact stir.live (fun r hr => h.live r (List.mem_append_right _ hr)) i hi

theorem calm (h : w.Roster) (calm : w.Calm w') : w'.Roster := h.stir (.aside calm.toSameCast)

/-- While the count fits, the ids are the same in 32 bits. -/
theorem kept (h : w.Roster) (fits : w.lastInterpreterId < 2 ^ 32) : w.KeptRoster := by
  have hfits : ∀ i ∈ w.stage.interpreters ++ w.stage.routes, i.id < 2 ^ 32 :=
    fun i hi => (h.ids_le i hi).trans_lt fits
  refine ⟨fun i hi => toNat_keptId (hfits i hi), ?_, fun i hi => keptId_le fits (h.ids_le i hi),
    ?_, ?_⟩
  · have hids : ((w.stage.interpreters ++ w.stage.routes).map (keptId ∘ (·.id))).Nodup := by
      rw [← List.map_map]
      refine h.ids.map_on fun id hid id' hid' heq => ?_
      obtain ⟨i, hi, rfl⟩ := List.mem_map.1 hid
      obtain ⟨j, hj, rfl⟩ := List.mem_map.1 hid'
      exact keptId_injOn (hfits i hi) (hfits j hj) heq
    exact hids
  · exact h.inOrder.imp_of_mem fun _ hj lt => keptId_lt (hfits _ (List.mem_append_left _ hj)) lt
  · exact h.routesInOrder.imp_of_mem fun _ hq lt =>
      keptId_lt (hfits _ (List.mem_append_right _ hq)) lt

/-- An event that is started has no script so far. -/
theorem opens (h : w.Roster) (opens : w.Opens w') : w'.Roster := by
  cases opens with
  | aside calm => exact h.calm calm
  | starts kind eventId script isScript alone last fade stage =>
    have hlive : ∀ j ∈ w.stage.interpreters, j.terminated = false :=
      fun j hj => h.live j (List.mem_append_left _ hj)
    refine ⟨?_, ?_⟩
    · rw [last, stage.interpreters, stage.routes]
      refine h.addScript rfl isScript fun j hj hshares => ?_
      obtain ⟨_, hkind, hmap, hroom, hevent⟩ := hshares
      have hrunning : w.stage.isRunning eventId = true := by
        refine List.any_eq_true.2 ⟨j, hj, ?_⟩
        have hin : j.isIn w.stage.mapId w.stage.roomId = true := by
          simpa [Interpreter.isIn, Interpreter.start] using And.intro hmap hroom
        have hsame : (j.eventId == eventId) = true := beq_iff_eq.2 hevent
        simp [hin, hsame, hlive j hj]
      exact absurd ((alone hkind).symm.trans hrunning) Bool.false_ne_true
    · intro i hi
      rw [stage.interpreters, stage.routes, Stage.addInterpreter] at hi
      simp only [List.append_assoc, List.mem_append, List.mem_singleton] at hi
      rcases hi with hi | rfl | hi
      · exact hlive i hi
      · rfl
      · exact h.live i (List.mem_append_right _ hi)

theorem opened (h : w.Roster) (opened : w.Opened w') : w'.Roster := by
  induction opened with
  | refl => exact h
  | tail _ opens ih => exact ih.opens opens

end Roster

end World

/-! ## Turns and merges -/

namespace Session

/-- The session while its scripts are off the stage. -/
def withoutInterpreters (s : Session) : Session :=
  s.modifyWorld fun w => w.modifyStage fun stage => { stage with interpreters := [] }

/-- The session while its routes are off the stage. -/
def withoutRoutes (s : Session) : Session :=
  s.modifyWorld fun w => w.modifyStage fun stage => { stage with routes := [] }

/-- The scripts after their turns, and the session that they leave. -/
def interpretersRan (s : Session) (project : Project) : List Interpreter × Session :=
  Interpreter.updateAll project s.world.stage.interpreters s.withoutInterpreters

/-- The routes after their turns, and the session that they leave. -/
def routesRan (s : Session) (project : Project) : List Interpreter × Session :=
  Interpreter.updateAll project s.world.stage.routes s.withoutRoutes

theorem runInterpreters_eq (s : Session) :
    s.runInterpreters project = (s.interpretersRan project).2.modifyWorld fun w =>
      w.modifyStage fun stage => stage.mergeInterpreters (s.interpretersRan project).1 := rfl

theorem runRoutes_eq (s : Session) :
    s.runRoutes project = (s.routesRan project).2.modifyWorld fun w =>
      w.modifyStage fun stage => stage.mergeRoutes (s.routesRan project).1 := rfl

variable {s : Session}

theorem origin_of_mem_zip {l l' : List Interpreter}
    (h : l'.map Interpreter.origin = l.map Interpreter.origin) :
    ∀ p ∈ l.zip l', p.2.origin = p.1.origin := by
  intro p hp
  obtain ⟨k, hk⟩ := List.mem_iff_getElem?.1 hp
  obtain ⟨hfst, hsnd⟩ := List.getElem?_zip_eq_some.1 hk
  have hget := congrArg (·[k]?) h
  simpa [List.getElem?_map, hfst, hsnd] using hget

section Interpreters

variable (project) (fit : ∀ i ∈ s.world.stage.interpreters, i.terminated = false → i.Coherent)

include fit

theorem worked_interpreters :
    Moment.Worked ⟨s.withoutInterpreters, [], s.world.stage.interpreters⟩
      ⟨(s.interpretersRan project).2, (s.interpretersRan project).1, []⟩ :=
  Interpreter.worked_updateAll s.withoutInterpreters fit

theorem origins_interpreters :
    (s.interpretersRan project).1.map Interpreter.origin =
      s.world.stage.interpreters.map Interpreter.origin := by
  simpa [Moment.off] using (worked_interpreters project fit).origins

/-- No script is started while scripts run, so those that run are all that there are. -/
theorem interpreters_runInterpreters :
    (s.runInterpreters project).world.stage.interpreters =
      (s.interpretersRan project).1.filter fun i => !i.terminated := by
  have hstage := (worked_interpreters project fit).world.interpreters
  have hempty : (s.interpretersRan project).2.world.stage.interpreters = [] :=
    List.sublist_nil.1 hstage
  rw [runInterpreters_eq]
  simp [modifyWorld, World.modifyStage, Stage.mergeInterpreters, hempty]

theorem roster_runInterpreters (h : s.world.Roster) :
    (s.runInterpreters project).world.Roster := by
  have hworked := worked_interpreters project fit
  have hlineup : Lineup (s.interpretersRan project).2.world.lastInterpreterId
      s.world.stage.interpreters (s.interpretersRan project).2.world.stage.routes :=
    hworked.world.lineup h.toLineup
  have hroutes : ∀ r ∈ (s.interpretersRan project).2.world.stage.routes, r.terminated = false :=
    hworked.world.live fun r hr => h.live r (List.mem_append_right _ hr)
  refine ⟨?_, fun i hi => ?_⟩
  · rw [interpreters_runInterpreters project fit]
    refine hlineup.of_sublist le_rfl ?_ (.refl _)
    rw [← origins_interpreters project fit]
    exact List.filter_sublist.map _
  · rw [interpreters_runInterpreters project fit] at hi
    rcases List.mem_append.1 hi with hi | hi
    · simpa using (List.mem_filter.1 hi).2
    · exact hroutes i hi

end Interpreters

section Routes

variable (project) (fit : ∀ r ∈ s.world.stage.routes, r.terminated = false → r.Coherent)

include fit

theorem worked_routes :
    Moment.Worked ⟨s.withoutRoutes, [], s.world.stage.routes⟩
      ⟨(s.routesRan project).2, (s.routesRan project).1, []⟩ :=
  Interpreter.worked_updateAll s.withoutRoutes fit

theorem origins_routes :
    (s.routesRan project).1.map Interpreter.origin =
      s.world.stage.routes.map Interpreter.origin := by
  simpa [Moment.off] using (worked_routes project fit).origins

variable (h : s.world.Roster)

include h

/-- Routes neither set routes nor change the room. -/
theorem sameCast_routes : s.withoutRoutes.world.SameCast (s.routesRan project).2.world :=
  (worked_routes project fit).routes fun r hr => by
    simp only [Moment.off, List.nil_append] at hr
    exact (h.routeKinds r hr).1

theorem routes_runRoutes :
    (s.runRoutes project).world.stage.routes =
      (s.routesRan project).1.filter fun r => !r.terminated := by
  have hempty : (s.routesRan project).2.world.stage.routes = [] :=
    (sameCast_routes project fit h).stage.routes
  rw [runRoutes_eq]
  simp [modifyWorld, World.modifyStage, Stage.mergeRoutes, hempty]

theorem roster_runRoutes : (s.runRoutes project).world.Roster := by
  have hsame := sameCast_routes project fit h
  have hinterpreters :
      (s.runRoutes project).world.stage.interpreters = s.world.stage.interpreters :=
    hsame.stage.interpreters
  refine ⟨?_, fun i hi => ?_⟩
  · rw [routes_runRoutes project fit h, hinterpreters]
    refine h.of_sublist hsame.last.ge (.refl _) ?_
    rw [← origins_routes project fit]
    exact List.filter_sublist.map _
  · rw [routes_runRoutes project fit h, hinterpreters] at hi
    rcases List.mem_append.1 hi with hi | hi
    · exact h.live i (List.mem_append_left _ hi)
    · simpa using (List.mem_filter.1 hi).2

end Routes

/-! ## Ticks -/

theorem sameCast_resumeMusic (s : Session) : s.world.SameCast s.resumeMusic.world := by
  unfold resumeMusic
  split
  · exact .refl _
  · exact .of_stage_eq rfl rfl

theorem sameCast_collectSave (s : Session) : s.world.SameCast s.collectSave.world := by
  obtain ⟨save, hworld⟩ := Moment.collectSave_world s
  exact .of_stage_eq (by rw [hworld]) (by rw [hworld])

theorem sameCast_afterWindows (project : Project) (s : Session) (input : Input) :
    s.world.SameCast (s.afterWindows project input).world := by
  have hanswers : s.world.SameCast (s.withAnswers project).world := s.sameCast_resumeMusic
  exact (hanswers.trans (sameCast_collectSave _)).trans (.of_stage_eq rfl rfl)

/-- Before scripts run in a tick, scripts are started. -/
theorem opened_beforeScripts (project : Project) (s : Session) (input : Input) :
    ∃ w, s.world.SameCast w ∧ w.Opened (s.beforeScripts project input).world := by
  refine ⟨_, ?_, opened_startScripts _ _⟩
  exact (s.sameCast_afterWindows project input).trans (.of_stage_eq rfl rfl)

theorem sameCast_sendScheduledSave (s : Session) : s.world.SameCast s.sendScheduledSave.world := by
  obtain ⟨save, scheduled, hworld⟩ := Moment.sendScheduledSave_world s
  exact .of_stage_eq (by rw [hworld]) (by rw [hworld])

theorem sameCast_requestSave (s : Session) : s.world.SameCast s.requestSave.2.world := by
  obtain ⟨save, hworld⟩ := Moment.requestSave_world s
  exact .of_stage_eq (by rw [hworld]) (by rw [hworld])

/-- After scripts have run, the stale ones are dropped, and what follows does not
concern scripts. -/
theorem sameCast_update (project : Project) (s : Session) (input : Input) :
    (((s.beforeScripts project input).runScripts project).world.modifyStage
      Stage.dropStale).SameCast (s.update project input).world := by
  have hafter : (s.afterScripts project input).world =
      ((s.beforeScripts project input).runScripts project).world.modifyStage
        fun stage => stage.dropStale.updateCharacters := rfl
  generalize ((s.beforeScripts project input).runScripts project).world = w at hafter ⊢
  have hsettle : (w.modifyStage Stage.dropStale).SameCast (s.afterScripts project input).world := by
    rw [hafter]
    exact ⟨⟨rfl, rfl, rfl, rfl⟩, rfl⟩
  have hsaves : (s.afterScripts project input).world.SameCast
      (s.afterSaves project input).world := by
    unfold afterSaves save
    dsimp only
    split
    · exact (sameCast_sendScheduledSave _).trans (sameCast_requestSave _)
    · exact sameCast_sendScheduledSave _
  rw [update_eq]
  exact (hsettle.trans hsaves).trans (.of_stage_eq rfl rfl)

/-- The scripts of other rooms that nobody has to wait for are dropped at the end of a tick. -/
theorem stir_settle (s : Session) (project : Project) (input : Input) :
    ((s.beforeScripts project input).runScripts project).world.Stir
      (s.update project input).world := by
  have hsame := s.sameCast_update project input
  generalize (s.beforeScripts project input).runScripts project = t at hsame ⊢
  exact .enters t.world.stage.roomId hsame.last hsame.stage

theorem registry_beforeScripts (h : (Moment.still s).Registry) (project : Project) (input : Input) :
    (Moment.still (s.beforeScripts project input)).Registry := by
  have hmusic : (Moment.still s.resumeMusic).Registry := h.of_quiet s.quiet_resumeMusic
  have hanswers : (Moment.still (s.withAnswers project)).Registry :=
    hmusic.passage (Moment.Next.collect s.resumeMusic trivial :
      Moment.Next project (fun _ => True) True _ _)
  have htrail :
      Moment.Trail project (fun _ => True) True _ _ (.still (s.beforeScripts project input)) :=
    s.trail_beforeScripts trivial
  exact htrail.invariant hanswers (fun _ _ next h => h.passage next) _ htrail.last_mem

theorem registry_runInterpreters (h : (Moment.still s).Registry) (project : Project) :
    (Moment.still (s.runInterpreters project)).Registry := by
  have htrail : Moment.Trail project (fun _ => True) True (.still s) _
      (.still (s.runInterpreters project)) :=
    trail_batch s.quiet_takeInterpreters fun t ran => t.quiet_mergeInterpreters ran
  exact htrail.invariant h (fun _ _ next h => h.passage next) _ htrail.last_mem

theorem registry_runRoutes (h : (Moment.still s).Registry) (project : Project) :
    (Moment.still (s.runRoutes project)).Registry := by
  have htrail : Moment.Trail project (fun _ => True) True (.still s) _
      (.still (s.runRoutes project)) :=
    trail_batch s.quiet_takeRoutes fun t ran => t.quiet_mergeRoutes ran
  exact htrail.invariant h (fun _ _ next h => h.passage next) _ htrail.last_mem

/-- The scripts on the stage are as they should be. -/
theorem fit_interpreters (h : (Moment.still s).Registry) :
    ∀ i ∈ s.world.stage.interpreters, i.terminated = false → i.Coherent := by
  intro i hi
  refine h.coherent i ?_
  simp [Moment.scripts, Moment.still, Moment.off, Stage.scripts, hi]

theorem fit_routes (h : (Moment.still s).Registry) :
    ∀ r ∈ s.world.stage.routes, r.terminated = false → r.Coherent := by
  intro r hr
  refine h.coherent r ?_
  simp [Moment.scripts, Moment.still, Moment.off, Stage.scripts, hr]

theorem roster_beforeScripts (h : s.world.Roster) (project : Project) (input : Input) :
    (s.beforeScripts project input).world.Roster := by
  obtain ⟨w, hsame, hopened⟩ := s.opened_beforeScripts project input
  exact (h.stir (.aside hsame)).opened hopened

theorem roster_update (h : s.world.Roster) (registry : (Moment.still s).Registry)
    (project : Project) (input : Input) : (s.update project input).world.Roster := by
  have hbefore := registry_beforeScripts registry project input
  have hscripts := roster_runInterpreters project (fit_interpreters hbefore)
    (roster_beforeScripts h project input)
  have hroutes := roster_runRoutes project
    (fit_routes (registry_runInterpreters hbefore project)) hscripts
  exact World.Roster.stir hroutes (s.stir_settle project input)

/-! ## Games -/

/-- Unless it transfers the player, the host can only start a script between ticks. -/
theorem opens_perform (project : Project) (s : Session) {act : Act}
    (noTick : ∀ input, act ≠ .tick input)
    (noTransfer : ∀ roomId t dir, act ≠ .transfer roomId t dir) :
    s.world.Opens (s.perform project act).world := by
  cases act with
  | tick input => exact absurd rfl (noTick input)
  | transfer roomId t dir => exact absurd rfl (noTransfer roomId t dir)
  | startEvent id => exact World.opens_startEvent _ id
  | startItem id => exact World.opens_startItem _ id
  | startCombine first second => exact World.opens_startCombine _ first second
  | startCommonEvent id => exact World.opens_startCommonEvent _ id
  | startHint => exact World.opens_startHint _
  | set memory inventory => exact .aside (.of_eq rfl rfl rfl)
  | requestSave =>
    obtain ⟨save, hworld⟩ := Moment.requestSave_world s
    exact .aside (.of_eq (by rw [perform, hworld]) (by rw [perform, hworld])
      (by rw [perform, hworld]))
  | answer a =>
    unfold perform
    dsimp only
    split <;> exact .aside (.refl _)
  | ask request unsaved => exact .aside (.refl _)
  | configure change silent => exact .aside (.refl _)

/-- Whatever the host does between ticks, it starts a script or stirs the stage, and the screen
fades to where it faded before. -/
theorem perform_cases (project : Project) (s : Session) {act : Act}
    (h : ∀ input, act ≠ .tick input) :
    s.world.Opens (s.perform project act).world ∨
      s.world.Stir (s.perform project act).world ∧
        (s.perform project act).world.screen.fade = s.world.screen.fade := by
  by_cases htransfer : ∃ roomId t dir, act = .transfer roomId t dir
  · obtain ⟨roomId, t, dir, rfl⟩ := htransfer
    unfold perform
    dsimp only
    split
    · next hw => exact .inr (World.stir_transfer hw)
    · exact .inl (.aside (.refl _))
  · push Not at htransfer
    exact .inl (opens_perform project s h htransfer)

theorem roster_perform (h : s.world.Roster) (registry : (Moment.still s).Registry) (act : Act) :
    (s.perform project act).world.Roster := by
  by_cases htick : ∃ input, act = .tick input
  · obtain ⟨input, rfl⟩ := htick
    exact roster_update h registry project input
  · rcases s.perform_cases project (not_exists.1 htick) with hopens | ⟨hstir, _⟩
    · exact h.opens hopens
    · exact h.stir hstir

theorem roster_after (h : s.world.Roster) (registry : (Moment.still s).Registry) (acts : List Act) :
    (s.after project acts).world.Roster := by
  induction acts generalizing s with
  | nil => exact h
  | cons act acts ih =>
    exact ih (roster_perform h registry act) (registry_after registry [act])

/-- A new game has no scripts. -/
theorem calm_of_start {w : World} {seed : UInt64} (h : World.start project seed = .ok w) :
    ∃ stage : Stage, stage.interpreters = [] ∧ stage.routes = [] ∧
      (World.ofProgress (.fresh stage) seed).Calm w := by
  obtain ⟨stage, hstage, rfl⟩ := World.exists_enter h
  have hempty : stage.interpreters = [] ∧ stage.routes = [] := by
    unfold Stage.enter at hstage
    split at hstage
    · cases hstage
    · obtain rfl := Except.ok.inj hstage
      exact ⟨rfl, rfl⟩
  exact ⟨stage, hempty.1, hempty.2, World.calm_refreshPages _ project⟩

theorem roster_of_start {w : World} {seed : UInt64} (h : World.start project seed = .ok w) :
    w.Roster := by
  obtain ⟨stage, hinterpreters, hroutes, hcalm⟩ := calm_of_start h
  have hfresh : (World.ofProgress (.fresh stage) seed).Roster := by
    refine ⟨?_, ?_⟩
    · show Lineup 0 stage.interpreters stage.routes
      rw [hinterpreters, hroutes]
      exact ⟨by simp, by simp, by simp, by simp, by simp, by simp, by simp, by simp⟩
    · show ∀ i ∈ stage.interpreters ++ stage.routes, i.terminated = false
      simp [hinterpreters, hroutes]
  exact hfresh.calm hcalm

/-- Scripts that go on in a loaded game are listed as they were. -/
theorem roster_of_resume {w : World} (h : w.Roster) (seed : UInt64) :
    (World.resume w.toProgress seed).Roster := by
  have horigins : ∀ l : List Interpreter, (l.map Interpreter.forgetRequest).map Interpreter.origin =
      l.map Interpreter.origin := by
    simp [Function.comp_def, Interpreter.origin_forgetRequest]
  refine ⟨?_, ?_⟩
  · refine h.of_sublist le_rfl ?_ ?_
    · exact (horigins w.stage.interpreters).symm ▸ .refl _
    · exact (horigins w.stage.routes).symm ▸ .refl _
  · intro i hi
    have hmap : i ∈ (w.stage.interpreters ++ w.stage.routes).map Interpreter.forgetRequest := by
      rw [List.map_append]
      exact hi
    obtain ⟨j, hj, rfl⟩ := List.mem_map.1 hmap
    rw [j.terminated_forgetRequest]
    exact h.live j hj

theorem Begins.roster {s : Session} (h : Begins project s) : s.world.Roster := by
  induction h with
  | new seed host started => exact roster_of_start started
  | loaded earlier acts seed host ih =>
    exact roster_of_resume (roster_after ih earlier.registry acts) seed

end Session

/-! ## Rounds -/

/-- What can be seen in a moment of the reason why a route is no longer there: its character follows
a newer one, or the player has left the room that it belongs to. -/
def Moment.Sheds (m : Moment) (r : Interpreter) : Prop :=
  (∃ q ∈ m.session.world.stage.routes, q.routeCharacter? = r.routeCharacter? ∧ r.id < q.id) ∨
    r.routeCharacter? ≠ some playerId ∧
      r.isIn m.session.world.stage.mapId m.session.world.stage.roomId = false

/-- How the scripts and routes of a session fare in a tick.  Each turn is told by the script before
and after it. -/
structure Session.Round (project : Project) (s : Session) (input : Input)
    (turns routeTurns : List (Interpreter × Interpreter)) : Prop where
  /-- Those that are listed have turns in this order, and then those that the tick starts. -/
  listed : s.world.stage.interpreters <+: turns.map (·.1)
  scripts : turns.map (·.1) = (s.beforeScripts project input).world.stage.interpreters
  run : ∃ t, Interpreter.Turns project (s.beforeScripts project input).withoutInterpreters turns t ∧
    (s.beforeScripts project input).runInterpreters project = t.modifyWorld fun w =>
      w.modifyStage fun stage => stage.mergeInterpreters (turns.map (·.2))
  /-- The routes that are left once scripts have had their turns come after them. -/
  routes : routeTurns.map (·.1) =
    ((s.beforeScripts project input).runInterpreters project).world.stage.routes
  runRoutes : ∃ t, Interpreter.Turns project
      ((s.beforeScripts project input).runInterpreters project).withoutRoutes routeTurns t ∧
    (s.beforeScripts project input).runScripts project = t.modifyWorld fun w =>
      w.modifyStage fun stage => stage.mergeRoutes (routeTurns.map (·.2))
  same : ∀ p ∈ turns ++ routeTurns, p.2.origin = p.1.origin
  stays : (s.update project input).world.stage.interpreters = (turns.map (·.2)).filter fun i =>
    !i.terminated && (i.isBlocking ||
      i.isIn (s.update project input).world.stage.mapId (s.update project input).world.stage.roomId)
  routesStay : (s.update project input).world.stage.routes = (routeTurns.map (·.2)).filter fun r =>
    !r.terminated && (r.routeCharacter? == some playerId ||
      r.isIn (s.update project input).world.stage.mapId (s.update project input).world.stage.roomId)
  shed : ∀ r ∈ s.world.stage.routes, r ∈ routeTurns.map (·.1) ∨
    ∃ m ∈ s.tickMoments project input, m.Sheds r

/-- A stir that takes a route off the stage sets another one or leaves its room. -/
theorem World.Stir.shed {w w' : World} (stir : w.Stir w') {r : Interpreter}
    (there : r ∈ w.stage.routes) (gone : r ∉ w'.stage.routes) :
    (∃ q ∈ w'.stage.routes, q.routeCharacter? = r.routeCharacter? ∧
        q.id = w.lastInterpreterId + 1) ∨
      r.routeCharacter? ≠ some playerId ∧ r.isIn w'.stage.mapId w'.stage.roomId = false := by
  cases stir with
  | aside same => exact absurd (same.stage.routes ▸ there) gone
  | sets q id kind route live fresh last stage =>
    refine .inl ⟨q, ?_, ?_, id⟩
    · rw [stage.routes]
      exact List.mem_append_right _ (List.mem_singleton.2 rfl)
    · by_contra hother
      refine gone ?_
      rw [stage.routes]
      refine List.mem_append_left _ (List.mem_filter.2 ⟨there, ?_⟩)
      simpa using Ne.symm hother
  | enters roomId last stage =>
    have hdropped : ¬ (r.routeCharacter? == some playerId ||
        r.isIn w'.stage.mapId w'.stage.roomId) = true := by
      intro hstays
      refine gone ?_
      rw [stage.routes]
      refine List.mem_filter.2 ⟨there, ?_⟩
      rwa [stage.mapId, stage.roomId] at hstays
    exact .inr (by simpa using hdropped)

namespace Session

variable {s : Session}

/-- A route that is no longer attached after the turns of scripts was shed at some time. -/
theorem sheds_of_gone (fit : ∀ i ∈ s.world.stage.interpreters, i.terminated = false → i.Coherent)
    {r : Interpreter} (there : r ∈ s.world.stage.routes) (old : r.id ≤ s.world.lastInterpreterId)
    (gone : r ∉ (s.interpretersRan project).2.world.stage.routes) :
    ∃ m ∈ Moment.turns project [] s.world.stage.interpreters s.withoutInterpreters,
      m.Sheds r := by
  have hline : Line (Works project) ⟨s.withoutInterpreters, [], s.world.stage.interpreters⟩ _
      ⟨(s.interpretersRan project).2, _, []⟩ := Moment.line_turns _ _ _
  obtain ⟨a, ha, b, hb, hworks, hthere, hgone⟩ :=
    hline.exists_cease (P := fun m => r ∈ m.session.world.stage.routes) there gone
  obtain ⟨hworked, hfit⟩ := hline.worked fit a ha
  refine ⟨b, hb, (hworks.stir hfit).shed hthere hgone |>.imp_left ?_⟩
  rintro ⟨q, hq, hcharacter, hid⟩
  have hlast : s.world.lastInterpreterId ≤ a.session.world.lastInterpreterId :=
    hworked.world.last_le
  exact ⟨q, hq, hcharacter, by omega⟩

/-- What the turns leave of either list. -/
theorem stay_runScripts (h : s.world.Roster) (registry : (Moment.still s).Registry)
    (project : Project) :
    (s.runScripts project).world.stage.interpreters =
        (s.interpretersRan project).1.filter (fun i => !i.terminated) ∧
      (s.runScripts project).world.stage.routes =
        ((s.runInterpreters project).routesRan project).1.filter fun r => !r.terminated := by
  have hfit := fit_interpreters registry
  have hfitRoutes := fit_routes (registry_runInterpreters registry project)
  have hroster := roster_runInterpreters project hfit h
  rw [runScripts_eq]
  refine ⟨?_, routes_runRoutes project hfitRoutes hroster⟩
  rw [← interpreters_runInterpreters project hfit]
  exact (sameCast_routes project hfitRoutes hroster).stage.interpreters

/-- At the end of a tick the stale ones are dropped from either list. -/
theorem stay_update (project : Project) (s : Session) (input : Input) :
    let t := (s.beforeScripts project input).runScripts project
    let w := (s.update project input).world
    w.stage.interpreters = t.world.stage.interpreters.filter (fun i =>
        i.isBlocking || i.isIn w.stage.mapId w.stage.roomId) ∧
      w.stage.routes = t.world.stage.routes.filter fun r =>
        r.routeCharacter? == some playerId || r.isIn w.stage.mapId w.stage.roomId := by
  have hsame := s.sameCast_update project input
  generalize (s.beforeScripts project input).runScripts project = t at hsame ⊢
  generalize (s.update project input).world = w at hsame ⊢
  have hmap : w.stage.mapId = t.world.stage.mapId := hsame.stage.mapId
  have hroom : w.stage.roomId = t.world.stage.roomId := hsame.stage.roomId
  dsimp only
  rw [hmap, hroom]
  exact ⟨hsame.stage.interpreters, hsame.stage.routes⟩

/-- The turns of scripts are moments of the tick. -/
theorem mem_tickMoments_of_turns {input : Input} {m : Moment}
    (hm : m ∈ Moment.turns project [] (s.beforeScripts project input).world.stage.interpreters
      (s.beforeScripts project input).withoutInterpreters) : m ∈ s.tickMoments project input := by
  refine List.mem_cons_of_mem _ (List.mem_cons_of_mem _ (List.mem_append_left _ ?_))
  refine List.mem_append_right _ (List.mem_append_left _ (List.mem_append_left _ ?_))
  exact List.mem_cons_of_mem _ hm

/-- A route has a turn of its own, or it was shed while scripts had theirs. -/
theorem attached_or_shed (h : s.world.Roster) (registry : (Moment.still s).Registry)
    (project : Project) (input : Input) {r : Interpreter} (hr : r ∈ s.world.stage.routes) :
    r ∈ ((s.beforeScripts project input).runInterpreters project).world.stage.routes ∨
      ∃ m ∈ s.tickMoments project input, m.Sheds r := by
  have hbefore := registry_beforeScripts registry project input
  have hroster := roster_beforeScripts h project input
  obtain ⟨w, hsame, hopened⟩ := s.opened_beforeScripts project input
  have hattached : r ∈ (s.beforeScripts project input).world.stage.routes := by
    rw [hopened.routes, hsame.stage.routes]
    exact hr
  by_cases hleft :
    r ∈ ((s.beforeScripts project input).interpretersRan project).2.world.stage.routes
  · exact .inl hleft
  · have hold : r.id ≤ (s.beforeScripts project input).world.lastInterpreterId :=
      hroster.ids_le r (List.mem_append_right _ hattached)
    obtain ⟨m, hm, hsheds⟩ := sheds_of_gone (fit_interpreters hbefore) hattached hold hleft
    exact .inr ⟨m, mem_tickMoments_of_turns hm, hsheds⟩

theorem round_update (h : s.world.Roster) (registry : (Moment.still s).Registry)
    (project : Project) (input : Input) :
    ∃ turns routeTurns, s.Round project input turns routeTurns := by
  have hbefore := registry_beforeScripts registry project input
  obtain ⟨w, hsame, hopened⟩ := s.opened_beforeScripts project input
  obtain ⟨hstay, hroutesStay⟩ := s.stay_update project input
  have hshed := fun r => attached_or_shed (r := r) h registry project input
  have hfit := fit_interpreters hbefore
  have hfitRoutes := fit_routes (registry_runInterpreters hbefore project)
  have hbeforeRoster := roster_beforeScripts h project input
  obtain ⟨hlive, hroutesLive⟩ := stay_runScripts hbeforeRoster hbefore project
  have horigins := origins_interpreters project hfit
  have horiginsRoutes := origins_routes project hfitRoutes
  generalize hb : s.beforeScripts project input = b at *
  have hlength : (b.interpretersRan project).1.length = b.world.stage.interpreters.length :=
    Interpreter.length_updateAll _ _
  have hlengthRoutes : ((b.runInterpreters project).routesRan project).1.length =
      (b.runInterpreters project).world.stage.routes.length := Interpreter.length_updateAll _ _
  have hscripts := List.map_fst_zip hlength.ge
  have hran := List.map_snd_zip hlength.le
  have hroutes := List.map_fst_zip hlengthRoutes.ge
  have hroutesRan := List.map_snd_zip hlengthRoutes.le
  refine ⟨b.world.stage.interpreters.zip (b.interpretersRan project).1,
    (b.runInterpreters project).world.stage.routes.zip
      ((b.runInterpreters project).routesRan project).1, ?_⟩
  refine ⟨?_, ?_, ?_, ?_, ?_, ?_, ?_, ?_, ?_⟩
  · rw [hscripts, ← hsame.stage.interpreters]
    exact hopened.interpreters
  · rw [hb]
    exact hscripts
  · rw [hb, hran]
    exact ⟨_, Interpreter.turns_updateAll _ _, rfl⟩
  · rw [hb]
    exact hroutes
  · rw [hb, hroutesRan]
    exact ⟨_, Interpreter.turns_updateAll _ _, rfl⟩
  · intro p hp
    rcases List.mem_append.1 hp with hp | hp
    · exact origin_of_mem_zip horigins p hp
    · exact origin_of_mem_zip horiginsRoutes p hp
  · rw [hran, hstay, hlive, List.filter_filter]
    simp only [Bool.and_comm]
  · rw [hroutesRan, hroutesStay, hroutesLive, List.filter_filter]
    simp only [Bool.and_comm]
  · rw [hroutes]
    exact hshed

end Session

end Adventure
