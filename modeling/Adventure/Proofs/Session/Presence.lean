import Adventure.Proofs.Session.Roster

/-!
# Where scripts are

A script that nobody has to wait for is dropped as soon as the player is in another room, but not
before the end of the tick.  So it belongs to the room in which the tick began, and it acts
elsewhere exactly if the room has changed in the meantime.
-/

namespace Adventure

open Moment (Line Works)
open Session (Act)

variable {project : Project}

/-- The scripts that nobody has to wait for belong to the room that the player is in. -/
def Stage.AtHome (s : Stage) : Prop :=
  ∀ i ∈ s.interpreters, i.isBlocking = false → i.isIn s.mapId s.roomId = true

/-- The commands that a script runs in a tick, each with the script and the session that it sees. -/
def Interpreter.commands (project : Project) :
    Nat → Interpreter → Session → List (Interpreter × Session × Command)
  | 0, _, _ => []
  | n + 1, i, s =>
    let (goesOn, i', s') := i.step s project
    (i.running? s project).toList ++ if goesOn then commands project n i' s' else []

/-- The commands that scripts run in a tick. -/
def Interpreter.commandsOfAll (project : Project) :
    List Interpreter → Session → List (Interpreter × Session × Command)
  | [], _ => []
  | i :: rest, s =>
    i.commands project stepLimit s ++ commandsOfAll project rest (i.update s project).2

/-- The commands that are run in a tick: those of scripts, then those of routes. -/
def Session.commandsRun (s : Session) (project : Project) (input : Input) :
    List (Interpreter × Session × Command) :=
  let b := s.beforeScripts project input
  let b' := b.runInterpreters project
  Interpreter.commandsOfAll project b.world.stage.interpreters b.withoutInterpreters ++
    Interpreter.commandsOfAll project b'.world.stage.routes b'.withoutRoutes

namespace Moment

variable {s : Session} {r : Interpreter × Session × Command}

theorem exists_of_mem_steps (ran rest : List Interpreter) {n : Nat} {i : Interpreter}
    (h : r ∈ i.commands project n s) :
    ∃ m ∈ (⟨s, ran, i :: rest⟩ ::
        (i.steps project n s).map fun (j, t) => ⟨t, ran, j :: rest⟩ : List Moment),
      ∃ j, m.turn.head? = some j ∧ j.running? m.session project = some r := by
  induction n generalizing i s with
  | zero => cases h
  | succ n ih =>
    unfold Interpreter.commands at h
    unfold Interpreter.steps
    rcases hresult : i.step s project with ⟨goesOn, i', s'⟩
    rw [hresult] at h
    rcases List.mem_append.1 h with h | h
    · exact ⟨_, List.mem_cons_self, i, rfl, Option.mem_toList.1 h⟩
    · cases goesOn with
      | false => cases h
      | true =>
        obtain ⟨m, hm, hcommand⟩ := ih h
        exact ⟨m, List.mem_cons_of_mem _ hm, hcommand⟩

/-- A command is run by a script that has its turn. -/
theorem exists_of_mem_commands (ran : List Interpreter) {turn : List Interpreter}
    (h : r ∈ Interpreter.commandsOfAll project turn s) :
    ∃ m ∈ (⟨s, ran, turn⟩ :: turns project ran turn s : List Moment),
      ∃ i, m.turn.head? = some i ∧ i.running? m.session project = some r := by
  induction turn generalizing ran s with
  | nil => cases h
  | cons i rest ih =>
    rcases List.mem_append.1 h with h | h
    · obtain ⟨m, hm, hcommand⟩ := exists_of_mem_steps ran rest h
      refine ⟨m, ?_, hcommand⟩
      rw [turns, ← List.cons_append]
      exact List.mem_append_left _ hm
    · obtain ⟨m, hm, hcommand⟩ := ih (ran ++ [(i.update s project).1]) h
      refine ⟨m, List.mem_cons_of_mem _ ?_, hcommand⟩
      exact List.mem_append_right _ hm

end Moment

namespace Stage.AtHome

variable {s s' : Stage}

theorem sameCast (h : s.AtHome) (same : s.SameCast s') : s'.AtHome := by
  intro i hi hblocking
  rw [same.interpreters] at hi
  rw [same.mapId, same.roomId]
  exact h i hi hblocking

theorem addInterpreter (h : s.AtHome) {i : Interpreter} (home : i.isIn s.mapId s.roomId = true) :
    (s.addInterpreter i).AtHome := by
  intro j hj hblocking
  rcases List.mem_append.1 hj with hj | hj
  · exact h j hj hblocking
  · exact List.mem_singleton.1 hj ▸ home

/-- Whoever is not at home is dropped when the room changes. -/
theorem dropStale (s : Stage) : s.dropStale.AtHome := by
  intro i hi hblocking
  have hstays := (List.mem_filter.1 hi).2
  rw [hblocking] at hstays
  exact hstays

end Stage.AtHome

namespace World

variable {w w' : World}

theorem Stir.mapId (stir : w.Stir w') : w'.stage.mapId = w.stage.mapId := by
  cases stir with
  | aside same => exact same.stage.mapId
  | sets r id kind route live fresh last stage => exact stage.mapId
  | enters roomId last stage => exact stage.mapId

theorem Stirred.mapId (stirred : w.Stirred w') : w'.stage.mapId = w.stage.mapId := by
  induction stirred with
  | refl => rfl
  | tail _ stir ih => exact stir.mapId.trans ih

theorem Stir.atHome (stir : w.Stir w') (h : w.stage.AtHome) : w'.stage.AtHome := by
  cases stir with
  | aside same => exact h.sameCast same.stage
  | sets r id kind route live fresh last stage =>
    have hset : (w.stage.setRoute r).AtHome := h
    exact hset.sameCast stage
  | enters roomId last stage => exact (Stage.AtHome.dropStale _).sameCast stage

theorem Opens.room (opens : w.Opens w') :
    w'.stage.mapId = w.stage.mapId ∧ w'.stage.roomId = w.stage.roomId := by
  cases opens with
  | aside calm => exact ⟨calm.stage.mapId, calm.stage.roomId⟩
  | starts kind eventId script isScript alone last fade stage => exact ⟨stage.mapId, stage.roomId⟩

theorem Opened.room (opened : w.Opened w') :
    w'.stage.mapId = w.stage.mapId ∧ w'.stage.roomId = w.stage.roomId := by
  induction opened with
  | refl => exact ⟨rfl, rfl⟩
  | tail _ opens ih => exact ⟨opens.room.1.trans ih.1, opens.room.2.trans ih.2⟩

/-- A script is started where the player is. -/
theorem Opens.atHome (opens : w.Opens w') (h : w.stage.AtHome) : w'.stage.AtHome := by
  cases opens with
  | aside calm => exact h.sameCast calm.stage
  | starts kind eventId script isScript alone last fade stage =>
    refine (h.addInterpreter ?_).sameCast stage
    simp [Interpreter.isIn, Interpreter.start]

theorem Opened.atHome (opened : w.Opened w') (h : w.stage.AtHome) : w'.stage.AtHome := by
  induction opened with
  | refl => exact h
  | tail _ opens ih => exact opens.atHome ih

end World

namespace Session

variable {s : Session}

theorem atHome_beforeScripts (h : s.world.stage.AtHome) (project : Project) (input : Input) :
    (s.beforeScripts project input).world.stage.AtHome := by
  obtain ⟨w, hsame, hopened⟩ := s.opened_beforeScripts project input
  exact hopened.atHome (h.sameCast hsame.stage)

theorem room_beforeScripts (s : Session) (project : Project) (input : Input) :
    (s.beforeScripts project input).world.stage.roomId = s.world.stage.roomId := by
  obtain ⟨w, hsame, hopened⟩ := s.opened_beforeScripts project input
  exact hopened.room.2.trans hsame.stage.roomId

theorem atHome_update (s : Session) (project : Project) (input : Input) :
    (s.update project input).world.stage.AtHome :=
  (Stage.AtHome.dropStale _).sameCast (s.sameCast_update project input).stage

theorem atHome_perform (h : s.world.stage.AtHome) (act : Act) :
    (s.perform project act).world.stage.AtHome := by
  by_cases htick : ∃ input, act = .tick input
  · obtain ⟨input, rfl⟩ := htick
    exact s.atHome_update project input
  · rcases s.perform_cases project (not_exists.1 htick) with hopens | ⟨hstir, _⟩
    · exact hopens.atHome h
    · exact hstir.atHome h

theorem atHome_after (h : s.world.stage.AtHome) (acts : List Act) :
    (s.after project acts).world.stage.AtHome := by
  induction acts generalizing s with
  | nil => exact h
  | cons act acts ih => exact ih (atHome_perform h act)

theorem Begins.atHome (h : Begins project s) : s.world.stage.AtHome := by
  induction h with
  | new seed host started =>
    obtain ⟨stage, hempty, _, hcalm⟩ := calm_of_start started
    have hfresh : stage.AtHome := fun i hi => by simp [hempty] at hi
    exact Stage.AtHome.sameCast hfresh hcalm.stage
  | @loaded s earlier acts seed host ih =>
    have hsaved : (s.after project acts).world.stage.AtHome := atHome_after ih acts
    intro i hi hblocking
    obtain ⟨j, hj, rfl⟩ := List.mem_map.1 hi
    rw [Interpreter.isBlocking_eq_of_origin j.origin_forgetRequest] at hblocking
    rw [Interpreter.isIn_eq_of_origin j.origin_forgetRequest]
    exact hsaved j hj hblocking

/-- Only scripts that belong to the room in which a tick begins have turns, unless the player has to
wait for them. -/
theorem isIn_of_turn (registry : (Moment.still s).Registry) (home : s.world.stage.AtHome)
    {m : Moment}
    {i : Interpreter}
    (hm : m ∈ (⟨s.withoutInterpreters, [], s.world.stage.interpreters⟩ ::
      Moment.turns project [] s.world.stage.interpreters s.withoutInterpreters : List Moment))
    (turn : i ∈ m.turn) (blocking : i.isBlocking = false) :
    i.isIn m.session.world.stage.mapId s.world.stage.roomId = true := by
  have hline : Line (Works project) ⟨s.withoutInterpreters, [], s.world.stage.interpreters⟩ _ _ :=
    Moment.line_turns [] _ _
  obtain ⟨hworked, _⟩ := hline.worked (fit_interpreters registry) m hm
  obtain ⟨j, hj, horigin⟩ : ∃ j ∈ s.world.stage.interpreters, j.origin = i.origin := by
    have hmem : i.origin ∈ m.off.map Interpreter.origin :=
      List.mem_map_of_mem (List.mem_append_right _ turn)
    rw [hworked.origins] at hmem
    exact List.mem_map.1 hmem
  have hmap : m.session.world.stage.mapId = s.world.stage.mapId := hworked.world.mapId
  rw [hmap, ← Interpreter.isIn_eq_of_origin horigin]
  exact home j hj ((Interpreter.isBlocking_eq_of_origin horigin).trans blocking)

/-- The turns of routes are nobody else's. -/
theorem kind_of_route_turn (registry : (Moment.still s).Registry) (h : s.world.Roster) {m : Moment}
    {i : Interpreter}
    (hm : m ∈ (⟨s.withoutRoutes, [], s.world.stage.routes⟩ ::
      Moment.turns project [] s.world.stage.routes s.withoutRoutes : List Moment))
    (turn : i ∈ m.turn) : i.kind = .route := by
  have hline : Line (Works project) ⟨s.withoutRoutes, [], s.world.stage.routes⟩ _ _ :=
    Moment.line_turns [] _ _
  obtain ⟨hworked, _⟩ := hline.worked (fit_routes registry) m hm
  exact Moment.kind_of_origins hworked.origins
    (fun r hr => (h.routeKinds r (by simpa [Moment.off] using hr)).1) i
    (List.mem_append_right _ turn)

/-- Nothing but the walk of a script goes on before its command is run. -/
theorem calm_of_running {i j : Interpreter} {t : Session} {c : Command}
    (h : i.running? s project = some (j, t, c)) : j.origin = i.origin ∧ s.world.Calm t.world := by
  obtain ⟨walk, w, hcalm, hwalk⟩ := Interpreter.calm_updateWalk { i with wait := .none } s project
  obtain ⟨_, _, heq, _⟩ := Interpreter.running?_eq_some h
  obtain ⟨rfl, rfl⟩ := Prod.mk.inj ((congrArg (·.2) heq).symm.trans hwalk)
  exact ⟨rfl, hcalm⟩

/-- A command of a script that nobody has to wait for is run in the room of the script exactly if
the player is in the room in which the tick began. -/
theorem Begins.isIn_iff_room_eq {s₀ : Session} (begins : Begins project s₀) (acts : List Act)
    (input : Input) :
    let s := s₀.after project acts
    ∀ j t c, (j, t, c) ∈ s.commandsRun project input → j.kind = .parallel →
      (j.isIn t.world.stage.mapId t.world.stage.roomId = true ↔
        t.world.stage.roomId = s.world.stage.roomId) := by
  intro s j t c hmem hkind
  have hregistry : (Moment.still (s.beforeScripts project input)).Registry :=
    registry_beforeScripts (registry_after begins.registry acts) project input
  have hhome : (s.beforeScripts project input).world.stage.AtHome :=
    atHome_beforeScripts (atHome_after begins.atHome acts) project input
  have hroster : (s.beforeScripts project input).world.Roster :=
    roster_beforeScripts (roster_after begins.roster begins.registry acts) project input
  rw [← s.room_beforeScripts project input]
  unfold commandsRun at hmem
  generalize s.beforeScripts project input = b at *
  rcases List.mem_append.1 hmem with hmem | hmem
  · obtain ⟨m, hm, i, hi, hrunning⟩ := Moment.exists_of_mem_commands [] hmem
    obtain ⟨horigin, hcalm⟩ := calm_of_running hrunning
    have hblocking : i.isBlocking = false := by
      rw [Interpreter.isBlocking, ← Interpreter.kind_eq_of_origin horigin, hkind]
    have hin := isIn_of_turn hregistry hhome hm (List.mem_of_head? hi) hblocking
    rw [← Interpreter.isIn_eq_of_origin horigin, ← hcalm.stage.mapId] at hin
    simp only [Interpreter.isIn, Bool.and_eq_true, beq_iff_eq] at hin ⊢
    obtain ⟨hmap, hroom⟩ := hin
    rw [hmap, hroom]
    simp only [true_and]
    exact eq_comm
  · -- a route is no such script
    obtain ⟨m, hm, i, hi, hrunning⟩ := Moment.exists_of_mem_commands [] hmem
    obtain ⟨horigin, _⟩ := calm_of_running hrunning
    have hroutes := roster_runInterpreters project (fit_interpreters hregistry) hroster
    have hroute := kind_of_route_turn (registry_runInterpreters hregistry project) hroutes hm
      (List.mem_of_head? hi)
    exact absurd ((Interpreter.kind_eq_of_origin horigin).symm.trans hkind) (by simp [hroute])

end Session

/-- Two rooms.  A script of the first one, which nobody has to wait for, moves the player to the
second one and turns on a switch. -/
def driftHouse : Project :=
  let page := { Page.blank with
    trigger := .parallel
    commands := [.act (.transfer ⟨.constant, 2, 0, 0, none, .none⟩) [],
      .act (.setSwitch 1 .constant true false) []] }
  let room (id : Int32) (events : List EventData) : Room :=
    { id, width := 2, height := 1, tileSetId := 0, tiles := [], events,
      background := "", foreground := "" }
  { (default : Project) with
    maps := [⟨1, "", [room 1 [⟨5, 1, 0, [page]⟩], room 2 []]⟩]
    system := { (default : System) with initialPosition := ⟨1, 1, 0, 0⟩ } }

/-- The script turns on its switch in the second room. -/
theorem driftHouse_drifts :
    ∃ w, World.start driftHouse 1 = .ok w ∧
      let s : Session := ⟨w, .start driftHouse .deferred⟩
      (s.after driftHouse [.tick .none]).world.memory.switch 1 = true ∧
        ∃ r ∈ s.commandsRun driftHouse .none, r.1.kind = .parallel ∧ r.2.2.name = "set_switch" ∧
          r.1.isIn r.2.1.world.stage.mapId r.2.1.world.stage.roomId = false := by
  refine ⟨_, rfl, ?_⟩
  decide +kernel

/-- The script begins in its room. -/
theorem driftHouse_begins_at_home :
    ∃ w j t c, World.start driftHouse 1 = .ok w ∧
      let s : Session := ⟨w, .start driftHouse .deferred⟩
      (j, t, c) ∈ s.commandsRun driftHouse .none ∧ j.kind = .parallel ∧ c.name = "transfer" ∧
        (j.isIn t.world.stage.mapId t.world.stage.roomId = true ↔
          t.world.stage.roomId = s.world.stage.roomId) := by
  obtain ⟨w, hstart, ⟨j, t, c⟩, hmem, hkind, hname⟩ : ∃ w, World.start driftHouse 1 = .ok w ∧
      ∃ r ∈ Session.commandsRun ⟨w, .start driftHouse .deferred⟩ driftHouse .none,
        r.1.kind = .parallel ∧ r.2.2.name = "transfer" := by
    refine ⟨_, rfl, ?_⟩
    decide +kernel
  have hbegins : Session.Begins driftHouse ⟨w, .start driftHouse .deferred⟩ :=
    .new 1 .deferred hstart
  exact ⟨w, j, t, c, hstart, hmem, hkind, hname,
    hbegins.isIn_iff_room_eq [] .none j t c hmem hkind⟩

end Adventure
