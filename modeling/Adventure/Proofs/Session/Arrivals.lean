import Adventure.Proofs.Session.Roster

/-!
# Events that start alone

An event starts by itself, where the player taps, or where a walk to a tapped tile ends.  The first
two ask whether the player has to wait for a script, and the third does not: the question was asked
when the walk began.  So an event finds a script that the player has to wait for exactly if a walk
ends at it after such a script was started on the way.
-/

namespace Adventure

open Session (Act)

variable {project : Project}

/-- From a place on, every event of a list finds nobody there that the player has to wait for. -/
def Interpreter.AloneFrom (n : Nat) (l : List Interpreter) : Prop :=
  ∀ k i, n ≤ k → l[k]? = some i → i.kind = .event →
    (l.take k).any (fun j => j.isBlocking && !j.terminated) = false

open Interpreter (AloneFrom)

/-- What there is when the player's walk goes on. -/
def Session.beforeWalk (s : Session) (project : Project) (input : Input) : World :=
  let w := (s.afterWindows project input).world
  (({ w with pictures := w.pictures.update }.refreshPages project).startAutomaticEvents
    project).handleTap project (s.inputLeft project input)

/-- The events that a tick starts find nobody that the player has to wait for. -/
def Session.StartsAlone (s : Session) (project : Project) (input : Input) : Prop :=
  AloneFrom s.world.stage.interpreters.length
    (s.beforeScripts project input).world.stage.interpreters

/-- The event that the player can run on a tile, from where the player is. -/
def World.inReach? (w : World) (project : Project) (target : Tile) : Option Int32 :=
  (w.stage.playerEventAt? project target).filter fun id =>
    w.stage.player.position.distance target ≤ 1 && !w.stage.isRunning id

/-- The event that is started because the player's walk to a tapped tile ends. -/
def World.arrival? (w : World) (project : Project) : Option Int32 :=
  w.stage.playerWalk.bind fun walk =>
    let (walk, stage, random) := walk.update project { w.stage with playerWalk := none } w.random
    if walk.isOver stage && stage.walkingToTap then
      World.inReach? { w with random := random, stage := stage } project walk.target
    else none

theorem Interpreter.aloneFrom_length (l : List Interpreter) : AloneFrom l.length l := by
  intro k i hk hi _
  obtain ⟨hlt, _⟩ := List.getElem?_eq_some_iff.1 hi
  omega

/-- A script is started at the end of the list. -/
theorem Interpreter.aloneFrom_append {n : Nat} {l : List Interpreter} {i : Interpreter}
    (h : n ≤ l.length) : AloneFrom n (l ++ [i]) ↔ AloneFrom n l ∧
      (i.kind = .event → l.any (fun j => j.isBlocking && !j.terminated) = false) := by
  constructor
  · intro halone
    refine ⟨fun k j hk hj hkind => ?_, fun hkind => ?_⟩
    · obtain ⟨hlt, _⟩ := List.getElem?_eq_some_iff.1 hj
      have hin : (l ++ [i])[k]? = some j := by rw [List.getElem?_append_left hlt, hj]
      simpa [List.take_append_of_le_length hlt.le] using halone k j hk hin hkind
    · simpa using halone l.length i h (by simp) hkind
  · rintro ⟨halone, hlast⟩ k j hk hj hkind
    obtain ⟨hlt, _⟩ := List.getElem?_eq_some_iff.1 hj
    rcases Nat.lt_or_ge k l.length with hbelow | hend
    · rw [List.getElem?_append_left hbelow] at hj
      rw [List.take_append_of_le_length hbelow.le]
      exact halone k j hk hj hkind
    · have hk' : k = l.length := by simp at hlt; omega
      subst hk'
      obtain rfl : i = j := by simpa using hj
      simpa using hlast hkind

namespace World

variable {w w' : World}

/-- Whoever is started while the player has to wait for nobody is started alone. -/
theorem Opens.alone (opens : w.Opens w') {n : Nat} (h : n ≤ w.stage.interpreters.length)
    (alone : AloneFrom n w.stage.interpreters) (free : w.stage.isBlocked = false) :
    AloneFrom n w'.stage.interpreters := by
  cases opens with
  | aside calm => exact calm.stage.interpreters ▸ alone
  | starts kind eventId script isScript single last fade stage =>
    rw [stage.interpreters]
    exact (Interpreter.aloneFrom_append h).2 ⟨alone, fun _ => free⟩

/-- What is started for an event. -/
theorem interpreters_startEvent (w : World) {eventId : Int32} {page : Page}
    (shows : w.stage.page? project eventId = some page) (idle : w.stage.isRunning eventId = false) :
    ∃ i : Interpreter, i.kind = (if page.trigger = .parallel then .parallel else .event) ∧
      (w.startEvent project eventId).2.stage.interpreters = w.stage.interpreters ++ [i] := by
  unfold startEvent
  rw [shows]
  simp only [idle]
  exact ⟨_, rfl, rfl⟩

theorem alone_startIfAutomatic {n : Nat} (h : n ≤ w.stage.interpreters.length)
    (alone : AloneFrom n w.stage.interpreters) (eventId : Int32) :
    AloneFrom n (startIfAutomatic project w eventId).stage.interpreters := by
  unfold startIfAutomatic
  split
  · exact alone
  · next page hpage =>
    split
    · exact alone
    · next hready =>
      simp only [Bool.or_eq_true, not_or, Bool.not_eq_true] at hready
      split
      · split
        · exact alone
        · next hfree =>
          exact (opens_startEvent w eventId).alone h alone (Bool.eq_false_iff.2 hfree)
      · next htrigger =>
        obtain ⟨i, hkind, hstarted⟩ := interpreters_startEvent w hpage hready.2
        rw [hstarted]
        refine (Interpreter.aloneFrom_append h).2 ⟨alone, fun hevent => ?_⟩
        rw [hkind, if_pos htrigger] at hevent
        cases hevent
      all_goals exact alone

theorem alone_startAutomaticEvents {n : Nat} (h : n ≤ w.stage.interpreters.length)
    (alone : AloneFrom n w.stage.interpreters) :
    AloneFrom n (w.startAutomaticEvents project).stage.interpreters := by
  unfold startAutomaticEvents
  refine (List.foldlRecOn (motive := fun w' : World =>
    n ≤ w'.stage.interpreters.length ∧ AloneFrom n w'.stage.interpreters) _ _ ⟨h, alone⟩ ?_).2
  rintro w' ⟨h', alone'⟩ id _
  have hprefix : w'.stage.interpreters <+: (startIfAutomatic project w' id).stage.interpreters :=
    (opens_startIfAutomatic w' id).interpreters
  exact ⟨h'.trans hprefix.length_le, alone_startIfAutomatic h' alone' id⟩

theorem alone_handleTap {n : Nat} (h : n ≤ w.stage.interpreters.length)
    (alone : AloneFrom n w.stage.interpreters) (input : Input) :
    AloneFrom n (w.handleTap project input).stage.interpreters := by
  by_cases hfree : w.stage.isBlocked = false
  · exact (opens_handleTap w input).alone h alone hfree
  · have hdeaf : w.acceptsInput = false := by simp [acceptsInput, hfree]
    have hsame : w.handleTap project input = w := by
      unfold handleTap
      split
      · rfl
      · rw [if_pos (by simp [hdeaf])]
    rwa [hsame]

/-- Nothing but the walk starts events without asking whether the player has to wait. -/
theorem alone_untilWalk (w : World) (input : Input) :
    let w' := ((w.refreshPages project).startAutomaticEvents project).handleTap project input
    w.stage.interpreters.length ≤ w'.stage.interpreters.length ∧
      AloneFrom w.stage.interpreters.length w'.stage.interpreters := by
  rw [← (calm_refreshPages w project).stage.interpreters]
  generalize w.refreshPages project = w
  have hautomatic : w.Opened (w.startAutomaticEvents project) := opened_startAutomaticEvents w
  have halone : AloneFrom w.stage.interpreters.length
      (w.startAutomaticEvents project).stage.interpreters :=
    alone_startAutomaticEvents le_rfl (Interpreter.aloneFrom_length _)
  generalize w.startAutomaticEvents project = started at hautomatic halone ⊢
  have htap : started.Opens (started.handleTap project input) := opens_handleTap started input
  have hlength := hautomatic.interpreters.length_le
  exact ⟨hlength.trans htap.interpreters.length_le, alone_handleTap hlength halone input⟩

theorem page?_of_playerEventAt? {s : Stage} {target : Tile} {eventId : Int32}
    (h : s.playerEventAt? project target = some eventId) :
    ∃ page, s.page? project eventId = some page ∧ page.trigger = .player := by
  have hany := List.find?_some h
  cases hpage : s.page? project eventId with
  | none => simp [hpage] at hany
  | some page =>
    simp only [hpage, Option.any_some, Bool.and_eq_true, beq_iff_eq] at hany
    exact ⟨page, rfl, hany.1⟩

theorem startEvent_of_running {eventId : Int32} (h : w.stage.isRunning eventId = true) :
    (w.startEvent project eventId).2 = w := by
  unfold startEvent
  split
  · rfl
  · rw [if_pos h]

/-- What the player's event on a tile starts once the player has turned to it. -/
theorem interpreters_of_turned {turned : World} {target : Tile} {eventId : Int32}
    (event : w.stage.playerEventAt? project target = some eventId)
    (near : w.stage.player.position.distance target ≤ 1)
    (page? : turned.stage.page? project eventId = w.stage.page? project eventId)
    (runs : turned.stage.isRunning eventId = w.stage.isRunning eventId)
    (listed : turned.stage.interpreters = w.stage.interpreters) :
    (w.inReach? project target = none ∧
        (turned.startEvent project eventId).2.stage.interpreters = w.stage.interpreters) ∨
      ∃ (id : Int32) (i : Interpreter), w.inReach? project target = some id ∧ i.kind = .event ∧
        (turned.startEvent project eventId).2.stage.interpreters = w.stage.interpreters ++ [i] := by
  obtain ⟨page, hpage, htrigger⟩ := page?_of_playerEventAt? event
  unfold inReach?
  rw [event, ← listed]
  by_cases hrunning : w.stage.isRunning eventId = true
  · rw [startEvent_of_running (runs.trans hrunning)]
    exact .inl ⟨by simp [hrunning], rfl⟩
  · have hidle : w.stage.isRunning eventId = false := Bool.eq_false_iff.2 hrunning
    obtain ⟨i, hkind, hstarted⟩ :=
      interpreters_startEvent turned (page?.trans hpage) (runs.trans hidle)
    have hevent : i.kind = .event := by
      rw [hkind, htrigger]
      rfl
    exact .inr ⟨eventId, i, by simp [hidle, near], hevent, hstarted⟩

/-- What the player's event on a tile starts. -/
theorem interpreters_runPlayerEvent (project : Project) (w : World) (target : Tile) :
    (w.inReach? project target = none ∧
        (w.runPlayerEvent project target).stage.interpreters = w.stage.interpreters) ∨
      ∃ (id : Int32) (i : Interpreter), w.inReach? project target = some id ∧ i.kind = .event ∧
        (w.runPlayerEvent project target).stage.interpreters = w.stage.interpreters ++ [i] := by
  unfold runPlayerEvent
  cases hevent : w.stage.playerEventAt? project target with
  | none => exact .inl ⟨by simp [inReach?, hevent], rfl⟩
  | some eventId =>
    dsimp only
    by_cases hfar : w.stage.player.position.distance target > 1
    · rw [if_pos hfar]
      exact .inl ⟨by simp [inReach?, hevent]; omega, rfl⟩
    · have hnear : w.stage.player.position.distance target ≤ 1 := by omega
      rw [if_neg hfar]
      split <;> exact interpreters_of_turned hevent hnear rfl rfl rfl

/-- What a frame of the player's walk starts. -/
theorem interpreters_updatePlayerWalk (project : Project) (w : World) :
    (w.arrival? project = none ∧
        (w.updatePlayerWalk project).stage.interpreters = w.stage.interpreters) ∨
      ∃ (id : Int32) (i : Interpreter), w.arrival? project = some id ∧ i.kind = .event ∧
        (w.updatePlayerWalk project).stage.interpreters = w.stage.interpreters ++ [i] := by
  unfold arrival? updatePlayerWalk
  cases hwalk : w.stage.playerWalk with
  | none => exact .inl ⟨rfl, rfl⟩
  | some walk =>
    have hlisted :=
      (Stage.sameCast_walk { w.stage with playerWalk := none } project walk w.random).interpreters
    simp only [Option.bind_some]
    generalize walk.update project { w.stage with playerWalk := none } w.random = moved at *
    obtain ⟨walk', stage, random⟩ := moved
    dsimp only at hlisted ⊢
    by_cases hover : walk'.isOver stage = true
    · by_cases htap : stage.walkingToTap = true
      · have harrived := interpreters_runPlayerEvent project
          { w with random := random, stage := stage.finishPlayerWalk } walk'.target
        have hkept : stage.finishPlayerWalk.interpreters = w.stage.interpreters := hlisted
        simp only [hover, htap, Bool.and_self, if_true, Bool.not_true, Bool.false_eq_true, if_false]
        rwa [hkept] at harrived
      · simp [hover, htap, hlisted]
    · simp [hover, hlisted]

end World

namespace Session

variable {s : Session}

/-- Scripts are only started before scripts run. -/
theorem starts_before_scripts (h : s.world.Roster) (registry : (Moment.still s).Registry)
    (project : Project) (input : Input) :
    ∀ i ∈ (s.update project input).world.stage.interpreters,
      ∃ j ∈ (s.beforeScripts project input).world.stage.interpreters, j.origin = i.origin := by
  intro i hi
  obtain ⟨turns, routeTurns, hround⟩ := round_update h registry project input
  rw [hround.stays] at hi
  obtain ⟨p, hp, rfl⟩ := List.mem_map.1 (List.mem_filter.1 hi).1
  refine ⟨p.1, ?_, (hround.same p (List.mem_append_left _ hp)).symm⟩
  rw [← hround.scripts]
  exact List.mem_map_of_mem hp

/-- Until the walk goes on, events are started alone. -/
theorem alone_beforeWalk (s : Session) (project : Project) (input : Input) :
    s.world.stage.interpreters.length ≤ (s.beforeWalk project input).stage.interpreters.length ∧
      AloneFrom s.world.stage.interpreters.length
        (s.beforeWalk project input).stage.interpreters := by
  unfold beforeWalk
  rw [← (s.sameCast_afterWindows project input).stage.interpreters]
  generalize (s.afterWindows project input).world = w
  exact World.alone_untilWalk { w with pictures := w.pictures.update } _

/-- The events that a tick starts, which it does before scripts run, find nobody that the player has
to wait for, unless a walk ends at one of them while somebody is there. -/
theorem Begins.startsAlone_iff {s₀ : Session} (begins : Begins project s₀) (acts : List Act)
    (input : Input) :
    let s := s₀.after project acts
    (∀ i ∈ (s.update project input).world.stage.interpreters,
        ∃ j ∈ (s.beforeScripts project input).world.stage.interpreters, j.origin = i.origin) ∧
      (s.StartsAlone project input ↔
        ((s.beforeWalk project input).stage.isBlocked = true →
          (s.beforeWalk project input).arrival? project = none)) := by
  intro s
  refine ⟨starts_before_scripts (roster_after begins.roster begins.registry acts)
    (registry_after begins.registry acts) project input, ?_⟩
  obtain ⟨hlength, halone⟩ := s.alone_beforeWalk project input
  have hbefore : (s.beforeScripts project input).world =
      (s.beforeWalk project input).updatePlayerWalk project := rfl
  unfold StartsAlone
  rw [hbefore]
  rcases World.interpreters_updatePlayerWalk project (s.beforeWalk project input) with
    ⟨hnone, hlisted⟩ | ⟨id, i, hsome, hkind, hstarted⟩
  · rw [hlisted]
    exact iff_of_true halone fun _ => hnone
  · rw [hstarted, Interpreter.aloneFrom_append hlength, hsome]
    constructor
    · rintro ⟨_, hfree⟩ hblocked
      exact absurd ((hfree hkind).symm.trans hblocked) (by decide)
    · intro hfree
      refine ⟨halone, fun _ => Bool.eq_false_iff.2 fun hblocked => ?_⟩
      cases hfree hblocked

end Session

/-- A room with an event for the player at its far end.  Another event starts by itself as soon as a
third one has turned on a switch, and its script waits for long. -/
def ambushRoom : Project :=
  let page (trigger : Trigger) (conditions : List Condition) (commands : Script) : Page :=
    { Page.blank with trigger, conditions, commands }
  let room : Room :=
    { id := 1, width := 3, height := 2, tileSetId := 0, tiles := []
      events := [⟨5, 0, 1, [page .parallel [] [.act (.setSwitch 1 .constant true false) []]]⟩,
        ⟨6, 1, 1, [page .auto [.switch 1 true] [.act (.wait 1000) []]]⟩,
        ⟨7, 2, 0, [page .player [] [.act (.wait 1000) []]]⟩]
      background := "", foreground := "" }
  { (default : Project) with
    maps := [⟨1, "", [room]⟩]
    system := { (default : System) with initialPosition := ⟨1, 1, 0, 0⟩ } }

/-- The player walks towards the event at the far end of the room. -/
def ambushWalk : List Act :=
  .tick { Input.none with tappedTile := some ⟨2, 0⟩ } :: List.replicate 7 (.tick .none)

/-- The script that waits is there when the walk ends and starts the event. -/
theorem ambushRoom_starts_second :
    ∃ w, World.start ambushRoom 1 = .ok w ∧
      let s := Session.after ambushRoom ⟨w, .start ambushRoom .deferred⟩ ambushWalk
      s.world.stage.interpreters.map (fun i => (i.kind, i.eventId)) = [(.event, 6)] ∧
        (s.update ambushRoom .none).world.stage.interpreters.map (fun i => (i.kind, i.eventId)) =
          [(.event, 6), (.event, 7)] ∧
        ¬ s.StartsAlone ambushRoom .none := by
  obtain ⟨w, hstart, hbefore, hafter, hlength, hstarted⟩ :
      ∃ w, World.start ambushRoom 1 = .ok w ∧
        let s := Session.after ambushRoom ⟨w, .start ambushRoom .deferred⟩ ambushWalk
        let l := (s.beforeScripts ambushRoom .none).world.stage.interpreters
        s.world.stage.interpreters.map (fun i => (i.kind, i.eventId)) = [(.event, 6)] ∧
          (s.update ambushRoom .none).world.stage.interpreters.map
            (fun i => (i.kind, i.eventId)) = [(.event, 6), (.event, 7)] ∧
          s.world.stage.interpreters.length ≤ 2 ∧ ∃ i ∈ l[2]?, i.kind = .event ∧
            (l.take 2).any (fun j => j.isBlocking && !j.terminated) = true := by
    refine ⟨_, rfl, ?_⟩
    decide +kernel
  obtain ⟨i, hi, hkind, hblocked⟩ := hstarted
  refine ⟨w, hstart, hbefore, hafter, fun halone => ?_⟩
  have hfree := halone 2 i hlength hi hkind
  exact absurd (hfree.symm.trans hblocked) (by decide)

/-- The event that starts by itself is started alone. -/
theorem ambushRoom_starts_first :
    ∃ w, World.start ambushRoom 1 = .ok w ∧
      let s := Session.after ambushRoom ⟨w, .start ambushRoom .deferred⟩ (ambushWalk.take 1)
      (s.beforeWalk ambushRoom .none).stage.isBlocked = true ∧
        s.StartsAlone ambushRoom .none := by
  obtain ⟨w, hstart, hblocked, hnone⟩ : ∃ w, World.start ambushRoom 1 = .ok w ∧
      let s := Session.after ambushRoom ⟨w, .start ambushRoom .deferred⟩ (ambushWalk.take 1)
      (s.beforeWalk ambushRoom .none).stage.isBlocked = true ∧
        (s.beforeWalk ambushRoom .none).arrival? ambushRoom = none := by
    refine ⟨_, rfl, ?_⟩
    decide +kernel
  have hbegins : Session.Begins ambushRoom ⟨w, .start ambushRoom .deferred⟩ :=
    .new 1 .deferred hstart
  exact ⟨w, hstart, hblocked, (hbegins.startsAlone_iff _ _).2.2 fun _ => hnone⟩

end Adventure
