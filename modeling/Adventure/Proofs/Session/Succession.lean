import Adventure.Proofs.Session.Faults
import Adventure.Proofs.Session.Fixtures

/-!
# From turn to turn

In a tick every script has one turn, after some of the others and before the rest.  A script that
the player has to wait for has its next turn in the next tick, whatever the host does in between.
Between two turns of a script there is one frame of everything, and apart from that fixtures only
change by the commands of the others and in the hands of the host.
-/

namespace Adventure

open Session (Act)

variable {project : Project}

/-- The turns of scripts, one after the other: each script with the session that it finds. -/
def Interpreter.turnsOfAll (project : Project) :
    List Interpreter → Session → List (Interpreter × Session)
  | [], _ => []
  | i :: rest, s => (i, s) :: turnsOfAll project rest (i.update s project).2

/-- The turns of a tick: those of scripts, then those of routes. -/
def Session.turns (s : Session) (project : Project) (input : Input) :
    List (Interpreter × Session) :=
  let b := s.beforeScripts project input
  let b' := b.runInterpreters project
  Interpreter.turnsOfAll project b.world.stage.interpreters b.withoutInterpreters ++
    Interpreter.turnsOfAll project b'.world.stage.routes b'.withoutRoutes

/-- The commands that are run in some turns. -/
def Interpreter.commandsOfTurns (project : Project) (turns : List (Interpreter × Session)) :
    List (Interpreter × Session × Command) :=
  turns.flatMap fun (i, s) => i.commands project stepLimit s

/-- The turn of a script in a tick, among those of the others. -/
structure Turn (project : Project) where
  /-- What the tick begins with. -/
  session : Session
  input : Input
  earlier : List (Interpreter × Session)
  script : Interpreter
  found : Session
  later : List (Interpreter × Session)
  isTurn : session.turns project input = earlier ++ (script, found) :: later

namespace Turn

/-- The script after its turn, and the session that it leaves. -/
def left (τ : Turn project) : Interpreter × Session := τ.script.update τ.found project

/-- The commands that the script runs in its turn. -/
def commands (τ : Turn project) : List (Interpreter × Session × Command) :=
  τ.script.commands project stepLimit τ.found

/-- What there is after the tick. -/
def afterTick (τ : Turn project) : Session := τ.session.update project τ.input

/-- The script has its next turn in the next tick.  Meanwhile nobody else changes some part of the
fixtures: neither the host, nor the scripts that come later in this tick and earlier in the next. -/
structure Next {α : Type} (part : Fixtures → α) (τ τ' : Turn project) : Prop where
  script : τ'.script = τ.left.1
  host : ∃ acts : List Act, (∀ input, .tick input ∉ acts) ∧
    τ'.session = τ.afterTick.after project acts
  spares : part τ'.session.world.fixtures = part τ.afterTick.world.fixtures
  commandsSpare : ∀ r ∈ Interpreter.commandsOfTurns project (τ.later ++ τ'.earlier),
    part (r.1.execute r.2.1 project r.2.2).session.world.fixtures = part r.2.1.world.fixtures

/-- The turn of the script so many ticks later, if nobody else changes some part of the fixtures. -/
inductive After {α : Type} (part : Fixtures → α) (τ : Turn project) :
    Nat → Turn project → Prop where
  | now : After part τ 0 τ
  | next {k : Nat} {τ' τ'' : Turn project} (earlier : After part τ k τ') (next : τ'.Next part τ'') :
      After part τ (k + 1) τ''

end Turn

/-! ## Fixtures from turn to turn -/

namespace Interpreter

variable {K : Fixtures → Prop} {s found : Session} {i : Interpreter}
  {turn : List Interpreter} {earlier later : List (Interpreter × Session)}

theorem commandsOfTurns_turnsOfAll (turn : List Interpreter) (s : Session) :
    commandsOfTurns project (turnsOfAll project turn s) = commandsOfAll project turn s := by
  induction turn generalizing s with
  | nil => rfl
  | cons i rest ih =>
    rw [turnsOfAll, commandsOfTurns, List.flatMap_cons, commandsOfAll, ← ih]
    rfl

theorem map_turnsOfAll (turn : List Interpreter) (s : Session) :
    (turnsOfAll project turn s).map (fun (i, t) => (i.update t project).1) =
      (updateAll project turn s).1 := by
  induction turn generalizing s with
  | nil => rfl
  | cons i rest ih => simp [turnsOfAll, updateAll, ih]

theorem map_fst_turnsOfAll (turn : List Interpreter) (s : Session) :
    (turnsOfAll project turn s).map (·.1) = turn := by
  induction turn generalizing s with
  | nil => rfl
  | cons i rest ih => simp [turnsOfAll, ih]

/-- What earlier scripts keep is there when a script has its turn. -/
theorem kept_found (split : turnsOfAll project turn s = earlier ++ (i, found) :: later)
    (keeps : ∀ r ∈ commandsOfTurns project earlier, Keeps project K r) (h : K s.world.fixtures) :
    K found.world.fixtures := by
  induction turn generalizing s earlier with
  | nil => simp [turnsOfAll] at split
  | cons j rest ih =>
    cases earlier with
    | nil =>
      obtain ⟨hfirst, _⟩ := List.cons.inj split
      obtain ⟨_, rfl⟩ := Prod.mk.inj hfirst
      exact h
    | cons r earlier =>
      obtain ⟨rfl, hrest⟩ := List.cons.inj split
      rw [commandsOfTurns, List.flatMap_cons] at keeps
      obtain ⟨hfirst, hmore⟩ := List.forall_mem_append.1 keeps
      exact ih hrest hmore (kept_run hfirst h)

/-- What later scripts keep is there when all have had their turns. -/
theorem kept_left (split : turnsOfAll project turn s = earlier ++ (i, found) :: later)
    (keeps : ∀ r ∈ commandsOfTurns project later, Keeps project K r)
    (h : K (i.update found project).2.world.fixtures) :
    K (updateAll project turn s).2.world.fixtures := by
  induction turn generalizing s earlier with
  | nil => simp [turnsOfAll] at split
  | cons j rest ih =>
    cases earlier with
    | nil =>
      obtain ⟨hfirst, rfl⟩ := List.cons.inj split
      obtain ⟨rfl, rfl⟩ := Prod.mk.inj hfirst
      rw [commandsOfTurns_turnsOfAll] at keeps
      unfold updateAll
      exact kept_updateAll keeps h
    | cons r earlier => exact ih (List.cons.inj split).2

end Interpreter

theorem Interpreter.origin_run (i : Interpreter) (s : Session) (n : Nat) :
    (run project n i s).1.origin = i.origin := by
  induction n generalizing i s with
  | zero => rfl
  | succ n ih =>
    unfold run
    have hstep := i.origin_step s project
    rcases hresult : i.step s project with ⟨goesOn, i', s'⟩
    rw [hresult] at hstep
    cases goesOn with
    | false => exact hstep
    | true => exact (ih i' s').trans hstep

/-- Something in a list that was put together stands in the first part or in the second one. -/
theorem split_of_append {α : Type} {l l' before after : List α} {a : α}
    (h : l ++ l' = before ++ a :: after) :
    (∃ mid, l = before ++ a :: mid ∧ after = mid ++ l') ∨
      ∃ mid, before = l ++ mid ∧ l' = mid ++ a :: after := by
  rcases List.append_eq_append_iff.1 h with ⟨mid, hbefore, hrest⟩ | ⟨mid, hl, hrest⟩
  · exact .inr ⟨mid, hbefore, hrest⟩
  · cases mid with
    | nil => exact .inr ⟨[], by simpa using hl.symm, by simpa using hrest.symm⟩
    | cons b mid =>
      obtain ⟨rfl, rfl⟩ := List.cons.inj hrest
      exact .inl ⟨mid, hl, rfl⟩

namespace Turn

variable {K : Fixtures → Prop} (τ : Turn project)

theorem commandsOfTurns_append (turns more : List (Interpreter × Session)) :
    Interpreter.commandsOfTurns project (turns ++ more) =
      Interpreter.commandsOfTurns project turns ++ Interpreter.commandsOfTurns project more :=
  List.flatMap_append

/-- What earlier scripts of the tick keep is there when the script has its turn. -/
theorem kept_found
    (keeps : ∀ r ∈ Interpreter.commandsOfTurns project τ.earlier, Interpreter.Keeps project K r)
    (h : K (τ.session.beforeScripts project τ.input).world.fixtures) :
    K τ.found.world.fixtures := by
  have hturn := τ.isTurn
  unfold Session.turns at hturn
  generalize τ.session.beforeScripts project τ.input = b at hturn h
  rcases split_of_append hturn with ⟨mid, hscripts, _⟩ | ⟨mid, hearlier, hroutes⟩
  · exact Interpreter.kept_found (s := b.withoutInterpreters) hscripts keeps h
  · rw [hearlier, commandsOfTurns_append, Interpreter.commandsOfTurns_turnsOfAll] at keeps
    obtain ⟨hfirst, hmore⟩ := List.forall_mem_append.1 keeps
    have hran := Session.kept_runInterpreters h hfirst
    exact Interpreter.kept_found (s := (b.runInterpreters project).withoutRoutes) hroutes hmore hran

/-- What later scripts of the tick keep is there when all scripts have run. -/
theorem kept_ran
    (keeps : ∀ r ∈ Interpreter.commandsOfTurns project τ.later, Interpreter.Keeps project K r)
    (h : K τ.left.2.world.fixtures) :
    K ((τ.session.beforeScripts project τ.input).runScripts project).world.fixtures := by
  have hturn := τ.isTurn
  unfold Session.turns at hturn
  generalize τ.session.beforeScripts project τ.input = b at hturn
  rw [Session.runScripts_eq]
  rcases split_of_append hturn with ⟨mid, hscripts, hlater⟩ | ⟨mid, _, hroutes⟩
  · rw [hlater, commandsOfTurns_append] at keeps
    obtain ⟨hfirst, hmore⟩ := List.forall_mem_append.1 keeps
    rw [Interpreter.commandsOfTurns_turnsOfAll] at hmore
    have hran : K (b.runInterpreters project).world.fixtures :=
      Interpreter.kept_left (s := b.withoutInterpreters) hscripts hfirst h
    generalize b.runInterpreters project = b' at hmore hran
    exact Interpreter.kept_updateAll (s := b'.withoutRoutes) hmore hran
  · generalize b.runInterpreters project = b' at hroutes
    exact Interpreter.kept_left (s := b'.withoutRoutes) hroutes keeps h

end Turn

/-! ## The next turn -/

namespace World

variable {w w' : World} {i : Interpreter}

/-- A script that the player has to wait for is not dropped. -/
theorem Stir.stays (stir : w.Stir w') (blocking : i.isBlocking = true)
    (h : i ∈ w.stage.interpreters) : i ∈ w'.stage.interpreters := by
  cases stir with
  | aside same => rwa [same.stage.interpreters]
  | sets r id kind route live fresh last stage => rwa [stage.interpreters]
  | enters roomId last stage =>
    rw [stage.interpreters]
    exact List.mem_filter.2 ⟨h, by simp [blocking]⟩

end World

namespace Session

variable {s : Session} {i : Interpreter}

/-- The host does not drop a script that the player has to wait for, and any other one only by a
transfer. -/
theorem stays_after (acts : List Act) (noTick : ∀ input, .tick input ∉ acts)
    (stays : i.isBlocking = true ∨ ∀ roomId t dir, .transfer roomId t dir ∉ acts)
    (h : i ∈ s.world.stage.interpreters) :
    i ∈ (s.after project acts).world.stage.interpreters := by
  induction acts generalizing s with
  | nil => exact h
  | cons act acts ih =>
    simp only [List.mem_cons, not_or] at noTick stays
    have hact : ∀ input, act ≠ .tick input := fun input heq => (noTick input).1 heq.symm
    refine ih (fun input => (noTick input).2) (stays.imp_right fun h roomId t dir => ?_) ?_
    · exact (h roomId t dir).2
    · rcases stays with blocking | noTransfer
      · rcases s.perform_cases project hact with hopens | ⟨hstir, _⟩
        · exact hopens.interpreters.subset h
        · exact hstir.stays blocking h
      · have hopens := s.opens_perform project hact fun roomId t dir heq =>
          (noTransfer roomId t dir).1 heq.symm
        exact hopens.interpreters.subset h

/-- What scripts have left of themselves is listed after the tick, unless they have ended or the
player is elsewhere and does not have to wait for them. -/
theorem stays_update (registry : (Moment.still s).Registry) (roster : s.world.Roster)
    (input : Input)
    (stays : i.isBlocking = true ∨ i.isIn (s.update project input).world.stage.mapId
      (s.update project input).world.stage.roomId = true) (live : i.terminated = false)
    (h : i ∈ ((s.beforeScripts project input).interpretersRan project).1) :
    i ∈ (s.update project input).world.stage.interpreters := by
  have hregistry := registry_beforeScripts registry project input
  have hroster := roster_beforeScripts roster project input
  have hsettle := (s.sameCast_update project input).stage
  rw [hsettle.mapId, hsettle.roomId] at stays
  rw [hsettle.interpreters]
  clear hsettle
  generalize s.beforeScripts project input = b at h hregistry hroster stays
  have hfit := fit_interpreters hregistry
  have hroutes : (b.runScripts project).world.stage.interpreters =
      (b.runInterpreters project).world.stage.interpreters :=
    (sameCast_routes project (fit_routes (registry_runInterpreters hregistry project))
      (roster_runInterpreters project hfit hroster)).stage.interpreters
  have hran : i ∈ (b.runScripts project).world.stage.interpreters := by
    rw [hroutes, interpreters_runInterpreters project hfit]
    exact List.mem_filter.2 ⟨h, by simp [live]⟩
  generalize b.runScripts project = ran at hran stays
  exact List.mem_filter.2 ⟨hran, (Bool.or_eq_true _ _).mpr stays⟩

end Session

namespace Turn

/-- A script that is listed has its turn in the next tick. -/
theorem exists_turn (s : Session) (input : Input) {i : Interpreter}
    (h : i ∈ s.world.stage.interpreters) :
    ∃ τ : Turn project, τ.session = s ∧ τ.input = input ∧ τ.script = i := by
  obtain ⟨w, hsame, hopened⟩ := s.opened_beforeScripts project input
  rw [← hsame.stage.interpreters] at h
  replace h := hopened.interpreters.subset h
  have hturns : ∃ l, s.turns project input = Interpreter.turnsOfAll project
      (s.beforeScripts project input).world.stage.interpreters
      (s.beforeScripts project input).withoutInterpreters ++ l := ⟨_, rfl⟩
  clear hopened
  generalize s.beforeScripts project input = b at h hturns
  obtain ⟨l, hturns⟩ := hturns
  have hmem : i ∈ (Interpreter.turnsOfAll project b.world.stage.interpreters
      b.withoutInterpreters).map (·.1) := by
    rw [Interpreter.map_fst_turnsOfAll]
    exact h
  obtain ⟨⟨i', found⟩, hturn, rfl⟩ := List.mem_map.1 hmem
  obtain ⟨earlier, later, hsplit⟩ := List.append_of_mem hturn
  have hmine : s.turns project input = earlier ++ (i', found) :: (later ++ l) := by
    rw [hturns, hsplit, List.append_assoc, List.cons_append]
  exact ⟨⟨s, input, earlier, i', found, _, hmine⟩, rfl, rfl, rfl⟩

/-- A script that is no route has its turn before routes have theirs. -/
theorem left_mem_ran (τ : Turn project) (registry : (Moment.still τ.session).Registry)
    (roster : τ.session.world.Roster) (kind : τ.script.kind ≠ .route) :
    τ.left.1 ∈ ((τ.session.beforeScripts project τ.input).interpretersRan project).1 := by
  have hregistry := Session.registry_beforeScripts registry project τ.input
  have hroster := Session.roster_beforeScripts roster project τ.input
  have hturn := τ.isTurn
  unfold Session.turns at hturn
  generalize τ.session.beforeScripts project τ.input = b at hturn hregistry hroster
  have hfit := Session.fit_interpreters hregistry
  rcases split_of_append hturn with ⟨mid, hscripts, _⟩ | ⟨mid, _, hroutes⟩
  · rw [Session.interpretersRan, ← Interpreter.map_turnsOfAll, hscripts]
    exact List.mem_map.2 ⟨(τ.script, τ.found), by simp, rfl⟩
  · have hroster' := Session.roster_runInterpreters project hfit hroster
    generalize b.runInterpreters project = b' at hroutes hroster'
    have hmem : τ.script ∈ (Interpreter.turnsOfAll project b'.world.stage.routes
        b'.withoutRoutes).map (·.1) := by
      rw [hroutes]
      simp
    rw [Interpreter.map_fst_turnsOfAll] at hmem
    exact absurd (hroster'.routeKinds _ hmem).1 kind

/-- The script is not dropped before the next tick: the player has to wait for it, or it is in the
room where the player stays. -/
def Stays (τ : Turn project) (acts : List Act) : Prop :=
  τ.script.isBlocking = true ∨
    τ.script.kind ≠ .route ∧
      τ.script.isIn τ.afterTick.world.stage.mapId τ.afterTick.world.stage.roomId = true ∧
      ∀ roomId t dir, .transfer roomId t dir ∉ acts

/-- A script that is not dropped, and that has not ended, has its next turn in the next tick. -/
theorem exists_next {s₀ : Session} (begins : Session.Begins project s₀) (τ : Turn project)
    {past : List Act} (game : τ.session = s₀.after project past) {acts : List Act}
    (noTick : ∀ input, .tick input ∉ acts) (stays : τ.Stays acts)
    (live : τ.left.1.terminated = false) (input : Input) :
    ∃ τ' : Turn project, τ'.session = τ.afterTick.after project acts ∧ τ'.input = input ∧
      τ'.script = τ.left.1 := by
  have hregistry : (Moment.still τ.session).Registry :=
    game ▸ Session.registry_after begins.registry past
  have hroster : τ.session.world.Roster :=
    game ▸ Session.roster_after begins.roster begins.registry past
  have hkind : τ.script.kind ≠ .route := by
    rcases stays with blocking | ⟨hkind, _⟩
    · intro hroute
      rw [Interpreter.isBlocking, hroute] at blocking
      cases blocking
    · exact hkind
  have hran := τ.left_mem_ran hregistry hroster hkind
  have horigin : τ.left.1.origin = τ.script.origin := τ.script.origin_run τ.found stepLimit
  rw [Stays, ← Interpreter.isBlocking_eq_of_origin horigin,
    ← Interpreter.isIn_eq_of_origin horigin] at stays
  have hafter : τ.left.1 ∈ τ.afterTick.world.stage.interpreters :=
    Session.stays_update hregistry hroster τ.input (stays.imp_right fun h => h.2.1) live hran
  exact exists_turn _ input
    (Session.stays_after acts noTick (stays.imp_right fun h => h.2.2) hafter)

end Turn

end Adventure
