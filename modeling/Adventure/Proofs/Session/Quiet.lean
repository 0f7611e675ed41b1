import Mathlib.Algebra.Order.Group.Multiset
import Mathlib.Tactic.GCongr
import Adventure.Proofs.Platform.Traffic
import Adventure.Proofs.Session.Changes

/-!
# What scripts share

The scripts of a game share the windows, the platform and the queue of saves, and they start each
other.  Most of what happens in a game has nothing to do with any of this: `World.Quiet` and
`Platform.Silent` say so.  Scripts may be started and dropped even then, but those that run on are
the same as before.
-/

namespace Adventure

/-! ## Scripts -/

/-- A script at its beginning, with nothing to wait for. -/
structure Interpreter.IsFresh (i : Interpreter) : Prop where
  wait : i.wait = .none
  pending : i.pending = none
  walk : i.walk = none

theorem Interpreter.isFresh_start (id : Nat) (mapId roomId eventId : Int32) (kind : InterpreterKind)
    (script : Script) : (start id mapId roomId eventId kind script).IsFresh := ⟨rfl, rfl, rfl⟩

theorem Interpreter.isFresh_startRoute (id : Nat) (mapId roomId : Int32) (route : RouteState)
    (body : Script) : (startRoute id mapId roomId route body).IsFresh := ⟨rfl, rfl, rfl⟩

/-- All scripts on a stage, in no order. -/
def Stage.scripts (s : Stage) : Multiset Interpreter := ↑s.interpreters + ↑s.routes

theorem Stage.mem_scripts_of_interpreter {s : Stage} {i : Interpreter} (h : i ∈ s.interpreters) :
    i ∈ s.scripts := Multiset.mem_add.2 (.inl (Multiset.mem_coe.2 h))

/-- Scripts that were started while the last id went from one number to another. -/
structure StartedBetween (last last' : Nat) (started : List Interpreter) : Prop where
  le : last ≤ last'
  fresh : ∀ i ∈ started, i.IsFresh
  increasing : (started.map (·.id)).Pairwise (· < ·)
  bounds : ∀ i ∈ started, last < i.id ∧ i.id ≤ last'

namespace StartedBetween

theorem nil {last last' : Nat} (h : last ≤ last') : StartedBetween last last' [] :=
  ⟨h, by simp, by simp, by simp⟩

theorem single {last : Nat} {i : Interpreter} (hid : i.id = last + 1) (h : i.IsFresh) :
    StartedBetween last (last + 1) [i] := by
  refine ⟨Nat.le_succ last, ?_, by simp, ?_⟩
  · simpa using h
  · simp [hid]

theorem append {a b c : Nat} {first more : List Interpreter} (hfirst : StartedBetween a b first)
    (hmore : StartedBetween b c more) : StartedBetween a c (first ++ more) := by
  refine ⟨hfirst.le.trans hmore.le, ?_, ?_, ?_⟩
  · simp only [List.mem_append]
    rintro i (hi | hi)
    · exact hfirst.fresh i hi
    · exact hmore.fresh i hi
  · rw [List.map_append, List.pairwise_append]
    refine ⟨hfirst.increasing, hmore.increasing, ?_⟩
    simp only [List.mem_map, forall_exists_index, and_imp, forall_apply_eq_imp_iff₂]
    intro i hi j hj
    exact (hfirst.bounds i hi).2.trans_lt (hmore.bounds j hj).1
  · simp only [List.mem_append]
    rintro i (hi | hi)
    · exact ⟨(hfirst.bounds i hi).1, (hfirst.bounds i hi).2.trans hmore.le⟩
    · exact ⟨hfirst.le.trans_lt (hmore.bounds i hi).1, (hmore.bounds i hi).2⟩

end StartedBetween

/-- The scripts of one stage are those of another, of which some were dropped, and new ones. -/
def Stage.Recruits (last last' : Nat) (s s' : Stage) : Prop :=
  ∃ started, StartedBetween last last' started ∧ s'.scripts ≤ s.scripts + ↑started

namespace Stage.Recruits

variable {last last' last'' : Nat} {s s' s'' : Stage}

theorem of_le (h : s'.scripts ≤ s.scripts) : Recruits last last s s' :=
  ⟨[], .nil le_rfl, by simpa using h⟩

theorem trans (first : Recruits last last' s s') (more : Recruits last' last'' s' s'') :
    Recruits last last'' s s'' := by
  obtain ⟨started, hstarted, hle⟩ := first
  obtain ⟨others, hothers, hle'⟩ := more
  refine ⟨started ++ others, hstarted.append hothers, ?_⟩
  rw [← Multiset.coe_add, ← add_assoc]
  exact hle'.trans (by gcongr)

end Stage.Recruits

/-- Dialogue and saves stay as they are, and scripts are only started and dropped. -/
structure World.Quiet (w w' : World) : Prop where
  windows : w'.windows = w.windows
  saveInFlight : w'.saveInFlight = w.saveInFlight
  scheduledSaves : w'.scheduledSaves = w.scheduledSaves
  scripts : Stage.Recruits w.lastInterpreterId w'.lastInterpreterId w.stage w'.stage

/-- Dialogue and saves stay as they are, and scripts are only started, after the others. -/
structure World.Starts (w w' : World) : Prop where
  windows : w'.windows = w.windows
  saveInFlight : w'.saveInFlight = w.saveInFlight
  scheduledSaves : w'.scheduledSaves = w.scheduledSaves
  routes : w'.stage.routes = w.stage.routes
  interpreters : ∃ started, StartedBetween w.lastInterpreterId w'.lastInterpreterId started ∧
    w'.stage.interpreters = w.stage.interpreters ++ started

/-! ## Stages -/

namespace Stage

variable {project : Project}

theorem interpreters_modifyCharacter (s : Stage) (id : Int32) (change : Character → Character) :
    (s.modifyCharacter id change).interpreters = s.interpreters := by
  unfold modifyCharacter
  split <;> rfl

theorem routes_modifyCharacter (s : Stage) (id : Int32) (change : Character → Character) :
    (s.modifyCharacter id change).routes = s.routes := by
  unfold modifyCharacter
  split <;> rfl

theorem interpreters_showPage (s : Stage) (eventId : Int32) (index : Option Nat) :
    (s.showPage project eventId index).interpreters = s.interpreters := by
  unfold showPage
  split
  · rfl
  · exact interpreters_modifyCharacter _ eventId _

theorem routes_showPage (s : Stage) (eventId : Int32) (index : Option Nat) :
    (s.showPage project eventId index).routes = s.routes := by
  unfold showPage
  split
  · rfl
  · exact routes_modifyCharacter _ eventId _

theorem interpreters_walk (s : Stage) (project : Project) (walk : Walk) (random : Random) :
    (walk.update project s random).2.1.interpreters = s.interpreters := by
  rcases walk.update_stage project s random with hstage | ⟨change, _, hstage⟩
  · rw [hstage]
  · rw [hstage, interpreters_modifyCharacter]

theorem routes_walk (s : Stage) (project : Project) (walk : Walk) (random : Random) :
    (walk.update project s random).2.1.routes = s.routes := by
  rcases walk.update_stage project s random with hstage | ⟨change, _, hstage⟩
  · rw [hstage]
  · rw [hstage, routes_modifyCharacter]

theorem scripts_dropStale (s : Stage) : s.dropStale.scripts ≤ s.scripts :=
  add_le_add (Multiset.coe_le.2 List.filter_sublist.subperm)
    (Multiset.coe_le.2 List.filter_sublist.subperm)

theorem scripts_transfer {s s' : Stage} {roomId : Int32} {t : Tile} {dir : Option Direction}
    (h : s.transfer project roomId t dir = .ok s') : s'.scripts ≤ s.scripts := by
  unfold transfer at h
  split at h
  · cases h
  · obtain rfl := Except.ok.inj h
    exact scripts_dropStale _

theorem scripts_setRoute (s : Stage) (r : Interpreter) :
    (s.setRoute r).scripts ≤ s.scripts + ↑[r] := by
  simp only [scripts, setRoute, ← Multiset.coe_add, ← add_assoc]
  gcongr
  exact Multiset.coe_le.2 List.filter_sublist.subperm

end Stage

/-! ## Worlds -/

namespace World

variable {project : Project} {w w' w'' : World}

/-- Nothing of what scripts share is touched. -/
theorem Starts.of_eq (windows : w'.windows = w.windows)
    (saveInFlight : w'.saveInFlight = w.saveInFlight)
    (scheduledSaves : w'.scheduledSaves = w.scheduledSaves)
    (last : w'.lastInterpreterId = w.lastInterpreterId)
    (interpreters : w'.stage.interpreters = w.stage.interpreters)
    (routes : w'.stage.routes = w.stage.routes) : Starts w w' :=
  ⟨windows, saveInFlight, scheduledSaves, routes, [], .nil last.ge, by simp [interpreters]⟩

theorem Starts.refl (w : World) : Starts w w := .of_eq rfl rfl rfl rfl rfl rfl

theorem Starts.trans (first : Starts w w') (more : Starts w' w'') : Starts w w'' := by
  obtain ⟨started, hstarted, heq⟩ := first.interpreters
  obtain ⟨others, hothers, heq'⟩ := more.interpreters
  refine ⟨more.windows.trans first.windows, more.saveInFlight.trans first.saveInFlight,
    more.scheduledSaves.trans first.scheduledSaves, more.routes.trans first.routes,
    started ++ others, hstarted.append hothers, ?_⟩
  rw [heq', heq, List.append_assoc]

theorem Starts.note (h : Starts w w') (entry : String) : Starts w (w'.note entry) := by
  unfold World.note
  exact h.trans (.of_eq rfl rfl rfl rfl rfl rfl)

theorem Starts.quiet (h : Starts w w') : Quiet w w' := by
  obtain ⟨started, hstarted, heq⟩ := h.interpreters
  refine ⟨h.windows, h.saveInFlight, h.scheduledSaves, started, hstarted, le_of_eq ?_⟩
  rw [Stage.scripts, Stage.scripts, heq, h.routes, ← Multiset.coe_add, add_right_comm]

theorem Quiet.of_eq (windows : w'.windows = w.windows)
    (saveInFlight : w'.saveInFlight = w.saveInFlight)
    (scheduledSaves : w'.scheduledSaves = w.scheduledSaves)
    (last : w'.lastInterpreterId = w.lastInterpreterId)
    (interpreters : w'.stage.interpreters = w.stage.interpreters)
    (routes : w'.stage.routes = w.stage.routes) : Quiet w w' :=
  (Starts.of_eq windows saveInFlight scheduledSaves last interpreters routes).quiet

theorem Quiet.refl (w : World) : Quiet w w := (Starts.refl w).quiet

theorem Quiet.trans (first : Quiet w w') (more : Quiet w' w'') : Quiet w w'' :=
  ⟨more.windows.trans first.windows, more.saveInFlight.trans first.saveInFlight,
    more.scheduledSaves.trans first.scheduledSaves, first.scripts.trans more.scripts⟩

theorem Quiet.note (h : Quiet w w') (entry : String) : Quiet w (w'.note entry) :=
  h.trans ((Starts.refl w').note entry).quiet

/-! ### Characters and pages -/

theorem starts_character (w : World) (id : Int32) (change : Character → Character) :
    Starts w (w.modifyCharacter id change) :=
  .of_eq rfl rfl rfl rfl (Stage.interpreters_modifyCharacter _ id change)
    (Stage.routes_modifyCharacter _ id change)

theorem Quiet.modifyCharacter (h : Quiet w w') (id : Int32) (change : Character → Character) :
    Quiet w (w'.modifyCharacter id change) := h.trans (starts_character w' id change).quiet

theorem starts_refreshPages (w : World) : Starts w (w.refreshPages project) := by
  unfold refreshPages
  refine List.foldlRecOn (motive := fun w' => Starts w w') _ _ (.refl w) fun w' h id _ => ?_
  exact h.trans (.of_eq rfl rfl rfl rfl (Stage.interpreters_showPage _ id _)
    (Stage.routes_showPage _ id _))

theorem quiet_transfer {roomId : Int32} {t : Tile} {dir : Option Direction}
    (h : w.transfer project roomId t dir = .ok w') : Quiet w w' := by
  unfold transfer at h
  split at h
  · cases h
  · next stage hstage =>
    obtain rfl := Except.ok.inj h
    have henter : Quiet w { w with stage := stage } :=
      ⟨rfl, rfl, rfl, .of_le (Stage.scripts_transfer hstage)⟩
    exact (henter.trans (starts_refreshPages _).quiet).note _

/-! ### Events -/

theorem starts_startScript (w : World) (kind : InterpreterKind) (eventId : Int32)
    (script : Script) : Starts w (w.startScript kind eventId script) :=
  ⟨rfl, rfl, rfl, rfl, _, .single rfl (Interpreter.isFresh_start _ _ _ _ _ _), rfl⟩

theorem starts_startEvent (w : World) (eventId : Int32) :
    Starts w (w.startEvent project eventId).2 := by
  unfold startEvent
  split
  · exact .refl _
  · split
    · exact .refl _
    · exact (starts_startScript w _ eventId _).note _

theorem starts_startItem (w : World) (id : Int32) : Starts w (w.startItem project id).2 := by
  unfold startItem
  split
  · exact .refl _
  · split
    · exact .refl _
    · split
      · exact .refl _
      · have hnamed : Starts w { w with inventory := w.inventory.setEventItem id } :=
          .of_eq rfl rfl rfl rfl rfl rfl
        exact (hnamed.trans (starts_startScript _ _ _ _)).note _

theorem starts_startCombine (w : World) (first second : Int32) :
    Starts w (w.startCombine project first second).2 := by
  unfold startCombine
  split
  · exact .refl _
  · split
    · exact .refl _
    · have hnamed : Starts w { w with inventory := w.inventory.setCombineItem second } :=
        .of_eq rfl rfl rfl rfl rfl rfl
      exact (hnamed.trans (starts_startScript _ _ _ _)).note _

theorem starts_startCommonEvent (w : World) (id : Int32) :
    Starts w (w.startCommonEvent project id).2 := by
  unfold startCommonEvent
  split
  · exact .refl _
  · exact (starts_startScript w _ _ _).note _

theorem starts_startHint (w : World) : Starts w (w.startHint project).2 := by
  unfold startHint
  split
  · exact .refl _
  · exact (starts_startScript w _ _ _).note _

theorem starts_startAutomaticEvents (w : World) : Starts w (w.startAutomaticEvents project) := by
  unfold startAutomaticEvents
  refine List.foldlRecOn (motive := fun w' => Starts w w') _ _ (.refl w) fun w' h id _ => ?_
  refine h.trans ?_
  unfold startIfAutomatic
  split
  · exact .refl _
  · split
    · exact .refl _
    · split
      · split
        · exact .refl _
        · exact starts_startEvent w' id
      · exact starts_startEvent w' id
      all_goals exact .refl _

theorem starts_runPlayerEvent (w : World) (target : Tile) :
    Starts w (w.runPlayerEvent project target) := by
  unfold runPlayerEvent
  split
  · exact .refl _
  · dsimp only
    split
    · exact .refl _
    · refine Starts.trans ?_ (starts_startEvent _ _)
      split <;> exact .of_eq rfl rfl rfl rfl rfl rfl

theorem starts_handleTap (w : World) (input : Input) : Starts w (w.handleTap project input) := by
  unfold handleTap
  split
  · exact .refl _
  · split
    · exact .refl _
    · split
      · exact starts_startEvent w _
      · split
        · exact starts_runPlayerEvent w _
        · exact .of_eq rfl rfl rfl rfl rfl rfl

theorem starts_updatePlayerWalk (w : World) : Starts w (w.updatePlayerWalk project) := by
  unfold updatePlayerWalk
  split
  · exact .refl _
  · next walk _ =>
    have hinterpreters :=
      Stage.interpreters_walk { w.stage with playerWalk := none } project walk w.random
    have hroutes := Stage.routes_walk { w.stage with playerWalk := none } project walk w.random
    dsimp only
    split
    · exact .of_eq rfl rfl rfl rfl hinterpreters hroutes
    · split
      · refine Starts.trans ?_ (starts_runPlayerEvent _ _)
        exact .of_eq rfl rfl rfl rfl hinterpreters hroutes
      · exact .of_eq rfl rfl rfl rfl hinterpreters hroutes

end World

/-- What happens before scripts run starts scripts and nothing else that concerns them. -/
theorem Session.starts_startScripts (s : Session) (project : Project) (input : Input) :
    s.world.Starts (s.startScripts project input).world :=
  (((World.starts_refreshPages _).trans (World.starts_startAutomaticEvents _)).trans
    (World.starts_handleTap _ input)).trans (World.starts_updatePlayerWalk _)

end Adventure
