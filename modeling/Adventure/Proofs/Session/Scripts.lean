import Adventure.Proofs.Session.Changes

/-!
# Scripts under way

Whatever runs in a game is a script of the project or a part of one.  So a property that the scripts
of a project have, and with each script the scripts in it, holds of every list of commands that an
interpreter has entered.
-/

namespace Adventure

/-- A property that the scripts of a project have, and with each script the scripts in it. -/
structure Project.Inherits (project : Project) (P : Script → Prop) : Prop where
  owned (entry : ScriptOwner × Script) (h : entry ∈ project.scripts) : P entry.2
  branch {script branch : Script} {command : Command} (h : P script) (hc : command ∈ script)
    (hb : branch ∈ command.branches) : P branch
  body {script body : Script} {order : RouteOrder} {branches : List Script} (h : P script)
    (hc : .route order body branches ∈ script) : P body

/-- Whether the lists that an interpreter has entered have a property. -/
def Interpreter.Holds (P : Script → Prop) (i : Interpreter) : Prop := ∀ f ∈ i.frames, P f.commands

/-- Whether the lists that the interpreters of a stage have entered have a property. -/
structure Stage.Holds (P : Script → Prop) (s : Stage) : Prop where
  interpreters : ∀ i ∈ s.interpreters, i.Holds P
  routes : ∀ r ∈ s.routes, r.Holds P

variable {project : Project} {P : Script → Prop}

/-! ## Scripts of the project -/

theorem Project.inherits_true (project : Project) : project.Inherits fun _ => True :=
  ⟨fun _ _ => trivial, fun _ _ _ => trivial, fun _ _ => trivial⟩

namespace Project.Inherits

variable (h : project.Inherits P)

include h

theorem page {mapId roomId eventId : Int32} {e : EventData} {p : Page}
    (he : project.event? mapId roomId eventId = some e) (hp : p ∈ e.pages) : P p.commands := by
  obtain ⟨r, hr, he⟩ := Option.bind_eq_some_iff.1 he
  obtain ⟨d, hd, hr⟩ := Option.bind_eq_some_iff.1 hr
  obtain ⟨index, hindex⟩ := List.mem_iff_getElem?.1 hp
  have hmem : (ScriptOwner.page d.id r.id e.id index, p.commands) ∈ project.scripts := by
    simp only [scripts, List.mem_append, List.mem_flatMap, List.mem_map]
    refine .inl (.inl (.inl (.inl ⟨d, List.mem_of_find?_eq_some hd, r, List.mem_of_find?_eq_some hr,
      e, List.mem_of_find?_eq_some he, (p, index), ?_, rfl⟩)))
    exact List.mem_zipIdx_iff_getElem?.2 hindex
  exact h.owned _ hmem

theorem item {id : Int32} {i : Item} (hi : project.item? id = some i) : P i.commands := by
  refine h.owned (.item i.id, i.commands) ?_
  have hmem := List.mem_of_find?_eq_some hi
  simp only [scripts, List.mem_append, List.mem_map]
  exact .inl (.inl (.inl (.inr ⟨i, hmem, rfl⟩)))

theorem combine {first second : Int32} {c : Combine} (hc : project.combine? first second = some c) :
    P c.commands := by
  refine h.owned (.combine c.id, c.commands) ?_
  have hmem := List.mem_of_find?_eq_some hc
  simp only [scripts, List.mem_append, List.mem_map]
  exact .inl (.inl (.inr ⟨c, hmem, rfl⟩))

theorem commonEvent {id : Int32} {e : CommonEvent} (he : project.commonEvent? id = some e) :
    P e.commands := by
  refine h.owned (.commonEvent e.id, e.commands) ?_
  have hmem := List.mem_of_find?_eq_some he
  simp only [scripts, List.mem_append, List.mem_map]
  exact .inl (.inr ⟨e, hmem, rfl⟩)

theorem hint {id : Int32} {t : Hint} (ht : project.hint? id = some t) : P t.commands := by
  refine h.owned (.hint t.id, t.commands) ?_
  have hmem := List.mem_of_find?_eq_some ht
  simp only [scripts, List.mem_append, List.mem_map]
  exact .inr ⟨t, hmem, rfl⟩

theorem shownPage {s : Stage} {eventId : Int32} {p : Page}
    (hp : s.page? project eventId = some p) : P p.commands := by
  unfold Stage.page? at hp
  split at hp
  · cases hp
  · obtain ⟨e, he, hp⟩ := Option.bind_eq_some_iff.1 hp
    exact h.page he (List.mem_of_getElem? hp)

end Project.Inherits

/-! ## Stages -/

namespace Stage.Holds

variable {s s' : Stage}

theorem congr (h : s.Holds P) (interpreters : s'.interpreters = s.interpreters)
    (routes : s'.routes = s.routes) : s'.Holds P :=
  ⟨interpreters ▸ h.interpreters, routes ▸ h.routes⟩

theorem modifyCharacter (h : s.Holds P) (id : Int32) (change : Character → Character) :
    (s.modifyCharacter id change).Holds P := by
  unfold Stage.modifyCharacter
  split <;> exact h.congr rfl rfl

theorem showPage (h : s.Holds P) (eventId : Int32) (index : Option Nat) :
    (s.showPage project eventId index).Holds P := by
  unfold Stage.showPage
  split
  · exact h
  · refine modifyCharacter ?_ eventId _
    exact h.congr rfl rfl

theorem walk (h : s.Holds P) (project : Project) (walk : Walk) (random : Random) :
    (walk.update project s random).2.1.Holds P := by
  rcases walk.update_stage project s random with hstage | ⟨change, _, hstage⟩
  · rw [hstage]
    exact h
  · rw [hstage]
    exact h.modifyCharacter walk.eventId change

theorem dropStale (h : s.Holds P) : s.dropStale.Holds P :=
  ⟨fun i hi => h.interpreters i (List.mem_filter.1 hi).1,
    fun r hr => h.routes r (List.mem_filter.1 hr).1⟩

theorem addInterpreter (h : s.Holds P) {i : Interpreter} (hi : i.Holds P) :
    (s.addInterpreter i).Holds P := by
  refine ⟨fun j hj => ?_, h.routes⟩
  rcases List.mem_append.1 hj with hj | hj
  · exact h.interpreters j hj
  · exact List.mem_singleton.1 hj ▸ hi

theorem setRoute (h : s.Holds P) {r : Interpreter} (hr : r.Holds P) : (s.setRoute r).Holds P := by
  refine ⟨h.interpreters, fun q hq => ?_⟩
  rcases List.mem_append.1 hq with hq | hq
  · exact h.routes q (List.mem_filter.1 hq).1
  · exact List.mem_singleton.1 hq ▸ hr

theorem mergeInterpreters (h : s.Holds P) {ran : List Interpreter} (hran : ∀ i ∈ ran, i.Holds P) :
    (s.mergeInterpreters ran).Holds P := by
  refine ⟨fun i hi => ?_, h.routes⟩
  rcases List.mem_append.1 hi with hi | hi
  · exact hran i (List.mem_filter.1 hi).1
  · exact h.interpreters i hi

theorem mergeRoutes (h : s.Holds P) {ran : List Interpreter} (hran : ∀ r ∈ ran, r.Holds P) :
    (s.mergeRoutes ran).Holds P := by
  refine ⟨h.interpreters, fun r hr => ?_⟩
  rcases List.mem_append.1 hr with hr | hr
  · exact hran r (List.mem_filter.1 hr).1
  · exact h.routes r hr

theorem transfer (h : s.Holds P) {roomId : Int32} {t : Tile} {dir : Option Direction}
    (entered : s.transfer project roomId t dir = .ok s') : s'.Holds P := by
  unfold Stage.transfer at entered
  split at entered
  · cases entered
  · obtain rfl := Except.ok.inj entered
    refine dropStale ?_
    exact h.congr rfl rfl

end Stage.Holds

/-! ## Interpreters -/

namespace Interpreter

variable {i : Interpreter}

theorem Holds.of_frames {j : Interpreter} (h : i.Holds P) (frames : j.frames = i.frames) :
    j.Holds P := fun f hf => h f (frames ▸ hf)

theorem Holds.modifyFrame (h : i.Holds P) {change : Frame → Frame}
    (hchange : ∀ f, (change f).commands = f.commands) : (i.modifyFrame change).Holds P := by
  unfold Interpreter.modifyFrame
  split
  · next f rest hframes =>
    intro g hg
    rcases List.mem_cons.1 hg with rfl | hg
    · rw [hchange]
      exact h f (hframes ▸ List.mem_cons_self)
    · exact h g (hframes ▸ List.mem_cons_of_mem _ hg)
  · exact h

theorem Holds.advance (h : i.Holds P) : i.advance.Holds P := h.modifyFrame fun _ => rfl

theorem Holds.jump (h : i.Holds P) (index : Nat) : (i.jump index).Holds P :=
  h.modifyFrame fun _ => rfl

theorem Holds.push (h : i.Holds P) {frame : Frame} (hframe : P frame.commands) :
    (i.push frame).Holds P := List.forall_mem_cons.2 ⟨hframe, h⟩

theorem Holds.leave (h : i.Holds P) : i.leave.Holds P := by
  unfold Interpreter.leave
  split
  · next f rest hframes =>
    intro g hg
    have hmem : g ∈ i.frames.dropWhile fun f => f.kind ≠ .call :=
      hframes ▸ List.mem_cons_of_mem _ hg
    exact h g ((List.dropWhile_sublist _).subset hmem)
  · exact fun _ hf => by cases hf

theorem Holds.finishFrame (h : i.Holds P) : i.finishFrame.2.Holds P := by
  unfold Interpreter.finishFrame
  split
  · next f next rest hframes => exact fun g hg => h g (hframes ▸ List.mem_cons_of_mem _ hg)
  · split
    · exact h.jump 0
    · exact fun _ hf => by cases hf

end Interpreter

end Adventure
