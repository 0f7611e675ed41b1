import Adventure.Proofs.Session.Registry
import Adventure.Proofs.Session.Stirs

/-!
# Taking turns

The scripts of a stage take turns off it, one after the other.  Each of them runs once and stays
what it is, and what the turns do to the cast and to the room is a row of stirs.
-/

namespace Adventure

variable {project : Project}

/-! ## Lines of moments -/

namespace Moment

/-- Moments from one to another, each in a relation to the next. -/
inductive Line (R : Moment → Moment → Prop) : Moment → List Moment → Moment → Prop where
  | nil (m : Moment) : Line R m [] m
  | cons {m m' last : Moment} {moments : List Moment} (first : R m m')
      (more : Line R m' moments last) : Line R m (m' :: moments) last

variable {R R' : Moment → Moment → Prop} {m m' m'' : Moment} {moments : List Moment}

namespace Line

theorem single (h : R m m') : Line R m [m'] m' := .cons h (.nil m')

theorem append {first more : List Moment} (h : Line R m first m') (h' : Line R m' more m'') :
    Line R m (first ++ more) m'' := by
  induction h with
  | nil => exact h'
  | cons first _ ih => exact .cons first (ih h')

/-- Moments in a relation are in another one, which may depend on what is kept meanwhile. -/
theorem imp {P : Moment → Prop} (h : Line R m moments m') (start : P m)
    (keeps : ∀ a b, R a b → P a → P b) (imp : ∀ a b, P a → R a b → R' a b) :
    Line R' m moments m' := by
  induction h with
  | nil => exact .nil _
  | cons first _ ih => exact .cons (imp _ _ start first) (ih (keeps _ _ first start))

theorem last_mem (h : Line R m moments m') : m' ∈ m :: moments := by
  induction h with
  | nil => exact List.mem_cons_self
  | cons _ _ ih => exact List.mem_cons_of_mem _ ih

theorem isChain (h : Line R m moments m') : (m :: moments).IsChain R := by
  induction h with
  | nil => exact .singleton _
  | cons first _ ih => exact .cons_cons first ih

/-- The moments after one of them go on from it. -/
theorem rest (h : Line R m moments m') {before later : List Moment} {a : Moment}
    (here : m :: moments = before ++ a :: later) : Line R a later m' := by
  induction h generalizing before with
  | nil m =>
    obtain ⟨rfl, hmore⟩ | ⟨before, rfl, hmore⟩ := List.cons_eq_append_iff.1 here
    · obtain ⟨rfl, rfl⟩ := List.cons.inj hmore
      exact .nil a
    · exact absurd hmore (by simp)
  | cons first more ih =>
    obtain ⟨rfl, hmore⟩ | ⟨before, rfl, hmore⟩ := List.cons_eq_append_iff.1 here
    · obtain ⟨rfl, rfl⟩ := List.cons.inj hmore
      exact .cons first more
    · exact ih hmore

/-- What holds in a moment and is kept from each to the next holds in all of them. -/
theorem invariant {P : Moment → Prop} (h : Line R m moments m') (start : P m)
    (keeps : ∀ a b, R a b → P a → P b) : ∀ a ∈ m :: moments, P a := by
  induction h with
  | nil => simpa using start
  | cons first _ ih => exact List.forall_mem_cons.2 ⟨start, ih (keeps _ _ first start)⟩

/-- What holds in a moment and no longer in a later one ceases from one moment to the next. -/
theorem exists_cease {P : Moment → Prop} (h : Line R m moments m') (start : P m) (stop : ¬ P m') :
    ∃ a ∈ m :: moments, ∃ b ∈ moments, R a b ∧ P a ∧ ¬ P b := by
  induction h with
  | nil => exact absurd start stop
  | @cons m b last moments first _ ih =>
    by_cases hb : P b
    · obtain ⟨a, ha, c, hc, hcease⟩ := ih hb stop
      exact ⟨a, List.mem_cons_of_mem _ ha, c, List.mem_cons_of_mem _ hc, hcease⟩
    · exact ⟨m, List.mem_cons_self, b, List.mem_cons_self, first, start, hb⟩

end Line

/-! ## Turns, moment by moment -/

/-- The script whose turn it is makes a step, or it is the turn of the next one. -/
inductive Works (project : Project) : Moment → Moment → Prop where
  | step (s : Session) (ran : List Interpreter) (i : Interpreter) (rest : List Interpreter) :
      Works project ⟨s, ran, i :: rest⟩
        ⟨(i.step s project).2.2, ran, (i.step s project).2.1 :: rest⟩
  | yield (s : Session) (ran : List Interpreter) (i : Interpreter) (rest : List Interpreter) :
      Works project ⟨s, ran, i :: rest⟩ ⟨s, ran ++ [i], rest⟩

/-- The scripts that are off the stage are as they should be while they run. -/
def Fit (m : Moment) : Prop := ∀ i ∈ m.off, i.terminated = false → i.Coherent

end Moment

open Moment (Line Works)

theorem Interpreter.line_steps (ran rest : List Interpreter) (n : Nat) (i : Interpreter)
    (s : Session) :
    Line (Works project) ⟨s, ran, i :: rest⟩
      ((i.steps project n s).map fun (j, t) => ⟨t, ran, j :: rest⟩)
      ⟨(run project n i s).2, ran, (run project n i s).1 :: rest⟩ := by
  induction n generalizing i s with
  | zero => exact .nil _
  | succ n ih =>
    have hstep : Works project ⟨s, ran, i :: rest⟩ _ := .step s ran i rest
    unfold run steps
    rcases hresult : i.step s project with ⟨goesOn, i', s'⟩
    rw [hresult] at hstep
    cases goesOn with
    | false => exact .single hstep
    | true => exact .cons hstep (ih i' s')

theorem Moment.line_turns (ran turn : List Interpreter) (s : Session) :
    Line (Works project) ⟨s, ran, turn⟩ (turns project ran turn s)
      ⟨(Interpreter.updateAll project turn s).2,
        ran ++ (Interpreter.updateAll project turn s).1, []⟩ := by
  induction turn generalizing ran s with
  | nil =>
    simp only [turns, Interpreter.updateAll, List.append_nil]
    exact .nil _
  | cons i rest ih =>
    simp only [turns, Interpreter.updateAll]
    refine (i.line_steps ran rest stepLimit s).append (.cons (.yield _ ran _ rest) ?_)
    simpa using ih (ran ++ [(i.update s project).1]) (i.update s project).2

/-! ## What turns lead to -/

/-- Any number of stirs. -/
def World.Stirred : World → World → Prop := Relation.ReflTransGen World.Stir

/-- What turns have led to, from one moment to a later one: scripts stay what they are, and what
happened on the stage are stirs.  Routes do not even do that. -/
structure Moment.Worked (m m' : Moment) : Prop where
  origins : m'.off.map Interpreter.origin = m.off.map Interpreter.origin
  world : m.session.world.Stirred m'.session.world
  routes : (∀ i ∈ m.off, i.kind = .route) → m.session.world.SameCast m'.session.world

namespace Moment

variable {m m' m'' : Moment}

theorem Worked.refl (m : Moment) : m.Worked m := ⟨rfl, .refl, fun _ => .refl _⟩

theorem kind_of_origins (origins : m'.off.map Interpreter.origin = m.off.map Interpreter.origin)
    {kind : InterpreterKind} (h : ∀ i ∈ m.off, i.kind = kind) : ∀ i ∈ m'.off, i.kind = kind := by
  intro i hi
  have horigin : i.origin ∈ m.off.map Interpreter.origin := origins ▸ List.mem_map_of_mem hi
  obtain ⟨j, hj, heq⟩ := List.mem_map.1 horigin
  exact (Interpreter.kind_eq_of_origin heq).symm.trans (h j hj)

theorem Worked.trans (first : m.Worked m') (more : m'.Worked m'') : m.Worked m'' := by
  refine ⟨more.origins.trans first.origins, first.world.trans more.world, fun h => ?_⟩
  exact (first.routes h).trans (more.routes (kind_of_origins first.origins h))

/-- The script whose turn it is stirs the stage, if anyone does. -/
theorem Works.stir (h : Works project m m') (fit : m.Fit) :
    m.session.world.Stir m'.session.world := by
  cases h with
  | step s ran i rest =>
    have hmem : i ∈ (Moment.mk s ran (i :: rest)).off :=
      List.mem_append.2 (.inr List.mem_cons_self)
    have hstirs : i.StirsTo project s (i.step s project).2 := Interpreter.stirsTo_step (fit i hmem)
    exact hstirs.world
  | yield s ran i rest => exact .aside (.refl _)

theorem Works.worked (h : Works project m m') (fit : m.Fit) : m.Worked m' ∧ m'.Fit := by
  cases h with
  | step s ran i rest =>
    have hmem : i ∈ (Moment.mk s ran (i :: rest)).off :=
      List.mem_append.2 (.inr List.mem_cons_self)
    have hstirs : i.StirsTo project s (i.step s project).2 := Interpreter.stirsTo_step (fit i hmem)
    refine ⟨⟨?_, .single hstirs.world, fun h => hstirs.route (h i hmem)⟩, fun j hj => ?_⟩
    · simp only [off, List.map_append, List.map_cons, hstirs.origin]
    · obtain ⟨_, hcoherent⟩ : i.GoesTo project s (i.step s project).2 :=
        Interpreter.goesTo_step (fit i hmem)
      rcases List.mem_append.1 hj with hran | hturn
      · exact fit j (List.mem_append.2 (.inl hran))
      · rcases List.mem_cons.1 hturn with rfl | hrest
        · exact hcoherent
        · exact fit j (List.mem_append.2 (.inr (List.mem_cons_of_mem _ hrest)))
  | yield s ran i rest =>
    have hoff : (Moment.mk s (ran ++ [i]) rest).off = (Moment.mk s ran (i :: rest)).off := by
      simp [off]
    refine ⟨⟨by rw [hoff], .refl, fun _ => .refl _⟩, fun j hj => fit j (hoff ▸ hj)⟩

/-- Whatever moment of the turns comes, turns have led there. -/
theorem Line.worked {moments : List Moment} (h : Line (Works project) m moments m') (fit : m.Fit) :
    ∀ a ∈ m :: moments, m.Worked a ∧ a.Fit :=
  h.invariant ⟨.refl m, fit⟩ fun a b hworks ⟨hworked, hfit⟩ => by
    obtain ⟨hworked', hfit'⟩ := hworks.worked hfit
    exact ⟨hworked.trans hworked', hfit'⟩

end Moment

namespace Interpreter

/-- What turns lead to once all are over. -/
theorem worked_updateAll {turn : List Interpreter} (s : Session)
    (fit : ∀ i ∈ turn, i.terminated = false → i.Coherent) :
    Moment.Worked ⟨s, [], turn⟩
      ⟨(updateAll project turn s).2, (updateAll project turn s).1, []⟩ := by
  have hline : Line (Works project) ⟨s, [], turn⟩ _ _ := Moment.line_turns [] turn s
  exact (hline.worked fit _ hline.last_mem).1

/-- Scripts take turns: each runs for a tick, once, on what the one before it left. -/
inductive Turns (project : Project) :
    Session → List (Interpreter × Interpreter) → Session → Prop where
  | nil (s : Session) : Turns project s [] s
  | cons {s s' : Session} {i : Interpreter} {turns : List (Interpreter × Interpreter)}
      (more : Turns project (i.update s project).2 turns s') :
      Turns project s ((i, (i.update s project).1) :: turns) s'

theorem length_updateAll (turn : List Interpreter) (s : Session) :
    (updateAll project turn s).1.length = turn.length := by
  induction turn generalizing s with
  | nil => rfl
  | cons i rest ih => simp [updateAll, ih]

theorem turns_updateAll (turn : List Interpreter) (s : Session) :
    Turns project s (turn.zip (updateAll project turn s).1) (updateAll project turn s).2 := by
  induction turn generalizing s with
  | nil => exact .nil s
  | cons i rest ih => exact .cons (ih _)

end Interpreter

end Adventure
