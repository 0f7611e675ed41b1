import Adventure.Interpreter.Run

/-!
# Steps and ticks

A tick makes at most `stepLimit` steps of an interpreter.  Where an interpreter always goes on
until it has terminated, the limit only divides its steps among ticks: enough ticks make all of
them.
-/

namespace Adventure.Interpreter

/-- An interpreter and the session that it runs in. -/
abbrev Config := Interpreter × Session

/-- One step, after which the interpreter goes on in the same tick. -/
def GoesOn (project : Project) (c c' : Config) : Prop := c.1.step c.2 project = (true, c')

/-- So many steps within one tick. -/
inductive Runs (project : Project) : Nat → Config → Config → Prop where
  | refl (c : Config) : Runs project 0 c c
  | step {n : Nat} {c c' c'' : Config} (first : GoesOn project c c')
      (more : Runs project n c' c'') :
      Runs project (n + 1) c c''

/-- Some steps within one tick. -/
def RunsTo (project : Project) (c c' : Config) : Prop := ∃ n, Runs project n c c'

/-- The interpreter goes on until it has terminated. -/
def Ends (project : Project) (c c' : Config) : Prop :=
  ∃ last, RunsTo project c last ∧ last.1.step last.2 project = (false, c') ∧
    c'.1.terminated = true

/-- So many ticks in which nothing else happens. -/
def ticks (project : Project) : Nat → Config → Config
  | 0, c => c
  | n + 1, c => ticks project n (c.1.update c.2 project)

section Steps

variable {project : Project} {c c' c'' : Config}

theorem Runs.trans {n m : Nat} (first : Runs project n c c') (more : Runs project m c' c'') :
    Runs project (n + m) c c'' := by
  induction first with
  | refl _ => rwa [Nat.zero_add]
  | @step n _ _ _ head _ ih =>
    rw [Nat.add_right_comm]
    exact .step head (ih more)

theorem RunsTo.refl (c : Config) : RunsTo project c c := ⟨0, .refl c⟩

theorem GoesOn.runsTo (h : GoesOn project c c') : RunsTo project c c' := ⟨1, .step h (.refl c')⟩

theorem RunsTo.trans (first : RunsTo project c c') (more : RunsTo project c' c'') :
    RunsTo project c c'' := by
  obtain ⟨n, hn⟩ := first
  obtain ⟨m, hm⟩ := more
  exact ⟨n + m, hn.trans hm⟩

theorem RunsTo.ends (first : RunsTo project c c') (more : Ends project c' c'') :
    Ends project c c'' := by
  obtain ⟨last, hruns, hlast⟩ := more
  exact ⟨last, first.trans hruns, hlast⟩

/-! ## The limit of a tick -/

/-- A tick that is long enough makes these steps first. -/
theorem Runs.run_eq {n : Nat} (h : Runs project n c c') (more : Nat) :
    run project (n + more) c.1 c.2 = run project more c'.1 c'.2 := by
  induction h with
  | refl _ => rw [Nat.zero_add]
  | @step n _ _ _ head _ ih =>
    rw [Nat.add_right_comm, run, head]
    exact ih

/-- Any number of the first steps can be told apart. -/
theorem Runs.split {first more : Nat} (h : Runs project (first + more) c c'') :
    ∃ c', Runs project first c c' ∧ Runs project more c' c'' := by
  induction first generalizing c with
  | zero => exact ⟨c, .refl c, by rwa [Nat.zero_add] at h⟩
  | succ first ih =>
    rw [Nat.add_right_comm] at h
    cases h with
    | step head rest =>
      obtain ⟨c', hfirst, hmore⟩ := ih rest
      exact ⟨c', .step head hfirst, hmore⟩

/-- An interpreter that has terminated does nothing any more. -/
theorem ticks_of_terminated (h : c.1.terminated = true) (n : Nat) : ticks project n c = c := by
  have hupdate : c.1.update c.2 project = c := by
    show run project (999 + 1) c.1 c.2 = c
    simp [run, step, h]
  induction n with
  | zero => rfl
  | succ n ih => rw [ticks, hupdate, ih]

/-- Steps that lead to the end are made in so many ticks, wherever the limit cuts them. -/
theorem Ends.exists_ticks (h : Ends project c c') :
    ∃ enough, ∀ n, enough ≤ n → ticks project n c = c' := by
  obtain ⟨last, ⟨steps, hruns⟩, hlast, hterminated⟩ := h
  induction steps using Nat.strongRecOn generalizing c with
  | ind steps ih =>
    by_cases hfits : steps < stepLimit
    · have hupdate : c.1.update c.2 project = c' := by
        obtain ⟨more, hmore⟩ : ∃ more, stepLimit = steps + (more + 1) :=
          ⟨stepLimit - steps - 1, by omega⟩
        rw [update, hmore, hruns.run_eq, run, hlast]
      refine ⟨1, fun n hn => ?_⟩
      obtain ⟨later, rfl⟩ : ∃ later, n = later + 1 := ⟨n - 1, by omega⟩
      rw [ticks, hupdate, ticks_of_terminated hterminated]
    · -- the limit cuts the run: this tick makes the first steps, and fewer are left
      obtain ⟨more, rfl⟩ : ∃ more, steps = stepLimit + more := ⟨steps - stepLimit, by omega⟩
      obtain ⟨cut, hfirst, hrest⟩ := hruns.split
      have hupdate : c.1.update c.2 project = cut := by
        have hrun := hfirst.run_eq 0
        rwa [Nat.add_zero, run] at hrun
      obtain ⟨enough, henough⟩ := ih more (by simp only [stepLimit]; omega) hrest
      refine ⟨enough + 1, fun n hn => ?_⟩
      obtain ⟨later, rfl⟩ : ∃ later, n = later + 1 := ⟨n - 1, by omega⟩
      rw [ticks, hupdate]
      exact henough later (by omega)

end Steps

end Adventure.Interpreter
