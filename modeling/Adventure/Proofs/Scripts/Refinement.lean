import Adventure.Proofs.Scripts.Meaning
import Adventure.Proofs.Scripts.Ticks

/-!
# The stack of an interpreter

An interpreter keeps its place in nested lists on a stack, and it may have to stop after any
command because its tick is over.  It still does what its script means: wherever the meaning
descends into a branch or a call, the interpreter pushes a list, and it has popped it again by the
time the meaning comes back.
-/

namespace Adventure.Interpreter

/-- Nothing keeps the interpreter from running its next command. -/
structure Ready (i : Interpreter) : Prop where
  wait : i.wait = .none
  walk : i.walk = none
  terminated : i.terminated = false

/-- The interpreter with another stack. -/
def withFrames (i : Interpreter) (frames : List Frame) : Interpreter := { i with frames }

section Steps

variable {i : Interpreter} {s : Session} {project : Project} {frames : List Frame}

/-- An interpreter that is ready runs a command. -/
theorem Ready.step_eq (h : i.Ready) :
    (i.withFrames frames).step s project = (i.withFrames frames).runCommand s project := by
  obtain ⟨hwait, hwalk, hterminated⟩ := h
  cases i
  simp only at hwait hwalk hterminated
  subst hwait hwalk hterminated
  rfl

/-- The step of a command depends on what the command does. -/
theorem Ready.step_command (h : i.Ready) {f : Frame} {command : Command}
    (hcommand : f.current? = some command) :
    (i.withFrames (f :: frames)).step s project =
      follow ((i.withFrames (f :: frames)).execute s project command) := by
  rw [h.step_eq]
  simp only [runCommand, frame?, withFrames, List.head?_cons, hcommand]

/-- At the end of a list the interpreter goes back to the list before. -/
theorem Ready.goesOn_at_end (h : i.Ready) {f next : Frame} (hend : f.current? = none) :
    GoesOn project (i.withFrames (f :: next :: frames), s) (i.withFrames (next :: frames), s) := by
  show (i.withFrames (f :: next :: frames)).step s project = _
  rw [h.step_eq]
  simp only [runCommand, frame?, withFrames, List.head?_cons, hend, finishFrame]

/-- At the end of its first list the interpreter terminates. -/
theorem Ready.ends_at_end (project : Project) (s : Session) (h : i.Ready) {f : Frame}
    (hend : f.current? = none)
    (hroute : i.route = none) :
    ∃ i', i'.terminated = true ∧ Ends project (i.withFrames [f], s) (i', s) := by
  refine ⟨{ i.withFrames [] with terminated := true }, rfl, _, .refl _, ?_, rfl⟩
  rw [h.step_eq]
  simp [runCommand, frame?, withFrames, hend, finishFrame, isRepeating, hroute]

/-- A terminated interpreter is at its end. -/
theorem Ends.of_terminated (project : Project) (s : Session) (h : i.terminated = true) :
    Ends project (i, s) (i, s) := by
  refine ⟨(i, s), .refl _, ?_, h⟩
  simp only [step, h, ↓reduceIte]

/-- A return passes through a branch. -/
theorem leave_branch {f : Frame} (hf : f.kind = .branch) (rest : List Frame) :
    (i.withFrames (f :: rest)).leave = (i.withFrames rest).leave := by
  simp [leave, withFrames, hf]

/-- A return from a called script goes on where it was called. -/
theorem leave_call {f : Frame} (hf : f.kind = .call) (rest : List Frame) :
    (i.withFrames (f :: rest)).leave = i.withFrames rest := by
  simp [leave, withFrames, hf]

/-- The place in a list does not matter to a return. -/
theorem leave_at (commands : Script) (index index' : Nat) (kind : FrameKind) (eventId : Int32)
    (rest : List Frame) :
    (i.withFrames (⟨commands, index, kind, eventId⟩ :: rest)).leave =
      (i.withFrames (⟨commands, index', kind, eventId⟩ :: rest)).leave := by
  unfold leave
  simp only [withFrames, List.dropWhile_cons]
  by_cases hkind : kind = .call
  · simp [hkind]
  · simp [hkind]

end Steps

/-! ## Simulation -/

section Simulation

variable {st : Setting} {i : Interpreter}

/-- An interpreter ended, with these faults and with a world that differs in nothing but reports. -/
structure Stopped (st : Setting) (w : World) (faults : List ScriptFault) (i : Interpreter)
    (s : Session) : Prop where
  terminated : i.terminated = true
  platform : s.platform = st.platform
  world : s.world =
    { w with reports := s.world.reports, scriptErrors := s.world.scriptErrors }
  errors : ∃ errors : List ScriptError, s.world.scriptErrors = w.scriptErrors ++ errors ∧
    errors.map (·.fault) = faults

/-- What an interpreter has done by the time the meaning of the rest of a list ends: it stands at
the end of the list, it is about to do what a return does, or it has ended with the fault. -/
def Reaches (st : Setting) (i : Interpreter) (commands : Script) (index : Nat) (kind : FrameKind)
    (eventId : Int32) (rest : List Frame) (s : Session) (w : World) : Ending → Prop
  | .finished => ∃ s', s'.Shows st w ∧
      RunsTo st.project (i.withFrames (⟨commands, index, kind, eventId⟩ :: rest), s)
        (i.withFrames (⟨commands, commands.length, kind, eventId⟩ :: rest), s')
  | .returned => ∃ s', s'.Shows st w ∧
      RunsTo st.project (i.withFrames (⟨commands, index, kind, eventId⟩ :: rest), s)
        ((i.withFrames (⟨commands, index, kind, eventId⟩ :: rest)).leave, s')
  | .failed fault => ∃ i' s', Stopped st w [fault] i' s' ∧
      Ends st.project (i.withFrames (⟨commands, index, kind, eventId⟩ :: rest), s) (i', s')

/-- The commands from a place of a list on. -/
structure At (commands : Script) (index : Nat) (script : Script) : Prop where
  bound : index ≤ commands.length
  drop : commands.drop index = script

variable {commands script : Script} {index : Nat} {kind : FrameKind} {eventId : Int32}

theorem At.start (script : Script) : At script 0 script := ⟨Nat.zero_le _, rfl⟩

theorem At.current (h : At commands index script) :
    Frame.current? ⟨commands, index, kind, eventId⟩ = script.head? := by
  rw [← h.drop, List.head?_drop]
  rfl

theorem At.next {command : Command} (h : At commands index (command :: script)) :
    At commands (index + 1) script := by
  have hlength := congrArg List.length h.drop
  rw [List.length_drop, List.length_cons] at hlength
  refine ⟨by omega, ?_⟩
  rw [← List.tail_drop, h.drop]
  rfl

theorem At.eq_length (h : At commands index []) : index = commands.length := by
  have hlength := congrArg List.length h.drop
  rw [List.length_drop, List.length_nil] at hlength
  have hbound := h.bound
  omega

/-- What happens from the next place on happens after a step to it. -/
theorem Reaches.of_next {rest : List Frame} {s s' : Session} {w : World} {ending : Ending}
    (hstep : RunsTo st.project (i.withFrames (⟨commands, index, kind, eventId⟩ :: rest), s)
      (i.withFrames (⟨commands, index + 1, kind, eventId⟩ :: rest), s'))
    (h : Reaches st i commands (index + 1) kind eventId rest s' w ending) :
    Reaches st i commands index kind eventId rest s w ending := by
  cases ending with
  | finished =>
    obtain ⟨last, hshows, hruns⟩ := h
    exact ⟨last, hshows, hstep.trans hruns⟩
  | returned =>
    obtain ⟨last, hshows, hruns⟩ := h
    rw [leave_at commands (index + 1) index] at hruns
    exact ⟨last, hshows, hstep.trans hruns⟩
  | failed fault =>
    obtain ⟨i', last, hstopped, hends⟩ := h
    exact ⟨i', last, hstopped, hstep.ends hends⟩

/-- An interpreter that ends without a fault. -/
theorem Stopped.of_shows {s : Session} {w : World} (hs : s.Shows st w)
    (hterminated : i.terminated = true) : Stopped st w [] i s := by
  refine ⟨hterminated, hs.platform, ?_, [], ?_, rfl⟩
  · rw [hs.world]
  · rw [hs.world, List.append_nil]

/-- A command that fails ends the interpreter and is reported. -/
theorem Stopped.of_fail {s : Session} {w : World} (hs : s.Shows st w) (i : Interpreter)
    (fault : ScriptFault) : Stopped st w [fault] (i.fail s fault).1 (i.fail s fault).2 := by
  have hreported : (i.fail s fault).2.world =
      { w with
        reports := s.world.reports
        scriptErrors := w.scriptErrors ++ [⟨i.location, fault⟩] } := by
    show s.world.recordError _ = _
    rw [hs.world]
    rfl
  refine ⟨rfl, hs.platform, ?_, [⟨i.location, fault⟩], ?_, rfl⟩
  · rw [hreported]
  · rw [hreported]

section Entering

variable {entered : Script} {kind' : FrameKind} {eventId' : Int32} {rest : List Frame}
  {s s' : Session} {w : World}

/-- A list goes on after one that was entered from it and that ended. -/
theorem Reaches.of_entered (hready : i.Ready) {w' : World} {ending : Ending}
    (hpush : RunsTo st.project (i.withFrames (⟨commands, index, kind, eventId⟩ :: rest), s)
      (i.withFrames (⟨entered, 0, kind', eventId'⟩ ::
        ⟨commands, index + 1, kind, eventId⟩ :: rest), s'))
    (h : Reaches st i entered 0 kind' eventId' (⟨commands, index + 1, kind, eventId⟩ :: rest) s' w
      .finished)
    (hon : ∀ {last : Session}, last.Shows st w →
      Reaches st i commands (index + 1) kind eventId rest last w' ending) :
    Reaches st i commands index kind eventId rest s w' ending := by
  obtain ⟨last, hshows, hruns⟩ := h
  have hend : Frame.current? ⟨entered, entered.length, kind', eventId'⟩ = none :=
    List.getElem?_eq_none (Nat.le_refl _)
  have hback := hruns.trans (hready.goesOn_at_end hend).runsTo
  exact .of_next (hpush.trans hback) (hon hshows)

/-- A list goes on after a script that was called from it and that returned. -/
theorem Reaches.of_call_returned {w' : World} {ending : Ending}
    (hpush : RunsTo st.project (i.withFrames (⟨commands, index, kind, eventId⟩ :: rest), s)
      (i.withFrames (⟨entered, 0, .call, eventId'⟩ ::
        ⟨commands, index + 1, kind, eventId⟩ :: rest), s'))
    (h : Reaches st i entered 0 .call eventId' (⟨commands, index + 1, kind, eventId⟩ :: rest) s' w
      .returned)
    (hon : ∀ {last : Session}, last.Shows st w →
      Reaches st i commands (index + 1) kind eventId rest last w' ending) :
    Reaches st i commands index kind eventId rest s w' ending := by
  obtain ⟨last, hshows, hleave⟩ := h
  rw [leave_call rfl] at hleave
  exact .of_next (hpush.trans hleave) (hon hshows)

/-- A return inside of a branch also leaves the list that the branch stands in. -/
theorem Reaches.of_branch_returned
    (hpush : RunsTo st.project (i.withFrames (⟨commands, index, kind, eventId⟩ :: rest), s)
      (i.withFrames (⟨entered, 0, .branch, eventId'⟩ ::
        ⟨commands, index + 1, kind, eventId⟩ :: rest), s'))
    (h : Reaches st i entered 0 .branch eventId' (⟨commands, index + 1, kind, eventId⟩ :: rest) s' w
      .returned) :
    Reaches st i commands index kind eventId rest s w .returned := by
  obtain ⟨last, hshows, hleave⟩ := h
  rw [leave_branch rfl, leave_at commands (index + 1) index] at hleave
  exact ⟨last, hshows, hpush.trans hleave⟩

/-- A fault ends the interpreter wherever it stands. -/
theorem Reaches.of_entered_failed {fault : ScriptFault}
    (hpush : RunsTo st.project (i.withFrames (⟨commands, index, kind, eventId⟩ :: rest), s)
      (i.withFrames (⟨entered, 0, kind', eventId'⟩ ::
        ⟨commands, index + 1, kind, eventId⟩ :: rest), s'))
    (h : Reaches st i entered 0 kind' eventId' (⟨commands, index + 1, kind, eventId⟩ :: rest) s' w
      (.failed fault)) :
    Reaches st i commands index kind eventId rest s w (.failed fault) := by
  obtain ⟨i', last, hstopped, hends⟩ := h
  exact ⟨i', last, hstopped, hpush.ends hends⟩

end Entering

/-- The interpreter reaches what the meaning of its commands leads to.  The induction is on the fuel
of the meaning; the lists below the running one stay as they are. -/
theorem reaches_of_evaluate (hready : i.Ready) (hkind : i.kind = st.kind) (fuel : Nat) :
    ∀ {script : Script} {eventId : Int32} {w w' : World} {ending : Ending},
      st.evaluate? fuel eventId script w = some (ending, w') →
      ∀ {commands : Script} {index : Nat}, At commands index script →
      ∀ (kind : FrameKind) (rest : List Frame) {s : Session}, s.Shows st w →
        Reaches st i commands index kind eventId rest s w' ending := by
  induction fuel with
  | zero =>
    intro script eventId w w' ending h
    cases h
  | succ fuel ih =>
    intro script eventId w w' ending h commands index hat kind rest s hs
    cases script with
    | nil =>
      obtain ⟨rfl, rfl⟩ : Ending.finished = ending ∧ w = w' := by
        simpa [Setting.evaluate?] using h
      obtain rfl := hat.eq_length
      exact ⟨s, hs, .refl _⟩
    | cons command script =>
      have hnext := hat.next
      have hcurrent : Frame.current? ⟨commands, index, kind, eventId⟩ = some command := hat.current
      have hstep : (i.withFrames (⟨commands, index, kind, eventId⟩ :: rest)).step s st.project =
          follow ((i.withFrames (⟨commands, index, kind, eventId⟩ :: rest)).execute s st.project
            command) := hready.step_command hcurrent
      unfold Setting.evaluate? at h
      cases hm : st.meaning? eventId w command with
      | none => simp [hm] at h
      | some m =>
        have heffect := describes_execute
          (i := i.withFrames (⟨commands, index, kind, eventId⟩ :: rest)) hs hkind hm
        simp only [hm] at h
        cases m with
        | change w₁ =>
          obtain ⟨s₁, heffect, hs₁⟩ := heffect
          rw [heffect] at hstep
          exact .of_next (GoesOn.runsTo hstep) (ih h hnext kind rest hs₁)
        | leave =>
          obtain ⟨rfl, rfl⟩ : Ending.returned = ending ∧ w = w' := by simpa using h
          rw [heffect] at hstep
          exact ⟨s, hs, GoesOn.runsTo hstep⟩
        | fail fault =>
          obtain ⟨rfl, rfl⟩ : Ending.failed fault = ending ∧ w = w' := by simpa using h
          rw [heffect] at hstep
          exact ⟨_, _, .of_fail hs _ fault, _, .refl _, hstep, rfl⟩
        | branch branch =>
          rw [heffect] at hstep
          have hpush : RunsTo st.project
              (i.withFrames (⟨commands, index, kind, eventId⟩ :: rest), s)
              (i.withFrames (⟨branch, 0, .branch, eventId⟩ ::
                ⟨commands, index + 1, kind, eventId⟩ :: rest), s) := GoesOn.runsTo hstep
          cases hb : st.evaluate? fuel eventId branch w with
          | none => simp [hb] at h
          | some result =>
            obtain ⟨ending₁, w₁⟩ := result
            have hbranch := ih hb (.start branch) .branch
              (⟨commands, index + 1, kind, eventId⟩ :: rest) hs
            simp only [hb] at h
            cases ending₁ with
            | finished => exact hbranch.of_entered hready hpush (ih h hnext kind rest)
            | returned =>
              obtain ⟨rfl, rfl⟩ : Ending.returned = ending ∧ w₁ = w' := by simpa using h
              exact hbranch.of_branch_returned hpush
            | failed fault =>
              obtain ⟨rfl, rfl⟩ : Ending.failed fault = ending ∧ w₁ = w' := by simpa using h
              exact hbranch.of_entered_failed hpush
        | call callee callees =>
          rw [heffect] at hstep
          have hpush : RunsTo st.project
              (i.withFrames (⟨commands, index, kind, eventId⟩ :: rest), s)
              (i.withFrames (⟨callees, 0, .call, callee⟩ ::
                ⟨commands, index + 1, kind, eventId⟩ :: rest), s) := GoesOn.runsTo hstep
          cases hb : st.evaluate? fuel callee callees w with
          | none => simp [hb] at h
          | some result =>
            obtain ⟨ending₁, w₁⟩ := result
            have hcall := ih hb (.start callees) .call
              (⟨commands, index + 1, kind, eventId⟩ :: rest) hs
            simp only [hb] at h
            cases ending₁ with
            | finished => exact hcall.of_entered hready hpush (ih h hnext kind rest)
            | returned => exact hcall.of_call_returned hpush (ih h hnext kind rest)
            | failed fault =>
              obtain ⟨rfl, rfl⟩ : Ending.failed fault = ending ∧ w₁ = w' := by simpa using h
              exact hcall.of_entered_failed hpush

end Simulation

/-- Ticks in which nothing else happens terminate the interpreter of a script whose evaluation
terminates, in the state that the script evaluates to and with its faults. -/
theorem ticks_refine_evaluate (project : Project) (s : Session) (id : Nat)
    (mapId roomId eventId : Int32) (kind : InterpreterKind) (script : Script) {fuel : Nat}
    {ending : Ending} {w : World}
    (h : (Setting.mk project s.platform kind).evaluate? fuel eventId script s.world =
      some (ending, w)) :
    ∃ enough i' s', Stopped ⟨project, s.platform, kind⟩ w ending.faults i' s' ∧
      ∀ n, enough ≤ n →
        ticks project n (start id mapId roomId eventId kind script, s) = (i', s') := by
  have hready : (start id mapId roomId eventId kind script).Ready := ⟨rfl, rfl, rfl⟩
  have hshows : s.Shows ⟨project, s.platform, kind⟩ s.world := ⟨rfl, rfl⟩
  have hreaches := reaches_of_evaluate hready rfl fuel h (.start script) .root [] hshows
  have hends : ∃ i' s', Stopped ⟨project, s.platform, kind⟩ w ending.faults i' s' ∧
      Ends project (start id mapId roomId eventId kind script, s) (i', s') := by
    cases ending with
    | finished =>
      obtain ⟨s', hs', hruns⟩ := hreaches
      have hend : Frame.current? ⟨script, script.length, .root, eventId⟩ = none :=
        List.getElem?_eq_none (Nat.le_refl _)
      obtain ⟨i', hterminated, hlast⟩ := Ready.ends_at_end project s' hready hend rfl
      exact ⟨i', s', .of_shows hs' hterminated, hruns.ends hlast⟩
    | returned =>
      obtain ⟨s', hs', hruns⟩ := hreaches
      have hleave : ((start id mapId roomId eventId kind script).withFrames
          [⟨script, 0, .root, eventId⟩]).leave.terminated = true := rfl
      exact ⟨_, s', .of_shows hs' hleave, hruns.ends (.of_terminated project s' hleave)⟩
    | failed fault => exact hreaches
  obtain ⟨i', s', hstopped, hends⟩ := hends
  obtain ⟨enough, henough⟩ := hends.exists_ticks
  exact ⟨enough, i', s', hstopped, henough⟩

/-- A script calls another one, which returns before its end, and then has no branch for a condition
that holds by now. -/
theorem ticks_refine_call_and_missing_branch :
    let project : Project := { (default : Project) with
      commonEvents := [⟨7, "lamp", [.act (.setSwitch 1 .constant true false) [], .act .leave [],
        .act (.setSwitch 2 .constant true false) []]⟩] }
    let stage : Stage :=
      ⟨1, 1, .player 0 0 "hero" .playerDefault, [], .empty, [], [], none, false⟩
    let w := World.ofProgress (.fresh stage) 1
    let s : Session := ⟨w, .start project (.prompt .start)⟩
    let script : Script := [.act (.callCommonEvent 7) [], .act (.branch [.switch 1 true]) [],
      .act (.addItem 3) []]
    let st : Setting := ⟨project, s.platform, .event⟩
    let w' := { w with memory := w.memory.setSwitch 1 true }
    st.evaluate? 5 4 script w = some (.failed (.missingBranch 0), w') ∧
      ∃ enough i' s', Stopped st w' [.missingBranch 0] i' s' ∧
        ∀ n, enough ≤ n → ticks project n (start 1 1 1 4 .event script, s) = (i', s') := by
  intro project stage w s script st w'
  have hevaluate : st.evaluate? 5 4 script w = some (.failed (.missingBranch 0), w') := by rfl
  exact ⟨hevaluate, ticks_refine_evaluate project s 1 1 1 4 .event script hevaluate⟩

end Adventure.Interpreter
