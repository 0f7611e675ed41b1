import Adventure.Interpreter.Run

/-!
# The meaning of scripts

What a script does, told by recursion over its lists and not by a stack.  Only commands that are
done at once have a meaning here: none that waits, and none that goes to a label.
-/

namespace Adventure

open Interpreter (addItem removeItem setSwitch controlHint)

/-- How the meaning of a script ends. -/
inductive Ending where
  /-- At the end of its list. -/
  | finished
  /-- With a return. -/
  | returned
  | failed (fault : ScriptFault)
  deriving DecidableEq, Repr

namespace Ending

/-- The faults that are reported. -/
def faults : Ending → List ScriptFault
  | failed fault => [fault]
  | _ => []

end Ending

/-- What one command asks for. -/
inductive Meaning where
  /-- Another world, and the commands that follow. -/
  | change (world : World)
  /-- A branch, and the commands that follow unless it returns. -/
  | branch (script : Script)
  /-- A script for an event, and then in any case the commands that follow. -/
  | call (eventId : Int32) (script : Script)
  | leave
  | fail (fault : ScriptFault)

/-- What does not change while a script runs: the project, the platform, and what started it. -/
structure Setting where
  project : Project
  platform : Platform
  kind : InterpreterKind

namespace Setting

/-- The branch of the first condition that holds; where none does, the branch after the last
condition.  The branches stand next to the conditions. -/
def firstBranch (holds : Condition → Bool) (w : World) :
    (index : Nat) → List Condition → List Script → Meaning
  | _, [], [] => .change w
  | _, [], branch :: _ => .branch branch
  | index, c :: conditions, branches =>
    if holds c then
      match branches with
      | branch :: _ => .branch branch
      | [] => .fail (.missingBranch index)
    else firstBranch holds w (index + 1) conditions branches.tail

/-- A call of a script that may not be there. -/
def callIfAny (w : World) (eventId : Int32) : Option Script → Meaning
  | some script => .call eventId script
  | none => .change w

variable (st : Setting)

/-- The script on a page of an event of this room. -/
def pageScript? (w : World) (eventId : Int32) (page : UInt64) : Option Script := do
  let event ← st.project.event? w.stage.mapId w.stage.roomId eventId
  let page ← event.pages[page.toNat]?
  return page.commands

/-- What an action with branches asks for, as a command for an event. -/
def actionMeaning? (eventId : Int32) (w : World) (branches : List Script) : Action → Option Meaning
  | .nop | .label _ => some (.change w)
  | .setSwitch id source value internal => some (.change (setSwitch w id source value internal))
  | .setSelfSwitch id value => some (.change
      { w with memory := w.memory.setSelfSwitch (w.selfSwitchKey eventId id) value })
  | .setVariable a => some (.change (w.assign st.platform st.project a eventId).2)
  | .addItem id => some (.change (addItem w st.project id))
  | .removeItem id => some (.change (removeItem w id))
  | .replaceItem id replaced => some (.change
      { w with inventory := w.inventory.replace id replaced })
  | .controlHint id order => some (.change { w with hints := controlHint w.hints id order })
  | .branch conditions =>
    some (firstBranch (w.meets st.project eventId) w 0 conditions branches)
  | .callEvent id page =>
    let callee := if id = selfId then eventId else id
    some (callIfAny w callee (st.pageScript? w callee page))
  | .callCommonEvent id =>
    some (callIfAny w eventId ((st.project.commonEvent? id).map (·.commands)))
  | .leave => some .leave
  | _ => none

/-- What a command asks for.  In a route, commands that do not fit there ask for nothing but
fail. -/
def meaning? (eventId : Int32) (w : World) (command : Command) : Option Meaning :=
  if st.kind = .route && !command.fitsRoute then some (.fail (.notInRoute command.name))
  else
    match command with
    | .act action branches => st.actionMeaning? eventId w branches action
    | .route _ _ _ => none

/-- Evaluates a script for an event: how it ends, and in which world.  There is no value if the
evaluation needs more than the fuel, or comes upon a command without a meaning. -/
def evaluate? : (fuel : Nat) → Int32 → Script → World → Option (Ending × World)
  | 0, _, _, _ => none
  | _ + 1, _, [], w => some (.finished, w)
  | fuel + 1, eventId, command :: rest, w =>
    match st.meaning? eventId w command with
    | none => none
    | some (.change w) => evaluate? fuel eventId rest w
    | some .leave => some (.returned, w)
    | some (.fail fault) => some (.failed fault, w)
    | some (.branch branch) =>
      match evaluate? fuel eventId branch w with
      | some (.finished, w) => evaluate? fuel eventId rest w
      | ended => ended
    | some (.call callee script) =>
      match evaluate? fuel callee script w with
      | some (.finished, w) | some (.returned, w) => evaluate? fuel eventId rest w
      | ended => ended

/-- More fuel does not change how a script evaluates. -/
theorem evaluate?_succ {fuel : Nat} : ∀ {eventId : Int32} {script : Script} {w : World}
    {result : Ending × World}, st.evaluate? fuel eventId script w = some result →
      st.evaluate? (fuel + 1) eventId script w = some result := by
  induction fuel with
  | zero =>
    intro eventId script w result h
    cases h
  | succ fuel ih =>
    intro eventId script w result h
    cases script with
    | nil => exact h
    | cons command rest =>
      unfold evaluate? at h ⊢
      cases hm : st.meaning? eventId w command with
      | none => simp [hm] at h
      | some m =>
        simp only [hm] at h ⊢
        cases m with
        | change w₁ => exact ih h
        | leave => exact h
        | fail fault => exact h
        | branch branch =>
          dsimp only at h ⊢
          cases hb : st.evaluate? fuel eventId branch w with
          | none => simp [hb] at h
          | some ended =>
            rw [ih hb]
            rw [hb] at h
            obtain ⟨ending, w₁⟩ := ended
            cases ending with
            | finished => exact ih h
            | returned => exact h
            | failed fault => exact h
        | call callee script =>
          dsimp only at h ⊢
          cases hb : st.evaluate? fuel callee script w with
          | none => simp [hb] at h
          | some ended =>
            rw [ih hb]
            rw [hb] at h
            obtain ⟨ending, w₁⟩ := ended
            cases ending with
            | finished => exact ih h
            | returned => exact ih h
            | failed fault => exact h

end Setting

/-! ## What a command does -/

/-- A session that shows a world, apart from the texts of its reports. -/
structure Session.Shows (s : Session) (st : Setting) (w : World) : Prop where
  platform : s.platform = st.platform
  world : s.world = { w with reports := s.world.reports }

/-- The effect of a command is what the command asks for. -/
def Meaning.Describes (st : Setting) (i : Interpreter) (s : Session) (e : Effect) :
    Meaning → Prop
  | change w => ∃ s', e = ⟨i, s', .next⟩ ∧ s'.Shows st w
  | branch script => e = ⟨i, s, .enter (.enter script .branch i.actingEvent)⟩
  | call eventId script => e = ⟨i, s, .enter (.enter script .call eventId)⟩
  | leave => e = ⟨i, s, .leave⟩
  | fail fault => e = ⟨i, s, .fail fault⟩

section Effects

variable {st : Setting} {i : Interpreter} {s : Session} {w : World}

/-- A command that changes nothing but the world. -/
theorem describes_change (hs : s.Shows st w) (change : World → World) {w' : World}
    (h : ∀ reports, ∃ reports', change { w with reports } = { w' with reports := reports' }) :
    Meaning.Describes st i s (i.change s change) (.change w') := by
  obtain ⟨reports', hchange⟩ := h s.world.reports
  refine ⟨_, rfl, hs.platform, ?_⟩
  show change s.world = { w' with reports := (change s.world).reports }
  rw [hs.world, hchange]

theorem describes_call (hs : s.Shows st w) (eventId : Int32) (script? : Option Script) :
    Meaning.Describes st i s (i.call s eventId script?) (Setting.callIfAny w eventId script?) := by
  cases script? with
  | none => exact ⟨s, rfl, hs⟩
  | some script => rfl

/-- The position of the branch to enter. -/
def chosenBranch? (holds : Condition → Bool) (conditions : List Condition)
    (branches : List Script) : Option Nat :=
  match conditions.findIdx? holds with
  | some index => some index
  | none => if branches.length > conditions.length then some conditions.length else none

theorem chosenBranch?_cons_of_not {holds : Condition → Bool} {c : Condition}
    (hc : ¬ holds c = true) (conditions : List Condition) (branches : List Script) :
    chosenBranch? holds (c :: conditions) branches =
      (chosenBranch? holds conditions branches.tail).map (· + 1) := by
  unfold chosenBranch?
  rw [List.findIdx?_cons, if_neg hc]
  cases conditions.findIdx? holds with
  | some index => rfl
  | none =>
    have hlength : (branches.length > (c :: conditions).length) =
        (branches.tail.length > conditions.length) := by
      simp only [List.length_cons, List.length_tail]
      exact propext (by omega)
    simp only [Option.map_none, hlength]
    split
    · rfl
    · rfl

/-- Going through conditions and branches at once is the same as to look for the first condition
that holds, and then for its branch. -/
theorem firstBranch_eq (holds : Condition → Bool) (w : World) (skipped : Nat)
    (conditions : List Condition) (branches : List Script) :
    Setting.firstBranch holds w skipped conditions branches =
      match chosenBranch? holds conditions branches with
      | none => .change w
      | some index =>
        match branches[index]? with
        | some branch => .branch branch
        | none => .fail (.missingBranch (skipped + index)) := by
  induction conditions generalizing skipped branches with
  | nil =>
    cases branches with
    | nil => rfl
    | cons branch rest => simp [Setting.firstBranch, chosenBranch?]
  | cons c conditions ih =>
    unfold Setting.firstBranch
    by_cases hc : holds c = true
    · rw [if_pos hc]
      have hzero : chosenBranch? holds (c :: conditions) branches = some 0 := by
        simp [chosenBranch?, List.findIdx?_cons, hc]
      rw [hzero]
      cases branches with
      | nil => rfl
      | cons branch rest => rfl
    · rw [if_neg hc, ih, chosenBranch?_cons_of_not hc]
      cases chosenBranch? holds conditions branches.tail with
      | none => rfl
      | some index =>
        simp only [Option.map_some, List.getElem?_tail]
        rw [Nat.add_right_comm, Nat.add_assoc]

/-- The branch that a condition enters. -/
theorem describes_firstBranch (hs : s.Shows st w) (conditions : List Condition)
    (branches : List Script) :
    Meaning.Describes st i s (i.enterBranch s st.project conditions branches)
      (Setting.firstBranch (w.meets st.project i.actingEvent) w 0 conditions branches) := by
  have hmeets : s.world.meets st.project i.actingEvent = w.meets st.project i.actingEvent := by
    funext c
    rw [hs.world]
    cases c <;> rfl
  have henter : i.enterBranch s st.project conditions branches =
      match chosenBranch? (w.meets st.project i.actingEvent) conditions branches with
      | none => i.go s .next
      | some index =>
        match branches[index]? with
        | some branch => i.go s (.enter (.enter branch .branch i.actingEvent))
        | none => i.go s (.fail (.missingBranch index)) := by
    rw [← hmeets]
    rfl
  rw [henter, firstBranch_eq]
  cases chosenBranch? (w.meets st.project i.actingEvent) conditions branches with
  | none => exact ⟨s, rfl, hs⟩
  | some index =>
    simp only [Nat.zero_add]
    cases branches[index]? with
    | none => rfl
    | some branch => rfl

/-- Reports have no part in assignments. -/
theorem assign_reports (w : World) (platform : Platform) (project : Project) (a : Assignment)
    (eventId : Int32) (reports : List String) :
    ({ w with reports }).assign platform project a eventId =
      ((w.assign platform project a eventId).1,
        { (w.assign platform project a eventId).2 with reports }) := by
  have hoperand : ({ w with reports }).operand platform project eventId a.operand =
      w.operand platform project eventId a.operand := by
    cases a.operand with
    | system probe => cases probe <;> rfl
    | itemGroup scope group => cases scope <;> rfl
    | _ => rfl
  simp only [World.assign, hoperand]

/-- Every action does what it means. -/
theorem describes_act (hs : s.Shows st w) (branches : List Script) {action : Action} {m : Meaning}
    (h : st.actionMeaning? i.actingEvent w branches action = some m) :
    Meaning.Describes st i s (i.act s st.project branches action) m := by
  cases action with
  | nop =>
    obtain rfl : Meaning.change w = m := Option.some.inj h
    exact ⟨s, rfl, hs⟩
  | label name =>
    obtain rfl : Meaning.change w = m := Option.some.inj h
    exact ⟨s, rfl, hs⟩
  | leave =>
    obtain rfl : Meaning.leave = m := Option.some.inj h
    rfl
  | branch conditions =>
    obtain rfl := Option.some.inj h
    exact describes_firstBranch hs conditions branches
  | callEvent eventId page =>
    obtain rfl := Option.some.inj h
    have hscript : i.callEvent s st.project eventId page =
        i.call s (i.eventNamed eventId) (st.pageScript? w (i.eventNamed eventId) page) := by
      have hstage : s.world.stage = w.stage := by rw [hs.world]
      simp only [Interpreter.callEvent, hstage, Setting.pageScript?]
      cases st.project.event? w.stage.mapId w.stage.roomId (i.eventNamed eventId) with
      | none => rfl
      | some event => cases hpage : event.pages[page.toNat]? <;> simp [hpage]
    show Meaning.Describes st i s (i.callEvent s st.project eventId page) _
    rw [hscript]
    exact describes_call hs _ _
  | callCommonEvent id =>
    obtain rfl := Option.some.inj h
    exact describes_call hs _ _
  | setSwitch id source value internal =>
    obtain rfl := Option.some.inj h
    exact describes_change hs _ fun reports => ⟨reports, rfl⟩
  | setSelfSwitch id value =>
    obtain rfl := Option.some.inj h
    exact describes_change hs _ fun reports => ⟨reports, rfl⟩
  | setVariable a =>
    obtain rfl := Option.some.inj h
    refine describes_change hs _ fun reports => ?_
    have hassign : ({ w with reports }).assign s.platform st.project a i.actingEvent =
        ((w.assign st.platform st.project a i.actingEvent).1,
          { (w.assign st.platform st.project a i.actingEvent).2 with reports }) := by
      rw [hs.platform]
      exact assign_reports w st.platform st.project a i.actingEvent reports
    rw [hassign]
    cases (w.assign st.platform st.project a i.actingEvent).1 with
    | none => exact ⟨reports, rfl⟩
    | some fault => exact ⟨_, rfl⟩
  | addItem id =>
    obtain rfl := Option.some.inj h
    refine describes_change hs _ fun reports => ⟨reports, ?_⟩
    unfold Interpreter.addItem
    cases st.project.item? id with
    | none => rfl
    | some item =>
      rcases hadd : w.inventory.add id with ⟨_ | _, inventory⟩
      · rfl
      · simp only [World.note]
  | removeItem id =>
    obtain rfl := Option.some.inj h
    refine describes_change hs _ fun reports => ⟨reports, ?_⟩
    unfold Interpreter.removeItem
    rcases hremove : w.inventory.remove id with ⟨_ | _, inventory⟩
    · rfl
    · simp only [World.note]
  | replaceItem id replaced =>
    obtain rfl := Option.some.inj h
    exact describes_change hs _ fun reports => ⟨reports, rfl⟩
  | controlHint id order =>
    obtain rfl := Option.some.inj h
    exact describes_change hs _ fun reports => ⟨reports, rfl⟩
  | _ => cases h

/-- Every command does what it means. -/
theorem describes_execute (hs : s.Shows st w) (hkind : i.kind = st.kind) {command : Command}
    {m : Meaning} (h : st.meaning? i.actingEvent w command = some m) :
    Meaning.Describes st i s (i.execute s st.project command) m := by
  unfold Setting.meaning? at h
  unfold Interpreter.execute
  rw [hkind]
  split at h
  · next hroute =>
    obtain rfl := Option.some.inj h
    rw [if_pos hroute]
    rfl
  · next hroute =>
    rw [if_neg hroute]
    cases command with
    | act action branches => exact describes_act hs branches h
    | route order body branches => cases h

end Effects

end Adventure
