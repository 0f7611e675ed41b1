import Adventure.Proofs.Session.Story

/-!
# References that hold no id

A number that is no id stands for `unsetId`, both where scripts read through it and where they
write through it.  So all that is written through such numbers comes together in one variable
and one switch, which is what reads through any of them find.  `Variables.get_writeAll` and
`Variables.switch_writeAll` say what it is after any commands: what the last of those that
went astray wrote.
-/

namespace Adventure

variable {project : Project}

/-! ## Commands that write -/

/-- Whether a command writes to a variable or switch whose id a variable holds, or to one with an id
that is not negative. -/
def Action.aims : Action → Bool
  | .setVariable a => a.source == .variable || 0 ≤ a.id
  | .setSwitch id source _ _ => source == .variable || 0 ≤ id
  | _ => false

/-- A command that writes, with the script that runs it and the session in which it does, whatever
is remembered there. -/
structure Writing where
  script : Interpreter
  session : Session
  branches : List Script
  action : Action
  aims : action.aims = true

/-- The session that remembers other things. -/
def Session.remembering (s : Session) (v : Variables) : Session :=
  s.modifyWorld fun w => { w with memory := v }

/-- The number that an assignment computes; one that cannot be computed counts as 0. -/
def World.assigned (w : World) (platform : Platform) (project : Project) (a : Assignment)
    (eventId : Int32) : Int64 :=
  let id := w.memory.resolve a.source a.id
  let old := if a.internal then w.memory.getInternal id else w.memory.get id
  match a.op.apply old (w.operand platform project eventId a.operand).1 with
  | .ok value => value
  | .error _ => 0

namespace Writing

variable (project : Project) (o : Writing) (v : Variables)

/-- What is remembered after the command. -/
def perform : Variables :=
  (o.script.act (o.session.remembering v) project o.branches o.action).session.world.memory

/-- The number that the command writes through a variable that holds no id. -/
def strayNumber? : Option Int64 :=
  match o.action with
  | .setVariable a =>
    if a.internal = false ∧ a.source = .variable ∧ v.idIn a.id = unsetId then
      let s := o.session.remembering v
      some (s.world.assigned s.platform project a o.script.actingEvent)
    else none
  | _ => none

/-- What the command turns a switch to through a variable that holds no id. -/
def straySwitch? : Option Bool :=
  match o.action with
  | .setSwitch id source value internal =>
    if internal = false ∧ source = .variable ∧ v.idIn id = unsetId then some value else none
  | _ => none

end Writing

namespace Variables

variable (v : Variables)

theorem get_set (id id' : Int32) (value : Int64) :
    (v.set id value).get id' = if id' = id then value else v.get id' := by
  unfold get set
  split
  · next h => simp [h]
  · next h => simp [SortedMap.find?_insert_of_ne v.numbers h]

theorem switch_setSwitch (id id' : Int32) (value : Bool) :
    (v.setSwitch id value).switch id' = if id' = id then value else v.switch id' := by
  unfold switch setSwitch
  split
  · next h => simp [h]
  · next h => simp [SortedMap.find?_insert_of_ne v.switches h]

/-- A command that aims misses exactly if the variable that it looks at holds no id. -/
theorem resolve_eq_unsetId {source : Source} {id : Int32}
    (aims : (source == .variable || decide (0 ≤ id)) = true) :
    v.resolve source id = unsetId ↔ source = .variable ∧ v.idIn id = unsetId := by
  match source with
  | .constant =>
    have hid : (0 : Int32) ≤ id := by simpa using aims
    have hne : id ≠ unsetId := by
      rintro rfl
      exact absurd hid (by decide)
    simp [resolve, hne]
  | .variable => simp [resolve]

end Variables

/-! ## One command -/

theorem World.memory_assign (w : World) (platform : Platform) (project : Project) (a : Assignment)
    (eventId : Int32) :
    (w.assign platform project a eventId).2.memory =
      if a.internal then
        w.memory.setInternal (w.memory.resolve a.source a.id)
          (w.assigned platform project a eventId)
      else
        w.memory.set (w.memory.resolve a.source a.id) (w.assigned platform project a eventId) := by
  unfold World.assign World.assigned
  dsimp only
  generalize a.op.apply _ _ = result
  cases result <;> rfl

theorem Interpreter.memory_setVariable (i : Interpreter) (s : Session) (a : Assignment) :
    (i.setVariable s project a).session.world.memory =
      (s.world.assign s.platform project a i.actingEvent).2.memory := by
  unfold setVariable change Session.modifyWorld
  dsimp only
  split
  · next h => rw [h]
  · next h =>
    rw [h]
    rfl

namespace Writing

variable (o : Writing) (v : Variables)

/-- What stands in the variable that is no variable afterwards. -/
theorem get_perform :
    (o.perform project v).get unsetId = (o.strayNumber? project v).getD (v.get unsetId) := by
  obtain ⟨i, s, branches, action, haims⟩ := o
  cases action with
  | setVariable a =>
    have hmemory : perform project ⟨i, s, branches, .setVariable a, haims⟩ v = _ :=
      (i.memory_setVariable (s.remembering v) a).trans (World.memory_assign _ _ _ _ _)
    have hworld : (s.remembering v).world.memory = v := rfl
    simp only [hmemory, hworld, strayNumber?, ← v.resolve_eq_unsetId haims]
    cases a.internal with
    | true => simp [Variables.setInternal, Variables.get]
    | false =>
      by_cases h : v.resolve a.source a.id = unsetId
      · simp [Variables.get_set, h]
      · simp [Variables.get_set, h, Ne.symm h]
  | setSwitch id source value internal =>
    cases internal <;> rfl
  | _ => cases haims

theorem switch_perform :
    (o.perform project v).switch unsetId = (o.straySwitch? v).getD (v.switch unsetId) := by
  obtain ⟨i, s, branches, action, haims⟩ := o
  cases action with
  | setVariable a =>
    have hmemory : perform project ⟨i, s, branches, .setVariable a, haims⟩ v = _ :=
      (i.memory_setVariable (s.remembering v) a).trans (World.memory_assign _ _ _ _ _)
    rw [hmemory]
    split <;> rfl
  | setSwitch id source value internal =>
    have hmemory : perform project ⟨i, s, branches, .setSwitch id source value internal, haims⟩ v =
      if internal then v.setInternalSwitch (v.resolve source id) value
      else v.setSwitch (v.resolve source id) value := rfl
    simp only [hmemory, straySwitch?, ← v.resolve_eq_unsetId haims]
    cases internal with
    | true => simp [Variables.setInternalSwitch, Variables.switch]
    | false =>
      by_cases h : v.resolve source id = unsetId
      · simp [Variables.switch_setSwitch, h]
      · simp [Variables.switch_setSwitch, h, Ne.symm h]
  | _ => cases haims

end Writing

/-! ## Any commands -/

namespace Variables

/-- What is remembered after some commands, each of which finds what the one before left. -/
def writeAll (v : Variables) (project : Project) (os : List Writing) : Variables :=
  os.foldl (fun v o => o.perform project v) v

/-- The numbers that commands write through variables that hold no id, in order. -/
def strayNumbers (project : Project) : Variables → List Writing → List Int64
  | _, [] => []
  | v, o :: os => (o.strayNumber? project v).toList ++ strayNumbers project (o.perform project v) os

/-- What commands turn switches to through variables that hold no id, in order. -/
def straySwitches (project : Project) : Variables → List Writing → List Bool
  | _, [] => []
  | v, o :: os => (o.straySwitch? v).toList ++ straySwitches project (o.perform project v) os

theorem get_writeAll (v : Variables) (os : List Writing) :
    (v.writeAll project os).get unsetId =
      (strayNumbers project v os).getLast?.getD (v.get unsetId) := by
  induction os generalizing v with
  | nil => rfl
  | cons o os ih =>
    have hnext : v.writeAll project (o :: os) = (o.perform project v).writeAll project os := rfl
    rw [hnext, ih, o.get_perform, strayNumbers, List.getLast?_append]
    cases (strayNumbers project (o.perform project v) os).getLast? with
    | some value => rfl
    | none => cases o.strayNumber? project v <;> rfl

theorem switch_writeAll (v : Variables) (os : List Writing) :
    (v.writeAll project os).switch unsetId =
      (straySwitches project v os).getLast?.getD (v.switch unsetId) := by
  induction os generalizing v with
  | nil => rfl
  | cons o os ih =>
    have hnext : v.writeAll project (o :: os) = (o.perform project v).writeAll project os := rfl
    rw [hnext, ih, o.switch_perform, straySwitches, List.getLast?_append]
    cases (straySwitches project (o.perform project v) os).getLast? with
    | some value => rfl
    | none => cases o.straySwitch? v <;> rfl

/-- All numbers that are no ids lead to the same place. -/
theorem idOfValue_of_stray {value : Int64} (stray : narrow? value = none) :
    idOfValue value = unsetId := by
  rw [idOfValue, stray]
  rfl

/-- After any commands, whoever reads through a number that is no id finds what the last command
that wrote through such a number wrote.  So he finds something unset exactly if there was no such
command, or if the last one for numbers wrote 0 and the last one for switches turned one off. -/
theorem reads_stray (project : Project) (os : List Writing) :
    let v := unset.writeAll project os
    let number := (strayNumbers project unset os).getLast?
    let switch := (straySwitches project unset os).getLast?
    (∀ id, narrow? (v.get id) = none →
        v.getRef id = number.getD 0 ∧ v.switchRef id = switch.getD false ∧
        (v.getRef id = 0 ∧ v.switchRef id = false ↔
          number.getD 0 = 0 ∧ switch.getD false = false)) ∧
      ∀ (w : World) (value : Int64), w.memory = v → narrow? value = none →
        w.comparand value .variable = number.getD 0 := by
  intro v number switch
  have hnumber : v.get unsetId = number.getD 0 := unset.get_writeAll os
  have hswitch : v.switch unsetId = switch.getD false := unset.switch_writeAll os
  refine ⟨fun id stray => ?_, fun w value memory stray => ?_⟩
  · have hget : v.getRef id = number.getD 0 := by
      rw [getRef, idIn, idOfValue_of_stray stray, hnumber]
    have hlook : v.switchRef id = switch.getD false := by
      rw [switchRef, idIn, idOfValue_of_stray stray, hswitch]
    exact ⟨hget, hlook, by rw [hget, hlook]⟩
  · rw [World.comparand, idOfValue_of_stray stray, memory, hnumber]

end Variables

/-- Sets a variable to a number. -/
def Action.setNumber (id : Int32) (source : Source) (value : Int64) : Action :=
  .setVariable ⟨id, source, .assign, .constant value, false⟩

/-- Commands that write 5 and turn a switch on through a variable that holds no id, and set another
variable to another number that is no id. -/
def Writing.lost (s : Session) : List Writing :=
  let i := Interpreter.start 1 1 1 0 .common []
  [⟨i, s, [], .setNumber 1 .constant 0x10000000000, rfl⟩, ⟨i, s, [], .setNumber 1 .variable 5, rfl⟩,
    ⟨i, s, [], .setSwitch 1 .variable true false, rfl⟩,
    ⟨i, s, [], .setNumber 3 .constant (-0x10000000000), rfl⟩]

/-- A common event that does the same, and reads through the other variable. -/
def lostRoom : Project :=
  .emptyRoom [.act (.setNumber 1 .constant 0x10000000000) [], .act (.setNumber 1 .variable 5) [],
    .act (.setSwitch 1 .variable true false) [], .act (.setNumber 3 .constant (-0x10000000000)) [],
    .act (.setVariable ⟨2, .constant, .assign, .variableRef 3, false⟩) []]

/-- What was written through one variable is read through the other. -/
theorem lost_found :
    ∃ w, World.start lostRoom 1 = .ok w ∧
      let v := Variables.unset.writeAll lostRoom (Writing.lost ⟨w, .start lostRoom .deferred⟩)
      narrow? (v.get 3) = none ∧ v.getRef 3 = 5 ∧ v.switchRef 3 = true := by
  obtain ⟨w, hstart, hstray, hnumber, hswitch⟩ : ∃ w, World.start lostRoom 1 = .ok w ∧
      let os := Writing.lost ⟨w, .start lostRoom .deferred⟩
      narrow? ((Variables.unset.writeAll lostRoom os).get 3) = none ∧
        (Variables.strayNumbers lostRoom .unset os).getLast?.getD 0 = 5 ∧
        (Variables.straySwitches lostRoom .unset os).getLast?.getD false = true := by
    refine ⟨_, rfl, ?_⟩
    decide +kernel
  obtain ⟨hreads, _⟩ :=
    Variables.reads_stray lostRoom (Writing.lost ⟨w, .start lostRoom .deferred⟩)
  obtain ⟨hget, hlook, _⟩ := hreads 3 hstray
  exact ⟨w, hstart, hstray, hget.trans hnumber, hlook.trans hswitch⟩

/-- In a game a script reads 5 through a variable that holds no id. -/
theorem lostRoom_reads_stray :
    ∃ w, World.start lostRoom 1 = .ok w ∧
      let s := Session.after lostRoom ⟨w, .start lostRoom .deferred⟩
        [.startCommonEvent 1, .tick .none]
      let v := s.world.memory
      narrow? (v.get 3) = none ∧ v.getRef 3 = 5 ∧ v.switchRef 3 = true ∧ v.get 2 = 5 := by
  refine ⟨_, rfl, ?_⟩
  decide +kernel

end Adventure
