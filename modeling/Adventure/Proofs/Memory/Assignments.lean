import Adventure.Proofs.Memory.Operands

/-!
# What an assignment does

An assignment writes one variable and leaves everything else of the world alone, except that a
random operand draws from the random numbers.  The variable and its operand are read before it is
written, so it does not matter whether they are the same, or whether the variable holds the id of
the one that is written.  `Assignment.Targets` says which variable that is, `World.Reads` what the
operand is, and `AssignOp.Computes` what the variable becomes: numbers have 64 bits in two's
complement, so what is exact is taken modulo `2^64`.
-/

namespace Adventure

/-! ## Arithmetic -/

/-- What becomes of a number `a` that an operator combines with `b`, and the fault that is
reported. -/
inductive AssignOp.Computes (a b : Int64) :
    AssignOp → Int64 → Option ArithmeticFault → Prop where
  | assign : Computes a b .assign b none
  | add : Computes a b .add (.ofInt (a.toInt + b.toInt)) none
  | sub : Computes a b .sub (.ofInt (a.toInt - b.toInt)) none
  | mul : Computes a b .mul (.ofInt (a.toInt * b.toInt)) none
  /-- The quotient is rounded toward zero. -/
  | div (hb : b ≠ 0) : Computes a b .div (.ofInt (a.toInt.tdiv b.toInt)) none
  /-- The remainder is what the quotient leaves of the dividend. -/
  | mod {r : Int64} (hb : b ≠ 0) (exact : r.toInt = a.toInt.tmod b.toInt)
      (remains : a = .ofInt (a.toInt.tdiv b.toInt) * b + r) : Computes a b .mod r none
  | divByZero (hb : b = 0) : Computes a b .div 0 (some .divisionByZero)
  | modByZero (hb : b = 0) : Computes a b .mod 0 (some .moduloByZero)

theorem ofInt_tdiv_toInt (a b : Int64) : Int64.ofInt (a.toInt.tdiv b.toInt) = a / b := by
  rw [← Int64.toInt_inj, Int64.toInt_ofInt, Int64.toInt_div]

/-- Quotient and remainder give the dividend again, also where the quotient overflows. -/
theorem div_mul_add_mod (a b : Int64) : a / b * b + a % b = a := by
  have hexact : a.toInt.tdiv b.toInt * b.toInt + a.toInt.tmod b.toInt = a.toInt :=
    Int.tdiv_mul_add_tmod _ _
  calc a / b * b + a % b
      = .ofInt (a.toInt.tdiv b.toInt) * .ofInt b.toInt + .ofInt (a.toInt.tmod b.toInt) := by
        rw [ofInt_tdiv_toInt, Int64.ofInt_toInt, ← Int64.toInt_mod, Int64.ofInt_toInt]
    _ = .ofInt a.toInt := by rw [← Int64.ofInt_mul, ← Int64.ofInt_add, hexact]
    _ = a := Int64.ofInt_toInt a

namespace AssignOp

theorem computes_of_ok {op : AssignOp} {a b c : Int64} (h : op.apply a b = .ok c) :
    op.Computes a b c none := by
  cases op with
  | assign =>
    cases h
    exact .assign
  | add =>
    have hc : c = .ofInt (a.toInt + b.toInt) := by
      rw [Int64.ofInt_add, Int64.ofInt_toInt, Int64.ofInt_toInt]
      exact (Except.ok.inj h).symm
    exact hc ▸ .add
  | sub =>
    have hc : c = .ofInt (a.toInt - b.toInt) := by
      rw [Int64.ofInt_sub, Int64.ofInt_toInt, Int64.ofInt_toInt]
      exact (Except.ok.inj h).symm
    exact hc ▸ .sub
  | mul =>
    have hc : c = .ofInt (a.toInt * b.toInt) := by
      rw [Int64.ofInt_mul, Int64.ofInt_toInt, Int64.ofInt_toInt]
      exact (Except.ok.inj h).symm
    exact hc ▸ .mul
  | div =>
    rw [apply] at h
    split at h
    · cases h
    · next hb =>
      cases h
      exact ofInt_tdiv_toInt a b ▸ .div hb
  | mod =>
    rw [apply] at h
    split at h
    · cases h
    · next hb =>
      cases h
      refine .mod hb (Int64.toInt_mod a b) ?_
      rw [ofInt_tdiv_toInt, div_mul_add_mod]

/-- The one quotient that overflows. -/
example : div.apply .minValue (-1) = .ok .minValue ∧ mod.apply .minValue (-1) = .ok 0 := by
  constructor <;> rfl

theorem computes_of_error {op : AssignOp} {a b : Int64} {fault : ArithmeticFault}
    (h : op.apply a b = .error fault) : op.Computes a b 0 (some fault) := by
  cases op with
  | div =>
    rw [apply] at h
    split at h
    · next hb =>
      cases h
      exact .divByZero hb
    · cases h
  | mod =>
    rw [apply] at h
    split at h
    · next hb =>
      cases h
      exact .modByZero hb
    · cases h
  | _ => cases h

end AssignOp

/-! ## The variable that is written -/

/-- The variable that an assignment writes.  Its id is given, or held by another variable, which is
one of those that are not reserved. -/
inductive Assignment.Targets (a : Assignment) (v : Variables) : Int32 → Prop where
  | given (h : a.source = .constant) : Targets a v a.id
  | held (h : a.source = .variable) {id : Int32} (names : Names (v.held false a.id) id) :
      Targets a v id

theorem Assignment.targets_resolve (a : Assignment) (v : Variables) :
    a.Targets v (v.resolve a.source a.id) := by
  match hsource : a.source with
  | .constant => exact .given hsource
  | .variable => exact .held hsource (names_idOfValue _)

namespace Variables

/-- Nothing but one variable is written, which holds a number then. -/
structure Writes (v v' : Variables) (internal : Bool) (id : Int32) (value : Int64) : Prop where
  entry : (v'.cells internal).find? id = some value
  others : ∀ id', id' ≠ id → (v'.cells internal).find? id' = (v.cells internal).find? id'
  apart : v'.cells (!internal) = v.cells (!internal)
  switches : v'.switches = v.switches
  internalSwitches : v'.internalSwitches = v.internalSwitches
  selfSwitches : v'.selfSwitches = v.selfSwitches

/-- The variables after one was written. -/
def put (v : Variables) (internal : Bool) (id : Int32) (value : Int64) : Variables :=
  if internal then v.setInternal id value else v.set id value

theorem writes_put (v : Variables) (internal : Bool) (id : Int32) (value : Int64) :
    v.Writes (v.put internal id value) internal id value where
  entry := by cases internal <;> exact SortedMap.find?_insert_self _ id value
  others id' h := by cases internal <;> exact SortedMap.find?_insert_of_ne _ h value
  apart := by cases internal <;> rfl
  switches := by cases internal <;> rfl
  internalSwitches := by cases internal <;> rfl
  selfSwitches := by cases internal <;> rfl

end Variables

/-! ## Assignments -/

namespace World

variable (w : World) (platform : Platform) (project : Project)

/-- What an assignment makes of the world and reports. -/
theorem exists_assign_eq (a : Assignment) (eventId : Int32) :
    ∃ value fault,
      w.assign platform project a eventId = (fault, { w with
        memory := w.memory.put a.internal (w.memory.resolve a.source a.id) value
        random := (w.operand platform project eventId a.operand).2 }) ∧
      a.op.Computes (w.memory.held a.internal (w.memory.resolve a.source a.id))
        (w.operand platform project eventId a.operand).1 value fault := by
  have hold : (if a.internal then w.memory.getInternal (w.memory.resolve a.source a.id)
      else w.memory.get (w.memory.resolve a.source a.id)) =
        w.memory.held a.internal (w.memory.resolve a.source a.id) := by
    cases a.internal <;> rfl
  unfold assign
  dsimp only
  rw [hold]
  cases h : a.op.apply (w.memory.held a.internal (w.memory.resolve a.source a.id))
    (w.operand platform project eventId a.operand).1 with
  | ok value => exact ⟨value, none, rfl, AssignOp.computes_of_ok h⟩
  | error fault => exact ⟨0, some fault, rfl, AssignOp.computes_of_error h⟩

/-- An assignment changes nothing of the world but one variable, the one that it targets, and the
random numbers, if its operand is random.  What the variable holds then is computed from what it
held and from what the operand reads, both before anything is written; where nothing can be computed
the variable becomes 0 and the fault is reported. -/
theorem assign_writes (a : Assignment) (eventId : Int32) :
    ∃ memory random id operand value,
      (w.assign platform project a eventId).2 = { w with memory := memory, random := random } ∧
      a.Targets w.memory id ∧ w.memory.Writes memory a.internal id value ∧
      w.Reads platform project eventId a.operand operand random ∧
      a.op.Computes (w.memory.held a.internal id) operand value
        (w.assign platform project a eventId).1 ∧
      (random = w.random ∨ ∃ first last, a.operand = .random first last) := by
  obtain ⟨value, fault, heq, hcomputes⟩ := w.exists_assign_eq platform project a eventId
  have hreads := w.reads_operand platform project eventId a.operand
  refine ⟨_, _, w.memory.resolve a.source a.id, _, value, congrArg (·.2) heq,
    a.targets_resolve w.memory, w.memory.writes_put .., hreads, ?_, hreads.random_eq⟩
  rwa [heq]

/-- A variable that holds its own id is named by itself, written and read: adding what it names to
it doubles it. -/
theorem assign_writes_itself :
    let stage : Stage :=
      ⟨1, 1, .player 0 0 "hero" .playerDefault, [], .empty, [], [], none, false⟩
    let w := World.ofProgress { Progress.fresh stage with memory := .set .unset 7 7 } 1
    let a : Assignment := ⟨7, .variable, .add, .variableRef 7, false⟩
    ∃ memory, w.assign (.start default (.prompt .start)) default a 4 =
      (none, { w with memory := memory }) ∧ w.memory.Writes memory false 7 14 := by
  intro stage w a
  obtain ⟨memory, random, id, operand, value, heq, htargets, hwrites, hreads, hcomputes, hrandom⟩ :=
    w.assign_writes (.start default (.prompt .start)) default a 4
  have hheld : w.memory.held false 7 = 7 := rfl
  have hid : id = 7 := by
    cases htargets with
    | given h => cases h
    | held h names => exact names.eq hheld
  subst hid
  have hoperand : operand = 7 ∧ random = w.random := by
    cases hreads with
    | @variableRef _ target names =>
      obtain rfl : target = 7 := names.eq hheld
      exact ⟨hheld, rfl⟩
  have hvalue : value = 14 ∧ (w.assign (.start default (.prompt .start)) default a 4).1 = none := by
    rw [hheld, hoperand.1] at hcomputes
    generalize (w.assign (.start default (.prompt .start)) default a 4).1 = fault at hcomputes
    cases hcomputes
    exact ⟨rfl, rfl⟩
  refine ⟨memory, Prod.ext hvalue.2 ?_, hvalue.1 ▸ hwrites⟩
  rw [heq, hoperand.2]

end World

end Adventure
