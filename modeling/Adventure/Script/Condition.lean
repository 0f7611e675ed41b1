import Adventure.Geometry

/-!
# Conditions

A condition is a question about the state of the world.  Pages are chosen by conditions, scripts
branch on them, and choices are shown or marked by them.  This module says what conditions there
are and how they are written; the world answers them.
-/

namespace Adventure

open Wire

/-- How a variable is compared with a value. -/
inductive Comparison where
  | equal
  | notEqual
  | greaterOrEqual
  | greater
  | lessOrEqual
  | less
  deriving DecidableEq, Repr

namespace Comparison

/-- Whether a comparison of two numbers holds. -/
def holds (c : Comparison) (a b : Int64) : Bool :=
  match c with
  | equal => a == b
  | notEqual => a != b
  | greaterOrEqual => a ≥ b
  | greater => a > b
  | lessOrEqual => a ≤ b
  | less => a < b

end Comparison

instance : Enumeration Comparison where
  cases := [.equal, .notEqual, .greaterOrEqual, .greater, .lessOrEqual, .less]
  label
    | .equal => "=="
    | .notEqual => "!="
    | .greaterOrEqual => ">="
    | .greater => ">"
    | .lessOrEqual => "<="
    | .less => "<"

/-- What the right-hand side of a comparison is: a number, a variable, or the variable whose id
another variable holds. -/
inductive Comparand where
  | constant
  | variable
  | variableRef
  deriving DecidableEq, Repr, Inhabited

instance : Enumeration Comparand where
  cases := [.constant, .variable, .variableRef]
  label
    | .constant => "constant"
    | .variable => "variable"
    | .variableRef => "variable_ref"

/-- What is asked about an item. -/
inductive ItemQuestion where
  | owned
  | notOwned
  | active
  deriving DecidableEq, Repr

instance : Enumeration ItemQuestion where
  cases := [.owned, .notOwned, .active]
  label
    | .owned => "own"
    | .notOwned => "not_own"
    | .active => "active"

/-- A question about the state of the world. -/
inductive Condition where
  | switch (id : Int32) (value : Bool)
  /-- A switch of the event that asks. -/
  | selfSwitch (id : Int32) (value : Bool)
  | variable (id : Int32) (comparison : Comparison) (value : Int64) (comparand : Comparand)
  /-- Item 0 stands for any item. -/
  | item (id : Int32) (question : ItemQuestion)
  /-- Whether an event that the player can run stands on the player's tile. -/
  | eventAtPlayer
  deriving DecidableEq, Repr

namespace Condition

/-- The tags of conditions on the wire. -/
def tags : List String := ["switch", "self_switch", "variable", "item", "special"]

/-- The one value of a special condition. -/
inductive Special where
  | eventExistsAtPlayer

instance : Enumeration Special where
  cases := [.eventExistsAtPlayer]
  label _ := "event_exists_at_player"

end Condition

instance : Wire Condition where
  encode
    | .switch id value => taggedRecord "switch" [("id", encode id), ("value", encode value)]
    | .selfSwitch id value =>
      taggedRecord "self_switch" [("id", encode id), ("value", encode value)]
    | .variable id comparison value comparand => taggedRecord "variable"
        [("id", encode id), ("comp", encode comparison), ("value", encode value),
          ("valueType", encode comparand)]
    | .item id question => taggedRecord "item" [("id", encode id), ("value", encode question)]
    | .eventAtPlayer => taggedRecord "special"
        [("value", encode Condition.Special.eventExistsAtPlayer)]
  decode? m v := do
    let (tag, fields) ← untag? m Condition.tags v
    let m := Medium.held
    match tag with
    | "switch" =>
      let f ← Fields.read? m ["id", "value"] fields
      return .switch (← f.required m "id") (← f.required m "value")
    | "self_switch" =>
      let f ← Fields.read? m ["id", "value"] fields
      return .selfSwitch (← f.required m "id") (← f.required m "value")
    | "variable" =>
      let f ← Fields.read? m ["id", "comp", "value", "valueType"] fields
      return .variable (← f.required m "id") (← f.required m "comp") (← f.required m "value")
        (← f.withDefault m "valueType" .constant)
    | "item" =>
      let f ← Fields.read? m ["id", "value"] fields
      return .item (← f.withDefault m "id" 0) (← f.required m "value")
    | _ =>
      let f ← Fields.read? m ["value"] fields
      let _ ← (f.required m "value" : Option Condition.Special)
      return .eventAtPlayer

/-- When a choice is shown, and when it is marked as picked before. -/
structure ChoiceCondition where
  visible : Option Condition
  checked : Option Condition
  deriving DecidableEq, Repr, Inhabited

instance : Wire ChoiceCondition where
  encode c :=
    .record (unlessNull "visible" (encode c.visible) ++ unlessNull "checked" (encode c.checked))
  decode? m v := do
    let f ← Fields.read? m ["visible", "checked"] v
    return {
      visible := ← f.withDefault m "visible" none
      checked := ← f.withDefault m "checked" none }

end Adventure
