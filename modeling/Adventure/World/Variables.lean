import Adventure.Number.Narrow
import Adventure.Script.Assignment
import Adventure.Text.Quoted
import Adventure.Text.Split

/-!
# Switches and variables

What is not set reads as off or 0.  Self switches belong to one event of one room.  A variable may
hold the id of another variable or of a switch; a number that is no id stands for `unsetId`.
-/

namespace Adventure

open Wire

/-! ## Self switches -/

/-- Names one self switch of one event. -/
structure SelfSwitchKey where
  mapId : Int32
  roomId : Int32
  eventId : Int32
  id : Int32
  deriving DecidableEq, Repr

namespace SelfSwitchKey

/-- The four numbers, in order of weight. -/
def parts (k : SelfSwitchKey) : List Int32 := [k.mapId, k.roomId, k.eventId, k.id]

theorem parts_injective {a b : SelfSwitchKey} (h : a.parts = b.parts) : a = b := by
  cases a; cases b; simp_all [parts]

instance : Ord SelfSwitchKey := ⟨fun a b => compare a.parts b.parts⟩

theorem compare_eq (a b : SelfSwitchKey) : compare a b = compare a.parts b.parts := rfl

instance : Std.TransOrd SelfSwitchKey where
  eq_swap := by simp only [compare_eq]; exact Std.OrientedCmp.eq_swap
  isLE_trans := by simp only [compare_eq]; exact Std.TransCmp.isLE_trans

instance : Std.LawfulEqOrd SelfSwitchKey where
  compare_self := by simp only [compare_eq]; exact Std.ReflCmp.compare_self
  eq_of_compare h :=
    parts_injective (Std.LawfulEqCmp.eq_of_compare (by simpa only [compare_eq] using h))

/-- The numbers, divided by colons. -/
def text (k : SelfSwitchKey) : String :=
  String.intercalate ":" (k.parts.map fun n => toString n.toInt)

/-- Why a text is no key. -/
inductive Fault where
  | fieldCount
  | badField (why : IntegerFault)
  deriving DecidableEq, Repr

def Fault.message (text : String) : Fault → String
  | fieldCount => "self switch key " ++ quote text ++ " needs four fields"
  | badField why => "self switch key " ++ quote text ++ ": " ++ why.message

/-- Reads a field. -/
def readField (field : List Char) : Except Fault Int32 :=
  match readInt32 (String.ofList field) with
  | .ok n => .ok n
  | .error why => .error (.badField why)

/-- Reads a key; of several bad fields the first is reported. -/
def ofText (text : String) : Except Fault SelfSwitchKey :=
  match splitFields ':' text.toList with
  | [a, b, c, d] => do
    return ⟨← readField a, ← readField b, ← readField c, ← readField d⟩
  | _ => .error .fieldCount

end SelfSwitchKey

/-- Keys stand as text in both formats. -/
instance : WireKey SelfSwitchKey where
  encodeKey k := .text k.text
  decodeKey? m v := (decode? m v : Option String).bind fun s => (SelfSwitchKey.ofText s).toOption

/-! ## The store -/

/-- What variables and switches hold; ids that are not there read as 0 and off. -/
structure Variables where
  switches : SortedMap Int32 Bool
  internalSwitches : SortedMap Int32 Bool
  numbers : SortedMap Int32 Int64
  internalNumbers : SortedMap Int32 Int64
  selfSwitches : SortedMap SelfSwitchKey Bool

/-- The id that a number stands for which is no id. -/
def unsetId : Int32 := Int32.minValue

/-- A number used as an id. -/
def idOfValue (value : Int64) : Int32 := (narrow? value).getD unsetId

namespace Variables

def unset : Variables := ⟨.empty, .empty, .empty, .empty, .empty⟩

instance : Inhabited Variables := ⟨unset⟩

def switch (v : Variables) (id : Int32) : Bool := (v.switches.find? id).getD false

def setSwitch (v : Variables) (id : Int32) (value : Bool) : Variables :=
  { v with switches := v.switches.insert id value }

/-- Switches reserved for the host. -/
def internalSwitch (v : Variables) (id : Int32) : Bool := (v.internalSwitches.find? id).getD false

def setInternalSwitch (v : Variables) (id : Int32) (value : Bool) : Variables :=
  { v with internalSwitches := v.internalSwitches.insert id value }

def get (v : Variables) (id : Int32) : Int64 := (v.numbers.find? id).getD 0

def set (v : Variables) (id : Int32) (value : Int64) : Variables :=
  { v with numbers := v.numbers.insert id value }

/-- Variables reserved for the host. -/
def getInternal (v : Variables) (id : Int32) : Int64 := (v.internalNumbers.find? id).getD 0

def setInternal (v : Variables) (id : Int32) (value : Int64) : Variables :=
  { v with internalNumbers := v.internalNumbers.insert id value }

def selfSwitch (v : Variables) (key : SelfSwitchKey) : Bool := (v.selfSwitches.find? key).getD false

def setSelfSwitch (v : Variables) (key : SelfSwitchKey) (value : Bool) : Variables :=
  { v with selfSwitches := v.selfSwitches.insert key value }

/-- The id held by a variable. -/
def idIn (v : Variables) (id : Int32) : Int32 := idOfValue (v.get id)

/-- The variable whose id another variable holds. -/
def getRef (v : Variables) (id : Int32) : Int64 := v.get (v.idIn id)

/-- The switch whose id a variable holds. -/
def switchRef (v : Variables) (id : Int32) : Bool := v.switch (v.idIn id)

/-- A number that is meant literally or names a variable to read. -/
def resolve (v : Variables) (source : Source) (n : Int32) : Int32 :=
  match source with
  | .constant => n
  | .variable => v.idIn n

end Variables

instance : Wire Variables where
  encode v := .record
    [("switches", encode v.switches), ("internalSwitches", encode v.internalSwitches),
      ("variables", encode v.numbers), ("internalVariables", encode v.internalNumbers),
      ("selfSwitches", encode v.selfSwitches)]
  decode? m v := do
    let f ← Fields.read? m
      ["switches", "internalSwitches", "variables", "internalVariables", "selfSwitches"] v
    return {
      switches := ← f.withDefault m "switches" .empty
      internalSwitches := ← f.withDefault m "internalSwitches" .empty
      numbers := ← f.withDefault m "variables" .empty
      internalNumbers := ← f.withDefault m "internalVariables" .empty
      selfSwitches := ← f.withDefault m "selfSwitches" .empty }

/-! ## Arithmetic -/

/-- What an assignment cannot compute. -/
inductive ArithmeticFault where
  | divisionByZero
  | moduloByZero
  deriving DecidableEq, Repr

namespace ArithmeticFault

def message : ArithmeticFault → String
  | divisionByZero => "division by zero"
  | moduloByZero => "modulo by zero"

end ArithmeticFault

/-- Combines two numbers modulo `2^64`.  Division truncates toward zero, and the remainder has the
sign of the dividend. -/
def AssignOp.apply (op : AssignOp) (a b : Int64) : Except ArithmeticFault Int64 :=
  match op with
  | .assign => .ok b
  | .add => .ok (a + b)
  | .sub => .ok (a - b)
  | .mul => .ok (a * b)
  | .div => if b = 0 then .error .divisionByZero else .ok (a / b)
  | .mod => if b = 0 then .error .moduloByZero else .ok (a % b)

end Adventure
