import Adventure.Save.Envelope

/-!
# Permanent variables

Numbered variables that outlive every playthrough.  Slots that were never set read as 0.
-/

namespace Adventure.Save

open Wire

/-- Slots are numbered below this. -/
def permanentLimit : Nat := 1024

structure Permanent where
  slots : List Int64
  deriving DecidableEq, Repr

namespace Permanent

instance : Inhabited Permanent := ⟨⟨[]⟩⟩

def get (p : Permanent) (id : Nat) : Int64 := (p.slots[id]?).getD 0

/-- Sets a slot, making as many as it takes. -/
def set (p : Permanent) (id : Nat) (value : Int64) : Permanent :=
  ⟨(p.slots ++ List.replicate (id + 1 - p.slots.length) 0).set id value⟩

end Permanent

instance : Wire Permanent where
  encode p := .record [("variables", encode p.slots)]
  decode? m v := do
    let f ← Fields.read? m ["variables"] v
    return ⟨← f.withDefault m "variables" []⟩

end Adventure.Save
