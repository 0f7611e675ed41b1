import Adventure.Project.Basic

/-!
# Inventory

The items the player owns, in the order they were added, and three selections among them.  0 stands
for no item.
-/

namespace Adventure

open Wire

/-- The owned items and what is selected. -/
structure Inventory where
  items : List Int32
  activeItem : Int32
  /-- The item being used. -/
  eventItem : Int32
  /-- The second item of a combination; it may be one that is not owned. -/
  combineItem : Int32
  deriving DecidableEq, Repr

namespace Inventory

def empty : Inventory := ⟨[], 0, 0, 0⟩

instance : Inhabited Inventory := ⟨empty⟩

def owns (inv : Inventory) (id : Int32) : Bool := inv.items.contains id

/-- Undoes every selection of an item. -/
def deselect (inv : Inventory) (id : Int32) : Inventory :=
  let cleared (selected : Int32) : Int32 := if selected = id then 0 else selected
  { inv with
    activeItem := cleared inv.activeItem
    eventItem := cleared inv.eventItem
    combineItem := cleared inv.combineItem }

/-- Adds an item at the end; says whether it was new. -/
def add (inv : Inventory) (id : Int32) : Bool × Inventory :=
  if id = 0 || inv.owns id then (false, inv) else (true, { inv with items := inv.items ++ [id] })

/-- Takes an item away; says whether it was there. -/
def remove (inv : Inventory) (id : Int32) : Bool × Inventory :=
  if inv.owns id then (true, { inv with items := inv.items.erase id }.deselect id) else (false, inv)

/-- Takes all of an item away, if it is owned and another one than `id`. -/
def discard (id : Int32) (inv : Inventory) (old : Int32) : Inventory :=
  if old ≠ id && inv.owns old then
    { inv with items := inv.items.filter (· ≠ old) }.deselect old
  else inv

/-- Puts an item in the place of others: it takes the place of the first of them that is owned, or
the end where none is.  An item that is owned already keeps its place. -/
def replace (inv : Inventory) (id : Int32) (replaced : List Int32) : Inventory :=
  let slot := inv.items.findIdx? (replaced.contains ·)
  let kept := replaced.foldl (discard id) inv
  if kept.owns id then kept
  else
    match slot with
    | some i => { kept with items := kept.items.insertIdx (min i kept.items.length) id }
    | none => { kept with items := kept.items ++ [id] }

/-- Selects an owned item; says whether it is owned. -/
def activate (inv : Inventory) (id : Int32) : Bool × Inventory :=
  if inv.owns id then (true, { inv with activeItem := id }) else (false, inv)

def deactivate (inv : Inventory) : Inventory := { inv with activeItem := 0 }

def setEventItem (inv : Inventory) (id : Int32) : Inventory := { inv with eventItem := id }

def setCombineItem (inv : Inventory) (id : Int32) : Inventory := { inv with combineItem := id }

/-- The number of owned items in a group; group 0 counts every item. -/
def ownedInGroup (inv : Inventory) (project : Project) (group : Int32) : Nat :=
  inv.items.countP fun id =>
    group == 0 || (project.item? id).any fun item => item.group == group

end Inventory

instance : Wire Inventory where
  encode inv := .record
    [("items", encode inv.items), ("activeItem", encode inv.activeItem),
      ("eventItem", encode inv.eventItem), ("combineItem", encode inv.combineItem)]
  decode? m v := do
    let f ← Fields.read? m ["items", "activeItem", "eventItem", "combineItem"] v
    return {
      items := ← f.withDefault m "items" []
      activeItem := ← f.withDefault m "activeItem" 0
      eventItem := ← f.withDefault m "eventItem" 0
      combineItem := ← f.withDefault m "combineItem" 0 }

end Adventure
